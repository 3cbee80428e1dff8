namespace IncludeTidy.Text

-- The pieces that a stop ends, and what stands behind the last stop.
def terminated [DecidableEq α] (stop : α) (items : List α) : List (List α) × List α :=
  items.foldr (fun item (complete, unfinished) =>
    if item = stop then ([] :: complete, unfinished)
    else match complete with
      | [] => ([], item :: unfinished)
      | first :: others => ((item :: first) :: others, unfinished)) ([], [])

def withoutLast [DecidableEq α] (item : α) (items : List α) : List α :=
  if items.getLast? = some item then items.dropLast else items

-- A line feed ends a line, and one carriage return in front of it belongs to the ending. The last
-- line may lack its ending.
def lines (text : String) : List String :=
  let (complete, unfinished) := terminated '\n' text.toList
  complete.map (fun line => String.ofList (withoutLast '\r' line)) ++
    if unfinished.isEmpty then [] else [String.ofList unfinished]

inductive ReadFault where
  | notText
  | device (reason : String)
deriving DecidableEq, Repr

def ReadFault.message : ReadFault → String
  | .notText => "stream did not contain valid UTF-8"
  | .device reason => reason

structure ByteSource where
  bytes : List UInt8
  failure? : Option String
deriving DecidableEq, Repr

abbrev LineRead := Except ReadFault String

def decode (bytes : List UInt8) : LineRead :=
  match String.fromUTF8? bytes.toByteArray with
  | some line => .ok line
  | none => .error .notText

-- Lines are decoded one by one, so a line that is no UTF-8 leaves the lines before it readable. A
-- failing source loses its unfinished line, whatever bytes that line has.
def ByteSource.reads (source : ByteSource) : List LineRead :=
  let (complete, unfinished) := terminated 10 source.bytes
  complete.map (fun line => decode (withoutLast 13 line)) ++
    match source.failure? with
    | some reason => [.error (.device reason)]
    | none => if unfinished.isEmpty then [] else [decode unfinished]

end IncludeTidy.Text
