import IncludeTidy.Text.Search

namespace IncludeTidy

namespace Json

-- A number is kept as it is written. A text is missing where its escapes name half of a surrogate
-- pair, which no text contains.
inductive Scalar where
  | null
  | bool (value : Bool)
  | number (literal : String)
  | string (text? : Option String)
deriving DecidableEq, Repr

end Json

-- Members keep their order, and may repeat a name.
inductive Json where
  | scalar (value : Json.Scalar)
  | array (items : List Json)
  | object (members : List (Option String × Json))
deriving Repr

namespace Json

def text (value : String) : Json := .scalar (.string (some value))

def natural (value : Nat) : Json := .scalar (.number (String.ofList (Nat.toDigits 10 value)))

def ofMembers (members : List (String × Json)) : Json :=
  .object (members.map fun (name, value) => (some name, value))

def text? : Json → Option String
  | .scalar (.string text?) => text?
  | _ => none

def natural? (bound : Nat) : Json → Option Nat
  | .scalar (.number literal) =>
    let digits := literal.toList
    if digits.all Char.isDigit && Nat.ofDigitChars 10 digits 0 ≤ bound then
      some (Nat.ofDigitChars 10 digits 0)
    else none
  | _ => none

def items? : Json → Option (List Json)
  | .array items => some items
  | _ => none

def list? (item? : Json → Option α) (value : Json) : Option (List α) :=
  value.items?.bind (List.mapM item?)

-- The values of named fields, in the order of the names, with a gap for each that is missing. An
-- object may hold other members too, under names that are texts, but must not repeat a field; an
-- array gives the fields in order and may leave out the last ones.
def fields? (names : List String) : Json → Option (List (Option Json))
  | .object members =>
    if members.all fun member => member.1.isSome then
      names.mapM fun name =>
        match members.filter fun member => member.1 = some name with
        | [] => some none
        | [(_, value)] => some (some value)
        | _ => none
    else none
  | .array items =>
    if items.length ≤ names.length then
      some (items.map some ++ List.replicate (names.length - items.length) none)
    else none
  | .scalar _ => none

def orElse (default : α) (read? : Json → Option α) : Option Json → Option α
  | some value => read? value
  | none => some default

end Json

end IncludeTidy

namespace IncludeTidy.Json

def hexDigit (n : Nat) : Char := Nat.digitChar n

def escape (c : Char) : List Char :=
  match c with
  | '"' => ['\\', '"']
  | '\\' => ['\\', '\\']
  | '\x08' => ['\\', 'b']
  | '\x0c' => ['\\', 'f']
  | '\n' => ['\\', 'n']
  | '\r' => ['\\', 'r']
  | '\t' => ['\\', 't']
  | c =>
    if c.toNat < 0x20 then ['\\', 'u', '0', '0', hexDigit (c.toNat / 16), hexDigit (c.toNat % 16)]
    else [c]

def quoted (text : List Char) : List Char := '"' :: text.flatMap escape ++ ['"']

-- A character that stands for itself, or a number that an escape names.
inductive CodeUnit where
  | char (c : Char)
  | code (n : Nat)
deriving DecidableEq, Repr

def shortEscape? : Char → Option Char
  | '"' => some '"'
  | '\\' => some '\\'
  | '/' => some '/'
  | 'b' => some '\x08'
  | 'f' => some '\x0c'
  | 'n' => some '\n'
  | 'r' => some '\r'
  | 't' => some '\t'
  | _ => none

def units? : List Char → Option (List CodeUnit × List Char)
  | [] => none
  | '"' :: rest => some ([], rest)
  | '\\' :: 'u' :: a :: b :: c :: d :: rest => do
    let n ← Text.hexNumber? [a, b, c, d]
    let (units, rest) ← units? rest
    return (.code n :: units, rest)
  | '\\' :: e :: rest => do
    let c ← shortEscape? e
    let (units, rest) ← units? rest
    return (.char c :: units, rest)
  | c :: rest =>
    if c.toNat < 0x20 ∨ c = '\\' then none
    else (units? rest).map fun (units, rest) => (.char c :: units, rest)

-- The text that units stand for. A code above the basic plane takes two escapes, a high half and
-- a low half; a half without the other stands for nothing.
def unitsText? : List CodeUnit → Option (List Char)
  | [] => some []
  | .char c :: rest => (unitsText? rest).map (c :: ·)
  | .code high :: .code low :: rest =>
    if 0xD800 ≤ high ∧ high < 0xDC00 ∧ 0xDC00 ≤ low ∧ low < 0xE000 then
      (unitsText? rest).map (Char.ofNat (0x10000 + (high - 0xD800) * 0x400 + (low - 0xDC00)) :: ·)
    else if 0xD800 ≤ high ∧ high < 0xE000 then none
    else (unitsText? (.code low :: rest)).map (Char.ofNat high :: ·)
  | .code n :: rest =>
    if 0xD800 ≤ n ∧ n < 0xE000 then none else (unitsText? rest).map (Char.ofNat n :: ·)

-- What is printed in front of a line at some depth, and behind a colon.
structure Spacing where
  line : Nat → List Char
  colon : List Char

def Spacing.compact : Spacing := ⟨fun _ => [], []⟩

def Spacing.lines : Spacing := ⟨fun depth => '\n' :: List.replicate (2 * depth) ' ', [' ']⟩

def quotedText (text? : Option String) : List Char := quoted (text?.getD "").toList

def Scalar.print : Scalar → List Char
  | .null => "null".toList
  | .bool true => "true".toList
  | .bool false => "false".toList
  | .number literal => literal.toList
  | .string text? => quotedText text?

mutual
def print (spacing : Spacing) (depth : Nat) : Json → List Char
  | .scalar value => value.print
  | .array [] => ['[', ']']
  | .array (item :: items) =>
    '[' :: spacing.line (depth + 1) ++ print spacing (depth + 1) item ++
      printItems spacing (depth + 1) items ++ spacing.line depth ++ [']']
  | .object [] => ['\x7b', '\x7d']
  | .object ((name?, value) :: members) =>
    '\x7b' :: spacing.line (depth + 1) ++ quotedText name? ++ ':' :: spacing.colon ++
      print spacing (depth + 1) value ++ printMembers spacing (depth + 1) members ++
      spacing.line depth ++ ['\x7d']
def printItems (spacing : Spacing) (depth : Nat) : List Json → List Char
  | [] => []
  | item :: items =>
    ',' :: spacing.line depth ++ print spacing depth item ++ printItems spacing depth items
def printMembers (spacing : Spacing) (depth : Nat) : List (Option String × Json) → List Char
  | [] => []
  | (name?, value) :: members =>
    ',' :: spacing.line depth ++ quotedText name? ++ ':' :: spacing.colon ++
      print spacing depth value ++ printMembers spacing depth members
end

def printed (spacing : Spacing) (value : Json) : String := String.ofList (print spacing 0 value)

end IncludeTidy.Json
