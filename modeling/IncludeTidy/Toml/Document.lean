import IncludeTidy.Text.Search
import IncludeTidy.Toml.Basic
import IncludeTidy.Toml.Scalar

namespace IncludeTidy.Toml

open Text (Reader)

-- Inside brackets and braces, blanks, comments and line ends may stand between the parts.
def afterGaps (cs : List Char) : List Char :=
  match cs with
  | [] => []
  | '#' :: rest => afterGaps (rest.dropWhile isPlain)
  | '\r' :: '\n' :: rest => afterGaps rest
  | c :: rest => if isBlank c || c = '\n' then afterGaps rest else c :: rest
termination_by cs.length
decreasing_by
  · exact Nat.lt_succ_of_le (List.dropWhile_suffix isPlain).length_le
  · simp +arith
  · simp

def isNameChar (c : Char) : Bool := c.isAlphanum || c = '_' || c = '-'

def name? (cs : List Char) : Option (String × List Char) :=
  match cs.takeWhile isNameChar with
  | [] => line? cs
  | name => some (String.ofList name, cs.dropWhile isNameChar)

def nextName? (cs : List Char) : Option (Option String × List Char) :=
  match cs.dropWhile isBlank with
  | '.' :: rest => (name? (rest.dropWhile isBlank)).map fun (name, rest) => (some name, rest)
  | rest => some (none, rest)

def deepest : Nat := 80

def Key.ofNames? (names : List String) : Option Key :=
  if names.length ≤ deepest then names.getLast?.map fun name => ⟨names.dropLast, name⟩ else none

def key? : Reader Key := fun cs => do
  let (first, cs) ← name? cs
  let (others, cs) ← Text.repeated nextName? cs
  let key ← Key.ofNames? (first :: others)
  return (key, cs)

def isWordChar (c : Char) : Bool :=
  !(isBlank c || ['\n', '\r', '#', '=', ',', '[', ']', '\x7b', '\x7d'].contains c)

def resumes (cs : List Char) : Bool :=
  (cs.dropWhile isBlank).head?.any fun c =>
    isWordChar c && c != '"' && c != '\x27' && c != '.'

def word : List Char → List Char × List Char
  | [] => ([], [])
  | c :: rest =>
    if isWordChar c || (isBlank c && resumes rest) then
      let (others, rest) := word rest
      (c :: others, rest)
    else ([], c :: rest)

def Scalar.ofWord? (word : List Char) : Option Scalar :=
  if word = "true".toList then some (.boolean true)
  else if word = "false".toList then some (.boolean false)
  else if isMoment word then some (.moment (String.ofList word))
  else Scalar.number? word

def scalar? (cs : List Char) : Option (Scalar × List Char) :=
  match cs with
  | '"' :: _ | '\x27' :: _ => (quoted? cs).map fun (text, rest) => (.string text, rest)
  | _ =>
    let (word, rest) := word cs
    (Scalar.ofWord? word).map fun value => (value, rest)

def nextItem? (item? : Reader α) (close : Char) : Reader (Option α) := fun cs =>
  let cs := afterGaps cs
  if cs.head? = some close then some (none, cs.tail)
  else do
    let (item, cs) ← item? cs
    let cs := afterGaps cs
    if cs.head? = some ',' then return (some item, cs.tail)
    else if cs.head? = some close then return (some item, cs)
    else none

def pair? (afterGap : List Char → List Char) (value? : Reader Toml) : Reader (Key × Toml) :=
  fun cs => do
    let (key, cs) ← key? cs
    let cs ← Text.after? ['='] (afterGap cs)
    let (value, cs) ← value? (afterGap cs)
    return ((key, value), cs)

def Members.ofPairs? (pairs : List (Key × Toml)) : Option Members :=
  pairs.foldlM (fun members (key, value) => Members.define? members key value) []

def valueWithin? : (depth : Nat) → Reader Toml
  | depth + 1, '[' :: rest =>
    (Text.repeated (nextItem? (valueWithin? depth) ']') rest).map fun (items, rest) =>
      (.array .literal items, rest)
  | depth + 1, '\x7b' :: rest => do
    let (pairs, rest) ← Text.repeated (nextItem? (pair? afterGaps (valueWithin? depth)) '\x7d') rest
    let members ← Members.ofPairs? pairs
    return (.table .literal members, rest)
  | _, cs => (scalar? cs).map fun (value, rest) => (.scalar value, rest)

def value? : Reader Toml := valueWithin? deepest

inductive Statement where
  | pair (key : Key) (value : Toml)
  | table (key : Key)
  | arrayTable (key : Key)
deriving Repr

def header? (close : List Char) : Reader Key := fun cs => do
  let (key, cs) ← key? (cs.dropWhile isBlank)
  let cs ← Text.after? close cs
  return (key, cs)

def statement? : Reader Statement
  | '[' :: '[' :: rest => (header? [']', ']'] rest).map fun (key, rest) => (.arrayTable key, rest)
  | '[' :: rest => (header? [']'] rest).map fun (key, rest) => (.table key, rest)
  | cs =>
    (pair? (List.dropWhile isBlank) value? cs).map fun ((key, value), rest) =>
      (.pair key value, rest)

def afterLine? (cs : List Char) : Option (List Char) :=
  let rest := match cs.dropWhile isBlank with
    | '#' :: comment => comment.dropWhile isPlain
    | rest => rest
  if rest.isEmpty then some [] else afterLineEnd? rest

def nextStatement? : Reader (Option Statement) := fun cs =>
  let cs := afterGaps cs
  if cs.isEmpty then some (none, [])
  else do
    let (statement, cs) ← statement? cs
    let cs ← afterLine? cs
    return (some statement, cs)

-- What is read of a document, and the table that the next pairs go to.
structure Draft where
  members : Members
  here : List String

def Draft.empty : Draft := ⟨[], []⟩

def Draft.take (draft : Draft) : Statement → Option Draft
  | .pair key value =>
    (Members.editAt .implied (fun _ inner => inner.define? key value) draft.here .header
      draft.members).map fun members => { draft with members }
  | .table key =>
    (Members.editAt .implied (fun _ inner => inner.openTable? key.name) key.path .header
      draft.members).map fun members => ⟨members, key.path ++ [key.name]⟩
  | .arrayTable key =>
    (Members.editAt .implied (fun _ inner => inner.appendTable? key.name) key.path .header
      draft.members).map fun members => ⟨members, key.path ++ [key.name]⟩

def ofStatements? (statements : List Statement) : Option Toml :=
  (statements.foldlM Draft.take Draft.empty).map fun draft => .table .header draft.members

-- Reads a document. A byte order mark may stand in front of it.
def parse? (text : String) : Option Toml :=
  let cs := match text.toList with
    | '\ufeff' :: rest => rest
    | cs => cs
  (Text.repeated nextStatement? cs).bind fun (statements, _) => ofStatements? statements

end IncludeTidy.Toml
