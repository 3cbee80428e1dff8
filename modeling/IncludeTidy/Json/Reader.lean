import IncludeTidy.Json.Basic
import IncludeTidy.Text.Search

namespace IncludeTidy.Json

inductive Token where
  | openArray
  | closeArray
  | openObject
  | closeObject
  | comma
  | colon
  | scalar (value : Scalar)
deriving DecidableEq, Repr

def isGap (c : Char) : Bool := c = ' ' || c = '\t' || c = '\n' || c = '\r'

def digits? (cs : List Char) : Option (List Char × List Char) :=
  match cs.takeWhile Char.isDigit with
  | [] => none
  | digits => some (digits, cs.dropWhile Char.isDigit)

def wholePart? : List Char → Option (List Char × List Char)
  | '0' :: rest => some (['0'], rest)
  | cs => digits? cs

def fraction? : List Char → Option (List Char × List Char)
  | '.' :: rest => (digits? rest).map fun (digits, rest) => ('.' :: digits, rest)
  | cs => some ([], cs)

def sign : List Char → List Char × List Char
  | '+' :: rest => (['+'], rest)
  | '-' :: rest => (['-'], rest)
  | cs => ([], cs)

def exponent? : List Char → Option (List Char × List Char)
  | [] => some ([], [])
  | c :: cs =>
    if c = 'e' ∨ c = 'E' then
      let (signed, rest) := sign cs
      (digits? rest).map fun (digits, rest) => (c :: signed ++ digits, rest)
    else some ([], c :: cs)

def number? (cs : List Char) : Option (List Char × List Char) := do
  let (minus, cs) := match cs with
    | '-' :: rest => (['-'], rest)
    | _ => ([], cs)
  let (whole, cs) ← wholePart? cs
  let (fraction, cs) ← fraction? cs
  let (exponent, cs) ← exponent? cs
  return (minus ++ whole ++ fraction ++ exponent, cs)

def word? (cs : List Char) : Option (Scalar × List Char) :=
  [("null", Scalar.null), ("true", .bool true), ("false", .bool false)].findSome?
    fun (word, value) => (Text.after? word.toList cs).map (value, ·)

def token? : List Char → Option (Token × List Char)
  | [] => none
  | '[' :: rest => some (.openArray, rest)
  | ']' :: rest => some (.closeArray, rest)
  | '\x7b' :: rest => some (.openObject, rest)
  | '\x7d' :: rest => some (.closeObject, rest)
  | ',' :: rest => some (.comma, rest)
  | ':' :: rest => some (.colon, rest)
  | '"' :: rest =>
    (units? rest).map fun (units, rest) =>
      (.scalar (.string ((unitsText? units).map String.ofList)), rest)
  | cs =>
    match word? cs with
    | some (value, rest) => some (.scalar value, rest)
    | none =>
      (number? cs).map fun (literal, rest) => (.scalar (.number (String.ofList literal)), rest)

-- A token is never empty, so the length of the text is fuel enough.
def tokensWithin? : Nat → List Char → Option (List Token)
  | fuel, cs =>
    match cs.dropWhile isGap with
    | [] => some []
    | cs =>
      match fuel with
      | 0 => none
      | fuel + 1 => do
        let (token, rest) ← token? cs
        let tokens ← tokensWithin? fuel rest
        return token :: tokens

def tokens? (cs : List Char) : Option (List Token) := tokensWithin? cs.length cs

-- A value that is still open, with what is read of it.
inductive Frame where
  | array (items : List Json)
  | object (members : List (Option String × Json)) (name? : Option String)

inductive Phase where
  | value
  | arrayStart
  | afterItem (items : List Json)
  | objectStart
  | name (members : List (Option String × Json))
  | colon (members : List (Option String × Json)) (name? : Option String)
  | afterMember (members : List (Option String × Json))
  | finished (value : Json)

-- Where the reader is: what may come next, and the values around it, the innermost first.
structure Position where
  phase : Phase
  around : List Frame

def Position.complete (value : Json) : List Frame → Position
  | [] => ⟨.finished value, []⟩
  | .array items :: around => ⟨.afterItem (items ++ [value]), around⟩
  | .object members name? :: around => ⟨.afterMember (members ++ [(name?, value)]), around⟩

def Position.startValue (around : List Frame) : Token → Option Position
  | .scalar value => some (.complete (.scalar value) around)
  | .openArray => some ⟨.arrayStart, around⟩
  | .openObject => some ⟨.objectStart, around⟩
  | _ => none

def Position.take (position : Position) (token : Token) : Option Position :=
  let around := position.around
  match position.phase, token with
  | .value, token => startValue around token
  | .arrayStart, .closeArray => some (complete (.array []) around)
  | .arrayStart, token => startValue (.array [] :: around) token
  | .afterItem items, .comma => some ⟨.value, .array items :: around⟩
  | .afterItem items, .closeArray => some (complete (.array items) around)
  | .objectStart, .closeObject => some (complete (.object []) around)
  | .objectStart, .scalar (.string name?) => some ⟨.colon [] name?, around⟩
  | .name members, .scalar (.string name?) => some ⟨.colon members name?, around⟩
  | .colon members name?, .colon => some ⟨.value, .object members name? :: around⟩
  | .afterMember members, .comma => some ⟨.name members, around⟩
  | .afterMember members, .closeObject => some (complete (.object members) around)
  | _, _ => none

def Position.takeAll (position : Position) (tokens : List Token) : Option Position :=
  tokens.foldlM Position.take position

def ofTokens? (tokens : List Token) : Option Json :=
  match Position.takeAll ⟨.value, []⟩ tokens with
  | some ⟨.finished value, _⟩ => some value
  | _ => none

def parse? (text : String) : Option Json := (tokens? text.toList).bind ofTokens?

end IncludeTidy.Json
