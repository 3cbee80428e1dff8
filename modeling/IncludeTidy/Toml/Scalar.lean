import IncludeTidy.Text.Search
import IncludeTidy.Toml.Basic

namespace IncludeTidy.Toml

open Text (Reader)

def figures? (count : Nat) (cs : List Char) : Option (Nat × List Char) :=
  let digits := cs.take count
  if digits.length = count && digits.all Char.isDigit then
    some (Nat.ofDigitChars 10 digits 0, cs.drop count)
  else none

def isLeapYear (year : Nat) : Bool := year % 4 = 0 && (year % 100 != 0 || year % 400 = 0)

def daysInMonth (year month : Nat) : Nat :=
  match month with
  | 2 => if isLeapYear year then 29 else 28
  | 4 | 6 | 9 | 11 => 30
  | _ => 31

def afterDate? (cs : List Char) : Option (List Char) :=
  match figures? 4 cs with
  | some (year, '-' :: cs) =>
    match figures? 2 cs with
    | some (month, '-' :: cs) =>
      match figures? 2 cs with
      | some (day, cs) =>
        if 1 ≤ month ∧ month ≤ 12 ∧ 1 ≤ day ∧ day ≤ daysInMonth year month then some cs else none
      | none => none
    | _ => none
  | _ => none

def afterMinutes? (cs : List Char) : Option (List Char) :=
  match figures? 2 cs with
  | some (hour, ':' :: cs) =>
    match figures? 2 cs with
    | some (minute, cs) => if hour ≤ 23 ∧ minute ≤ 59 then some cs else none
    | none => none
  | _ => none

-- A minute may have a leap second.
def afterSeconds? : List Char → Option (List Char)
  | ':' :: cs =>
    match figures? 2 cs with
    | some (second, cs) =>
      if second ≤ 60 then
        match cs with
        | '.' :: cs => if cs.head?.any Char.isDigit then some (cs.dropWhile Char.isDigit) else none
        | cs => some cs
      else none
    | none => none
  | cs => some cs

def afterTime? (cs : List Char) : Option (List Char) := (afterMinutes? cs).bind afterSeconds?

def isOffset : List Char → Bool
  | [] => true
  | ['Z'] => true
  | ['z'] => true
  | '+' :: cs => afterMinutes? cs = some []
  | '-' :: cs => afterMinutes? cs = some []
  | _ => false

-- A date, a time of day, or both with an offset or without one.
def isMoment (cs : List Char) : Bool :=
  afterTime? cs = some [] ||
    match afterDate? cs with
    | none => false
    | some [] => true
    | some (c :: cs) => (c = 'T' || c = 't' || c = ' ') && (afterTime? cs).any isOffset

def isBlank (c : Char) : Bool := c = ' ' || c = '\t'

def isPlain (c : Char) : Bool := c = '\t' || (0x20 ≤ c.toNat && c.toNat != 0x7F)

def afterLineEnd? : List Char → Option (List Char)
  | '\n' :: rest => some rest
  | '\r' :: '\n' :: rest => some rest
  | _ => none

def coded? (digits : Nat) (cs : List Char) : Option (Char × List Char) :=
  if (cs.take digits).length = digits then
    match Text.hexNumber? (cs.take digits) with
    | some code => if code.isValidChar then some (Char.ofNat code, cs.drop digits) else none
    | none => none
  else none

def escaped? : Reader Char
  | 'b' :: rest => some ('\x08', rest)
  | 't' :: rest => some ('\t', rest)
  | 'n' :: rest => some ('\n', rest)
  | 'f' :: rest => some ('\x0c', rest)
  | 'r' :: rest => some ('\r', rest)
  | 'e' :: rest => some ('\x1b', rest)
  | '"' :: rest => some ('"', rest)
  | '\\' :: rest => some ('\\', rest)
  | 'x' :: rest => coded? 2 rest
  | 'u' :: rest => coded? 4 rest
  | 'U' :: rest => coded? 8 rest
  | _ => none

-- How a text is quoted.
structure Quoting where
  quote : Char
  escapes : Bool
  -- The text may run over lines; then three quotes stand at each end.
  manyLines : Bool

def afterEmptyLines : List Char → List Char
  | [] => []
  | '\r' :: '\n' :: rest => afterEmptyLines rest
  | c :: rest => if isBlank c || c = '\n' then afterEmptyLines rest else c :: rest

def continued? (rest : List Char) : Option (List Char) :=
  (afterLineEnd? (rest.dropWhile isBlank)).map afterEmptyLines

-- A piece of the text, or the end. Over several lines, one quote or two may stand right before the
-- end.
def Quoting.piece? (quoting : Quoting) : Reader (Option (List Char))
  | [] => none
  | c :: rest =>
    if c = quoting.quote then
      if quoting.manyLines then
        match (rest.takeWhile (· = c)).length with
        | 0 | 1 | 3 | 4 => some (some [c], rest)
        | 2 => some (none, rest.drop 2)
        | _ => none
      else some (none, rest)
    else if quoting.escapes && c = '\\' then
      match if quoting.manyLines then continued? rest else none with
      | some below => some (some [], below)
      | none => (escaped? rest).map fun (c, rest) => (some [c], rest)
    else if isPlain c then some (some [c], rest)
    else if quoting.manyLines then
      (afterLineEnd? (c :: rest)).map fun below =>
        (some (if c = '\r' then [c, '\n'] else [c]), below)
    else none

def Quoting.body? (quoting : Quoting) : Reader String :=
  fun cs => (Text.repeated quoting.piece? cs).map fun (pieces, rest) =>
    (String.ofList pieces.flatten, rest)

def line? : Reader String
  | '"' :: rest => Quoting.body? ⟨'"', true, false⟩ rest
  | '\x27' :: rest => Quoting.body? ⟨'\x27', false, false⟩ rest
  | _ => none

def quoted? : Reader String
  | '"' :: '"' :: '"' :: rest => Quoting.body? ⟨'"', true, true⟩ ((afterLineEnd? rest).getD rest)
  | '\x27' :: '\x27' :: '\x27' :: rest =>
    Quoting.body? ⟨'\x27', false, true⟩ ((afterLineEnd? rest).getD rest)
  | cs => line? cs

def afterSign? : List Char → Option (List Char)
  | '+' :: rest => some rest
  | '-' :: rest => some rest
  | _ => none

def unsigned (cs : List Char) : List Char := (afterSign? cs).getD cs

def isNegative (cs : List Char) : Bool := cs.head? = some '-'

def isGrouped (isDigit : Char → Bool) : List Char → Bool
  | [] => true
  | '_' :: _ => false
  | c :: '_' :: rest => isDigit c && rest.head?.any isDigit && isGrouped isDigit rest
  | _ :: rest => isGrouped isDigit rest

def integerValue? (base : Nat) (cs : List Char) : Option Int :=
  let digits := (unsigned cs).filter (· != '_')
  if digits.isEmpty then none
  else (Text.number? base digits).map fun value => if isNegative cs then -value else value

def marked? (base : Nat) (cs : List Char) : Option Scalar :=
  let isDigit := Text.isDigitIn base
  if cs.all (fun c => c = '_' || isDigit c) && isGrouped isDigit cs then
    some (.integer (integerValue? base cs))
  else none

-- An integer in base ten: digits, and anything without a space after them if it begins with an
-- underscore. The letters of base sixteen may stand beside an underscore too.
def decimalInteger? (word : List Char) : Option Scalar :=
  let cs := unsigned word
  let further := cs.dropWhile Char.isDigit
  let isWhole := further.isEmpty || (further.head? = some '_' && !further.contains ' ')
  let hasZeros := cs.head? = some '0' && cs.length != 1
  if !cs.isEmpty && isWhole && !hasZeros && isGrouped (Text.isDigitIn 16) cs then
    some (.integer (integerValue? 10 word))
  else none

def digits? : Reader (List Char) := fun cs =>
  let isPart := fun (c : Char) => c = '_' || c.isDigit
  let digits := (cs.takeWhile isPart).filter (· != '_')
  if digits.isEmpty then none else some (digits, cs.dropWhile isPart)

def fraction? : Reader (List Char)
  | '.' :: cs => digits? cs
  | cs => some ([], cs)

def isExponentMark (c : Char) : Bool := c = 'e' || c = 'E'

def exponent? : Reader Int
  | [] => some (0, [])
  | c :: cs =>
    if isExponentMark c then do
      let (digits, rest) ← digits? (unsigned cs)
      let value ← Text.number? 10 digits
      return (if isNegative cs then -value else value, rest)
    else some (0, c :: cs)

-- Floats are read strictly, unlike integers.
def decimal? (word : List Char) : Option Decimal := do
  let cs := unsigned word
  let (whole, rest) ← digits? cs
  let (fraction, rest) ← fraction? rest
  let (exponent, rest) ← exponent? rest
  let hasZeros := cs.head? = some '0' && whole.length != 1
  if rest.isEmpty && !hasZeros && isGrouped Char.isDigit cs then
    let digits ← Text.number? 10 (whole ++ fraction)
    return ⟨isNegative word, digits, exponent - fraction.length⟩
  else none

def isSpecial (word : List Char) : Bool :=
  unsigned word = "inf".toList || unsigned word = "nan".toList

def Scalar.number? : (word : List Char) → Option Scalar
  | '0' :: 'x' :: rest => marked? 16 rest
  | '0' :: 'o' :: rest => marked? 8 rest
  | '0' :: 'b' :: rest => marked? 2 rest
  | word =>
    if isSpecial word then some .special
    else if word.any fun c => c = '.' || isExponentMark c then (decimal? word).map .float
    else decimalInteger? word

end IncludeTidy.Toml
