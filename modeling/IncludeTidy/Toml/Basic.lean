namespace IncludeTidy

namespace Toml

structure Decimal where
  negative : Bool
  digits : Nat
  exponent : Int
deriving DecidableEq, Repr

inductive Scalar where
  | string (text : String)
  -- The value is missing if the integer is written with anything but digits.
  | integer (value? : Option Int)
  | float (value : Decimal)
  | special
  | boolean (value : Bool)
  | moment (literal : String)
deriving DecidableEq, Repr

-- How a table or an array came about decides what may still be added to it.
inductive Origin where
  -- A header names something inside it.
  | implied
  -- A dotted key names something inside it.
  | dotted
  | header
  | literal
deriving DecidableEq, Repr

end Toml

-- The items of an array that headers opened are tables that headers opened.
inductive Toml where
  | scalar (value : Toml.Scalar)
  | array (origin : Toml.Origin) (items : List Toml)
  | table (origin : Toml.Origin) (members : List (String × Toml))
deriving Repr

namespace Toml

def text? : Toml → Option String
  | .scalar (.string text) => some text
  | _ => none

def boolean? : Toml → Option Bool
  | .scalar (.boolean value) => some value
  | _ => none

def list? (item? : Toml → Option α) : Toml → Option (List α)
  | .array _ items => items.mapM item?
  | _ => none

def orElse (default : α) (read? : Toml → Option α) : Option Toml → Option α
  | some value => read? value
  | none => some default

-- Whether the number stays finite when it is rounded to 64 bits: its size is below the middle
-- between the largest finite float and the power of two above it.
def Decimal.staysFinite (number : Decimal) : Bool :=
  let bound := Nat.pow 2 1024 - Nat.pow 2 970
  match number.exponent with
  -- Beyond these exponents the comparison no longer changes.
  | .ofNat places => number.digits * Nat.pow 10 (min places 310) < bound
  | .negSucc places =>
    number.digits < bound * Nat.pow 10 (min (places + 1) (Nat.toDigits 10 number.digits).length)

def Scalar.isHeld : Scalar → Bool
  | .integer value? => value?.any fun value =>
    -Int.ofNat (Nat.pow 2 127) ≤ value && value < Int.ofNat (Nat.pow 2 128)
  | .float value => value.staysFinite
  | _ => true

mutual
def isHeld : Toml → Bool
  | .scalar value => value.isHeld
  | .array _ items => areHeld items
  | .table _ members => membersAreHeld members
def areHeld : List Toml → Bool
  | [] => true
  | item :: items => item.isHeld && areHeld items
def membersAreHeld : List (String × Toml) → Bool
  | [] => true
  | (_, value) :: members => value.isHeld && membersAreHeld members
end

-- The values of named fields, in the order of the names, with a gap for each that is missing. A
-- table may have other members too, if their numbers can be held; an array gives the fields in
-- order, and may be shorter or longer; a moment has no field.
def fields? (names : List String) : Toml → Option (List (Option Toml))
  | .table _ members =>
    if membersAreHeld (members.filter fun member => !names.contains member.1) then
      some (names.map fun name => members.lookup name)
    else none
  | .array _ items => some ((items.map some ++ names.map fun _ => none).take names.length)
  | .scalar (.moment _) => some (names.map fun _ => none)
  | .scalar _ => none

def choice? : Toml → Option String
  | .scalar (.string name) => some name
  | .table _ [(name, .table _ [])] => some name
  | .table _ [(name, .array _ [])] => some name
  | _ => none

end Toml

end IncludeTidy

namespace IncludeTidy.Toml

structure Key where
  path : List String
  name : String
deriving DecidableEq, Repr

abbrev Members := List (String × Toml)

namespace Members

def replace (members : Members) (name : String) (value : Toml) : Members :=
  members.map fun member => if member.1 = name then (name, value) else member

-- Edits the table at the end of a path, which starts in a table with these members. Tables that are
-- missing on the way are added with the origin `fresh`; of an array of tables the last is meant. A
-- dotted key does not enter tables that a header opened.
def editAt (fresh : Origin) (edit : Origin → Members → Option Members) :
    (path : List String) → Origin → Members → Option Members
  | [], origin, members => edit origin members
  | name :: path, _, members =>
    match members.lookup name with
    | none =>
      (editAt fresh edit path fresh []).map fun inner => members ++ [(name, .table fresh inner)]
    | some (.table origin inner) =>
      if origin = .literal ∨ (fresh = .dotted ∧ origin = .header) then none
      else
        (editAt fresh edit path origin inner).map fun inner =>
          members.replace name (.table origin inner)
    | some (.array .header items) =>
      match items.getLast? with
      | some (.table origin inner) =>
        (editAt fresh edit path origin inner).map fun inner =>
          members.replace name (.array .header (items.dropLast ++ [.table origin inner]))
      | _ => none
    | some _ => none

def add? (members : Members) (name : String) (value : Toml) : Option Members :=
  match members.lookup name with
  | none => some (members ++ [(name, value)])
  | some _ => none

-- Gives a key a value. The table that takes it has to come from dotted keys if this key has dots,
-- and must not if it has none.
def define? (members : Members) (key : Key) (value : Toml) : Option Members :=
  editAt .dotted
    (fun origin inner =>
      if origin = .dotted ↔ key.path ≠ [] then inner.add? key.name value else none)
    key.path .header members

def openTable? (members : Members) (name : String) : Option Members :=
  match members.lookup name with
  | none => some (members ++ [(name, .table .header [])])
  | some (.table .implied inner) => some (members.replace name (.table .header inner))
  | some _ => none

def appendTable? (members : Members) (name : String) : Option Members :=
  match members.lookup name with
  | none => some (members ++ [(name, .array .header [.table .header []])])
  | some (.array .header items) =>
    some (members.replace name (.array .header (items ++ [.table .header []])))
  | some _ => none

end Members

end IncludeTidy.Toml
