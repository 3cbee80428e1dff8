namespace IncludeTidy.Text

-- What follows the word at the start of the text.
def after? : (word cs : List Char) → Option (List Char)
  | [], cs => some cs
  | _ :: _, [] => none
  | w :: word, c :: cs => if w = c then after? word cs else none

-- The two sides of the separator where it first occurs.
def splitFirst? (separator : List Char) : List Char → Option (List Char × List Char)
  | [] => (after? separator []).map ([], ·)
  | c :: rest =>
    match after? separator (c :: rest) with
    | some right => some ([], right)
    | none => (splitFirst? separator rest).map fun (left, right) => (c :: left, right)

-- The longest beginning of the first line that the closing word follows.
def longestBefore? (stop : List Char) : List Char → Option (List Char)
  | [] => (after? stop []).map fun _ => []
  | c :: rest =>
    match if c = '\n' then none else longestBefore? stop rest with
    | some found => some (c :: found)
    | none => (after? stop (c :: rest)).map fun _ => []

theorem after?_eq_some_iff {word cs rest : List Char} :
    after? word cs = some rest ↔ cs = word ++ rest := by
  induction word generalizing cs with
  | nil => simp [after?]
  | cons w word ih =>
    cases cs with
    | nil => simp [after?]
    | cons c cs =>
      by_cases same : w = c
      · subst same; simp [after?, ih]
      · simp [after?, same, Ne.symm same]

theorem splitFirst?_joined {separator cs left right : List Char}
    (found : splitFirst? separator cs = some (left, right)) : cs = left ++ separator ++ right := by
  induction cs generalizing left with
  | nil =>
    rw [splitFirst?] at found
    obtain ⟨rest, at_, pair⟩ := Option.map_eq_some_iff.1 found
    cases pair
    simpa using after?_eq_some_iff.1 at_
  | cons c cs ih =>
    rw [splitFirst?] at found
    split at found
    · rename_i rest at_
      cases Option.some.inj found
      simpa using after?_eq_some_iff.1 at_
    · obtain ⟨⟨l, r⟩, inner, pair⟩ := Option.map_eq_some_iff.1 found
      cases pair
      rw [ih inner]; rfl

theorem longestBefore?_begins {stop cs found : List Char}
    (before : longestBefore? stop cs = some found) : '\n' ∉ found ∧ found ++ stop <+: cs := by
  induction cs generalizing found with
  | nil =>
    rw [longestBefore?] at before
    obtain ⟨rest, at_, rfl⟩ := Option.map_eq_some_iff.1 before
    exact ⟨List.not_mem_nil, rest, (after?_eq_some_iff.1 at_).symm⟩
  | cons c cs ih =>
    rw [longestBefore?] at before
    split at before
    · rename_i inner further
      cases Option.some.inj before
      split at further
      · cases further
      · rename_i noFeed
        obtain ⟨free, begins⟩ := ih further
        refine ⟨?_, List.cons_prefix_cons.mpr ⟨rfl, begins⟩⟩
        simp only [List.mem_cons, not_or]
        exact ⟨fun feed => noFeed feed.symm, free⟩
    · obtain ⟨rest, at_, rfl⟩ := Option.map_eq_some_iff.1 before
      exact ⟨List.not_mem_nil, rest, (after?_eq_some_iff.1 at_).symm⟩

-- Takes the beginning of a text, and leaves the rest.
abbrev Reader (α : Type) := List Char → Option (α × List Char)

-- A step takes a character at least, so the length of the text and one step for the end are enough.
def repeatedWithin (step : Reader (Option α)) : Nat → Reader (List α)
  | 0, _ => none
  | fuel + 1, cs =>
    match step cs with
    | none => none
    | some (none, rest) => some ([], rest)
    | some (some item, rest) =>
      (repeatedWithin step fuel rest).map fun (items, rest) => (item :: items, rest)

def repeated (step : Reader (Option α)) : Reader (List α) :=
  fun cs => repeatedWithin step (cs.length + 1) cs

def digitValue? (c : Char) : Option Nat :=
  let n := c.toNat
  if 0x30 ≤ n ∧ n ≤ 0x39 then some (n - 0x30)
  else if 0x61 ≤ n ∧ n ≤ 0x66 then some (n - 0x61 + 10)
  else if 0x41 ≤ n ∧ n ≤ 0x46 then some (n - 0x41 + 10)
  else none

def isDigitIn (base : Nat) (c : Char) : Bool := (digitValue? c).any fun value => value < base

def number? (base : Nat) (digits : List Char) : Option Nat :=
  digits.foldlM (fun sum c =>
    if isDigitIn base c then (digitValue? c).map (sum * base + ·) else none) 0

def hexNumber? (digits : List Char) : Option Nat := number? 16 digits

end IncludeTidy.Text
