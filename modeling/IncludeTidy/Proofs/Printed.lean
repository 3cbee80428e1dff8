import Mathlib.Data.List.Forall2
import Mathlib.Data.List.TakeWhile
import IncludeTidy.Json.Basic
import IncludeTidy.Json.Reader

namespace IncludeTidy.Json

-- What a character may be written as.
inductive CodeUnit.Writes (c : Char) : CodeUnit → Prop where
  | char : Writes c (.char c)
  | code (low : c.toNat < 0xD800) : Writes c (.code c.toNat)

-- Only a high half would look at what follows it.
theorem unitsText?_code (low : n < 0xD800) (units : List CodeUnit) :
    unitsText? (.code n :: units) = (unitsText? units).map (Char.ofNat n :: ·) := by
  have whole : ¬ (0xD800 ≤ n ∧ n < 0xE000) := fun half => Nat.not_le_of_lt low half.1
  by_cases paired : ∃ next rest, units = .code next :: rest
  · obtain ⟨next, rest, rfl⟩ := paired
    have single : ¬ (0xD800 ≤ n ∧ n < 0xDC00 ∧ 0xDC00 ≤ next ∧ next < 0xE000) :=
      fun pair => Nat.not_le_of_lt low pair.1
    rw [unitsText?, if_neg single, if_neg whole]
  · rw [unitsText?.eq_4 _ _ fun next rest same => paired ⟨next, rest, same⟩, if_neg whole]

theorem unitsText?_of_writes {text : List Char} {units : List CodeUnit}
    (written : List.Forall₂ CodeUnit.Writes text units) : unitsText? units = some text := by
  induction written with
  | nil => rw [unitsText?]
  | cons head _ ih =>
    cases head with
    | char => rw [unitsText?, ih, Option.map_some]
    | code low => rw [unitsText?_code low, ih, Option.map_some, Char.ofNat_toNat]

theorem units?_short (known : shortEscape? e = some c) (rest : List Char) :
    units? ('\\' :: e :: rest) =
      (units? rest).map fun (units, rest) => (.char c :: units, rest) := by
  rw [units?, known]
  · cases units? rest <;> rfl
  · rintro _ _ _ _ _ rfl _
    cases known

theorem hexNumber?_control : ∀ n < 0x20,
    Text.hexNumber? ['0', '0', hexDigit (n / 16), hexDigit (n % 16)] = some n := by
  decide

theorem units?_escape (c : Char) (rest : List Char) :
    ∃ unit, CodeUnit.Writes c unit ∧ units? (escape c ++ rest) =
      (units? rest).map fun (units, rest) => (unit :: units, rest) := by
  unfold escape
  split
  case h_8 quote backslash _ _ _ _ _ =>
    split
    · rename_i control
      refine ⟨.code c.toNat, .code (by omega), ?_⟩
      simp only [List.cons_append, List.nil_append]
      rw [units?.eq_3, hexNumber?_control c.toNat control]
      cases units? rest <;> rfl
    · rename_i visible
      refine ⟨.char c, .char, ?_⟩
      rw [List.singleton_append, units?.eq_5 _ _ quote (fun _ _ _ _ _ same _ => backslash same)
        (fun _ _ same _ => backslash same), if_neg (not_or.mpr ⟨visible, backslash⟩)]
  all_goals exact ⟨_, .char, units?_short rfl rest⟩

theorem units?_quoted (text rest : List Char) :
    ∃ units, List.Forall₂ CodeUnit.Writes text units ∧
      units? (text.flatMap escape ++ '"' :: rest) = some (units, rest) := by
  induction text with
  | nil => exact ⟨[], .nil, by rw [List.flatMap_nil, List.nil_append, units?]⟩
  | cons c text ih =>
    obtain ⟨units, written, read⟩ := ih
    obtain ⟨unit, first, escaped⟩ := units?_escape c (text.flatMap escape ++ '"' :: rest)
    refine ⟨unit :: units, .cons first written, ?_⟩
    simp [escaped, read]

theorem token?_text (text : String) (rest : List Char) :
    token? (quotedText (some text) ++ rest) =
      some (.scalar (.string (some text)), rest) := by
  obtain ⟨units, written, read⟩ := units?_quoted text.toList rest
  have shown : quotedText (some text) ++ rest =
      '"' :: (text.toList.flatMap escape ++ '"' :: rest) := by
    simp [quotedText, quoted]
  rw [shown, token?, read]
  simp only [Option.map_some, unitsText?_of_writes written, String.ofList_toList]

-- No number goes on here.
def Ends (rest : List Char) : Prop :=
  ∀ c ∈ rest.head?, c.isDigit = false ∧ c ≠ '.' ∧ c ≠ 'e' ∧ c ≠ 'E'

theorem ends_nil : Ends [] := by
  rintro c ⟨⟩

theorem ends_mark (other : c.isDigit = false ∧ c ≠ '.' ∧ c ≠ 'e' ∧ c ≠ 'E') (rest : List Char) :
    Ends (c :: rest) := by
  rintro d ⟨⟩
  exact other

theorem ends_gap (gap : isGap c = true) (rest : List Char) : Ends (c :: rest) := by
  have blank : c = ' ' ∨ c = '\t' ∨ c = '\n' ∨ c = '\r' := by
    simpa [isGap, or_assoc] using gap
  refine ends_mark ?_ rest
  rcases blank with rfl | rfl | rfl | rfl <;> decide

theorem ends_line (blank : ∀ c ∈ line, isGap c = true) (ends : Ends rest) :
    Ends (line ++ rest) := by
  cases line with
  | nil => exact ends
  | cons c line => exact ends_gap (blank c List.mem_cons_self) _

theorem visible_of_digit (digit : c.isDigit = true) : isGap c = false := by
  rw [Bool.eq_false_iff]
  intro gap
  cases (ends_gap gap [] c rfl).1.symm.trans digit

theorem takeWhile_ends {digits rest : List Char} (all : ∀ c ∈ digits, c.isDigit = true)
    (ends : Ends rest) : (digits ++ rest).takeWhile Char.isDigit = digits := by
  rw [List.takeWhile_append_of_pos all]
  cases rest with
  | nil => simp
  | cons c rest => simp [(ends c rfl).1]

theorem dropWhile_ends {digits rest : List Char} (all : ∀ c ∈ digits, c.isDigit = true)
    (ends : Ends rest) : (digits ++ rest).dropWhile Char.isDigit = rest := by
  rw [List.dropWhile_append_of_pos all]
  cases rest with
  | nil => rfl
  | cons c rest => simp [(ends c rfl).1]

theorem digits?_ends {digits rest : List Char} (filled : digits ≠ [])
    (all : ∀ c ∈ digits, c.isDigit = true) (ends : Ends rest) :
    digits? (digits ++ rest) = some (digits, rest) := by
  unfold digits?
  rw [takeWhile_ends all ends, dropWhile_ends all ends]
  split
  · contradiction
  · rfl

-- A leading zero would be read as the whole number.
theorem head_toDigits (positive : 0 < n) : (Nat.toDigits 10 n).head? ≠ some '0' := by
  induction n using Nat.strongRecOn with
  | ind n ih =>
    by_cases small : n < 10
    · have single : ∀ d < 10, 0 < d → [Nat.digitChar d].head? ≠ some '0' := by decide
      rw [Nat.toDigits_of_lt_base small]
      exact single n small positive
    · have shorter : n / 10 < n := Nat.div_lt_self positive (by decide)
      have rest := ih (n / 10) shorter (by omega)
      rw [Nat.toDigits_of_base_le (by decide) (Nat.le_of_not_lt small)]
      rwa [List.head?_append_of_ne_nil _ Nat.toDigits_ne_nil]

theorem digit_of_toDigits (front : Nat.toDigits 10 n ++ rest = c :: others) : c.isDigit = true := by
  refine Nat.isDigit_of_mem_toDigits (b := 10) (n := n) (by decide) (by decide) ?_
  cases digits : Nat.toDigits 10 n with
  | nil => exact absurd digits Nat.toDigits_ne_nil
  | cons first _ =>
    rw [digits, List.cons_append] at front
    rw [(List.cons.inj front).1]
    exact List.mem_cons_self

theorem wholePart?_natural (n : Nat) (ends : Ends rest) :
    wholePart? (Nat.toDigits 10 n ++ rest) = some (Nat.toDigits 10 n, rest) := by
  have all : ∀ c ∈ Nat.toDigits 10 n, c.isDigit = true :=
    fun c => Nat.isDigit_of_mem_toDigits (by decide) (by decide)
  rcases Nat.eq_zero_or_pos n with rfl | positive
  · rfl
  · rw [wholePart?]
    · exact digits?_ends Nat.toDigits_ne_nil all ends
    · intro others leading
      have first := congrArg List.head? leading
      rw [List.head?_append_of_ne_nil _ Nat.toDigits_ne_nil] at first
      exact head_toDigits positive first

theorem fraction?_ends (ends : Ends rest) : fraction? rest = some ([], rest) := by
  rw [fraction?]
  rintro others rfl
  exact (ends '.' rfl).2.1 rfl

theorem exponent?_ends (ends : Ends rest) : exponent? rest = some ([], rest) := by
  cases rest with
  | nil => rfl
  | cons c others =>
    obtain ⟨_, _, small, capital⟩ := ends c rfl
    rw [exponent?, if_neg (not_or.mpr ⟨small, capital⟩)]

theorem number?_natural (n : Nat) (ends : Ends rest) :
    number? (Nat.toDigits 10 n ++ rest) = some (Nat.toDigits 10 n, rest) := by
  have unsigned : ∀ others, Nat.toDigits 10 n ++ rest = '-' :: others → False := by
    intro others front
    cases digit_of_toDigits front
  rw [number?.eq_2 _ unsigned, wholePart?_natural n ends]
  simp [fraction?_ends ends, exponent?_ends ends]

theorem token?_digit (digit : c.isDigit = true) (cs : List Char) :
    token? (c :: cs) = (number? (c :: cs)).map fun (literal, rest) =>
      (.scalar (.number (String.ofList literal)), rest) := by
  have other : ∀ d : Char, d.isDigit = false → c ≠ d := by
    rintro d letter rfl
    cases letter.symm.trans digit
  have unworded : word? (c :: cs) = none := by
    simp [word?, Text.after?, (other 'n' rfl).symm, (other 't' rfl).symm, (other 'f' rfl).symm]
  rw [token?, unworded]
  · intro none
    cases none
  all_goals
    intro rest same
    exact other _ rfl (List.cons.inj same).1

theorem token?_natural (n : Nat) (ends : Ends rest) :
    token? (Nat.toDigits 10 n ++ rest) =
      some (.scalar (.number (String.ofList (Nat.toDigits 10 n))), rest) := by
  have read := number?_natural n ends
  cases front : Nat.toDigits 10 n ++ rest with
  | nil => exact absurd (List.append_eq_nil_iff.mp front).1 Nat.toDigits_ne_nil
  | cons c cs =>
    rw [token?_digit (digit_of_toDigits front), ← front, read, Option.map_some]

-- Reading from one position leads to another and leaves some characters. What is left is part of
-- this, since a number only ends where something else begins.
inductive Reads : Position → List Char → Position → List Char → Prop where
  | done : Reads position cs position cs
  | gap (blank : isGap c = true) (further : Reads position cs last rest) :
      Reads position (c :: cs) last rest
  | take (visible : isGap c = false) (read : token? (c :: cs) = some (token, others))
      (shorter : others.length ≤ cs.length) (taken : position.take token = some next)
      (further : Reads next others last rest) : Reads position (c :: cs) last rest

namespace Reads

variable {position next middle last : Position} {c : Char} {cs others rest : List Char}
  {token : Token}

theorem append (first : Reads position cs middle others) (second : Reads middle others last rest) :
    Reads position cs last rest := by
  induction first with
  | done => exact second
  | gap blank _ ih => exact .gap blank (ih second)
  | take visible read shorter taken _ ih => exact .take visible read shorter taken (ih second)

theorem gaps {blanks : List Char} (all : ∀ c ∈ blanks, isGap c = true)
    (further : Reads position cs last rest) : Reads position (blanks ++ cs) last rest := by
  induction blanks with
  | nil => exact further
  | cons c blanks ih =>
    obtain ⟨blank, others⟩ := List.forall_mem_cons.mp all
    exact .gap blank (ih others)

theorem piece {front : List Char} (filled : front ≠ [])
    (visible : ∀ c ∈ front.head?, isGap c = false) (read : token? (front ++ cs) = some (token, cs))
    (taken : position.take token = some next) (further : Reads next cs last rest) :
    Reads position (front ++ cs) last rest := by
  cases front with
  | nil => exact absurd rfl filled
  | cons c front =>
    have shorter : cs.length ≤ (front ++ cs).length := by
      rw [List.length_append]
      exact Nat.le_add_left _ _
    exact .take (visible c rfl) read shorter taken further

theorem mark (read : token? (c :: cs) = some (token, cs)) (visible : isGap c = false)
    (taken : position.take token = some next) (further : Reads next cs last rest) :
    Reads position (c :: cs) last rest :=
  .take visible read (Nat.le_refl _) taken further

theorem text (text : String) (taken : position.take (.scalar (.string (some text))) = some next)
    (further : Reads next cs last rest) :
    Reads position (quotedText (some text) ++ cs) last rest := by
  refine .piece (List.cons_ne_nil _ _) ?_ (token?_text text cs) taken further
  rintro c ⟨⟩
  rfl

-- By induction on what was read: a blank needs no fuel, and a token leaves fewer characters. Blanks
-- behind the last token mean nothing to the text.
theorem tokens (reads : Reads position cs last rest) (blank : ∀ c ∈ rest, isGap c = true)
    (enough : cs.length ≤ fuel) : ∃ tokens, tokensWithin? fuel cs = some tokens ∧
      position.takeAll tokens = some last := by
  induction reads generalizing fuel with
  | @done _ cs =>
    have nothing : cs.dropWhile isGap = [] := List.dropWhile_eq_nil_iff.mpr blank
    refine ⟨[], ?_, rfl⟩
    rw [tokensWithin?, nothing]
  | gap first _ ih =>
    obtain ⟨tokens, lexed, taken⟩ := ih blank (Nat.le_of_succ_le enough)
    refine ⟨tokens, ?_, taken⟩
    rw [tokensWithin?, List.dropWhile_cons_of_pos first, ← tokensWithin?, lexed]
  | @take _ _ token _ _ _ _ _ visible read shorter taken _ ih =>
    cases fuel with
    | zero => cases enough
    | succ fuel =>
      have left_ := Nat.le_trans shorter (Nat.le_of_succ_le_succ enough)
      obtain ⟨tokens, lexed, further⟩ := ih blank left_
      refine ⟨token :: tokens, ?_, ?_⟩
      · rw [tokensWithin?, List.dropWhile_cons_of_neg (by simp [visible])]
        simp [read, lexed]
      · unfold Position.takeAll at further ⊢
        rw [List.foldlM_cons, taken]
        exact further

theorem parse? {text : String} (reads : Reads ⟨.value, []⟩ text.toList (.complete value []) rest)
    (blank : ∀ c ∈ rest, isGap c = true) : parse? text = some value := by
  obtain ⟨tokens, lexed, taken⟩ := reads.tokens blank (Nat.le_refl _)
  unfold Json.parse? tokens? ofTokens?
  rw [lexed, Option.bind_some, taken]
  rfl

end Reads

-- Texts and natural numbers, in arrays and in objects whose members have texts as names.
inductive Plain : Json → Prop where
  | text (value : String) : Plain (.text value)
  | natural (value : Nat) : Plain (.natural value)
  | array (items : List Json) (all : ∀ item ∈ items, Plain item) : Plain (.array items)
  | ofMembers (members : List (String × Json)) (all : ∀ member ∈ members, Plain member.2) :
      Plain (.ofMembers members)

structure Spacing.Blank (spacing : Spacing) : Prop where
  line : ∀ depth, ∀ c ∈ spacing.line depth, isGap c = true
  colon : ∀ c ∈ spacing.colon, isGap c = true

-- Any value can stand here, whether it is the first item of an array or not.
def Position.Awaits (position : Position) (around : List Frame) : Prop :=
  ∀ token, token ≠ .closeArray → position.take token = Position.startValue around token

theorem awaits_value (around : List Frame) : Position.Awaits ⟨.value, around⟩ around :=
  fun _ _ => rfl

theorem awaits_arrayStart (around : List Frame) :
    Position.Awaits ⟨.arrayStart, around⟩ (.array [] :: around) := by
  intro token open_
  cases token with
  | closeArray => exact absurd rfl open_
  | _ => rfl

variable {spacing : Spacing}

theorem ends_rows {rows line : List Char} (blank : ∀ c ∈ line, isGap c = true)
    (separated : rows = [] ∨ ∃ others, rows = ',' :: others) (ends : Ends rest) :
    Ends (rows ++ (line ++ rest)) := by
  rcases separated with rfl | ⟨others, rfl⟩
  · rw [List.nil_append]
    exact ends_line blank ends
  · exact ends_mark (by decide) _

theorem ends_items (blank : spacing.Blank) (depth outer : Nat) (items : List Json)
    (rest : List Char) :
    Ends (printItems spacing depth items ++ (spacing.line outer ++ ']' :: rest)) := by
  refine ends_rows (blank.line outer) ?_ (ends_mark (by decide) rest)
  cases items with
  | nil => exact .inl rfl
  | cons item items => exact .inr ⟨_, rfl⟩

theorem ends_members (blank : spacing.Blank) (depth outer : Nat)
    (members : List (Option String × Json)) (rest : List Char) :
    Ends (printMembers spacing depth members ++ (spacing.line outer ++ '\x7d' :: rest)) := by
  refine ends_rows (blank.line outer) ?_ (ends_mark (by decide) rest)
  cases members with
  | nil => exact .inl rfl
  | cons member members => exact .inr ⟨_, rfl⟩

-- What is printed of a value is read as that value, wherever a value can stand.
def ReadBack (spacing : Spacing) (value : Json) : Prop :=
  ∀ (depth : Nat) (position : Position) (around : List Frame) (rest : List Char),
    position.Awaits around → Ends rest →
      Reads position (print spacing depth value ++ rest) (.complete value around) rest

theorem readBack_text (spacing : Spacing) (value : String) : ReadBack spacing (.text value) := by
  intro depth position around rest awaits _
  refine Reads.text value ?_ .done
  rw [awaits _ (by simp)]
  rfl

theorem readBack_natural (spacing : Spacing) (value : Nat) :
    ReadBack spacing (.natural value) := by
  intro depth position around rest awaits ends
  have shown : print spacing depth (.natural value) = Nat.toDigits 10 value := by
    simp [print, natural, Scalar.print]
  have visible : ∀ c ∈ (Nat.toDigits 10 value).head?, isGap c = false := by
    intro c first
    exact visible_of_digit (Nat.isDigit_of_mem_toDigits (by decide) (by decide)
      (List.mem_of_mem_head? first))
  rw [shown]
  exact .piece Nat.toDigits_ne_nil visible (token?_natural value ends) (awaits _ (by simp)) .done

-- By induction on the items to come; those that were read wait in the position.
theorem reads_items (blank : spacing.Blank) (depth outer : Nat) {items : List Json}
    (all : ∀ item ∈ items, ReadBack spacing item) (before : List Json) (around : List Frame)
    (rest : List Char) :
    Reads ⟨.afterItem before, around⟩
      (printItems spacing depth items ++ (spacing.line outer ++ ']' :: rest))
      (.complete (.array (before ++ items)) around) rest := by
  induction items generalizing before with
  | nil =>
    rw [printItems, List.nil_append, List.append_nil]
    exact .gaps (blank.line outer) (.mark rfl rfl rfl .done)
  | cons item items ih =>
    obtain ⟨first, others⟩ := List.forall_mem_cons.mp all
    have ends := ends_items blank depth outer items rest
    have item_ := first depth _ (.array before :: around) _ (awaits_value _) ends
    have further := ih others (before ++ [item])
    rw [List.append_assoc] at further
    simp only [printItems, List.cons_append, List.append_assoc]
    exact .mark rfl rfl rfl (.gaps (blank.line depth) (item_.append further))

theorem reads_member (blank : spacing.Blank) (depth : Nat) {value : Json}
    (back : ReadBack spacing value) {before : List (Option String × Json)} {around : List Frame}
    (taken : position.take (.scalar (.string (some name))) = some ⟨.colon before name, around⟩)
    (ends : Ends rest) :
    Reads position
      (quotedText (some name) ++ ':' :: (spacing.colon ++ (print spacing depth value ++ rest)))
      ⟨.afterMember (before ++ [(some name, value)]), around⟩ rest :=
  .text name taken (.mark rfl rfl rfl (.gaps blank.colon
    (back depth _ (.object before (some name) :: around) _ (awaits_value _) ends)))

theorem reads_members (blank : spacing.Blank) (depth outer : Nat) {members : List (String × Json)}
    (all : ∀ member ∈ members, ReadBack spacing member.2) (before : List (Option String × Json))
    (around : List Frame) (rest : List Char) :
    Reads ⟨.afterMember before, around⟩
      (printMembers spacing depth (members.map fun (name, value) => (some name, value)) ++
        (spacing.line outer ++ '\x7d' :: rest))
      (.complete (.object (before ++ members.map fun (name, value) => (some name, value))) around)
      rest := by
  induction members generalizing before with
  | nil =>
    rw [List.map_nil, printMembers, List.nil_append, List.append_nil]
    exact .gaps (blank.line outer) (.mark rfl rfl rfl .done)
  | cons member members ih =>
    obtain ⟨name, value⟩ := member
    obtain ⟨first, others⟩ := List.forall_mem_cons.mp all
    have ends := ends_members blank depth outer
      (members.map fun (name, value) => (some name, value)) rest
    have named : Position.take ⟨.name before, around⟩ (.scalar (.string (some name))) =
        some ⟨.colon before name, around⟩ := rfl
    have member_ := reads_member blank depth first named ends
    have further := ih others (before ++ [(some name, value)])
    rw [List.append_assoc] at further
    simp only [List.map_cons, printMembers, List.cons_append, List.append_assoc]
    exact .mark rfl rfl rfl (.gaps (blank.line depth) (member_.append further))

-- The first item is read where the array could still be closed, the others behind a comma.
theorem readBack_array (blank : spacing.Blank) {items : List Json}
    (all : ∀ item ∈ items, ReadBack spacing item) : ReadBack spacing (.array items) := by
  intro depth position around rest awaits _
  have opened : position.take .openArray = some ⟨.arrayStart, around⟩ := awaits _ (by simp)
  cases items with
  | nil =>
    rw [print]
    exact .mark rfl rfl opened (.mark rfl rfl rfl .done)
  | cons item items =>
    obtain ⟨first, others⟩ := List.forall_mem_cons.mp all
    have ends := ends_items blank (depth + 1) depth items rest
    have item_ := first (depth + 1) _ (.array [] :: around) _ (awaits_arrayStart around) ends
    have further := reads_items blank (depth + 1) depth others [item] around rest
    simp only [print, List.cons_append, List.append_assoc, List.nil_append]
    exact .mark rfl rfl opened (.gaps (blank.line (depth + 1)) (item_.append further))

theorem readBack_ofMembers (blank : spacing.Blank) {members : List (String × Json)}
    (all : ∀ member ∈ members, ReadBack spacing member.2) :
    ReadBack spacing (.ofMembers members) := by
  intro depth position around rest awaits _
  have opened : position.take .openObject = some ⟨.objectStart, around⟩ := awaits _ (by simp)
  cases members with
  | nil =>
    rw [ofMembers, List.map_nil, print]
    exact .mark rfl rfl opened (.mark rfl rfl rfl .done)
  | cons member members =>
    obtain ⟨name, value⟩ := member
    obtain ⟨first, others⟩ := List.forall_mem_cons.mp all
    have ends := ends_members blank (depth + 1) depth
      (members.map fun (name, value) => (some name, value)) rest
    have named : Position.take ⟨.objectStart, around⟩ (.scalar (.string (some name))) =
        some ⟨.colon [] name, around⟩ := rfl
    have member_ := reads_member blank (depth + 1) first named ends
    have further := reads_members blank (depth + 1) depth others [(some name, value)] around rest
    simp only [ofMembers, List.map_cons, print, List.cons_append, List.append_assoc,
      List.nil_append]
    exact .mark rfl rfl opened (.gaps (blank.line (depth + 1)) (member_.append further))

theorem readBack_plain (blank : spacing.Blank) {value : Json} (plain : Plain value) :
    ReadBack spacing value := by
  induction plain with
  | text value => exact readBack_text spacing value
  | natural value => exact readBack_natural spacing value
  | array items _ ih => exact readBack_array blank ih
  | ofMembers members _ ih => exact readBack_ofMembers blank ih

theorem blank_compact : Spacing.compact.Blank :=
  ⟨fun _ _ none => absurd none List.not_mem_nil, fun _ none => absurd none List.not_mem_nil⟩

theorem blank_lines : Spacing.lines.Blank := by
  refine ⟨fun depth c member => ?_, List.forall_mem_singleton.mpr rfl⟩
  rcases List.mem_cons.mp member with rfl | space
  · rfl
  · rw [(List.mem_replicate.mp space).2]
    rfl

theorem parse?_printed (blank : spacing.Blank) {value : Json} (plain : Plain value)
    {after : String} (gaps : ∀ c ∈ after.toList, isGap c = true) :
    parse? (value.printed spacing ++ after) = some value := by
  have ends : Ends after.toList := by
    rw [← List.append_nil after.toList]
    exact ends_line gaps ends_nil
  have reads := readBack_plain blank plain 0 _ _ _ (awaits_value []) ends
  refine Reads.parse? ?_ gaps
  rwa [String.toList_append, printed, String.toList_ofList]

end IncludeTidy.Json
