import Mathlib.Data.List.Infix
import Mathlib.Data.List.TakeWhile
import IncludeTidy.Text.Blank
import IncludeTidy.Text.Search

namespace IncludeTidy.Text

variable {word separator stop left right cs : List Char}

theorem infix_of_found (found : splitFirst? separator cs = some (left, right)) :
    separator <:+: cs := ⟨left, right, (splitFirst?_joined found).symm⟩

theorem splitFirst?_absent (absent : ¬ separator <:+: cs) : splitFirst? separator cs = none := by
  cases found : splitFirst? separator cs with
  | none => rfl
  | some parts => exact absurd (infix_of_found found) absent

theorem splitFirst?_eq_none_iff : splitFirst? separator cs = none ↔ ¬ separator <:+: cs := by
  refine ⟨fun nothing found => ?_, splitFirst?_absent⟩
  induction cs with
  | nil =>
    rw [List.infix_nil] at found
    subst found
    cases nothing
  | cons c rest ih =>
    rw [splitFirst?] at nothing
    split at nothing
    · cases nothing
    · rename_i nowhere
      rcases List.infix_cons_iff.mp found with ⟨after, joined⟩ | later
      · cases nowhere.symm.trans (after?_eq_some_iff.mpr joined.symm)
      · exact ih (Option.map_eq_none_iff.mp nothing) later

-- By induction on the text: an occurrence that is not at its start was not at any earlier place.
theorem splitFirst?_first (filled : separator ≠ [])
    (found : splitFirst? separator cs = some (left, right)) :
    ¬ separator <:+: left ++ separator.dropLast := by
  have short : ¬ separator <:+: separator.dropLast := by
    intro within
    have size := within.length_le
    have room := List.length_pos_iff.mpr filled
    rw [List.length_dropLast] at size
    omega
  induction cs generalizing left with
  | nil =>
    obtain ⟨_, _, pair⟩ := Option.map_eq_some_iff.mp found
    cases pair
    exact short
  | cons c rest ih =>
    rw [splitFirst?] at found
    split at found
    · cases Option.some.inj found
      exact short
    · rename_i nowhere
      obtain ⟨⟨before, after⟩, later, pair⟩ := Option.map_eq_some_iff.mp found
      cases pair
      intro occurs
      rcases List.infix_cons_iff.mp occurs with begins | within
      · have joined := splitFirst?_joined later
        have window : c :: (before ++ separator.dropLast) <+: c :: rest := by
          rw [joined, List.append_assoc]
          refine List.cons_prefix_cons.mpr ⟨rfl, (List.prefix_append_right_inj before).mpr ?_⟩
          exact (List.dropLast_prefix separator).trans (List.prefix_append _ _)
        obtain ⟨tail, whole⟩ := begins.trans window
        cases nowhere.symm.trans (after?_eq_some_iff.mpr whole.symm)
      · exact ih later within

-- An occurrence that starts earlier would end before the last character of the written one.
theorem splitFirst?_written (first : ¬ separator <:+: left ++ separator.dropLast)
    (right : List Char) :
    splitFirst? separator (left ++ separator ++ right) = some (left, right) := by
  induction left with
  | nil =>
    cases separator with
    | nil => exact absurd List.nil_infix first
    | cons s rest =>
      have here : after? (s :: rest) (s :: (rest ++ right)) = some right :=
        after?_eq_some_iff.mpr rfl
      simp only [List.nil_append, List.cons_append, splitFirst?, here]
  | cons c left ih =>
    have later : ¬ separator <:+: left ++ separator.dropLast := by
      intro found
      exact first (found.trans (List.suffix_cons c _).isInfix)
    have nowhere : after? separator (c :: (left ++ separator ++ right)) = none := by
      rw [Option.eq_none_iff_forall_ne_some]
      intro rest found
      have begins : separator <+: c :: (left ++ separator ++ right) :=
        ⟨rest, (after?_eq_some_iff.mp found).symm⟩
      have window : c :: left ++ separator.dropLast <+: c :: (left ++ separator ++ right) := by
        rw [List.cons_append, List.append_assoc]
        refine List.cons_prefix_cons.mpr ⟨rfl, List.prefix_append_right_inj left |>.mpr ?_⟩
        exact (List.dropLast_prefix separator).trans (List.prefix_append _ _)
      have short : separator.length ≤ (c :: left ++ separator.dropLast).length := by
        simp only [List.length_append, List.length_cons, List.length_dropLast]
        omega
      exact first (List.prefix_of_prefix_length_le begins window short).isInfix
    rw [List.cons_append, List.cons_append, splitFirst?, nowhere, ih later]
    rfl

theorem longestBefore?_longest (oneLine : '\n' ∉ left) (begins : left ++ stop <+: cs) :
    ∃ found, longestBefore? stop cs = some found ∧ left.length ≤ found.length := by
  induction cs generalizing left with
  | nil =>
    obtain ⟨rfl, rfl⟩ : left = [] ∧ stop = [] := by simpa using begins
    exact ⟨[], rfl, Nat.le_refl _⟩
  | cons c rest ih =>
    rw [longestBefore?]
    cases left with
    | nil =>
      obtain ⟨after, joined⟩ := begins
      have here : after? stop (c :: rest) = some after := after?_eq_some_iff.mpr joined.symm
      split
      · exact ⟨_, rfl, Nat.zero_le _⟩
      · exact ⟨[], by simp [here], Nat.le_refl _⟩
    | cons d left =>
      obtain ⟨rfl, later⟩ := List.cons_prefix_cons.mp begins
      rw [List.mem_cons, not_or] at oneLine
      obtain ⟨found, further, longer⟩ := ih oneLine.2 later
      rw [if_neg (Ne.symm oneLine.1), further]
      exact ⟨_, rfl, Nat.succ_le_succ longer⟩

-- The search closes a beginning wherever it can, and keeps the longest.
theorem longestBefore?_eq_some_iff :
    longestBefore? stop cs = some left ↔
      ('\n' ∉ left ∧ left ++ stop <+: cs) ∧
        ∀ other, '\n' ∉ other → other ++ stop <+: cs → other.length ≤ left.length := by
  constructor
  · intro before
    refine ⟨longestBefore?_begins before, fun other oneLine begins => ?_⟩
    obtain ⟨found, same, longer⟩ := longestBefore?_longest oneLine begins
    cases before.symm.trans same
    exact longer
  · rintro ⟨⟨oneLine, begins⟩, longest⟩
    obtain ⟨found, before, longer⟩ := longestBefore?_longest oneLine begins
    obtain ⟨free, also⟩ := longestBefore?_begins before
    have size : left.length = found.length := Nat.le_antisymm longer (longest found free also)
    have same : left ++ stop = found ++ stop :=
      (List.prefix_of_prefix_length_le begins also (by simp [size])).eq_of_length (by simp [size])
    rw [before, List.append_cancel_right same]

-- A word that stands in neither of two texts, but in both together, has an end across the border.
theorem infix_across (found : word <:+: left ++ right) :
    word <:+: left ∨ word <:+: right ∨
      ∃ k < word.length, word.take k <:+ left ∧ word.drop k <+: right := by
  rcases List.infix_append_iff.mp found with inLeft | inRight | ⟨front, back, rfl, ends, begins⟩
  · exact .inl inLeft
  · exact .inr (.inl inRight)
  · cases back with
    | nil => exact .inl (by rw [List.append_nil]; exact ends.isInfix)
    | cons b back =>
      refine .inr (.inr ⟨front.length, by simp, ?_, ?_⟩)
      · rwa [List.take_left]
      · rwa [List.drop_left]

instance (cs : List Char) : Decidable (Trimmed cs) :=
  decidable_of_iff
    (cs.head?.all (fun c => !isBlank c) = true ∧ cs.getLast?.all (fun c => !isBlank c) = true)
    (by simp [Trimmed, Option.all_eq_true])

theorem trimEnd_blanks (blanks : ∀ c ∈ after, isBlank c = true) (cs : List Char) :
    trimEnd (cs ++ after) = trimEnd cs := by
  unfold trimEnd
  rw [List.reverse_append, List.dropWhile_append_of_pos]
  intro c member
  exact blanks c (List.mem_reverse.mp member)

-- Blanks on either side of trimmed text are all that trimming takes away.
theorem trim_spaced (opening : ∀ c ∈ before, isBlank c = true)
    (closing : ∀ c ∈ after, isBlank c = true) (trimmed : Trimmed cs) :
    trim (String.ofList (before ++ cs ++ after)) = String.ofList cs := by
  rw [trim, String.toList_ofList, List.append_assoc, trimStart,
    List.dropWhile_append_of_pos opening]
  cases cs with
  | nil =>
    have nothing : after.dropWhile isBlank = [] := List.dropWhile_eq_nil_iff.mpr closing
    rw [List.nil_append, nothing]
    rfl
  | cons first rest =>
    have start : trimStart (first :: rest ++ after) = first :: rest ++ after :=
      trimStart_of_head fun d here => trimmed.1 d here
    rw [trimStart] at start
    rw [start, trimEnd_blanks closing, trimEnd_of_last trimmed.2]

theorem trim_visible (head : cs.head? = some c) (visible : isBlank c = false) :
    trim (String.ofList cs) ≠ "" := by
  have start : trimStart cs = cs := by
    apply trimStart_of_head
    intro d first
    cases head.symm.trans first
    exact visible
  rw [trim, String.toList_ofList, start]
  intro empty
  have nothing : cs.reverse.dropWhile isBlank = [] := by simpa [trimEnd] using empty
  have member : c ∈ cs.reverse := List.mem_reverse.mpr (List.mem_of_head? head)
  cases visible.symm.trans (List.dropWhile_eq_nil_iff.mp nothing c member)

theorem trim_within (s : String) : (trim s).toList <:+: s.toList := by
  rw [trim, String.toList_ofList]
  exact (trimEnd_begins _).isInfix.trans (List.dropWhile_suffix _).isInfix

end IncludeTidy.Text
