import IncludeTidy.Output.Block
import IncludeTidy.Proofs.Headers

namespace IncludeTidy

variable {entry : Entry} {line file : String}

-- An entry that its own line does not blur.
structure Entry.Legible (entry : Entry) : Prop where
  named : entry.directive ≠ ""
  trimmed : Text.Trimmed entry.directive.toList
  undivided : ¬ Entry.delimiter.toList <:+: entry.directive.toList
  apart : entry.why ≠ "" → ¬ " //".toList <:+ entry.directive.toList
  closed : ∀ c, entry.why.toList.getLast? = some c → Text.isBlank c = false

instance (entry : Entry) : Decidable entry.Legible :=
  decidable_of_iff
    (entry.directive ≠ "" ∧ Text.Trimmed entry.directive.toList ∧
      ¬ Entry.delimiter.toList <:+: entry.directive.toList ∧
      (entry.why ≠ "" → ¬ " //".toList <:+ entry.directive.toList) ∧
      entry.why.toList.getLast?.all (fun c => !Text.isBlank c) = true)
    ⟨fun ⟨named, trimmed, undivided, apart, closed⟩ =>
        ⟨named, trimmed, undivided, apart, by simpa [Option.all_eq_true] using closed⟩,
      fun ⟨named, trimmed, undivided, apart, closed⟩ =>
        ⟨named, trimmed, undivided, apart, by simpa [Option.all_eq_true] using closed⟩⟩

theorem shown_bare (bare : entry.why = "") : entry.shown = entry.directive := by
  unfold Entry.shown Entry.suffix
  rw [bare]
  exact String.append_empty

theorem shown_justified (justified : entry.why ≠ "") :
    entry.shown.toList =
      (entry.directive.toList ++ [' ']) ++ Entry.delimiter.toList ++ entry.why.toList := by
  have full : entry.why.isEmpty = false := by simpa using justified
  unfold Entry.shown Entry.suffix
  rw [full, if_neg Bool.false_ne_true]
  have border : "  // ".toList = [' '] ++ Entry.delimiter.toList := by decide
  simp only [String.toList_append, border, List.append_assoc]

-- With blanks behind it, the delimiter can begin inside the directive only with its last three
-- characters: what follows the directive never begins with a slash.
theorem delimiter_after (blanks : ∀ c ∈ after, Text.isBlank c = true)
    (undivided : ¬ Entry.delimiter.toList <:+: directive)
    (apart : ¬ " //".toList <:+ directive) :
    ¬ Entry.delimiter.toList <:+: (directive ++ after) ++ Entry.delimiter.toList.dropLast := by
  have visible : Text.isBlank '/' = false := by decide
  have unslashed : '/' ∉ after := by
    intro member
    cases (blanks _ member).symm.trans visible
  have opens : ∀ k < Entry.delimiter.toList.length, k ≠ 0 → k ≠ 3 →
      (Entry.delimiter.toList.drop k).head? = some '/' := by
    decide
  have behind : ¬ Entry.delimiter.toList <:+: after ++ Entry.delimiter.toList.dropLast := by
    intro found
    rcases Text.infix_across found with blank | short | ⟨k, bound, ends, begins⟩
    · exact unslashed (blank.subset (by decide))
    · exact absurd short (by decide)
    · have slashed : ∀ k < Entry.delimiter.toList.length,
          Entry.delimiter.toList.drop k <+: Entry.delimiter.toList.dropLast →
            '/' ∈ Entry.delimiter.toList.take k := by
        decide
      exact unslashed (ends.subset (slashed k bound begins))
  intro found
  rw [List.append_assoc] at found
  rcases Text.infix_across found with inside | after_ | ⟨k, bound, ends, begins⟩
  · exact undivided inside
  · exact behind after_
  · by_cases none : k = 0
    · subst none
      exact behind begins.isInfix
    · by_cases last : k = 3
      · subst last
        exact apart ends
      · have head := Text.head?_of_begins begins '/' (opens k bound none last)
        cases after with
        | nil => exact absurd head (by decide)
        | cons first rest =>
          cases head
          exact unslashed List.mem_cons_self

theorem ofLine_bare (trimmed : Text.Trimmed entry.directive.toList)
    (undivided : ¬ Entry.delimiter.toList <:+: entry.directive.toList) (bare : entry.why = "") :
    Entry.ofLine entry.directive = entry := by
  unfold Entry.ofLine
  rw [Text.splitFirst?_absent undivided]
  dsimp only
  rw [Text.trim_of_trimmed trimmed, ← bare]

theorem ofLine_justified (blanks : ∀ c ∈ after, Text.isBlank c = true)
    (trimmed : Text.Trimmed entry.directive.toList)
    (undivided : ¬ Entry.delimiter.toList <:+: entry.directive.toList)
    (apart : ¬ " //".toList <:+ entry.directive.toList)
    (written : line.toList =
      (entry.directive.toList ++ after) ++ Entry.delimiter.toList ++ entry.why.toList) :
    Entry.ofLine line = entry := by
  have nothing : ∀ c ∈ ([] : List Char), Text.isBlank c = true := nofun
  have trims := Text.trim_spaced nothing blanks trimmed
  rw [List.nil_append] at trims
  unfold Entry.ofLine
  rw [written, Text.splitFirst?_written (delimiter_after blanks undivided apart) entry.why.toList]
  dsimp only
  rw [trims, String.ofList_toList, String.ofList_toList]

theorem ofLine_shown_of (trimmed : Text.Trimmed entry.directive.toList)
    (undivided : ¬ Entry.delimiter.toList <:+: entry.directive.toList)
    (apart : entry.why ≠ "" → ¬ " //".toList <:+ entry.directive.toList) :
    Entry.ofLine entry.shown = entry := by
  by_cases bare : entry.why = ""
  · rw [shown_bare bare]
    exact ofLine_bare trimmed undivided bare
  · have blank : ∀ c ∈ [' '], Text.isBlank c = true := List.forall_mem_singleton.mpr (by decide)
    exact ofLine_justified blank trimmed undivided (apart bare) (shown_justified bare)

theorem ofLine_shown (legible : entry.Legible) : Entry.ofLine entry.shown = entry :=
  ofLine_shown_of legible.trimmed legible.undivided legible.apart

theorem trimmed_written (legible : entry.Legible) (justified : entry.why ≠ "") (after : List Char) :
    Text.Trimmed
      ((entry.directive.toList ++ after) ++ Entry.delimiter.toList ++ entry.why.toList) := by
  have named : entry.directive.toList ≠ [] := by simpa using legible.named
  have filled : entry.why.toList ≠ [] := by simpa using justified
  constructor
  · intro c first
    rw [List.append_assoc, List.append_assoc, List.head?_append_of_ne_nil _ named] at first
    exact legible.trimmed.1 c first
  · intro c last
    rw [List.getLast?_append_of_ne_nil _ filled] at last
    exact legible.closed c last

theorem trimmed_shown (legible : entry.Legible) : Text.Trimmed entry.shown.toList := by
  by_cases bare : entry.why = ""
  · rw [shown_bare bare]
    exact legible.trimmed
  · rw [shown_justified bare]
    exact trimmed_written legible bare [' ']

-- A removal stands behind its mark, as if the mark belonged to the directive.
def Entry.marked (entry : Entry) : Entry := ⟨Entry.removalMark ++ entry.directive, entry.why⟩

def Entry.removalLine (entry : Entry) : String := Entry.removalMark ++ entry.shown

theorem shown_marked (entry : Entry) : entry.marked.shown = entry.removalLine :=
  String.append_assoc

theorem withoutRemovalMark_marked (entry : Entry) : entry.marked.withoutRemovalMark = entry := by
  have behind : Text.after? Entry.removalMark.toList entry.marked.directive.toList =
      some entry.directive.toList := Text.after?_eq_some_iff.mpr String.toList_append
  rw [Entry.withoutRemovalMark, behind]
  simp only [String.ofList_toList]
  rfl

-- What stands in front may end in a blank, so a comment right behind it would read as a border.
theorem undivided_behind (unslashed : '/' ∉ front)
    (undivided : ¬ Entry.delimiter.toList <:+: directive)
    (uncommented : ¬ "//".toList <+: directive) :
    ¬ Entry.delimiter.toList <:+: front ++ directive := by
  intro found
  rcases Text.infix_across found with inFront | inDirective | ⟨k, bound, ends, begins⟩
  · exact unslashed (inFront.subset (by decide))
  · exact undivided inDirective
  · have slashed : ∀ k < Entry.delimiter.toList.length,
        k = 0 ∨ k = 1 ∨ '/' ∈ Entry.delimiter.toList.take k := by
      decide
    rcases slashed k bound with rfl | rfl | slash
    · exact undivided begins.isInfix
    · have opened : "//".toList <+: Entry.delimiter.toList.drop 1 := by decide
      exact uncommented (opened.trans begins)
    · exact unslashed (ends.subset slash)

theorem apart_behind (unslashed : '/' ∉ front) (named : directive ≠ [])
    (apart : ¬ " //".toList <:+ directive) (uncommented : ¬ "//".toList <+: directive) :
    ¬ " //".toList <:+ front ++ directive := by
  intro ends
  rcases List.suffix_or_suffix_of_suffix ends (List.suffix_append _ _) with inside | within
  · exact apart inside
  · have short : ∀ text ∈ " //".toList.tails,
        text = [] ∨ text = ['/'] ∨ "//".toList <+: text ∨ " //".toList <:+ text := by
      decide
    rcases short _ ((List.mem_tails _ _).mpr within) with empty | rfl | opened | closed
    · exact named empty
    · have border : " //".toList = [' ', '/'] ++ ['/'] := by decide
      rw [border] at ends
      have before := (List.suffix_append_inj_of_length_eq rfl).mp ends
      exact unslashed (before.1.subset (by decide))
    · exact uncommented opened
    · exact apart closed

theorem legible_behind (front : List Char) (legible : entry.Legible)
    (uncommented : ¬ "//".toList <+: entry.directive.toList) (opens : front.head? = some first)
    (visible : Text.isBlank first = false) (unslashed : '/' ∉ front) :
    Entry.Legible ⟨String.ofList front ++ entry.directive, entry.why⟩ := by
  have named : entry.directive.toList ≠ [] := by simpa using legible.named
  have filled : front ≠ [] := by
    rintro rfl
    cases opens
  have written : (String.ofList front ++ entry.directive).toList =
      front ++ entry.directive.toList := by
    rw [String.toList_append, String.toList_ofList]
  refine ⟨?_, ?_, ?_, fun justified => ?_, legible.closed⟩
  · simp [legible.named]
  · rw [written]
    constructor
    · intro c head
      rw [List.head?_append_of_ne_nil _ filled] at head
      cases opens.symm.trans head
      exact visible
    · intro c last
      rw [List.getLast?_append_of_ne_nil _ named] at last
      exact legible.trimmed.2 c last
  · rw [written]
    exact undivided_behind unslashed legible.undivided uncommented
  · rw [written]
    exact apart_behind unslashed named (legible.apart justified) uncommented

theorem legible_marked (legible : entry.Legible)
    (uncommented : ¬ "//".toList <+: entry.directive.toList) : entry.marked.Legible :=
  legible_behind Entry.removalMark.toList legible uncommented rfl (by decide) (by decide)

theorem ofLine_removalLine (legible : entry.Legible)
    (uncommented : ¬ "//".toList <+: entry.directive.toList) :
    (Entry.ofLine entry.removalLine).withoutRemovalMark = entry := by
  have marked := legible_marked legible uncommented
  rw [← shown_marked, ofLine_shown marked, withoutRemovalMark_marked]

-- A line that begins like neither noise nor the boundary is a header or content.
theorem kind_of_start (starts : line.toList = first :: second :: rest) (silent : first ≠ 'e')
    (open_ : second ≠ '-') :
    Layout.builtin.kind line =
      match Layout.builtin.header? line with
      | some header => .header header
      | none => .content := by
  have filled : line.isEmpty = false := by
    rw [Bool.eq_false_iff]
    intro empty
    rw [String.isEmpty_iff.mp empty] at starts
    cases starts
  have noiseless : Layout.builtin.isNoise line = false := by
    have mark : Layout.builtin.errorMark.toList = 'e' :: "rror:".toList := by decide
    rw [Layout.isNoise, filled, mark, starts, List.isPrefixOf]
    simp [Ne.symm silent]
  have unbounded : Layout.isBoundary line = false := by
    rw [Layout.isBoundary, decide_eq_false_iff_not]
    rintro rfl
    cases starts
    exact open_ rfl
  rw [Layout.kind, noiseless, unbounded]
  rfl

theorem trim_framed (opens : opening.toList.head? = some first)
    (closes : closing.toList.getLast? = some last) (seenFirst : Text.isBlank first = false)
    (seenLast : Text.isBlank last = false) (file : String) :
    Text.trim (opening ++ file ++ closing) = opening ++ file ++ closing := by
  have openingFilled : opening.toList ≠ [] := fun empty => by rw [empty] at opens; cases opens
  have closingFilled : closing.toList ≠ [] := fun empty => by rw [empty] at closes; cases closes
  refine Text.trim_of_trimmed ⟨fun c head => ?_, fun c end_ => ?_⟩
  · rw [framed_toList, List.head?_append_of_ne_nil _ openingFilled] at head
    cases opens.symm.trans head
    exact seenFirst
  · rw [framed_toList, ← List.append_assoc, List.getLast?_append_of_ne_nil _ closingFilled] at end_
    cases closes.symm.trans end_
    exact seenLast

theorem kind_additionsHeader (oneLine : '\n' ∉ file.toList) :
    Layout.builtin.kind (Text.trim ("../" ++ file ++ " should add these lines:")) =
      .header ⟨.add, file⟩ := by
  rw [trim_framed rfl rfl (by decide) (by decide),
    kind_of_start (framed_toList "../" file _) (by decide) (by decide), header?_additions oneLine]

theorem kind_removalsHeader (oneLine : '\n' ∉ file.toList)
    (unannounced : ¬ " should add these lines:".toList <:+: file.toList) :
    Layout.builtin.kind (Text.trim ("../" ++ file ++ " should remove these lines:")) =
      .header ⟨.remove, file⟩ := by
  rw [trim_framed rfl rfl (by decide) (by decide),
    kind_of_start (framed_toList "../" file _) (by decide) (by decide),
    header?_removals oneLine unannounced]

theorem kind_fullListHeader (oneLine : '\n' ∉ file.toList) :
    Layout.builtin.kind (Text.trim ("The full include-list for ../" ++ file ++ ":")) =
      .header ⟨.fullList, file⟩ := by
  rw [trim_framed rfl rfl (by decide) (by decide),
    kind_of_start (framed_toList "The full include-list for ../" file _) (by decide) (by decide),
    header?_fullList oneLine]

theorem kind_removalLine (entry : Entry) : Layout.builtin.kind entry.removalLine = .content := by
  have starts : entry.removalLine.toList = '-' :: ' ' :: entry.shown.toList := String.toList_append
  have opened : ∀ shape ∈ Layout.builtin.shapes,
      ∃ first, shape.opening.toList.head? = some first ∧ first ≠ '-' := by
    simp [Layout.builtin, Layout.shapes]
  have headless : Layout.builtin.header? entry.removalLine = none := by
    rw [Layout.header?, List.findSome?_eq_none_iff]
    intro shape member
    obtain ⟨first, opens, other⟩ := opened shape member
    have foreign : entry.removalLine.toList.head? ≠ some first := by
      rw [starts]
      exact fun same => other (Option.some.inj same).symm
    rw [file?_foreign shape opens foreign]
    rfl
  rw [kind_of_start starts (by decide) (by decide), headless]

end IncludeTidy
