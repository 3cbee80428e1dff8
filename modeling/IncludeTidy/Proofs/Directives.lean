import IncludeTidy.Proofs.Written

namespace IncludeTidy

variable {entry : Entry} {before after : List Char}

theorem trimmed_ofLine (line : String) : Text.Trimmed (Entry.ofLine line).directive.toList := by
  unfold Entry.ofLine
  split
  · exact Text.trimmed_trim _
  · exact Text.trimmed_trim _

theorem undivided_ofLine (line : String) :
    ¬ Entry.delimiter.toList <:+: (Entry.ofLine line).directive.toList := by
  unfold Entry.ofLine
  split
  · rename_i left right found
    intro within
    have inLeft := within.trans (Text.trim_within _)
    rw [String.toList_ofList] at inLeft
    exact Text.splitFirst?_first (by decide) found (List.infix_append_of_infix_left inLeft)
  · rename_i nothing
    intro within
    exact Text.splitFirst?_eq_none_iff.mp nothing (within.trans (Text.trim_within _))

-- With the blank that is shown behind it, such a directive ends in a whole border.
theorem delimiter_closes (meets : " //".toList <:+ directive) :
    Entry.delimiter.toList <:+: directive ++ [' '] := by
  obtain ⟨front, rfl⟩ := meets
  have whole : Entry.delimiter.toList = " //".toList ++ [' '] := by decide
  rw [List.append_assoc, ← whole]
  exact (List.suffix_append _ _).isInfix

theorem apart_of_reads_back (justified : entry.why ≠ "")
    (readsBack : Entry.ofLine entry.shown = entry) : ¬ " //".toList <:+ entry.directive.toList := by
  intro meets
  have written := shown_justified justified
  unfold Entry.ofLine at readsBack
  split at readsBack
  · rename_i left right found
    have joined := Text.splitFirst?_joined found
    have why : right = entry.why.toList := by
      rw [← readsBack]
      exact String.toList_ofList.symm
    have front : left = entry.directive.toList ++ [' '] := by
      rw [written, why] at joined
      exact (List.append_cancel_right (List.append_cancel_right joined)).symm
    apply Text.splitFirst?_first (by decide) found
    rw [front]
    exact List.infix_append_of_infix_left (delimiter_closes meets)
  · rename_i nothing
    apply Text.splitFirst?_eq_none_iff.mp nothing
    rw [written]
    exact List.infix_append_of_infix_left (List.suffix_append _ _).isInfix

theorem ofLine_shown_iff (line : String) :
    Entry.ofLine (Entry.ofLine line).shown = Entry.ofLine line ↔
      (Entry.ofLine line).why = "" ∨ ¬ " //".toList <:+ (Entry.ofLine line).directive.toList := by
  constructor
  · intro readsBack
    by_cases bare : (Entry.ofLine line).why = ""
    · exact .inl bare
    · exact .inr (apart_of_reads_back bare readsBack)
  · intro fine
    apply ofLine_shown_of (trimmed_ofLine line) (undivided_ofLine line)
    intro justified
    exact fine.resolve_left justified

theorem blockLine_plain (mark : String) (entry : Entry) :
    entry.blockLine mark none = mark ++ entry.shown ++ "\n" := by
  simp only [Entry.blockLine, Entry.shown, String.append_assoc]

-- A directive that ends like the border makes the shown line have its border too early.
theorem shown_reads_back_iff (raw mark : String) :
    (Entry.ofLine (Text.trim raw)).blockLine mark none =
        mark ++ (Entry.ofLine (Text.trim raw)).shown ++ "\n" ∧
      let entry := Entry.ofLine (Text.trim raw)
      (Entry.ofLine entry.shown = entry ↔
        entry.why = "" ∨ ¬ " //".toList <:+ entry.directive.toList) :=
  ⟨blockLine_plain mark _, ofLine_shown_iff (Text.trim raw)⟩

-- A tab keeps the first border from being one, until the entry is shown with blanks in its place.
example :
    let entry := Entry.ofLine "x //\t // y"
    entry = ⟨"x //", "y"⟩ ∧ Entry.ofLine entry.shown = ⟨"x", " // y"⟩ := by
  decide +kernel

-- The line of an entry with blanks around its directive, as many as one likes.
def Entry.spaced (entry : Entry) (before after : List Char) : String :=
  String.ofList (before ++ entry.directive.toList ++ after ++
    if entry.why = "" then [] else Entry.delimiter.toList ++ entry.why.toList)

theorem ofLine_spaced (legible : entry.Legible) (opening : ∀ c ∈ before, Text.isBlank c = true)
    (closing : ∀ c ∈ after, Text.isBlank c = true) :
    Entry.ofLine (Text.trim (entry.spaced before after)) = entry := by
  unfold Entry.spaced
  by_cases bare : entry.why = ""
  · rw [if_pos bare, List.append_nil, Text.trim_spaced opening closing legible.trimmed,
      String.ofList_toList]
    exact ofLine_bare legible.trimmed legible.undivided bare
  · have whole := trimmed_written legible bare after
    have nothing : ∀ c ∈ ([] : List Char), Text.isBlank c = true := nofun
    have trims := Text.trim_spaced opening nothing whole
    rw [List.append_nil] at trims
    rw [if_neg bare, List.append_assoc, List.append_assoc, ← List.append_assoc _ after,
      ← List.append_assoc _ Entry.delimiter.toList, trims]
    exact ofLine_justified closing legible.trimmed legible.undivided (legible.apart bare)
      String.toList_ofList

end IncludeTidy
