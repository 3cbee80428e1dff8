import IncludeTidy.Proofs.Separators
import IncludeTidy.Ruleset.Builtin

namespace IncludeTidy

variable {shape : HeaderShape} {file line rest : String}

-- The file that a line names by its shape: of all that fit, the longest.
structure HeaderShape.Names (shape : HeaderShape) (file line : String) : Prop where
  fits : shape.Fits file line
  longest : ∀ other, shape.Fits other line → other.length ≤ file.length

theorem fits_iff (shape : HeaderShape) (file line : String) :
    shape.Fits file line ↔ ∃ rest, Text.after? shape.opening.toList line.toList = some rest ∧
      '\n' ∉ file.toList ∧ file.toList ++ shape.closing.toList <+: rest := by
  unfold HeaderShape.Fits
  simp only [String.toList_append, Text.after?_eq_some_iff, List.append_assoc]
  constructor
  · rintro ⟨oneLine, after, joined⟩
    refine ⟨_, joined.symm.trans (List.append_assoc _ _ _), oneLine, after, rfl⟩
  · rintro ⟨rest, joined, oneLine, begins⟩
    rw [joined]
    exact ⟨oneLine, (List.prefix_append_right_inj _).mpr begins⟩

theorem file?_eq_some_iff (shape : HeaderShape) (line file : String) :
    shape.file? line = some file ↔ shape.Names file line := by
  unfold HeaderShape.file?
  cases behind : Text.after? shape.opening.toList line.toList with
  | none =>
    have unfit : ¬ shape.Fits file line := by simp [fits_iff, behind]
    exact ⟨nofun, fun named => absurd named.fits unfit⟩
  | some rest =>
    have fits : ∀ other, shape.Fits other line ↔
        '\n' ∉ other.toList ∧ other.toList ++ shape.closing.toList <+: rest := by
      intro other
      simp [fits_iff, behind]
    rw [Option.bind_some, Option.map_eq_some_iff]
    constructor
    · rintro ⟨found, before, rfl⟩
      obtain ⟨first, longest⟩ := Text.longestBefore?_eq_some_iff.mp before
      refine ⟨(fits _).mpr (by simpa using first), fun other fit => ?_⟩
      obtain ⟨oneLine, begins⟩ := (fits other).mp fit
      simpa [String.length_toList] using longest other.toList oneLine begins
    · rintro ⟨fit, longest⟩
      refine ⟨file.toList, Text.longestBefore?_eq_some_iff.mpr ⟨(fits file).mp fit, ?_⟩,
        String.ofList_toList⟩
      intro other oneLine begins
      have bound := longest (String.ofList other) ((fits _).mpr (by simpa using ⟨oneLine, begins⟩))
      simpa [String.length_toList] using bound

-- Where a shape fits at all, one of the files that fit is the longest.
theorem names_of_fits (fits : shape.Fits file line) : ∃ longest, shape.Names longest line := by
  obtain ⟨rest, behind, oneLine, begins⟩ := (fits_iff _ _ _).mp fits
  obtain ⟨found, before, _⟩ := Text.longestBefore?_longest oneLine begins
  refine ⟨String.ofList found, (file?_eq_some_iff _ _ _).mp ?_⟩
  simp [HeaderShape.file?, behind, before]

theorem file?_eq_none_iff (shape : HeaderShape) (line : String) :
    shape.file? line = none ↔ ∀ file, ¬ shape.Fits file line := by
  rw [Option.eq_none_iff_forall_ne_some]
  constructor
  · intro nothing file fits
    obtain ⟨longest, named⟩ := names_of_fits fits
    exact nothing longest ((file?_eq_some_iff _ _ _).mpr named)
  · intro unfit file found
    exact unfit file ((file?_eq_some_iff _ _ _).mp found).fits

theorem header?_eq_some_iff (layout : Layout) (line : String) (header : Header) :
    layout.header? line = some header ↔
      ∃ before shape after, layout.shapes = before ++ shape :: after ∧
        (∀ earlier ∈ before, ∀ file, ¬ earlier.Fits file line) ∧
        shape.signal = header.signal ∧ shape.Names header.file line := by
  obtain ⟨signal, file⟩ := header
  unfold Layout.header?
  simp only [List.findSome?_eq_some_iff, Option.map_eq_none_iff, Option.map_eq_some_iff,
    file?_eq_none_iff, file?_eq_some_iff, Header.mk.injEq]
  constructor
  · rintro ⟨before, shape, after, parts, ⟨_, named, signals, rfl⟩, unfit⟩
    exact ⟨before, shape, after, parts, unfit, signals, named⟩
  · rintro ⟨before, shape, after, parts, unfit, signals, named⟩
    exact ⟨before, shape, after, parts, ⟨_, named, signals, rfl⟩, unfit⟩

theorem header?_eq_none_iff (layout : Layout) (line : String) :
    layout.header? line = none ↔ ∀ shape ∈ layout.shapes, ∀ file, ¬ shape.Fits file line := by
  unfold Layout.header?
  simp only [List.findSome?_eq_none_iff, Option.map_eq_none_iff, file?_eq_none_iff]

theorem framed_toList (opening file closing : String) :
    (opening ++ file ++ closing).toList = opening.toList ++ (file.toList ++ closing.toList) := by
  rw [String.toList_append, String.toList_append, List.append_assoc]

theorem file?_written (shape : HeaderShape) (oneLine : '\n' ∉ file.toList) :
    shape.file? (shape.opening ++ file ++ shape.closing) = some file := by
  apply (file?_eq_some_iff _ _ _).mpr
  refine ⟨⟨oneLine, List.prefix_rfl⟩, fun other fits => ?_⟩
  have size := fits.2.length_le
  simp only [framed_toList, List.length_append, String.length_toList] at size
  omega

-- No line of a shape starts with another character than the shape.
theorem file?_foreign (shape : HeaderShape) (opens : shape.opening.toList.head? = some first)
    (foreign : line.toList.head? ≠ some first) : shape.file? line = none := by
  apply (file?_eq_none_iff _ _).mpr
  rintro file ⟨_, begins⟩
  rw [framed_toList] at begins
  apply foreign
  exact Text.head?_of_begins ((List.prefix_append _ _).trans begins) first opens

theorem file?_unclosed (shape : HeaderShape)
    (absent : ¬ shape.closing.toList <:+: rest.toList) :
    shape.file? (shape.opening ++ rest) = none := by
  apply (file?_eq_none_iff _ _).mpr
  rintro file ⟨_, begins⟩
  rw [framed_toList, String.toList_append] at begins
  have behind := (List.prefix_append_right_inj _).mp begins
  exact absent ((List.suffix_append _ _).isInfix.trans behind.isInfix)

-- Headers as they are written for a file under the built-in layout.
theorem header?_additions (oneLine : '\n' ∉ file.toList) :
    Layout.builtin.header? ("../" ++ file ++ " should add these lines:") = some ⟨.add, file⟩ := by
  have first := file?_written ⟨"../", " should add these lines:", .add⟩ oneLine
  simp only [Layout.header?, Layout.shapes, Layout.builtin, List.findSome?_cons, first,
    Option.map_some]

-- The first header's closing words could only begin in the file's name.
theorem header?_removals (oneLine : '\n' ∉ file.toList)
    (unannounced : ¬ " should add these lines:".toList <:+: file.toList) :
    Layout.builtin.header? ("../" ++ file ++ " should remove these lines:") =
      some ⟨.remove, file⟩ := by
  have absent : ¬ " should add these lines:".toList <:+:
      (file ++ " should remove these lines:").toList := by
    intro found
    rw [String.toList_append] at found
    rcases Text.infix_across found with inFile | inClosing | ⟨k, bound, _, begins⟩
    · exact unannounced inFile
    · exact absurd inClosing (by decide)
    · have splits : ∀ k < " should add these lines:".toList.length,
          ¬ " should add these lines:".toList.drop k <+: " should remove these lines:".toList := by
        decide
      exact splits k bound begins
  have first := file?_unclosed ⟨"../", " should add these lines:", .add⟩ absent
  have second := file?_written ⟨"../", " should remove these lines:", .remove⟩ oneLine
  rw [← String.append_assoc] at first
  simp only [Layout.header?, Layout.shapes, Layout.builtin, List.findSome?_cons, first, second,
    Option.map_none, Option.map_some]

theorem header?_fullList (oneLine : '\n' ∉ file.toList) :
    Layout.builtin.header? ("The full include-list for ../" ++ file ++ ":") =
      some ⟨.fullList, file⟩ := by
  have foreign : ("The full include-list for ../" ++ file ++ ":").toList.head? ≠ some '.' := by
    rw [framed_toList]
    exact nofun
  have first := file?_foreign ⟨"../", " should add these lines:", .add⟩ rfl foreign
  have second := file?_foreign ⟨"../", " should remove these lines:", .remove⟩ rfl foreign
  have third := file?_written ⟨"The full include-list for ../", ":", .fullList⟩ oneLine
  have opening : "The full include-list for " ++ "../" = "The full include-list for ../" := rfl
  simp only [Layout.header?, Layout.shapes, Layout.builtin, List.findSome?_cons, first, second,
    opening, third, Option.map_none, Option.map_some]

theorem header?_correct (oneLine : '\n' ∉ file.toList) :
    Layout.builtin.header? ("(../" ++ file ++ " has correct #includes/fwd-decls)") =
      some ⟨.correct, file⟩ := by
  have foreign : ∀ first, first ≠ '(' →
      ("(../" ++ file ++ " has correct #includes/fwd-decls)").toList.head? ≠ some first := by
    intro first other
    rw [framed_toList]
    exact fun same => other (Option.some.inj same).symm
  have first := file?_foreign ⟨"../", " should add these lines:", .add⟩ rfl
    (foreign '.' (by decide))
  have second := file?_foreign ⟨"../", " should remove these lines:", .remove⟩ rfl
    (foreign '.' (by decide))
  have third := file?_foreign ⟨"The full include-list for ../", ":", .fullList⟩ rfl
    (foreign 'T' (by decide))
  have fourth := file?_written ⟨"(../", " has correct #includes/fwd-decls)", .correct⟩ oneLine
  have opening : "The full include-list for " ++ "../" = "The full include-list for ../" := rfl
  have bracket : "(" ++ "../" = "(../" := rfl
  simp only [Layout.header?, Layout.shapes, Layout.builtin, List.findSome?_cons, first, second,
    opening, bracket, third, fourth, Option.map_none, Option.map_some]

-- A name that holds the words of the first shape makes the line a header of that shape.
theorem header?_removals_iff (oneLine : '\n' ∉ file.toList) :
    Layout.builtin.header? ("../" ++ file ++ " should remove these lines:") =
        some ⟨.remove, file⟩ ↔
      ¬ " should add these lines:".toList <:+: file.toList := by
  refine ⟨fun found announced => ?_, header?_removals oneLine⟩
  obtain ⟨name, after, joined⟩ := announced
  have named : (String.ofList name).toList = name := String.toList_ofList
  have fits : HeaderShape.Fits ⟨"../", " should add these lines:", .add⟩ (String.ofList name)
      ("../" ++ file ++ " should remove these lines:") := by
    constructor
    · rw [named]
      intro feed
      apply oneLine
      rw [← joined]
      exact List.mem_append_left _ (List.mem_append_left _ feed)
    · have begins : name ++ " should add these lines:".toList <+:
          file.toList ++ " should remove these lines:".toList := by
        rw [← joined, List.append_assoc]
        exact List.prefix_append _ _
      rw [framed_toList, framed_toList, named]
      exact (List.prefix_append_right_inj _).mpr begins
  obtain ⟨before, shape, rest, parts, unfit, signal, _⟩ := (header?_eq_some_iff _ _ _).mp found
  cases before with
  | nil =>
    cases (List.cons.inj parts).1
    cases signal
  | cons first before =>
    cases (List.cons.inj parts).1
    exact unfit _ List.mem_cons_self _ fits

-- The four shapes are tried in order, each with the longest file that fits. Of the headers written
-- for a file, only that of removals can be taken for another, as the shape of additions is tried
-- before it.
theorem header?_decided (pathMark errorMark : String) (visible : Text.trim errorMark ≠ "") :
    let layout : Layout := ⟨pathMark, errorMark, visible⟩
    let shapes : List HeaderShape :=
      [⟨pathMark, " should add these lines:", .add⟩,
       ⟨pathMark, " should remove these lines:", .remove⟩,
       ⟨"The full include-list for " ++ pathMark, ":", .fullList⟩,
       ⟨"(" ++ pathMark, " has correct #includes/fwd-decls)", .correct⟩]
    let usual : Layout := ⟨"../", errorMark, visible⟩
    Layout.ofMarks? pathMark errorMark = .ok layout ∧
      (∀ line header, layout.header? line = some header ↔
        ∃ before shape after, shapes = before ++ shape :: after ∧
          (∀ earlier ∈ before, ∀ file, ¬ earlier.Fits file line) ∧
          shape.signal = header.signal ∧ shape.Names header.file line) ∧
      (∀ line, layout.header? line = none ↔ ∀ shape ∈ shapes, ∀ file, ¬ shape.Fits file line) ∧
      ∀ file : String, '\n' ∉ file.toList →
        usual.header? ("../" ++ file ++ " should add these lines:") =
          some ⟨.add, file⟩ ∧
        usual.header? ("The full include-list for ../" ++ file ++ ":") =
          some ⟨.fullList, file⟩ ∧
        usual.header? ("(../" ++ file ++ " has correct #includes/fwd-decls)") =
          some ⟨.correct, file⟩ ∧
        (usual.header? ("../" ++ file ++ " should remove these lines:") =
            some ⟨.remove, file⟩ ↔
          ¬ " should add these lines:".toList <:+: file.toList) := by
  intro layout shapes usual
  refine ⟨dif_pos visible, header?_eq_some_iff layout, header?_eq_none_iff layout,
    fun file oneLine => ?_⟩
  exact ⟨header?_additions oneLine, header?_fullList oneLine, header?_correct oneLine,
    header?_removals_iff oneLine⟩

-- The closing words stand twice in the first line, a line feed stands before them in the second,
-- and the file of the third has them in its name.
theorem header?_decided_overlapping :
    let visible : Text.trim "!" ≠ "" := by decide
    let layout : Layout := ⟨"a.b\n", "!", visible⟩
    let usual : Layout := ⟨"../", "!", visible⟩
    Text.trim "!" ≠ "" ∧
      (∃ shape ∈ layout.shapes, shape.signal = .add ∧ shape.Names "x should add these lines:"
        "a.b\nx should add these lines: should add these lines: y") ∧
      (∀ shape ∈ layout.shapes, ∀ file, ¬ shape.Fits file "a.b\nx\n should add these lines:") ∧
      usual.header? "../x should add these lines: should remove these lines:" ≠
        some ⟨.remove, "x should add these lines:"⟩ := by
  intro visible layout usual
  obtain ⟨_, found, nothing, written⟩ := header?_decided "a.b\n" "!" visible
  refine ⟨visible, ?_, (nothing _).mp (by decide +kernel), fun removes => ?_⟩
  · have first : layout.header? "a.b\nx should add these lines: should add these lines: y" =
        some ⟨.add, "x should add these lines:"⟩ := by
      decide +kernel
    obtain ⟨before, shape, after, parts, _, signal, named⟩ := (found _ _).mp first
    have shapes : layout.shapes = before ++ shape :: after := parts
    exact ⟨shape, by simp [shapes], signal, named⟩
  · obtain ⟨_, _, _, removal⟩ := written "x should add these lines:" (by decide)
    exact absurd (by decide) (removal.mp removes)

end IncludeTidy
