import IncludeTidy.Proofs.Directives
import IncludeTidy.Proofs.Suggestions

namespace IncludeTidy

-- What holds of every key: it is there, it ends in no blank, and it has no border in it.
structure LooseKey (key : String) : Prop where
  named : key ≠ ""
  closed : ∀ c, key.toList.getLast? = some c → Text.isBlank c = false
  undivided : ¬ Entry.delimiter.toList <:+: key.toList

def OpensBlank (key : String) : Prop := ∃ c, key.toList.head? = some c ∧ Text.isBlank c = true

structure NormalKey (key : String) : Prop extends LooseKey key where
  opened : ¬ OpensBlank key

variable {entry : Entry} {line raw key : String} {rules : Ruleset}

theorem normalKey_iff (key : String) :
    NormalKey key ↔
      key ≠ "" ∧ Text.Trimmed key.toList ∧ ¬ Entry.delimiter.toList <:+: key.toList := by
  constructor
  · rintro ⟨⟨named, closed, undivided⟩, opened⟩
    refine ⟨named, ⟨fun c head => ?_, closed⟩, undivided⟩
    rw [← Bool.not_eq_true]
    exact fun blank => opened ⟨c, head, blank⟩
  · rintro ⟨named, trimmed, undivided⟩
    refine ⟨⟨named, trimmed.2, undivided⟩, ?_⟩
    rintro ⟨c, head, blank⟩
    cases (trimmed.1 c head).symm.trans blank

theorem named_ofLine (trimmed : Text.Trimmed line.toList) (filled : line ≠ "") :
    (Entry.ofLine line).directive ≠ "" := by
  unfold Entry.ofLine
  split
  · rename_i left right found
    have joined := Text.splitFirst?_joined found
    rw [joined] at trimmed
    cases left with
    | nil =>
      have blank : Text.isBlank ' ' = false := trimmed.1 ' ' rfl
      exact absurd blank (by decide)
    | cons c rest => exact Text.trim_visible rfl (trimmed.1 c rfl)
  · rw [Text.trim_of_trimmed trimmed]
    exact filled

theorem normalKey_ofLine (filled : Text.trim raw ≠ "") :
    NormalKey (Entry.ofLine (Text.trim raw)).directive :=
  (normalKey_iff _).mpr
    ⟨named_ofLine (Text.trimmed_trim raw) filled, trimmed_ofLine _, undivided_ofLine _⟩

theorem filled_of_content {layout : Layout} (content : layout.kind line = .content) :
    line ≠ "" := by
  rintro rfl
  unfold Layout.kind Layout.isNoise at content
  simp at content

theorem unmarked_of_marked (marked : entry.directive = Entry.removalMark ++ key) :
    entry.withoutRemovalMark = ⟨key, entry.why⟩ := by
  obtain ⟨_, why⟩ := entry
  cases marked
  exact withoutRemovalMark_marked ⟨key, why⟩

theorem unmarked_cases (entry : Entry) :
    entry.withoutRemovalMark = entry ∨
      entry.directive = Entry.removalMark ++ entry.withoutRemovalMark.directive := by
  unfold Entry.withoutRemovalMark
  split
  · rename_i rest behind
    have joined := Text.after?_eq_some_iff.mp behind
    refine .inr (String.toList_inj.mp ?_)
    rw [joined, String.toList_append, String.toList_ofList]
  · exact .inl rfl

-- The mark takes its blank along, so what is left of a directive is never nothing.
theorem looseKey_unmarked (normal : NormalKey entry.directive) :
    LooseKey entry.withoutRemovalMark.directive := by
  rcases unmarked_cases entry with same | marked
  · rw [same]
    exact normal.toLooseKey
  · obtain ⟨_, closed, undivided⟩ := normal.toLooseKey
    rw [marked, String.toList_append] at closed undivided
    refine ⟨fun empty => ?_, fun c last => ?_, fun within => ?_⟩
    · rw [empty] at closed
      exact absurd (closed ' ' rfl) (by decide)
    · apply closed c
      rw [List.getLast?_append, last]
      rfl
    · exact undivided (within.trans (List.suffix_append _ _).isInfix)

theorem marked_of_opensBlank (normal : NormalKey entry.directive)
    (blank : OpensBlank entry.withoutRemovalMark.directive) :
    entry.directive = Entry.removalMark ++ entry.withoutRemovalMark.directive := by
  rcases unmarked_cases entry with same | marked
  · rw [same] at blank
    exact absurd blank normal.opened
  · exact marked

-- A removal with blanks of its own behind the mark.
def Entry.behind (gap : List Char) (entry : Entry) : Entry :=
  ⟨Entry.removalMark ++ String.ofList gap ++ entry.directive, entry.why⟩

theorem legible_gap (legible : entry.Legible)
    (uncommented : ¬ "//".toList <+: entry.directive.toList)
    (blanks : ∀ c ∈ gap, Text.isBlank c = true) : (entry.behind gap).Legible := by
  have visible : Text.isBlank '/' = false := by decide
  have unslashed : '/' ∉ Entry.removalMark.toList ++ gap := by
    intro member
    rcases List.mem_append.mp member with inMark | inGap
    · exact absurd inMark (by decide)
    · cases (blanks _ inGap).symm.trans visible
  have written := legible_behind (Entry.removalMark.toList ++ gap) legible uncommented rfl
    (by decide) unslashed
  rwa [String.ofList_append, String.ofList_toList] at written

theorem unmarked_behind (gap : List Char) (entry : Entry) :
    (entry.behind gap).withoutRemovalMark = ⟨String.ofList gap ++ entry.directive, entry.why⟩ :=
  unmarked_of_marked String.append_assoc

namespace Classifier

variable [Receiver σ ε] {c : Classifier} {s : State σ} {receiver : σ} {lines : List String}
  {number : Nat} {report : FileReport} {one : Intake} {section_ : Section}

theorem intake?_line (taken : c.intake? s raw = some one) :
    one.line = Text.trim raw ∧ c.rules.layout.kind one.line = .content := by
  unfold intake? at taken
  split at taken
  · rename_i content _ _
    cases taken
    exact ⟨rfl, content⟩
  · cases taken

theorem taken_line {reads : List Text.LineRead} (member : one ∈ c.taken number s reads) :
    ∃ raw, one.line = Text.trim raw ∧ c.rules.layout.kind one.line = .content := by
  induction reads generalizing s with
  | nil => cases member
  | cons read rest ih =>
    cases read with
    | error fault => cases member
    | ok raw =>
      rw [taken, List.mem_append] at member
      rcases member with here | later
      · split at here
        · exact ⟨raw, intake?_line (Option.mem_toList.mp here)⟩
        · cases here
      · exact ih later

theorem normalKey_intake
    (member : entry ∈ Intake.entries section_ (c.intake receiver lines number)) :
    NormalKey entry.directive := by
  obtain ⟨one, taken, rfl⟩ := List.mem_map.mp member
  obtain ⟨raw, line, content⟩ := taken_line (List.mem_of_mem_filter taken)
  have filled := filled_of_content content
  rw [line] at filled ⊢
  exact normalKey_ofLine filled

theorem handed_addition_key (handed : (c.handed receiver lines)[number]? = some report)
    (member : key ∈ report.additions.directives) :
    NormalKey key ∨ key = c.rules.umbrella.header ∧
      ((FileReport.gathered c.rules report.file
        (c.intake receiver lines number)).consolidate c.rules.umbrella).2 = .injected := by
  obtain ⟨entry, added, rfl⟩ := List.mem_map.mp member
  rw [handed_gathered handed] at added
  rcases finished_addition c.rules added with kept | ⟨rfl, injected⟩
  · have named := (EntryMap.contains_iff _ _).mpr (List.mem_map_of_mem kept)
    obtain ⟨other, listed, same, _⟩ := (gathered_additions_iff _ _ _ _).mp named
    exact .inl (same ▸ normalKey_intake listed)
  · exact .inr ⟨rfl, injected⟩

theorem handed_fullList_key (handed : (c.handed receiver lines)[number]? = some report)
    (member : key ∈ report.fullList.directives) : NormalKey key := by
  rw [← EntryMap.contains_iff, handed_gathered handed, finished_fullList, gathered_eq,
    EntryMap.contains_ofList] at member
  obtain ⟨entry, listed, rfl⟩ := member
  exact normalKey_intake listed

theorem handed_removal_iff (handed : (c.handed receiver lines)[number]? = some report)
    (key : String) :
    key ∈ report.removals.directives ↔
      (∃ entry ∈ Intake.entries .removals (c.intake receiver lines number),
        entry.withoutRemovalMark.directive = key) ∧
        ¬ (report.needsUmbrella = true ∧ key = c.rules.umbrella.header) := by
  have total := handed_gathered handed
  have needed := finished_needsUmbrella c.rules
    (FileReport.gathered c.rules report.file (c.intake receiver lines number))
  have removes := finished_removals_contains c.rules
    (FileReport.gathered c.rules report.file (c.intake receiver lines number)) key
  rw [← total] at needed removes
  rw [← EntryMap.contains_iff, removes, gathered_removals_iff, ← needed]
  simp only [List.mem_map, exists_exists_and_eq_and]

-- The last part is about two lines for one entry: blanks around the directive change nothing, and
-- those behind the mark of a removal are kept.
theorem keys_normal_but_marked (handed : (c.handed receiver lines)[number]? = some report) :
    let header := c.rules.umbrella.header
    let taken := c.intake receiver lines number
    let gathered := FileReport.gathered c.rules report.file taken
    (∀ key ∈ report.additions.directives, NormalKey key ∨
      key = header ∧ (gathered.consolidate c.rules.umbrella).2 = .injected) ∧
    (∀ key ∈ report.fullList.directives, NormalKey key) ∧
    (∀ key ∈ report.removals.directives, LooseKey key) ∧
    (∀ key, OpensBlank key → (key ∈ report.removals.directives ↔
      (∃ entry ∈ Intake.entries .removals taken, entry.directive = Entry.removalMark ++ key) ∧
        ¬ (report.needsUmbrella = true ∧ key = header))) ∧
    ∀ entry : Entry, entry.Legible → ∀ before after : List Char,
      (∀ c ∈ before, Text.isBlank c = true) → (∀ c ∈ after, Text.isBlank c = true) →
        Entry.ofLine (Text.trim (entry.spaced before after)) = entry ∧
          ∀ gap, (∀ c ∈ gap, Text.isBlank c = true) → ¬ "//".toList <+: entry.directive.toList →
            (Entry.ofLine (Text.trim ((entry.behind gap).spaced before after))).withoutRemovalMark =
              ⟨String.ofList gap ++ entry.directive, entry.why⟩ := by
  intro header taken gathered
  refine ⟨fun key => handed_addition_key handed, fun key => handed_fullList_key handed,
    fun key member => ?_, fun key blank => ?_,
    fun entry legible before after opening closing => ⟨?_, ?_⟩⟩
  · obtain ⟨⟨entry, listed, rfl⟩, _⟩ := (handed_removal_iff handed key).mp member
    exact looseKey_unmarked (normalKey_intake listed)
  · rw [handed_removal_iff handed]
    apply and_congr_left
    intro _
    constructor
    · rintro ⟨entry, listed, rfl⟩
      exact ⟨entry, listed, marked_of_opensBlank (normalKey_intake listed) blank⟩
    · rintro ⟨entry, listed, marked⟩
      refine ⟨entry, listed, ?_⟩
      rw [unmarked_of_marked marked]
  · exact ofLine_spaced legible opening closing
  · intro gap blanks uncommented
    rw [ofLine_spaced (legible_gap legible uncommented blanks) opening closing]
    exact unmarked_behind gap entry

def spacedLines : List String :=
  ["../a.h should remove these lines:", "- #include <b.h>", "-  #include <b.h>"]

def spacedReport : FileReport :=
  ⟨"a.h", .empty, .ofList [⟨"#include <b.h>", ""⟩, ⟨" #include <b.h>", ""⟩], .empty, false⟩

theorem keys_normal_but_marked_twice :
    (handed ⟨.builtin, true⟩ (⟨[]⟩ : Collected) spacedLines)[0]? = some spacedReport ∧
      LooseKey " #include <b.h>" ∧ " #include <b.h>" ∈ spacedReport.removals.directives := by
  have handed :
      (handed ⟨.builtin, true⟩ (⟨[]⟩ : Collected) spacedLines)[0]? = some spacedReport := by
    decide +kernel
  obtain ⟨_, _, loose, blank, _⟩ := keys_normal_but_marked handed
  have member : " #include <b.h>" ∈ spacedReport.removals.directives :=
    (blank " #include <b.h>" ⟨' ', rfl, by decide⟩).mpr ⟨by decide +kernel, by decide +kernel⟩
  exact ⟨handed, loose _ member, member⟩

-- Two lines that differ in one blank have a key each, and one of the keys begins with it.
theorem removal_keeps_blank :
    ∃ report ∈ (processLines ⟨.builtin, false⟩ (⟨[]⟩ : Collected) spacedLines).receiver.reports,
      report.removals.directives = ["#include <b.h>", " #include <b.h>"] ∧
        ¬ NormalKey " #include <b.h>" := by
  refine ⟨spacedReport, by decide +kernel, by decide +kernel, fun normal => ?_⟩
  exact normal.opened ⟨' ', rfl, by decide⟩

end Classifier

end IncludeTidy
