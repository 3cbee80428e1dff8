import IncludeTidy.Proofs.Entries
import IncludeTidy.Proofs.Steps

namespace IncludeTidy

variable (rules : Ruleset) (report : FileReport)

-- The report needs the header, and none of its lists names it.
def FileReport.lacks (report : FileReport) (header : String) : Bool :=
  report.needsUmbrella && !report.removals.contains header && !report.fullList.contains header &&
    !report.additions.contains header

theorem lacks_iff (header : String) :
    report.lacks header = true ↔
      report.needsUmbrella = true ∧ report.removals.contains header = false ∧
        report.fullList.contains header = false ∧ report.additions.contains header = false := by
  simp [FileReport.lacks, and_assoc]

theorem consolidate_eq (umbrella : Umbrella) :
    (report.consolidate umbrella).1 =
      { report with
        additions :=
          if report.lacks umbrella.header then report.additions.insert umbrella.header ""
          else report.additions
        removals :=
          if report.needsUmbrella then report.removals.erase umbrella.header
          else report.removals } := by
  obtain ⟨file, additions, removals, fullList, needed⟩ := report
  unfold FileReport.consolidate FileReport.lacks
  cases needed with
  | false => rfl
  | true =>
    cases removed : removals.contains umbrella.header with
    | true => simp [removed]
    | false =>
      have same : removals.erase umbrella.header = removals := EntryMap.erase_absent removed
      cases listed : fullList.contains umbrella.header with
      | true => simp [removed, listed, same]
      | false => cases added : additions.contains umbrella.header <;> simp [*]

theorem finished_eq :
    rules.finished report =
      { report with
        additions :=
          if report.lacks rules.umbrella.header then
            report.additions.insert rules.umbrella.header ""
          else report.additions
        removals :=
          if report.needsUmbrella then report.removals.erase rules.umbrella.header
          else report.removals } :=
  consolidate_eq report rules.umbrella

theorem injected_iff :
    (report.consolidate rules.umbrella).2 = .injected ↔
      report.lacks rules.umbrella.header = true := by
  unfold FileReport.consolidate FileReport.lacks
  dsimp only
  repeat' split
  all_goals simp_all

@[simp]
theorem finished_file : (rules.finished report).file = report.file := by
  rw [finished_eq]

@[simp]
theorem finished_fullList : (rules.finished report).fullList = report.fullList := by
  rw [finished_eq]

theorem finished_needsUmbrella :
    (rules.finished report).needsUmbrella = report.needsUmbrella := by
  rw [finished_eq]

theorem finished_additions :
    (rules.finished report).additions =
      if report.lacks rules.umbrella.header then
        report.additions.insert rules.umbrella.header ""
      else report.additions := by
  rw [finished_eq]

theorem finished_removals :
    (rules.finished report).removals =
      if report.needsUmbrella then report.removals.erase rules.umbrella.header
      else report.removals := by
  rw [finished_eq]

variable {report : FileReport}

theorem finished_of_unneeded (unneeded : report.needsUmbrella = false) :
    rules.finished report = report := by
  simp [Ruleset.finished, FileReport.consolidate, unneeded]

theorem finished_additions_of_named
    (named : report.fullList.contains rules.umbrella.header = true ∨
      report.removals.contains rules.umbrella.header = true) :
    (rules.finished report).additions = report.additions := by
  rw [finished_additions, if_neg]
  intro lacks
  obtain ⟨_, unremoved, unlisted, _⟩ := (lacks_iff report _).mp lacks
  rcases named with listed | removed
  · cases unlisted.symm.trans listed
  · cases unremoved.symm.trans removed

theorem finished_additions_of_unnamed (needed : report.needsUmbrella = true)
    (unlisted : report.fullList.contains rules.umbrella.header = false)
    (unremoved : report.removals.contains rules.umbrella.header = false) :
    (rules.finished report).additions.contains rules.umbrella.header = true := by
  rw [finished_additions]
  split
  · simp
  · rename_i present
    rw [lacks_iff] at present
    by_contra absent
    exact present ⟨needed, unremoved, unlisted, Bool.eq_false_iff.mpr absent⟩

theorem finished_once (needed : report.needsUmbrella = true)
    (unlisted : report.fullList.contains rules.umbrella.header = false)
    (unremoved : report.removals.contains rules.umbrella.header = false) :
    (rules.finished report).additions.directives.count rules.umbrella.header = 1 := by
  have present := finished_additions_of_unnamed rules needed unlisted unremoved
  rw [EntryMap.count_directives, if_pos present]

theorem finished_removals_of_needed (needed : report.needsUmbrella = true) :
    (rules.finished report).removals.contains rules.umbrella.header = false := by
  rw [finished_removals, if_pos needed, Bool.eq_false_iff]
  simp

theorem finished_removals_contains (report : FileReport) (directive : String) :
    (rules.finished report).removals.contains directive = true ↔
      report.removals.contains directive = true ∧
        ¬ (report.needsUmbrella = true ∧ directive = rules.umbrella.header) := by
  rw [finished_removals]
  split
  · rename_i needed
    simp [needed]
  · rename_i unneeded
    simp [unneeded]

-- The one addition that consolidation can make.
theorem finished_addition (member : entry ∈ (rules.finished report).additions.entries) :
    entry ∈ report.additions.entries ∨
      entry = ⟨rules.umbrella.header, ""⟩ ∧
        (report.consolidate rules.umbrella).2 = .injected := by
  rw [finished_additions] at member
  split at member
  · rename_i lacks
    rcases EntryMap.mem_insert member with new | old
    · exact .inr ⟨new, (injected_iff rules report).mpr lacks⟩
    · exact .inl old
  · exact .inl member

theorem finished_injected (injected : (report.consolidate rules.umbrella).2 = .injected) :
    ⟨rules.umbrella.header, ""⟩ ∈ (rules.finished report).additions.entries := by
  rw [finished_additions, if_pos ((injected_iff rules report).mp injected)]
  exact EntryMap.mem_insert_self _ _ _

theorem finished_both_iff (report : FileReport) :
    ((rules.finished report).additions.contains rules.umbrella.header = true ∧
        (rules.finished report).removals.contains rules.umbrella.header = true) ↔
      report.needsUmbrella = false ∧
        report.additions.contains rules.umbrella.header = true ∧
        report.removals.contains rules.umbrella.header = true := by
  rw [finished_additions, finished_removals]
  cases needed : report.needsUmbrella with
  | false => simp [FileReport.lacks, needed]
  | true => simp

-- The lists are asked in this order: removals, full list, additions.
theorem consolidation_needed (needed : report.needsUmbrella = true) (umbrella : Umbrella) :
    (report.consolidate umbrella).2 =
      if umbrella.header ∈ report.removals.directives then .canceledRemoval
      else if umbrella.header ∈ report.fullList.directives then .alreadyIncluded
      else if umbrella.header ∈ report.additions.directives then .alreadyPresent
      else .injected := by
  simp only [← EntryMap.contains_iff]
  unfold FileReport.consolidate
  simp only [needed, Bool.not_true, Bool.false_eq_true, if_false]
  split
  · rfl
  · split
    · rfl
    · split <;> rfl

theorem lacks_named_iff (report : FileReport) (header : String) :
    report.lacks header = true ↔
      report.needsUmbrella = true ∧ header ∉ report.removals.directives ∧
        header ∉ report.fullList.directives ∧ header ∉ report.additions.directives := by
  simp only [lacks_iff, ← EntryMap.contains_iff, Bool.not_eq_true]

theorem additions_needed (needed : report.needsUmbrella = true) (umbrella : Umbrella) :
    (report.consolidate umbrella).1.additions.entries =
      report.additions.entries ++
        if umbrella.header ∈ report.additions.directives ∨
            umbrella.header ∈ report.removals.directives ∨
            umbrella.header ∈ report.fullList.directives then []
        else [⟨umbrella.header, ""⟩] := by
  have lacking := lacks_named_iff report umbrella.header
  simp only [consolidate_eq]
  split
  · rename_i lacks
    obtain ⟨_, unremoved, unlisted, fresh⟩ := lacking.mp lacks
    rw [if_neg (by simp [unremoved, unlisted, fresh])]
    exact EntryMap.insert_fresh (by simpa [← EntryMap.contains_iff] using fresh) ""
  · rename_i named
    rw [if_pos, List.append_nil]
    by_contra unnamed
    rw [not_or, not_or] at unnamed
    exact named (lacking.mpr ⟨needed, unnamed.2.1, unnamed.2.2, unnamed.1⟩)

theorem removals_needed (needed : report.needsUmbrella = true) (umbrella : Umbrella) :
    (report.consolidate umbrella).1.removals.entries =
      report.removals.entries.filter fun entry => entry.directive ≠ umbrella.header := by
  simp only [consolidate_eq, needed, if_true]
  rfl

-- A removal that is taken back leaves no trace of the header, so a report can lack it only then.
theorem lacks_again (report : FileReport) (umbrella : Umbrella) :
    (report.consolidate umbrella).1.lacks umbrella.header = true ↔
      report.needsUmbrella = true ∧ umbrella.header ∈ report.removals.directives ∧
        umbrella.header ∉ report.fullList.directives ∧
        umbrella.header ∉ report.additions.directives := by
  have lacking := lacks_named_iff report umbrella.header
  rw [lacks_named_iff]
  simp only [consolidate_eq]
  constructor
  · rintro ⟨needed, _, unlisted, fresh⟩
    split at fresh
    · exact absurd (EntryMap.mem_directives_insert _ _ _) fresh
    · rename_i named
      refine ⟨needed, ?_, unlisted, fresh⟩
      by_contra unremoved
      exact named (lacking.mpr ⟨needed, unremoved, unlisted, fresh⟩)
  · rintro ⟨needed, removed, unlisted, fresh⟩
    have named : ¬ report.lacks umbrella.header = true := fun lacks =>
      (lacking.mp lacks).2.1 removed
    simp [needed, unlisted, fresh, named]

theorem consolidate_again (report : FileReport) (umbrella : Umbrella) :
    let once := (report.consolidate umbrella).1
    (once.consolidate umbrella).1 =
      if once.lacks umbrella.header then
        { once with additions := once.additions.insert umbrella.header "" }
      else once := by
  intro once
  have removals : (if once.needsUmbrella then once.removals.erase umbrella.header
      else once.removals) = once.removals := by
    simp only [once, consolidate_eq]
    split
    · refine EntryMap.erase_absent ?_
      simp [Bool.eq_false_iff]
    · rfl
  rw [consolidate_eq once, removals]
  split <;> rfl

theorem consolidate_again_iff (report : FileReport) (umbrella : Umbrella) :
    let once := (report.consolidate umbrella).1
    (once.consolidate umbrella).1 ≠ once ↔ once.lacks umbrella.header = true := by
  intro once
  have again : (once.consolidate umbrella).1 = _ := consolidate_again report umbrella
  constructor
  · intro changed
    by_contra named
    exact changed (again.trans (if_neg named))
  · intro lacks same
    obtain ⟨_, _, _, fresh⟩ := (lacks_named_iff once umbrella.header).mp lacks
    rw [if_pos lacks, same] at again
    apply fresh
    rw [congrArg FileReport.additions again]
    exact EntryMap.mem_directives_insert _ _ _

-- To consolidate again changes a report once more only where the first time took back a removal,
-- which was all that stood for the header's presence.
theorem consolidated_twice (report : FileReport) (umbrella : Umbrella) :
    let header := umbrella.header
    let once := report.consolidate umbrella
    let twice := once.1.consolidate umbrella
    (report.needsUmbrella = false → once = (report, .notNeeded)) ∧
      (report.needsUmbrella = true →
        once.1.file = report.file ∧ once.1.fullList = report.fullList ∧
        once.1.needsUmbrella = true ∧
        once.1.removals.entries =
          (report.removals.entries.filter fun entry => entry.directive ≠ header) ∧
        once.1.additions.entries = report.additions.entries ++
          (if header ∈ report.additions.directives ∨ header ∈ report.removals.directives ∨
              header ∈ report.fullList.directives then []
            else [⟨header, ""⟩]) ∧
        (once.2 = .canceledRemoval ↔ header ∈ report.removals.directives) ∧
        (once.2 = .alreadyIncluded ↔
          header ∉ report.removals.directives ∧ header ∈ report.fullList.directives) ∧
        (once.2 = .alreadyPresent ↔
          header ∉ report.removals.directives ∧ header ∉ report.fullList.directives ∧
            header ∈ report.additions.directives) ∧
        (once.2 = .injected ↔
          header ∉ report.removals.directives ∧ header ∉ report.fullList.directives ∧
            header ∉ report.additions.directives)) ∧
      (twice.1 ≠ once.1 ↔
        report.needsUmbrella = true ∧ header ∈ report.removals.directives ∧
          header ∉ report.fullList.directives ∧ header ∉ report.additions.directives) ∧
      (twice.1 ≠ once.1 →
        twice.1 = { once.1 with additions := once.1.additions.insert header "" } ∧
          twice.1.additions.entries = once.1.additions.entries ++ [⟨header, ""⟩]) := by
  intro header once twice
  refine ⟨fun unneeded => ?_, fun needed => ⟨?_, ?_, ?_, ?_, ?_, ?_⟩, ?_, ?_⟩
  · simp [once, FileReport.consolidate, unneeded]
  · simp [once, consolidate_eq]
  · simp [once, consolidate_eq]
  · simp [once, consolidate_eq, needed]
  · exact removals_needed needed umbrella
  · exact additions_needed needed umbrella
  · have outcome := consolidation_needed needed umbrella
    change once.2 = _ at outcome
    rw [outcome]
    by_cases removed : header ∈ report.removals.directives <;>
      by_cases listed : header ∈ report.fullList.directives <;>
      by_cases added : header ∈ report.additions.directives <;>
      simp [header, removed, listed, added]
  · exact (consolidate_again_iff report umbrella).trans (lacks_again report umbrella)
  · intro changed
    have lacks : once.1.lacks header = true := (consolidate_again_iff report umbrella).mp changed
    have again := (consolidate_again report umbrella).trans (if_pos lacks)
    change twice.1 = { once.1 with additions := once.1.additions.insert header "" } at again
    refine ⟨again, ?_⟩
    rw [again]
    exact EntryMap.insert_fresh ((lacks_iff _ _).mp lacks).2.2.2 ""

example :
    let report : FileReport := ⟨"a.cc", .empty, .ofList [⟨"h", ""⟩, ⟨"i", ""⟩], .empty, true⟩
    let once := report.consolidate ⟨"h", []⟩
    let twice := once.1.consolidate ⟨"h", []⟩
    once = (⟨"a.cc", .empty, .ofList [⟨"i", ""⟩], .empty, true⟩, .canceledRemoval) ∧
      twice = (⟨"a.cc", .ofList [⟨"h", ""⟩], .ofList [⟨"i", ""⟩], .empty, true⟩, .injected) := by
  decide

end IncludeTidy
