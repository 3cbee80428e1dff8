import IncludeTidy.Proofs.Intake
import IncludeTidy.Ruleset.Builtin

namespace IncludeTidy

variable {rules : Ruleset} {file : String} {taken : List Intake}

theorem gathered_kept (member : entry ∈ (FileReport.gathered rules file taken).additions.entries) :
    rules.screen file entry = .keep := by
  rw [gathered_eq] at member
  rcases EntryMap.mem_inserted member with none | kept
  · cases none
  · exact of_decide_eq_true (List.mem_filter.mp kept).2

theorem gathered_additions_iff (rules : Ruleset) (file directive : String) (taken : List Intake) :
    (FileReport.gathered rules file taken).additions.contains directive = true ↔
      ∃ entry ∈ Intake.entries .additions taken,
        entry.directive = directive ∧ rules.screen file entry = .keep := by
  rw [gathered_eq, EntryMap.contains_ofList]
  constructor
  · rintro ⟨entry, member, same⟩
    obtain ⟨listed, kept⟩ := List.mem_filter.mp member
    exact ⟨entry, listed, same, of_decide_eq_true kept⟩
  · rintro ⟨entry, listed, same, kept⟩
    exact ⟨entry, List.mem_filter.mpr ⟨listed, decide_eq_true kept⟩, same⟩

theorem gathered_removals_iff (rules : Ruleset) (file directive : String) (taken : List Intake) :
    (FileReport.gathered rules file taken).removals.contains directive = true ↔
      ∃ entry ∈ (Intake.entries .removals taken).map Entry.withoutRemovalMark,
        entry.directive = directive := by
  rw [gathered_eq, EntryMap.contains_ofList]

theorem gathered_needsUmbrella_iff (rules : Ruleset) (file : String) (taken : List Intake) :
    (FileReport.gathered rules file taken).needsUmbrella = true ↔
      ∃ entry ∈ Intake.entries .additions taken,
        rules.umbrella.covers entry.directive = true := by
  rw [gathered_eq, List.any_eq_true]

namespace Classifier

variable [Receiver σ ε] {c : Classifier} {receiver : σ} {lines : List String} {number : Nat}
  {report : FileReport}

-- All reports that are handed over while these lines are classified, in order, whatever the
-- receiver says to them.
def handed (c : Classifier) (receiver : σ) (lines : List String) : List FileReport :=
  (c.processLines (⟨receiver, []⟩ : Recorded σ) lines).receiver.offered

-- What the report with this number takes in while it is open.
def intake (c : Classifier) (receiver : σ) (lines : List String) (number : Nat) : List Intake :=
  c.taken number (start (⟨receiver, []⟩ : Recorded σ)) (lines.map .ok)

theorem handed_gathered (handed : (c.handed receiver lines)[number]? = some report) :
    report = c.rules.finished
      (FileReport.gathered c.rules report.file (c.intake receiver lines number)) :=
  processReads_handed handed

-- An addition is one that the screening kept, or the header that consolidation put there.
theorem handed_addition (handed : (c.handed receiver lines)[number]? = some report)
    (member : entry ∈ report.additions.entries) :
    c.rules.screen report.file entry = .keep ∨
      entry = ⟨c.rules.umbrella.header, ""⟩ ∧
        ((FileReport.gathered c.rules report.file
          (c.intake receiver lines number)).consolidate c.rules.umbrella).2 = .injected := by
  have total := handed_gathered handed
  rw [total] at member
  rcases finished_addition c.rules member with gathered | injected
  · exact .inl (gathered_kept gathered)
  · exact .inr injected

-- A known false positive and a forward declaration that the header provides.
def sampleRules : Ruleset :=
  { Ruleset.builtin with falsePositives := [⟨"a.h", "class B;", ""⟩] }

def sampleLines : List String := ["../a.h should add these lines:", "class B;", "class JSObject;"]

def sampleReport : FileReport :=
  ⟨"a.h", .ofList [⟨"#include <js/TypeDecls.h>", ""⟩], .empty, .empty, true⟩

theorem sample_handed :
    (handed ⟨sampleRules, false⟩ (⟨[]⟩ : Collected) sampleLines)[0]? = some sampleReport := by
  decide +kernel

-- Consolidation does not ask for false positives, so the header without a justification is the one
-- suggestion that can be among them.
theorem known_addition_iff (handed : (c.handed receiver lines)[number]? = some report) :
    let header : Entry := ⟨c.rules.umbrella.header, ""⟩
    let known := fun entry : Entry =>
      c.rules.falsePositives.contains ⟨report.file, entry.directive, entry.why⟩
    let gathered := FileReport.gathered c.rules report.file (c.intake receiver lines number)
    (∀ entry ∈ report.additions.entries, known entry = true → entry = header) ∧
      ((∃ entry ∈ report.additions.entries, known entry = true) ↔
        known header = true ∧ (gathered.consolidate c.rules.umbrella).2 = .injected) := by
  intro header known gathered
  have total : report = c.rules.finished gathered := handed_gathered handed
  have unscreened : ∀ entry ∈ report.additions.entries, known entry = true →
      entry = header ∧ (gathered.consolidate c.rules.umbrella).2 = .injected := by
    intro entry member listed
    rcases handed_addition handed member with kept | injected
    · cases ((screen_keep_iff _ _ _).mp kept).2.symm.trans listed
    · exact injected
  refine ⟨fun entry member listed => (unscreened entry member listed).1, ?_, ?_⟩
  · rintro ⟨entry, member, listed⟩
    obtain ⟨rfl, injected⟩ := unscreened entry member listed
    exact ⟨listed, injected⟩
  · rintro ⟨listed, injected⟩
    have member := finished_injected c.rules injected
    rw [← total] at member
    exact ⟨header, member, listed⟩

theorem known_addition_screened :
    (handed ⟨sampleRules, false⟩ (⟨[]⟩ : Collected) sampleLines)[0]? = some sampleReport ∧
      ¬ ∃ entry ∈ sampleReport.additions.entries, sampleRules.falsePositives.contains
        ⟨sampleReport.file, entry.directive, entry.why⟩ = true := by
  refine ⟨sample_handed, fun listed => ?_⟩
  have header := ((known_addition_iff sample_handed).2.mp listed).1
  exact absurd header (by decide +kernel)

-- The suggestion that the config calls wrong was not in the input: consolidation made it.
theorem injected_header_known :
    let overrides : Overrides :=
      { Overrides.empty with falsePositives := [⟨"a.h", "#include <js/TypeDecls.h>", ""⟩] }
    let lines := ["../a.h should add these lines:", "class JSObject;", "---"]
    ∃ rules, overrides.ruleset? = .ok rules ∧
      ∃ report ∈ (processLines ⟨rules, false⟩ (⟨[]⟩ : Collected) lines).receiver.reports,
        ∃ entry ∈ report.additions.entries,
          rules.falsePositives.contains ⟨report.file, entry.directive, entry.why⟩ = true := by
  intro overrides lines
  refine ⟨{ Ruleset.builtin with
    falsePositives := FalsePositive.builtin ++ [⟨"a.h", "#include <js/TypeDecls.h>", ""⟩] }, ?_, ?_⟩
  · unfold Overrides.ruleset? Layout.ofMarks?
    split
    · rfl
    · rename_i blank
      exact absurd Layout.builtin.errorMark_visible blank
  · decide +kernel

theorem handed_needsUmbrella (handed : (c.handed receiver lines)[number]? = some report) :
    report.needsUmbrella = true ↔
      ∃ entry ∈ Intake.entries .additions (c.intake receiver lines number),
        c.rules.umbrella.covers entry.directive = true := by
  have total := handed_gathered handed
  have needed := finished_needsUmbrella c.rules
    (FileReport.gathered c.rules report.file (c.intake receiver lines number))
  rw [← total] at needed
  rw [needed]
  exact gathered_needsUmbrella_iff _ _ _

-- A report that needs no umbrella header is left as it is, with the header wherever lines put it.
theorem both_sides_iff (handed : (c.handed receiver lines)[number]? = some report) :
    let header := c.rules.umbrella.header
    let taken := c.intake receiver lines number
    let onBothSides := report.additions.contains header = true ∧
      report.removals.contains header = true
    (report.needsUmbrella = true → ¬ onBothSides) ∧
      (onBothSides ↔
        (¬ ∃ entry ∈ Intake.entries .additions taken,
          c.rules.umbrella.covers entry.directive = true) ∧
        (∃ entry ∈ Intake.entries .additions taken,
          entry.directive = header ∧ c.rules.screen report.file entry = .keep) ∧
        ∃ entry ∈ (Intake.entries .removals taken).map Entry.withoutRemovalMark,
          entry.directive = header) := by
  intro header taken onBothSides
  have total : report = c.rules.finished (FileReport.gathered c.rules report.file taken) :=
    handed_gathered handed
  have needed := finished_needsUmbrella c.rules (FileReport.gathered c.rules report.file taken)
  have both := finished_both_iff c.rules (FileReport.gathered c.rules report.file taken)
  rw [← total] at needed both
  rw [← needed, gathered_additions_iff, gathered_removals_iff] at both
  refine ⟨fun flagged sides => ?_, ?_⟩
  · cases flagged.symm.trans (both.mp sides).1
  · rw [← handed_needsUmbrella handed, Bool.not_eq_true]
    exact both

theorem both_sides_flagged :
    (handed ⟨sampleRules, false⟩ (⟨[]⟩ : Collected) sampleLines)[0]? = some sampleReport ∧
      ¬ (sampleReport.additions.contains sampleRules.umbrella.header = true ∧
        sampleReport.removals.contains sampleRules.umbrella.header = true) :=
  ⟨sample_handed, (both_sides_iff sample_handed).1 rfl⟩

-- Nothing in these lines needs the header, so neither of the two suggestions is taken back.
theorem header_on_both_sides :
    let lines := ["../a.h should add these lines:", "#include <js/TypeDecls.h>",
      "../a.h should remove these lines:", "- #include <js/TypeDecls.h>"]
    ∃ report ∈ (processLines ⟨.builtin, false⟩ (⟨[]⟩ : Collected) lines).receiver.reports,
      report.additions.contains Ruleset.builtin.umbrella.header = true ∧
        report.removals.contains Ruleset.builtin.umbrella.header = true := by
  decide +kernel

-- The only covered entry that a report can have is a header that is itself covered, and injected.
theorem forward_decls_collapse (handed : (c.handed receiver lines)[number]? = some report) :
    let header := c.rules.umbrella.header
    let covers := fun entry : Entry => c.rules.umbrella.covers entry.directive
    let taken := c.intake receiver lines number
    let added := Intake.entries .additions taken
    let removed := (Intake.entries .removals taken).map Entry.withoutRemovalMark
    let gathered := FileReport.gathered c.rules report.file taken
    (∀ entry ∈ report.additions.entries, covers entry = true →
      entry = ⟨header, ""⟩ ∧ (gathered.consolidate c.rules.umbrella).2 = .injected) ∧
    ((∃ entry ∈ added, covers entry = true) →
      report.removals.contains header = false ∧
      ((report.fullList.contains header = false ∧ ∀ entry ∈ removed, entry.directive ≠ header) →
        report.additions.directives.count header = 1) ∧
      ((report.fullList.contains header = true ∨ ∃ entry ∈ removed, entry.directive = header) →
        (report.additions.contains header = true ↔ ∃ entry ∈ added,
          entry.directive = header ∧ c.rules.screen report.file entry = .keep))) ∧
    ((∀ entry ∈ added, covers entry = false) →
      report.additions = gathered.additions ∧ report.removals = gathered.removals) := by
  intro header covers taken added removed gathered
  have total : report = c.rules.finished gathered := handed_gathered handed
  have flagged : gathered.needsUmbrella = true ↔ ∃ entry ∈ added, covers entry = true :=
    gathered_needsUmbrella_iff c.rules report.file taken
  have removes : gathered.removals.contains header = true ↔
      ∃ entry ∈ removed, entry.directive = header :=
    gathered_removals_iff c.rules report.file header taken
  have full : report.fullList = gathered.fullList := by
    rw [total]
    exact finished_fullList c.rules gathered
  refine ⟨fun entry member covered => ?_, fun seen => ⟨?_, ?_, ?_⟩, fun unseen => ?_⟩
  · rcases handed_addition handed member with kept | injected
    · cases ((screen_keep_iff _ _ _).mp kept).1.symm.trans covered
    · exact injected
  · rw [total]
    exact finished_removals_of_needed c.rules (flagged.mpr seen)
  · rintro ⟨unlisted, unremoved⟩
    have absent : gathered.removals.contains header = false := by
      rw [Bool.eq_false_iff]
      intro named
      obtain ⟨entry, member, same⟩ := removes.mp named
      exact unremoved entry member same
    rw [total]
    exact finished_once c.rules (flagged.mpr seen) (full ▸ unlisted) absent
  · intro named
    have same : (c.rules.finished gathered).additions = gathered.additions :=
      finished_additions_of_named c.rules (named.imp (full ▸ ·) removes.mpr)
    rw [← total] at same
    rw [same]
    exact gathered_additions_iff c.rules report.file header taken
  · have unflagged : gathered.needsUmbrella = false := by
      rw [Bool.eq_false_iff]
      intro needed
      obtain ⟨entry, member, covered⟩ := flagged.mp needed
      cases (unseen entry member).symm.trans covered
    have same : report = gathered := total.trans (finished_of_unneeded c.rules unflagged)
    exact ⟨congrArg FileReport.additions same, congrArg FileReport.removals same⟩

theorem forward_decls_collapse_unlisted :
    (handed ⟨sampleRules, false⟩ (⟨[]⟩ : Collected) sampleLines)[0]? = some sampleReport ∧
      sampleReport.removals.contains sampleRules.umbrella.header = false ∧
      sampleReport.additions.directives.count sampleRules.umbrella.header = 1 := by
  obtain ⟨_, seen, _⟩ := forward_decls_collapse sample_handed
  obtain ⟨unremoved, once, _⟩ := seen (by decide +kernel)
  exact ⟨sample_handed, unremoved, once (by decide +kernel)⟩

end Classifier

end IncludeTidy
