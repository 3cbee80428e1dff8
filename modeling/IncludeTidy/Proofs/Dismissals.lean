import Mathlib.Data.List.Forall2
import IncludeTidy.Proofs.Agreement
import IncludeTidy.Proofs.Consolidated
import IncludeTidy.Proofs.Overrides

namespace IncludeTidy

-- The same report with no other additions, whatever their order and justifications.
structure FileReport.Leaner (report leaner : FileReport) : Prop where
  file : leaner.file = report.file
  additions : ∀ directive, leaner.additions.contains directive = true →
    report.additions.contains directive = true
  removals : leaner.removals = report.removals
  fullList : leaner.fullList = report.fullList
  needsUmbrella : leaner.needsUmbrella = report.needsUmbrella

-- The same rules with further false positives.
structure Ruleset.Widened (rules wider : Ruleset) : Prop where
  layout : wider.layout = rules.layout
  umbrella : wider.umbrella = rules.umbrella
  known : ∀ listed ∈ rules.falsePositives, listed ∈ wider.falsePositives

def Ruleset.dismissing (rules : Ruleset) (more : List FalsePositive) : Ruleset :=
  { rules with falsePositives := more.foldl addNew rules.falsePositives }

theorem widened_dismissing (rules : Ruleset) (more : List FalsePositive) :
    rules.Widened (rules.dismissing more) :=
  ⟨rfl, rfl, fun listed known => (mem_addedNew _ _ listed).mpr (.inl known)⟩

-- The count of a classification that has dropped more as known false positives.
def Tally.dropping (tally : Tally) (more : Nat) : Tally :=
  { tally with falsePositives := tally.falsePositives + more }

variable {rules wider : Ruleset} {report leaner : FileReport}

-- The umbrella header is asked before the false positives, so only a kept entry can fare otherwise.
theorem screen_widened (widened : rules.Widened wider) (file : String) (entry : Entry) :
    wider.screen file entry = rules.screen file entry ∨
      rules.screen file entry = .keep ∧ wider.screen file entry = .falsePositive := by
  unfold Ruleset.screen
  rw [widened.umbrella]
  by_cases covered : rules.umbrella.covers entry.directive = true
  · simp [covered]
  · by_cases known : ⟨file, entry.directive, entry.why⟩ ∈ rules.falsePositives
    · simp [covered, known, widened.known _ known]
    · by_cases later : ⟨file, entry.directive, entry.why⟩ ∈ wider.falsePositives
      · simp [covered, known, later]
      · simp [covered, known, later]

theorem opened_leaner (file : String) : (FileReport.opened file).Leaner (.opened file) :=
  ⟨rfl, fun _ => id, rfl, rfl, rfl⟩

theorem insertEntry_leaner {m n : EntryMap}
    (within : ∀ directive, n.contains directive = true → m.contains directive = true)
    (entry : Entry) (directive : String)
    (named : (n.insertEntry entry).contains directive = true) :
    (m.insertEntry entry).contains directive = true := by
  simp only [EntryMap.insertEntry, EntryMap.contains_insert] at named ⊢
  exact named.imp_right (within directive)

theorem absorb_leaner (widened : rules.Widened wider) (less : report.Leaner leaner) (line : String)
    (section_ : Section) :
    (report.absorb rules line section_).1.Leaner (leaner.absorb wider line section_).1 ∧
      (report.absorb rules line section_).2.toNat ≤
        (leaner.absorb wider line section_).2.toNat := by
  obtain ⟨file, additions, removals, fullList, needsUmbrella⟩ := less
  cases section_ with
  | additions =>
    simp only [FileReport.absorb, file]
    rcases screen_widened widened report.file (Entry.ofLine line) with same | ⟨kept, dropped⟩
    · rw [same]
      cases rules.screen report.file (Entry.ofLine line) with
      | keep => exact ⟨⟨rfl, insertEntry_leaner additions _, removals, fullList, needsUmbrella⟩,
          Nat.le_refl _⟩
      | forwardDecl => exact ⟨⟨rfl, additions, removals, fullList, rfl⟩, Nat.le_refl _⟩
      | falsePositive => exact ⟨⟨file, additions, removals, fullList, needsUmbrella⟩, Nat.le_refl _⟩
    · rw [kept, dropped]
      refine ⟨⟨file, fun directive named => ?_, removals, fullList, needsUmbrella⟩, Nat.zero_le _⟩
      simp [EntryMap.insertEntry, additions directive named]
  | removals =>
    exact ⟨⟨file, additions, by simp only [FileReport.absorb, removals], fullList, needsUmbrella⟩,
      Nat.le_refl _⟩
  | fullList =>
    exact ⟨⟨file, additions, removals, by simp only [FileReport.absorb, fullList], needsUmbrella⟩,
      Nat.le_refl _⟩

theorem finished_contains (rules : Ruleset) (report : FileReport) (directive : String)
    (named : report.additions.contains directive = true) :
    (rules.finished report).additions.contains directive = true := by
  rw [finished_additions]
  split
  · simp [named]
  · exact named

-- Where the header has to be injected into the leaner report, the other one has it or gets it too.
theorem finished_leaner (widened : rules.Widened wider) (less : report.Leaner leaner) :
    (rules.finished report).Leaner (wider.finished leaner) := by
  have same : wider.finished leaner = rules.finished leaner := by
    unfold Ruleset.finished
    rw [widened.umbrella]
  rw [same]
  obtain ⟨file, additions, removals, fullList, needsUmbrella⟩ := less
  refine ⟨?_, fun directive named => ?_, ?_, ?_, ?_⟩
  · simp [file]
  · rw [finished_additions] at named
    split at named
    · rename_i lacks
      obtain ⟨needed, unremoved, unlisted, _⟩ := (lacks_iff _ _).mp lacks
      rcases (EntryMap.contains_insert _ _ _ _).mp named with rfl | old
      · exact finished_additions_of_unnamed rules (needsUmbrella ▸ needed) (fullList ▸ unlisted)
          (removals ▸ unremoved)
      · exact finished_contains rules report directive (additions directive old)
    · exact finished_contains rules report directive (additions directive named)
  · rw [finished_removals, finished_removals, removals, needsUmbrella]
  · simp [fullList]
  · rw [finished_needsUmbrella, finished_needsUmbrella, needsUmbrella]

theorem hasChanges_leaner (less : report.Leaner leaner) (changed : leaner.hasChanges = true) :
    report.hasChanges = true := by
  unfold FileReport.hasChanges at changed ⊢
  rw [less.removals] at changed
  rcases Bool.or_eq_true_iff.mp changed with added | removed
  · have filled : leaner.additions.isEmpty = false := by simpa using added
    obtain ⟨directive, named⟩ := (EntryMap.isEmpty_eq_false_iff _).mp filled
    have filledToo : report.additions.isEmpty = false :=
      (EntryMap.isEmpty_eq_false_iff _).mpr ⟨directive, less.additions directive named⟩
    rw [filledToo]
    rfl
  · rw [removed, Bool.or_true]

theorem ofReports_leaner {reports others : List FileReport}
    (less : List.Forall₂ FileReport.Leaner reports others) :
    (Outcome.ofReports others).filesSeen = (Outcome.ofReports reports).filesSeen ∧
      (Outcome.ofReports others).filesChanged ≤ (Outcome.ofReports reports).filesChanged := by
  refine ⟨less.length_eq.symm, ?_⟩
  unfold Outcome.ofReports
  induction less with
  | nil => exact Nat.le_refl _
  | @cons report leaner _ _ head _ ih =>
    simp only [List.countP_cons] at ih ⊢
    have step : (if leaner.hasChanges = true then 1 else 0) ≤
        if report.hasChanges = true then 1 else 0 := by
      split
      · rename_i changed
        simp [hasChanges_leaner head changed]
      · exact Nat.zero_le _
    exact Nat.add_le_add ih step

theorem exitCode_mono {first second : Outcome} (fewer : second.filesChanged ≤ first.filesChanged) :
    second.exitCode ≤ first.exitCode := by
  unfold Outcome.exitCode Outcome.status Status.ofCount
  by_cases nothing : second.filesChanged = 0
  · rw [if_pos nothing]
    exact Nat.zero_le _
  · have some_ : first.filesChanged ≠ 0 := fun none => nothing (by omega)
    simp [nothing, some_]

namespace Classifier

-- The second classification knows the further false positives. It has counted no fewer of them.
def Likeness.thinning : Likeness Collected Collected Empty where
  reports := FileReport.Leaner
  dropped := fun one two => one ≤ two
  receivers := fun one two => List.Forall₂ FileReport.Leaner one.reports two.reports
  parted := fun _ _ _ => False

theorem thinning_lasts (widened : rules.Widened wider) (strict : Bool) :
    Likeness.thinning.Lasts id ⟨rules, strict⟩ ⟨wider, strict⟩ where
  layout := widened.layout
  strict := rfl
  opened := opened_leaner
  file := fun _ _ less => less.file
  absorbed := fun _ _ line section_ less => (absorb_leaner widened less line section_).1
  dropped := fun _ _ line section_ _ _ less count =>
    Nat.add_le_add count (absorb_leaner widened less line section_).2
  accepted := fun _ _ _ _ receivers less =>
    .alike (List.rel_append receivers (.cons (finished_leaner widened less) .nil)) rfl
  parted := fun _ _ _ _ parted => parted

theorem tallies_dropping (fewer : Tallies (fun one two => one ≤ two) one two) :
    ∃ more, two = one.dropping more := by
  obtain ⟨linesRead, noise, unrecognized, falsePositives, files⟩ := two
  obtain ⟨rfl, rfl, rfl, gap, rfl⟩ := fewer
  obtain ⟨more, rfl⟩ := Nat.exists_eq_add_of_le gap
  exact ⟨more, rfl⟩

theorem processReads_leaner (widened : rules.Widened wider) (strict : Bool)
    (reads : List Text.LineRead) :
    List.Forall₂ FileReport.Leaner ((Classifier.mk rules strict).delivered reads)
        ((Classifier.mk wider strict).delivered reads) ∧
      ∃ more, ((Classifier.mk wider strict).processReads (⟨[]⟩ : Collected) reads).result =
        ((Classifier.mk rules strict).processReads (⟨[]⟩ : Collected) reads).result.map
          (Tally.dropping · more) := by
  have fresh : (start (⟨[]⟩ : Collected)).Alike .thinning (start ⟨[]⟩) :=
    start_alike (Nat.le_refl 0) .nil
  unfold delivered
  rw [processReads_ending, processReads_ending]
  cases ending_ends (thinning_lasts widened strict) fresh reads with
  | finished reports ok okToo tallies =>
    obtain ⟨more, dropped⟩ := tallies_dropping tallies
    refine ⟨reports, more, ?_⟩
    rw [okToo, ok, dropped]
    rfl
  | failed reports failed failedToo =>
    refine ⟨reports, 0, ?_⟩
    rw [failedToo, failed]
    simp [Except.map]
  | parted failure parted => exact parted.elim

theorem mapError_dropping (result : Except (ClassifyError Empty) Tally) (more : Nat)
    (f : ClassifyError Empty → ε) :
    (result.map (Tally.dropping · more)).mapError f =
      (result.mapError f).map (Tally.dropping · more) := by
  cases result <;> rfl

end Classifier

namespace RunSettings

theorem judgement_leaner (widened : rules.Widened wider) (strict colored : Bool) (format : Format)
    (source : Text.ByteSource) :
    let first := judgement ⟨rules, format, colored, strict⟩ source
    let second := judgement ⟨wider, format, colored, strict⟩ source
    (∃ error, first = .error error ∧ second = .error error) ∨
      ∃ before after, first = .ok before ∧ second = .ok after ∧
        after.filesSeen = before.filesSeen ∧ after.filesChanged ≤ before.filesChanged := by
  intro first second
  obtain ⟨related, more, results⟩ :=
    Classifier.processReads_leaner widened strict source.reads
  unfold first second judgement
  dsimp only
  rw [results]
  cases (Classifier.processReads ⟨rules, strict⟩ (⟨[]⟩ : Collected) source.reads).result with
  | error error => exact .inl ⟨_, rfl, rfl⟩
  | ok tally => exact .inr ⟨_, _, rfl, rfl, ofReports_leaner related⟩

end RunSettings

-- A justification or a place may differ, so nothing is said of these.
theorem dismissals_never_add [Receiver σ ε] [Device δ] (accepting : Receiver.Willing σ)
    (willing : Device.Willing δ) (rules : Ruleset) (more : List FalsePositive) (strict : Bool)
    (receiver : σ) (device : δ) :
    let wider := rules.dismissing more
    let first : Classifier := ⟨rules, strict⟩
    let second : Classifier := ⟨wider, strict⟩
    (∀ reads : List Text.LineRead,
      (first.processReads receiver reads).receiver =
        Receiver.takeAll receiver (first.delivered reads) ∧
      (second.processReads receiver reads).receiver =
        Receiver.takeAll receiver (second.delivered reads) ∧
      List.Forall₂ FileReport.Leaner (first.delivered reads) (second.delivered reads) ∧
      ∃ dropped, (second.processReads receiver reads).result =
        (first.processReads receiver reads).result.map (Tally.dropping · dropped)) ∧
    ∀ (source : Text.ByteSource) (format : Format) (colored : Bool),
      let one := (RunSettings.mk rules format colored strict).run device source
      let two := (RunSettings.mk wider format colored strict).run device source
      (∃ error, one.result = .error error ∧ two.result = .error error) ∨
        ∃ before after, one.result = .ok before ∧ two.result = .ok after ∧
          after.filesSeen = before.filesSeen ∧ after.filesChanged ≤ before.filesChanged ∧
          after.exitCode ≤ before.exitCode := by
  intro wider first second
  have widened : rules.Widened wider := widened_dismissing rules more
  refine ⟨fun reads => ?_, fun source format colored => ?_⟩
  · obtain ⟨related, dropped, results⟩ := Classifier.processReads_leaner widened strict reads
    obtain ⟨taken, ending⟩ := processReads_willing accepting first receiver reads
    obtain ⟨takenToo, endingToo⟩ := processReads_willing accepting second receiver reads
    refine ⟨taken, takenToo, related, dropped, ?_⟩
    rw [ending, endingToo, ← Classifier.mapError_dropping, results]
  · intro one two
    have shown : one.result = _ := RunSettings.run_willing willing _ device source
    have shownToo : two.result = _ := RunSettings.run_willing willing _ device source
    rw [shown, shownToo]
    rcases RunSettings.judgement_leaner widened strict colored format source with
      failed | ⟨before, after, ok, okToo, seen, changed⟩
    · exact .inl failed
    · exact .inr ⟨before, after, ok, okToo, seen, changed, exitCode_mono changed⟩

-- The dropped line gave the declaration its place.
theorem dismissals_never_add_moved :
    Receiver.Willing Collected ∧ Device.Willing Open ∧
      let lines := ["../a.h should add these lines:", "class B;", "class C;", "class B;  // for B"]
      let reads : List Text.LineRead := lines.map .ok
      let wider := Ruleset.builtin.dismissing [⟨"a.h", "class B;", ""⟩]
      let first := (Classifier.mk .builtin true).delivered reads
      let second := (Classifier.mk wider true).delivered reads
      first.map (fun report => report.additions.entries) =
          [[⟨"class B;", "for B"⟩, ⟨"class C;", ""⟩]] ∧
        second.map (fun report => report.additions.entries) =
          [[⟨"class C;", ""⟩, ⟨"class B;", "for B"⟩]] ∧
        List.Forall₂ FileReport.Leaner first second := by
  have accepting : Receiver.Willing Collected := fun _ _ => rfl
  refine ⟨accepting, open_willing, ?_⟩
  intro lines reads wider first second
  refine ⟨by decide +kernel, by decide +kernel, ?_⟩
  exact ((dismissals_never_add accepting open_willing .builtin [⟨"a.h", "class B;", ""⟩] true ⟨[]⟩
    Open.mk).1 reads).2.2.1

end IncludeTidy
