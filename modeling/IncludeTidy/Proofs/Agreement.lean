import IncludeTidy.Proofs.Documents
import IncludeTidy.Proofs.Entries
import IncludeTidy.Proofs.Output
import IncludeTidy.Proofs.Stops
import IncludeTidy.Ruleset.Builtin

namespace IncludeTidy

-- A listed file taken as a report again.
def FileChanges.report (changes : FileChanges) : FileReport :=
  ⟨changes.file, .ofList changes.add, .ofList changes.remove, .empty, false⟩

def FileChanges.block (changes : FileChanges) : String := changes.report.block false

theorem block_changes (report : FileReport) : report.changes.block = report.block false := by
  simp only [FileChanges.block, FileChanges.report, FileReport.changes, EntryMap.ofList_entries,
    FileReport.block, FileReport.hasChanges, FileReport.blockTitle]
  rfl

theorem map_block_changes (reports : List FileReport) :
    String.join ((reports.map FileReport.changes).map FileChanges.block) =
      blocks false reports := by
  rw [List.map_map]
  exact congrArg String.join (List.map_congr_left fun report _ => block_changes report)

theorem filter_block (reports : List FileReport) (colored : Bool) :
    (reports.filter fun report => report.block colored ≠ "") =
      reports.filter FileReport.hasChanges := by
  refine List.filter_congr fun report _ => ?_
  simp only [ne_eq, block_eq_empty_iff, Bool.not_eq_false, Bool.decide_eq_true]

theorem exitCode_eq_zero_iff (status : Status) : status.exitCode = 0 ↔ status = .pass := by
  cases status <;> simp [Status.exitCode]

namespace RunSettings

variable [Device δ]

-- What a run comes to if nothing it writes is refused.
def judgement (settings : RunSettings) (source : Text.ByteSource) : Except RunError Outcome :=
  let classifier : Classifier := ⟨settings.rules, settings.strict⟩
  match (classifier.processReads (⟨[]⟩ : Collected) source.reads).result with
  | .ok _ => .ok (.ofReports (classifier.delivered source.reads))
  | .error error => .error (.classify (error.map Empty.elim))

theorem judgement_ok (ok : judgement settings source = .ok outcome) :
    outcome = .ofReports
      ((Classifier.mk settings.rules settings.strict).delivered source.reads) := by
  unfold judgement at ok
  dsimp only at ok
  split at ok
  · cases ok; rfl
  · cases ok

theorem judgement_failed (failed : judgement settings source = .error error) :
    ∃ cause, (Classifier.processReads ⟨settings.rules, settings.strict⟩ (⟨[]⟩ : Collected)
      source.reads).result = .error cause := by
  unfold judgement at failed
  dsimp only at failed
  split at failed
  · cases failed
  · rename_i cause found
    exact ⟨cause, found⟩

theorem runText_willing (willing : Device.Willing δ) (settings : RunSettings) (device : δ)
    (source : Text.ByteSource) :
    (settings.runText device source).result = settings.judgement source ∧
      (settings.runText device source).out.taken =
        (blocks settings.colored ((Classifier.mk settings.rules settings.strict).delivered
          source.reads)).toUTF8.toList := by
  have fresh : Shows settings.colored ⟨[]⟩ (BlockWriter.on device settings.colored) :=
    ⟨rfl, by simp [BlockWriter.on], rfl⟩
  have alike := (Classifier.mk settings.rules settings.strict).processReads_alike
    (shows_mirrors willing settings.colored) fresh source.reads
  simp only [runText, judgement, Classifier.processSource, Classifier.delivered]
  generalize Classifier.processReads _ (BlockWriter.on device settings.colored) _ = shown at alike ⊢
  generalize Classifier.processReads _ (⟨[]⟩ : Collected) _ = collected at alike ⊢
  obtain ⟨writer, _⟩ := shown
  obtain ⟨⟨reports⟩, result⟩ := collected
  obtain ⟨⟨_, taken, outcome⟩, same⟩ := alike
  dsimp only at taken outcome same
  subst same
  rw [outcome]
  cases result with
  | ok tally => exact ⟨rfl, taken⟩
  | error error => exact ⟨rfl, taken⟩

-- The summary of the reports that a run delivers.
def summary (settings : RunSettings) (source : Text.ByteSource) : Summary :=
  .ofFiles ((((Classifier.mk settings.rules settings.strict).delivered source.reads).filter
    FileReport.hasChanges).map FileReport.changes)

-- The device has no part in what is put to it.
theorem runSummary_eq (settings : RunSettings) (device : δ) (source : Text.ByteSource) :
    settings.runSummary device source =
      match settings.judgement source with
      | .error error => ⟨.on device, .error error⟩
      | .ok outcome =>
        match (Output.on device).put (settings.summary source).render .summary with
        | (out, none) => ⟨out, .ok outcome⟩
        | (out, some error) => ⟨out, .error (.write error)⟩ := by
  have fresh : Gathers ⟨[]⟩ SummaryBuilder.empty := ⟨rfl, rfl⟩
  have alike := (Classifier.mk settings.rules settings.strict).processReads_alike gathers_mirrors
    fresh source.reads
  simp only [runSummary, judgement, summary, Classifier.processSource, Classifier.delivered]
  generalize Classifier.processReads _ SummaryBuilder.empty _ = built at alike ⊢
  generalize Classifier.processReads _ (⟨[]⟩ : Collected) _ = collected at alike ⊢
  obtain ⟨⟨_, _⟩, _⟩ := built
  obtain ⟨⟨reports⟩, result⟩ := collected
  obtain ⟨⟨files, outcome⟩, same⟩ := alike
  dsimp only at files outcome same
  subst files outcome same
  cases result with
  | error error => rfl
  | ok tally => rfl

theorem runSummary_willing (willing : Device.Willing δ) (settings : RunSettings) (device : δ)
    (source : Text.ByteSource) :
    (settings.runSummary device source).result = settings.judgement source ∧
      (settings.runSummary device source).out.taken =
        match settings.judgement source with
        | .ok _ => (Summary.ofFiles
            ((((Classifier.mk settings.rules settings.strict).delivered source.reads).filter
              FileReport.hasChanges).map FileReport.changes)).render.toUTF8.toList
        | .error _ => [] := by
  rw [runSummary_eq]
  cases judged : settings.judgement source with
  | error error => exact ⟨rfl, rfl⟩
  | ok outcome =>
    obtain ⟨fine, taken⟩ :=
      put_willing willing (Output.on device) (settings.summary source).render .summary
    rcases put : (Output.on device).put (settings.summary source).render .summary with
      ⟨out, error?⟩
    rw [put] at fine taken
    dsimp only at fine taken
    subst fine
    exact ⟨rfl, taken⟩

theorem run_willing (willing : Device.Willing δ) (settings : RunSettings) (device : δ)
    (source : Text.ByteSource) :
    (settings.run device source).result = settings.judgement source := by
  unfold run
  cases settings.format with
  | text => exact (runText_willing willing settings device source).1
  | json => exact (runSummary_willing willing settings device source).1

-- Where both runs end well, the document says what the blocks say; where they fail, no document is
-- begun, while the blocks of the reports handed over before the failure are out.
theorem formats_agree (willing : Device.Willing δ) (rules : Ruleset) (strict colored : Bool)
    (device : δ) (source : Text.ByteSource) :
    let classifier : Classifier := ⟨rules, strict⟩
    let text := run ⟨rules, .text, false, strict⟩ device source
    let json := run ⟨rules, .json, colored, strict⟩ device source
    text.result = json.result ∧
      (∀ outcome, json.result = .ok outcome → ∃ (written : String) (summary : Summary),
        json.out.taken = written.toUTF8.toList ∧ written = summary.render ∧
        (outcome.filesChanged ≤ Verdict.greatestCount → Summary.read? written = some summary) ∧
        summary.files = ((classifier.delivered source.reads).filter fun report =>
          report.block false ≠ "").map FileReport.changes ∧
        text.out.taken = (blocks false (classifier.delivered source.reads)).toUTF8.toList ∧
        text.out.taken = (String.join (summary.files.map FileChanges.block)).toUTF8.toList ∧
        summary.verdict.filesChanged = outcome.filesChanged ∧
        (summary.verdict.status = .pass ↔ outcome.exitCode = 0)) ∧
      ∀ error, json.result = .error error →
        json.out.taken = [] ∧
        ∃ before read after, source.reads = before ++ read :: after ∧
          classifier.StopsAt before read ∧
          text.out.taken =
            (blocks false ((classifier.finalized before).filter
              FileReport.hasChanges)).toUTF8.toList := by
  intro classifier text json
  obtain ⟨textResult, textTaken⟩ :=
    runText_willing willing ⟨rules, .text, false, strict⟩ device source
  obtain ⟨jsonResult, jsonTaken⟩ :=
    runSummary_willing willing ⟨rules, .json, colored, strict⟩ device source
  change text.result = _ at textResult
  change text.out.taken = _ at textTaken
  change json.result = _ at jsonResult
  change json.out.taken = _ at jsonTaken
  clear_value text json
  refine ⟨textResult.trans jsonResult.symm, fun outcome ok => ?_, fun error failed => ?_⟩
  · have total := judgement_ok (jsonResult.symm.trans ok)
    rw [← jsonResult, ok] at jsonTaken
    have count : (summary ⟨rules, .json, colored, strict⟩ source).verdict.filesChanged =
        outcome.filesChanged := by
      simp only [summary, Summary.ofFiles, total, Outcome.ofReports, List.length_map,
        List.countP_eq_length_filter]
    refine ⟨_, _, jsonTaken, rfl, fun within => Summary.read?_render (count.trans_le within), ?_,
      textTaken, ?_, count, ?_⟩
    · rw [filter_block]; rfl
    · rw [textTaken]
      simp only [Summary.ofFiles, map_block_changes, blocks_changed]
    · simp only [Summary.ofFiles, total, Outcome.exitCode, Outcome.status, Outcome.ofReports,
        List.length_map, List.countP_eq_length_filter, exitCode_eq_zero_iff]
  · obtain ⟨cause, stopped⟩ := judgement_failed (jsonResult.symm.trans failed)
    obtain ⟨_, before, read, after, parts, stop, same⟩ := Classifier.processReads_failed stopped
    rw [← jsonResult, failed] at jsonTaken
    refine ⟨jsonTaken, before, read, after, parts, stop, ?_⟩
    rw [textTaken, blocks_changed, ← same]

theorem formats_agree_one_file :
    Device.Willing Open ∧
      let source : Text.ByteSource :=
        ⟨"../a.h should add these lines:\nclass B;\n".toUTF8.toList, none⟩
      (run ⟨.builtin, .text, false, true⟩ Open.mk source).result.toOption = some ⟨1, 1⟩ ∧
        ∃ (written : String) (summary : Summary),
          (run ⟨.builtin, .json, true, true⟩ Open.mk source).out.taken = written.toUTF8.toList ∧
          written = summary.render ∧ Summary.read? written = some summary ∧
          summary.files = [⟨"a.h", [⟨"class B;", ""⟩], []⟩] ∧ summary.verdict.filesChanged = 1 := by
  refine ⟨open_willing, ?_⟩
  intro source
  have outcome :
      (run ⟨.builtin, .text, false, true⟩ Open.mk source).result.toOption = some ⟨1, 1⟩ := by
    decide +kernel
  have shown : (((Classifier.mk .builtin true).delivered source.reads).filter fun report =>
      report.block false ≠ "").map FileReport.changes = [⟨"a.h", [⟨"class B;", ""⟩], []⟩] := by
    decide +kernel
  obtain ⟨same, succeeds, _⟩ := formats_agree open_willing .builtin true true Open.mk source
  refine ⟨outcome, ?_⟩
  rw [same] at outcome
  cases result : (run ⟨.builtin, .json, true, true⟩ Open.mk source).result with
  | error error => rw [result] at outcome; cases outcome
  | ok found =>
    rw [result] at outcome
    cases outcome
    obtain ⟨written, summary, taken, rendered, read, files, _, _, count, _⟩ := succeeds _ result
    exact ⟨written, summary, taken, rendered, read (by decide), files.trans shown, count⟩

end RunSettings

end IncludeTidy
