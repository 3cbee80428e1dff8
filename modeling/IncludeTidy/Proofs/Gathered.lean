import Mathlib.Data.List.Basic
import IncludeTidy.Proofs.Steps

namespace IncludeTidy

-- A content line that goes into the open report, with the section it stands in.
structure Intake where
  into : Section
  line : String
deriving DecidableEq, Repr

-- The entries that lines of one section hold, in order.
def Intake.entries (section_ : Section) (taken : List Intake) : List Entry :=
  (taken.filter fun one => one.into = section_).map fun one => Entry.ofLine one.line

def FileReport.takeIn (rules : Ruleset) (report : FileReport) (taken : List Intake) : FileReport :=
  taken.foldl (fun report one => (report.absorb rules one.line one.into).1) report

@[simp]
theorem takeIn_nil (rules : Ruleset) (report : FileReport) : report.takeIn rules [] = report := rfl

@[simp]
theorem takeIn_append (rules : Ruleset) (report : FileReport) (first second : List Intake) :
    report.takeIn rules (first ++ second) = (report.takeIn rules first).takeIn rules second :=
  List.foldl_append

@[simp]
theorem takeIn_file (rules : Ruleset) (report : FileReport) (taken : List Intake) :
    (report.takeIn rules taken).file = report.file := by
  induction taken generalizing report with
  | nil => rfl
  | cons one rest ih => exact (ih _).trans (absorb_file rules report one.line one.into)

theorem screen_forwardDecl_iff (rules : Ruleset) (file : String) (entry : Entry) :
    rules.screen file entry = .forwardDecl ↔ rules.umbrella.covers entry.directive = true := by
  unfold Ruleset.screen
  split
  · simp [*]
  · split <;> simp [*]

theorem screen_keep_iff (rules : Ruleset) (file : String) (entry : Entry) :
    rules.screen file entry = .keep ↔
      rules.umbrella.covers entry.directive = false ∧
        rules.falsePositives.contains ⟨file, entry.directive, entry.why⟩ = false := by
  unfold Ruleset.screen
  split
  · simp [*]
  · split <;> simp_all

theorem entries_intake (one : Intake) (rest : List Intake) (section_ : Section) :
    Intake.entries section_ (one :: rest) =
      (if one.into = section_ then [Entry.ofLine one.line] else []) ++
        Intake.entries section_ rest := by
  unfold Intake.entries
  by_cases same : one.into = section_ <;> simp [same]

-- Lines that stand in one section.
def Intake.under (section_ : Section) (lines : List String) : List Intake :=
  lines.map fun line => ⟨section_, line⟩

@[simp]
theorem entries_under (section_ other : Section) (lines : List String) :
    Intake.entries other (Intake.under section_ lines) =
      if section_ = other then lines.map Entry.ofLine else [] := by
  unfold Intake.entries Intake.under
  split <;> simp [List.filter_map, Function.comp_def, *]

@[simp]
theorem entries_append (section_ : Section) (first second : List Intake) :
    Intake.entries section_ (first ++ second) =
      Intake.entries section_ first ++ Intake.entries section_ second := by
  simp [Intake.entries]

-- Additions that leave no entry, because they are known to be wrong.
def Intake.dropped (rules : Ruleset) (file : String) (taken : List Intake) : List Entry :=
  (Intake.entries .additions taken).filter fun entry => rules.screen file entry = .falsePositive

@[simp]
theorem dropped_append (rules : Ruleset) (file : String) (first second : List Intake) :
    Intake.dropped rules file (first ++ second) =
      Intake.dropped rules file first ++ Intake.dropped rules file second := by
  simp [Intake.dropped, entries_append]

theorem dropped_one (rules : Ruleset) (report : FileReport) (one : Intake) :
    (Intake.dropped rules report.file [one]).length =
      (report.absorb rules one.line one.into).2.toNat := by
  rw [absorb_dropped]
  by_cases added : one.into = .additions <;>
    by_cases wrong : rules.screen report.file (Entry.ofLine one.line) = .falsePositive <;>
    simp [Intake.dropped, Intake.entries, added, wrong]

theorem takeIn_eq (rules : Ruleset) (report : FileReport) (taken : List Intake) :
    report.takeIn rules taken =
      { file := report.file
        additions :=
          ((Intake.entries .additions taken).filter fun entry =>
            rules.screen report.file entry = .keep).foldl EntryMap.insertEntry report.additions
        removals :=
          ((Intake.entries .removals taken).map Entry.withoutRemovalMark).foldl
            EntryMap.insertEntry report.removals
        fullList :=
          (Intake.entries .fullList taken).foldl EntryMap.insertEntry report.fullList
        needsUmbrella :=
          report.needsUmbrella || (Intake.entries .additions taken).any fun entry =>
            rules.umbrella.covers entry.directive } := by
  induction taken generalizing report with
  | nil => simp [FileReport.takeIn, Intake.entries]
  | cons one rest ih =>
    have step : report.takeIn rules (one :: rest) =
      (report.absorb rules one.line one.into).1.takeIn rules rest := rfl
    rw [step, ih, absorb_file]
    simp only [entries_intake]
    cases into : one.into with
    | additions =>
      have covered := screen_forwardDecl_iff rules report.file (Entry.ofLine one.line)
      cases screens : rules.screen report.file (Entry.ofLine one.line) with
      | keep => simp_all [FileReport.absorb]
      | forwardDecl => simp_all [FileReport.absorb]
      | falsePositive => simp_all [FileReport.absorb]
    | removals => simp [FileReport.absorb]
    | fullList => simp [FileReport.absorb]

-- A report as it stands when it is closed, before it is consolidated.
def FileReport.gathered (rules : Ruleset) (file : String) (taken : List Intake) : FileReport :=
  (FileReport.opened file).takeIn rules taken

theorem gathered_eq (rules : Ruleset) (file : String) (taken : List Intake) :
    FileReport.gathered rules file taken =
      { file
        additions := .ofList ((Intake.entries .additions taken).filter fun entry =>
          rules.screen file entry = .keep)
        removals := .ofList ((Intake.entries .removals taken).map Entry.withoutRemovalMark)
        fullList := .ofList (Intake.entries .fullList taken)
        needsUmbrella := (Intake.entries .additions taken).any fun entry =>
          rules.umbrella.covers entry.directive } := by
  unfold FileReport.gathered
  rw [takeIn_eq]
  rfl

end IncludeTidy
