import Mathlib.Data.List.Perm.Basic
import IncludeTidy.Proofs.Agreement
import IncludeTidy.Proofs.Counts
import IncludeTidy.Proofs.Decoded

namespace IncludeTidy

theorem kind_boundaryLine {layout : Layout}
    (visible : ¬ layout.errorMark.toList <+: Layout.boundaryLine.toList) :
    layout.kind (Text.trim Layout.boundaryLine) = .boundary := by
  have trimmed : Text.trim Layout.boundaryLine = Layout.boundaryLine := by decide
  have heard : layout.isNoise Layout.boundaryLine = false := by
    unfold Layout.isNoise
    rw [Bool.or_eq_false_iff, ← Bool.not_eq_true, ← Bool.not_eq_true, List.isPrefixOf_iff_prefix]
    exact ⟨by decide, visible⟩
  rw [trimmed, Layout.kind, heard]
  simp [Layout.isBoundary]

namespace Classifier

variable [Receiver σ ε] {rules : Ruleset} {c : Classifier} {s : State σ} {receiver : σ}
  {first second lines : List String} {base : Tally}

theorem close_counted (rules : Ruleset) (s : State σ) :
    (close rules s.counted).1 = (close rules s).1.counted :=
  congrArg Prod.fst (close_recounted steady_line rules s)

theorem feedOn_plus (c : Classifier) (base : Tally) (s : State σ) (lines : List String) :
    c.feedOn (s.recounted base.plus) lines = (c.feedOn s lines).recounted base.plus := by
  induction lines generalizing s with
  | nil => rfl
  | cons raw rest ih =>
    simp [feed_below, ih]

-- The state that the end of the stream leaves.
def ended (c : Classifier) (receiver : σ) (lines : List String) : State σ :=
  (close c.rules (c.feedOn (start receiver) lines)).1

-- With nothing open, a counted line leads to a fresh start on top of the counts so far.
theorem counted_start (idle : s.report? = none) (outside : s.inside? = none) :
    s.counted = (start s.receiver).recounted (s.tally.plus .line).plus := by
  unfold State.counted State.recounted start
  rw [idle, outside, plus_zero]
  rfl

theorem ended_boundary (boundary : c.rules.layout.kind (Text.trim raw) = .boundary)
    (receiver : σ) (first second : List String) :
    c.ended receiver (first ++ raw :: second) =
      (c.ended (c.ended receiver first).receiver second).recounted
        ((c.ended receiver first).tally.plus .line).plus := by
  have shut := close_shut c.rules (c.feedOn (start receiver) first)
  have fresh : (c.feed (c.feedOn (start receiver) first) raw).1 =
      (start (c.ended receiver first).receiver).recounted
        ((c.ended receiver first).tally.plus .line).plus := by
    rw [feed_boundary boundary, close_counted]
    exact counted_start shut.1 shut.2
  rw [ended, feedOn_append, feedOn_cons, fresh, feedOn_plus,
    close_recounted (steady_plus _)]
  rfl

theorem processLines_ended (willing : Receiver.Willing σ) (tolerant : c.strict = false)
    (receiver : σ) (lines : List String) :
    c.processLines receiver lines =
      ⟨(c.ended receiver lines).receiver, .ok (c.ended receiver lines).tally⟩ := by
  rw [processLines_tolerant willing tolerant, finish_willing willing]
  rfl

-- What a list of lines comes to, whoever receives the reports.
def countsOf (c : Classifier) (lines : List String) : Tally :=
  (c.ended (⟨[]⟩ : Collected) lines).tally

theorem ended_eq (willing : Receiver.Willing σ) (tolerant : c.strict = false) (receiver : σ)
    (lines : List String) :
    (c.ended receiver lines).receiver = Receiver.takeAll receiver (c.delivered (lines.map .ok)) ∧
      (c.ended receiver lines).tally = c.countsOf lines := by
  obtain ⟨taken, result⟩ := processReads_willing willing c receiver (lines.map .ok)
  have here := processLines_ended willing tolerant receiver lines
  have collected := processLines_ended collected_willing tolerant ⟨[]⟩ lines
  unfold processLines at here collected
  rw [here] at taken result
  rw [collected] at result
  exact ⟨taken, Except.ok.inj result⟩

theorem processLines_eq (willing : Receiver.Willing σ) (tolerant : c.strict = false)
    (receiver : σ) (lines : List String) :
    c.processLines receiver lines =
      ⟨Receiver.takeAll receiver (c.delivered (lines.map .ok)), .ok (c.countsOf lines)⟩ := by
  obtain ⟨taken, counts⟩ := ended_eq willing tolerant receiver lines
  rw [processLines_ended willing tolerant, taken, counts]

theorem delivered_ended (tolerant : c.strict = false) (lines : List String) :
    c.delivered (lines.map .ok) = (c.ended (⟨[]⟩ : Collected) lines).receiver.reports := by
  have ended := processLines_ended collected_willing tolerant ⟨[]⟩ lines
  exact congrArg (fun ending => ending.receiver.reports) ended

theorem delivered_boundary (tolerant : c.strict = false)
    (boundary : c.rules.layout.kind (Text.trim raw) = .boundary) (first second : List String) :
    c.delivered ((first ++ raw :: second).map .ok) =
      c.delivered (first.map .ok) ++ c.delivered (second.map .ok) := by
  have earlier := (ended_eq collected_willing tolerant ⟨[]⟩ first).1
  have later := (ended_eq collected_willing tolerant
    (c.ended (⟨[]⟩ : Collected) first).receiver second).1
  rw [earlier, takeAll_collected, takeAll_collected, List.nil_append] at later
  rw [delivered_ended tolerant, ended_boundary boundary, earlier, takeAll_collected,
    List.nil_append]
  exact congrArg Collected.reports later

theorem countsOf_boundary (tolerant : c.strict = false)
    (boundary : c.rules.layout.kind (Text.trim raw) = .boundary) (first second : List String) :
    c.countsOf (first ++ raw :: second) =
      ((c.countsOf first).plus .line).plus (c.countsOf second) := by
  have later := (ended_eq collected_willing tolerant
    (c.ended (⟨[]⟩ : Collected) first).receiver second).2
  rw [countsOf, ended_boundary boundary, ← later]
  rfl

-- Pieces that are closed by a boundary each, one after another.
def stream (pieces : List (List String)) : List String :=
  pieces.flatMap fun piece => piece ++ [Layout.boundaryLine]

@[simp]
theorem stream_cons (piece : List String) (rest : List (List String)) :
    stream (piece :: rest) = piece ++ Layout.boundaryLine :: stream rest := by
  simp [stream]

theorem delivered_stream (tolerant : c.strict = false)
    (boundary : c.rules.layout.kind (Text.trim Layout.boundaryLine) = .boundary)
    (pieces : List (List String)) :
    c.delivered ((stream pieces).map .ok) =
      pieces.flatMap fun piece => c.delivered (piece.map .ok) := by
  induction pieces with
  | nil => rfl
  | cons piece rest ih =>
    rw [stream_cons, delivered_boundary tolerant boundary, ih, List.flatMap_cons]

theorem countsOf_stream (tolerant : c.strict = false)
    (boundary : c.rules.layout.kind (Text.trim Layout.boundaryLine) = .boundary)
    (pieces : List (List String)) :
    c.countsOf (stream pieces) =
      (pieces.map fun piece => (c.countsOf piece).plus .line).foldr Tally.plus .zero := by
  induction pieces with
  | nil => rfl
  | cons piece rest ih =>
    simp [countsOf_boundary tolerant boundary, ih]

theorem countsOf_reordered (tolerant : c.strict = false)
    (boundary : c.rules.layout.kind (Text.trim Layout.boundaryLine) = .boundary)
    {pieces reordered : List (List String)} (permuted : pieces.Perm reordered) :
    c.countsOf (stream pieces) = c.countsOf (stream reordered) := by
  rw [countsOf_stream tolerant boundary, countsOf_stream tolerant boundary]
  exact (permuted.map _).foldr_op_eq

end Classifier

-- Order has no part in an outcome.
theorem ofReports_reordered {reports reordered : List FileReport}
    (permuted : reports.Perm reordered) :
    Outcome.ofReports reports = Outcome.ofReports reordered := by
  unfold Outcome.ofReports
  rw [permuted.length_eq, permuted.countP_eq]

theorem run_tolerant {settings : RunSettings} {lines : List String}
    (tolerant : settings.strict = false) (read : source.reads = lines.map .ok) :
    (settings.run Open.mk source).result =
      .ok (.ofReports
        ((Classifier.mk settings.rules settings.strict).delivered (lines.map .ok))) := by
  have ended := Classifier.processLines_ended (c := ⟨settings.rules, settings.strict⟩)
    collected_willing tolerant ⟨[]⟩ lines
  unfold Classifier.processLines at ended
  rw [RunSettings.run_willing open_willing, RunSettings.judgement, read, ended]

namespace Classifier

-- A run that ends in the same outcome ends with the same exit code.
theorem boundary_separates [Receiver σ ε] (willing : Receiver.Willing σ) (rules : Ruleset)
    (visible : ¬ rules.layout.errorMark.toList <+: Layout.boundaryLine.toList) (receiver : σ) :
    let c : Classifier := ⟨rules, false⟩
    let reports := fun lines : List String =>
      (c.processLines (⟨[]⟩ : Collected) lines).receiver.reports
    (∀ first second : List String,
      let whole := first ++ [Layout.boundaryLine] ++ second
      reports whole = reports first ++ reports second ∧
        (c.processLines receiver whole).receiver =
          Receiver.takeAll receiver (reports first ++ reports second) ∧
        ∃ one two, (c.processLines receiver first).result = .ok one ∧
          (c.processLines receiver second).result = .ok two ∧
          (c.processLines receiver whole).result = .ok {
            linesRead := one.linesRead + two.linesRead + 1
            noise := one.noise + two.noise
            unrecognized := one.unrecognized + two.unrecognized
            falsePositives := one.falsePositives + two.falsePositives
            files := one.files + two.files }) ∧
    ∀ pieces reordered : List (List String), pieces.Perm reordered →
      reports (stream pieces) = pieces.flatMap reports ∧
        (reports (stream pieces)).Perm (reports (stream reordered)) ∧
        (c.processLines receiver (stream pieces)).result =
          (c.processLines receiver (stream reordered)).result ∧
        ∀ (format : Format) (colored : Bool) (source other : Text.ByteSource),
          source.reads = (stream pieces).map .ok → other.reads = (stream reordered).map .ok →
            ∃ outcome,
              (RunSettings.run ⟨rules, format, colored, false⟩ Open.mk source).result =
                .ok outcome ∧
              (RunSettings.run ⟨rules, format, colored, false⟩ Open.mk other).result =
                .ok outcome := by
  intro c reports
  have boundary : c.rules.layout.kind (Text.trim Layout.boundaryLine) = .boundary :=
    kind_boundaryLine visible
  have total : ∀ lines, c.processLines receiver lines =
      ⟨Receiver.takeAll receiver (reports lines), .ok (c.countsOf lines)⟩ :=
    processLines_eq willing rfl receiver
  have joined : ∀ pieces, reports (stream pieces) = pieces.flatMap reports :=
    delivered_stream (c := c) rfl boundary
  refine ⟨fun first second => ?_, fun pieces reordered permuted => ?_⟩
  · intro whole
    have cut : whole = first ++ Layout.boundaryLine :: second := by simp [whole]
    have apart : reports whole = reports first ++ reports second := by
      rw [cut]
      exact delivered_boundary rfl boundary first second
    refine ⟨apart, ?_, c.countsOf first, c.countsOf second, ?_, ?_, ?_⟩
    · rw [total, apart]
    · rw [total]
    · rw [total]
    · rw [total, cut, countsOf_boundary rfl boundary]
      simp only [Tally.plus, Tally.line, Nat.add_zero, Nat.add_right_comm]
  · have moved : (reports (stream pieces)).Perm (reports (stream reordered)) := by
      rw [joined, joined]
      exact permuted.flatMap_right reports
    refine ⟨joined pieces, moved, ?_, fun format colored source other read readToo => ?_⟩
    · rw [total, total, countsOf_reordered rfl boundary permuted]
    · have judged : (RunSettings.run ⟨rules, format, colored, false⟩ Open.mk other).result =
          .ok (.ofReports (reports (stream reordered))) := run_tolerant rfl readToo
      rw [← ofReports_reordered moved] at judged
      exact ⟨_, run_tolerant rfl read, judged⟩

-- Each piece leaves a report of the same file open, and one of them a needed umbrella header.
theorem boundary_separates_one_file :
    let first := ["../a.h should add these lines:", "class B;", "class JSObject;"]
    let second := ["stray", "../a.h should remove these lines:", "- #include <b.h>"]
    let one := "../a.h should add these lines:\nclass B;\nclass JSObject;\n---\n"
    let two := "stray\n../a.h should remove these lines:\n- #include <b.h>\n---\n"
    let source : Text.ByteSource := ⟨(one ++ two).toUTF8.toList, none⟩
    let other : Text.ByteSource := ⟨(two ++ one).toUTF8.toList, none⟩
    Receiver.Willing Collected ∧
      (¬ Layout.builtin.errorMark.toList <+: Layout.boundaryLine.toList) ∧
      [first, second].Perm [second, first] ∧
      source.reads = (stream [first, second]).map .ok ∧
      other.reads = (stream [second, first]).map .ok ∧
      (∃ outcome,
        (RunSettings.run ⟨.builtin, .text, false, false⟩ Open.mk source).result = .ok outcome ∧
        (RunSettings.run ⟨.builtin, .text, false, false⟩ Open.mk other).result = .ok outcome) ∧
      (processLines ⟨.builtin, false⟩ (⟨[]⟩ : Collected)
        (first ++ [Layout.boundaryLine] ++ second)).receiver.reports.map FileReport.file =
          ["a.h", "a.h"] := by
  intro first second one two source other
  have visible : ¬ Layout.builtin.errorMark.toList <+: Layout.boundaryLine.toList := by
    decide
  have swapped : [first, second].Perm [second, first] := List.Perm.swap _ _ _
  have cut : Text.lines (one ++ two) = stream [first, second] := by decide +kernel
  have cutToo : Text.lines (two ++ one) = stream [second, first] := by decide +kernel
  have read : source.reads = (stream [first, second]).map .ok := by
    rw [← cut]
    exact Text.reads_text (one ++ two)
  have readToo : other.reads = (stream [second, first]).map .ok := by
    rw [← cutToo]
    exact Text.reads_text (two ++ one)
  obtain ⟨joins, ordered⟩ :=
    boundary_separates collected_willing .builtin visible (⟨[]⟩ : Collected)
  obtain ⟨_, _, _, run⟩ := ordered _ _ swapped
  obtain ⟨apart, _⟩ := joins first second
  refine ⟨collected_willing, visible, swapped, read, readToo,
    run .text false source other read readToo, ?_⟩
  exact (congrArg (List.map FileReport.file) apart).trans (by decide +kernel)

end Classifier

end IncludeTidy
