import IncludeTidy.Proofs.Delivery

namespace IncludeTidy.Classifier

-- Content that stands in no open section.
def State.Stray (rules : Ruleset) (s : State σ) (raw : String) : Prop :=
  rules.layout.kind (Text.trim raw) = .content ∧ (s.report? = none ∨ s.inside? = none)

variable {c : Classifier} {rules : Ruleset} {receiver : σ} {s : State σ} {raw : String}
  {lines : List String} {header : Header}

theorem inside_of_settled (content : rules.layout.kind (Text.trim raw) = .content)
    (settled : ¬ s.Stray rules raw) :
    ∃ report section_, s.report? = some report ∧ s.inside? = some section_ :=
  inside_of_not_outside fun outside => settled ⟨content, outside⟩

variable [Receiver σ ε]

theorem feed_stray (stray : s.Stray rules raw) (strict : Bool) :
    (Classifier.mk rules strict).feed s raw =
      if strict then (s.counted, some (.unrecognized (s.tally.linesRead + 1) (Text.trim raw)))
      else ({ s.counted with
        tally := { s.counted.tally with unrecognized := s.tally.unrecognized + 1 } }, none) := by
  obtain ⟨content, outside⟩ := stray
  rw [feed_content (c := ⟨rules, strict⟩) content, absorb_outside (s := s.counted) outside]
  rfl

theorem close_failure (failed : (close rules s).2 = some error) :
    ∃ refusal report, error = .deliver refusal ∧
      (Receiver.accept s.receiver report).2 = some refusal := by
  cases current : s.report? with
  | none => rw [close_idle current] at failed; cases failed
  | some report =>
    rw [close_open current] at failed
    obtain ⟨refusal, refused, rfl⟩ := Option.map_eq_some_iff.mp failed
    exact ⟨refusal, _, rfl, refused⟩

theorem openSection_failure (failed : (openSection rules s header).2 = some error) :
    ∃ refusal report, error = .deliver refusal ∧
      (Receiver.accept s.receiver report).2 = some refusal := by
  cases current : s.report? with
  | none => rw [openSection_idle current] at failed; cases failed
  | some report =>
    by_cases same : report.file = header.file
    · rw [openSection_same current same] at failed; cases failed
    · cases answer : (Receiver.accept s.receiver (rules.finished report)).2 with
      | none => rw [openSection_other current same answer] at failed; cases failed
      | some refusal =>
        rw [openSection_refused current same answer] at failed
        cases failed
        exact ⟨refusal, _, rfl, answer⟩

-- All that a line can fail with.
theorem feed_failure (failed : (c.feed s raw).2 = some error) :
    (c.strict = true ∧ s.Stray c.rules raw ∧
      error = .unrecognized (s.tally.linesRead + 1) (Text.trim raw)) ∨
    ∃ refusal report, error = .deliver refusal ∧
      (Receiver.accept s.receiver report).2 = some refusal := by
  cases kind : c.rules.layout.kind (Text.trim raw) with
  | noise => rw [feed_noise kind] at failed; cases failed
  | boundary =>
    rw [feed_boundary kind] at failed
    exact .inr (close_failure (s := s.counted) failed)
  | header header =>
    rw [feed_header kind] at failed
    exact .inr (openSection_failure (s := s.counted) failed)
  | content =>
    by_cases stray : s.Stray c.rules raw
    · rw [feed_stray stray] at failed
      split at failed
      · rename_i strict
        cases failed
        exact .inl ⟨strict, stray, rfl⟩
      · cases failed
    · obtain ⟨report, section_, opened, entered⟩ := inside_of_settled kind stray
      rw [feed_content kind, absorb_inside (s := s.counted) opened entered] at failed
      cases failed

theorem feed_tolerant (willing : Receiver.Willing σ) (tolerant : c.strict = false) (s : State σ)
    (raw : String) : (c.feed s raw).2 = none := by
  cases failed : (c.feed s raw).2 with
  | none => rfl
  | some error =>
    rcases feed_failure failed with ⟨strict, _⟩ | ⟨refusal, report, _, refused⟩
    · cases tolerant.symm.trans strict
    · cases (willing s.receiver report).symm.trans refused

@[simp]
theorem feedOn_nil (c : Classifier) (s : State σ) : c.feedOn s [] = s := rfl

@[simp]
theorem feedOn_cons (c : Classifier) (s : State σ) (raw : String) (rest : List String) :
    c.feedOn s (raw :: rest) = c.feedOn (c.feed s raw).1 rest := by
  simp only [feedOn, List.foldl_cons]

theorem feedOn_append (c : Classifier) (s : State σ) (first second : List String) :
    c.feedOn s (first ++ second) = c.feedOn (c.feedOn s first) second := List.foldl_append

theorem feedAll_tolerant (willing : Receiver.Willing σ) (tolerant : c.strict = false) (s : State σ)
    (lines : List String) : c.feedAll s (lines.map .ok) = (c.feedOn s lines, none) := by
  induction lines generalizing s with
  | nil => rfl
  | cons raw rest ih =>
    have fed : c.feed s raw = ((c.feed s raw).1, none) := by
      rw [← feed_tolerant willing tolerant s raw]
    rw [List.map_cons, feedAll, fed, feedOn_cons]
    exact ih (c.feed s raw).1

theorem finish_willing (willing : Receiver.Willing σ) (c : Classifier) (s : State σ) :
    c.finish s = ⟨(close c.rules s).1.receiver, .ok (close c.rules s).1.tally⟩ := by
  cases current : s.report? with
  | none => rw [finish_idle current, close_idle current]
  | some report => rw [finish_current current, close_open current, willing]

theorem processLines_finished (fed : c.feedAll (start receiver) (lines.map .ok) = (s, none)) :
    c.processLines receiver lines = c.finish s := by
  unfold processLines processReads
  rw [fed]

theorem processLines_stopped (fed : c.feedAll (start receiver) (lines.map .ok) = (s, some error)) :
    c.processLines receiver lines = ⟨s.receiver, .error error⟩ := by
  unfold processLines processReads
  rw [fed]

theorem processLines_tolerant (willing : Receiver.Willing σ) (tolerant : c.strict = false)
    (receiver : σ) (lines : List String) :
    c.processLines receiver lines = c.finish (c.feedOn (start receiver) lines) :=
  processLines_finished (feedAll_tolerant willing tolerant _ lines)

end IncludeTidy.Classifier
