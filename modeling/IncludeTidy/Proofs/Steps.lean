import IncludeTidy.Classifier

namespace IncludeTidy

def Ruleset.finished (rules : Ruleset) (report : FileReport) : FileReport :=
  (report.consolidate rules.umbrella).1

@[simp]
theorem absorb_file (rules : Ruleset) (report : FileReport) (line : String) (section_ : Section) :
    (report.absorb rules line section_).1.file = report.file := by
  cases section_ with
  | additions =>
    simp only [FileReport.absorb]
    split <;> rfl
  | removals => rfl
  | fullList => rfl

-- Only additions are screened, so only they can be dropped.
theorem absorb_dropped (rules : Ruleset) (report : FileReport) (line : String)
    (section_ : Section) :
    (report.absorb rules line section_).2 =
      decide (section_ = .additions ∧
        rules.screen report.file (Entry.ofLine line) = .falsePositive) := by
  cases section_ with
  | additions =>
    simp only [FileReport.absorb]
    split <;> simp [*]
  | removals => rfl
  | fullList => rfl

theorem after?_current (current other : Option Section) (signal : Signal) :
    Section.after? current signal = Section.after? other signal := by
  cases signal <;> rfl

namespace Classifier

variable {c : Classifier} {rules : Ruleset} {s t : State σ} {raw line : String}
  {report : FileReport} {section_ : Section} {header : Header}

-- A line is counted before anything else happens to it.
def State.counted (s : State σ) : State σ :=
  { s with tally := { s.tally with linesRead := s.tally.linesRead + 1 } }

-- From here on, one equation for each case of a step. Later proofs use these and do not open the
-- steps again.
theorem absorb_inside (opened : s.report? = some report) (inside : s.inside? = some section_) :
    absorb (ε := ε) c s line =
      ({ s with
        report? := some (report.absorb c.rules line section_).1
        tally :=
          { s.tally with
            falsePositives := s.tally.falsePositives +
              (report.absorb c.rules line section_).2.toNat } }, none) := by
  unfold absorb
  rw [opened, inside]

theorem absorb_outside (outside : s.report? = none ∨ s.inside? = none) :
    absorb (ε := ε) c s line =
      if c.strict then (s, some (.unrecognized s.tally.linesRead line))
      else ({ s with
        tally := { s.tally with unrecognized := s.tally.unrecognized + 1 } }, none) := by
  unfold absorb
  split
  · rename_i opened inside
    simp [opened, inside] at outside
  · rfl

theorem inside_of_not_outside (inside : ¬ (s.report? = none ∨ s.inside? = none)) :
    ∃ report section_, s.report? = some report ∧ s.inside? = some section_ := by
  obtain ⟨current, within⟩ := not_or.mp inside
  obtain ⟨report, opened⟩ := Option.ne_none_iff_exists'.mp current
  obtain ⟨section_, entered⟩ := Option.ne_none_iff_exists'.mp within
  exact ⟨report, section_, opened, entered⟩

variable [Receiver σ ε]

theorem close_idle (idle : s.report? = none) :
    close rules s = ({ s with inside? := none }, none) := by
  simp only [close, idle]

theorem close_open (opened : s.report? = some report) :
    close rules s =
      (⟨none, none, { s.tally with files := s.tally.files + 1 },
        (Receiver.accept s.receiver (rules.finished report)).1⟩,
        (Receiver.accept s.receiver (rules.finished report)).2.map .deliver) := by
  simp only [close, opened, Ruleset.finished]

theorem openSection_same (opened : s.report? = some report) (same : report.file = header.file) :
    openSection rules s header =
      ({ s with inside? := Section.after? none header.signal }, none) := by
  simp only [openSection, opened, Option.map_some, same, if_true,
    after?_current s.inside? none]

theorem openSection_idle (idle : s.report? = none) :
    openSection rules s header =
      ({ s with
        report? := some (.opened header.file)
        inside? := Section.after? none header.signal }, none) := by
  simp only [openSection, idle, Option.map_none, reduceCtorEq, if_false, close_idle idle]

-- Any header but one of the open file closes what is open first.
theorem openSection_closing (other : s.report?.map FileReport.file ≠ some header.file) :
    openSection rules s header =
      match close rules s with
      | (closed, some error) => (closed, some error)
      | (closed, none) =>
        ({ closed with
          report? := some (.opened header.file)
          inside? := Section.after? closed.inside? header.signal }, none) :=
  if_neg other

theorem openSection_refused (opened : s.report? = some report) (other : report.file ≠ header.file)
    (refused : (Receiver.accept s.receiver (rules.finished report)).2 = some refusal) :
    openSection rules s header = ((close rules s).1, some (.deliver refusal)) := by
  have differs : ¬ some report.file = some header.file := fun equal => other (Option.some.inj equal)
  simp only [openSection, opened, Option.map_some, differs, if_false, close_open opened, refused]

theorem openSection_other (opened : s.report? = some report) (other : report.file ≠ header.file)
    (accepted : (Receiver.accept s.receiver (rules.finished report)).2 = none) :
    openSection rules s header =
      ({ (close rules s).1 with
        report? := some (.opened header.file)
        inside? := Section.after? none header.signal }, none) := by
  have differs : ¬ some report.file = some header.file := fun equal => other (Option.some.inj equal)
  simp only [openSection, opened, Option.map_some, differs, if_false, close_open opened, accepted,
    Option.map_none]

theorem feed_noise (kind : c.rules.layout.kind (Text.trim raw) = .noise) :
    c.feed s raw =
      ({ s.counted with tally := { s.counted.tally with noise := s.tally.noise + 1 } }, none) := by
  simp only [feed, kind, State.counted]

theorem feed_boundary (kind : c.rules.layout.kind (Text.trim raw) = .boundary) :
    c.feed s raw = close c.rules s.counted := by
  simp only [feed, kind, State.counted]

theorem feed_header (kind : c.rules.layout.kind (Text.trim raw) = .header header) :
    c.feed s raw = openSection c.rules s.counted header := by
  simp only [feed, kind, State.counted]

theorem feed_content (kind : c.rules.layout.kind (Text.trim raw) = .content) :
    c.feed s raw = absorb c s.counted (Text.trim raw) := by
  simp only [feed, kind, State.counted]

theorem finish_idle (idle : s.report? = none) :
    c.finish s = ⟨s.receiver, .ok s.tally⟩ := by
  unfold finish
  rw [close_idle idle]

theorem finish_current (opened : s.report? = some report) :
    c.finish s =
      ⟨(Receiver.accept s.receiver (c.rules.finished report)).1,
        match (Receiver.accept s.receiver (c.rules.finished report)).2 with
        | none => .ok { s.tally with files := s.tally.files + 1 }
        | some refusal => .error (.deliver refusal)⟩ := by
  unfold finish
  rw [close_open opened]
  cases (Receiver.accept s.receiver (c.rules.finished report)).2 <;> rfl

-- How a run goes on from a state.
def ending (c : Classifier) (s : State σ) (reads : List Text.LineRead) : Ending σ ε :=
  match c.feedAll s reads with
  | (s, none) => c.finish s
  | (s, some error) => ⟨s.receiver, .error error⟩

@[simp]
theorem ending_nil (c : Classifier) (s : State σ) : c.ending s [] = c.finish s := rfl

theorem ending_cons (fed : c.feed s raw = (t, none)) (reads : List Text.LineRead) :
    c.ending s (.ok raw :: reads) = c.ending t reads := by
  unfold ending
  rw [feedAll, fed]

theorem ending_stopped (stopped : c.feed s raw = (t, some error)) (reads : List Text.LineRead) :
    c.ending s (.ok raw :: reads) = ⟨t.receiver, .error error⟩ := by
  unfold ending
  rw [feedAll, stopped]

theorem processReads_ending (c : Classifier) (receiver : σ) (reads : List Text.LineRead) :
    c.processReads receiver reads = c.ending (start receiver) reads := rfl

end Classifier

end IncludeTidy
