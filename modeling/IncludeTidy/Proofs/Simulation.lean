import IncludeTidy.Proofs.Steps

namespace IncludeTidy

def ClassifyError.map (f : ε → φ) : ClassifyError ε → ClassifyError φ
  | unrecognized number line => unrecognized number line
  | read fault => read fault
  | deliver refusal => deliver (f refusal)

@[simp]
theorem ClassifyError.map_id (error : ClassifyError ε) : error.map id = error := by
  cases error <;> rfl

namespace Classifier

section Invariants

-- What is true of a report from its opening on, and of a receiver that is offered such reports,
-- while lines of this kind are read.
structure Lasts [Receiver σ ε] (c : Classifier) (fits : String → Prop) (P : FileReport → Prop)
    (Q : σ → Prop) : Prop where
  opens : ∀ raw header, fits raw → c.rules.layout.kind (Text.trim raw) = .header header →
    P (.opened header.file)
  absorbs : ∀ raw report section_, fits raw → P report →
    P (report.absorb c.rules (Text.trim raw) section_).1
  hands : ∀ receiver report, Q receiver → P report →
    Q (Receiver.accept receiver (c.rules.finished report)).1

structure State.All (P : FileReport → Prop) (Q : σ → Prop) (s : State σ) : Prop where
  current : ∀ report, s.report? = some report → P report
  receiver : Q s.receiver

variable {c : Classifier} {fits : String → Prop} {P : FileReport → Prop} {Q : σ → Prop}
  {s : State σ} {raw : String} {header : Header} {reads : List Text.LineRead}

theorem absorb_all (all : s.All P Q)
    (absorbs : ∀ report section_, P report → P (report.absorb c.rules line section_).1) :
    (absorb (ε := ε) c s line).1.All P Q := by
  by_cases outside : s.report? = none ∨ s.inside? = none
  · rw [absorb_outside outside]
    split
    · exact all
    · exact ⟨all.current, all.receiver⟩
  · obtain ⟨report, section_, opened, entered⟩ := inside_of_not_outside outside
    rw [absorb_inside opened entered]
    refine ⟨fun other same => ?_, all.receiver⟩
    cases same
    exact absorbs report section_ (all.current report opened)

variable [Receiver σ ε]

theorem close_all (lasts : c.Lasts fits P Q) (all : s.All P Q) : (close c.rules s).1.All P Q := by
  cases current : s.report? with
  | none =>
    rw [close_idle current]
    exact ⟨all.current, all.receiver⟩
  | some report =>
    rw [close_open current]
    exact ⟨nofun, lasts.hands _ _ all.receiver (all.current report current)⟩

theorem openSection_all (lasts : c.Lasts fits P Q) (all : s.All P Q)
    (new : P (.opened header.file)) : (openSection c.rules s header).1.All P Q := by
  by_cases same : s.report?.map FileReport.file = some header.file
  · obtain ⟨report, current, named⟩ := Option.map_eq_some_iff.mp same
    rw [openSection_same current named]
    exact ⟨all.current, all.receiver⟩
  · have closed := close_all lasts all
    rw [openSection_closing same]
    rcases step : close c.rules s with ⟨t, _ | error⟩
    · rw [step] at closed
      refine ⟨fun report opened => ?_, closed.receiver⟩
      cases opened
      exact new
    · rw [step] at closed
      exact closed

theorem feed_all (lasts : c.Lasts fits P Q) (fit : fits raw) (all : s.All P Q) :
    (c.feed s raw).1.All P Q := by
  have counted : s.counted.All P Q := ⟨all.current, all.receiver⟩
  cases kind : c.rules.layout.kind (Text.trim raw) with
  | noise =>
    rw [feed_noise kind]
    exact ⟨all.current, all.receiver⟩
  | boundary =>
    rw [feed_boundary kind]
    exact close_all lasts counted
  | header header =>
    rw [feed_header kind]
    exact openSection_all lasts counted (lasts.opens raw header fit kind)
  | content =>
    rw [feed_content kind]
    exact absorb_all counted fun report section_ => lasts.absorbs raw report section_ fit

theorem finish_all (lasts : c.Lasts fits P Q) (all : s.All P Q) : Q (c.finish s).receiver := by
  have closed := (close_all lasts all).receiver
  unfold finish
  rcases step : close c.rules s with ⟨t, _ | error⟩
  · rw [step] at closed
    exact closed
  · rw [step] at closed
    exact closed

theorem ending_all (lasts : c.Lasts fits P Q) (fit : ∀ raw, .ok raw ∈ reads → fits raw)
    (all : s.All P Q) : Q (c.ending s reads).receiver := by
  induction reads generalizing s with
  | nil => exact finish_all lasts all
  | cons read rest ih =>
    cases read with
    | error fault => exact all.receiver
    | ok raw =>
      have fed := feed_all lasts (fit raw List.mem_cons_self) all
      rcases step : c.feed s raw with ⟨t, _ | error⟩
      · rw [step] at fed
        rw [ending_cons step]
        exact ih (fun other member => fit other (List.mem_cons_of_mem _ member)) fed
      · rw [step] at fed
        rw [ending_stopped step]
        exact fed.receiver

-- What a receiver keeps through each report that it is offered, it keeps through a run.
theorem ending_keeps (kept : ∀ receiver report, Q receiver → Q (Receiver.accept receiver report).1)
    (holds : Q s.receiver) (reads : List Text.LineRead) : Q (c.ending s reads).receiver := by
  have lasts : c.Lasts (fun _ => True) (fun _ => True) Q :=
    ⟨fun _ _ _ _ => trivial, fun _ _ _ _ _ => trivial,
      fun receiver _ holds _ => kept receiver _ holds⟩
  exact ending_all lasts (fun _ _ => trivial) ⟨fun _ _ => trivial, holds⟩

end Invariants

-- What corresponds to what in two classifications side by side: open reports, counts of dropped
-- lines and receivers. The second receiver may refuse a report that the first one takes; the two
-- are parted then, and nothing that the first one is offered later brings them together.
structure Likeness (σ τ φ : Type) where
  reports : FileReport → FileReport → Prop
  dropped : Nat → Nat → Prop
  receivers : σ → τ → Prop
  parted : σ → τ → φ → Prop

-- Counts that differ in nothing but the lines dropped.
structure Tallies (dropped : Nat → Nat → Prop) (one two : Tally) : Prop where
  linesRead : two.linesRead = one.linesRead
  noise : two.noise = one.noise
  unrecognized : two.unrecognized = one.unrecognized
  dropped : dropped one.falsePositives two.falsePositives
  files : two.files = one.files

structure State.Alike (like : Likeness σ τ φ) (s : State σ) (t : State τ) : Prop where
  report : Option.Rel like.reports s.report? t.report?
  inside : t.inside? = s.inside?
  tally : Tallies like.dropped s.tally t.tally
  receivers : like.receivers s.receiver t.receiver

namespace Likeness

-- What the two receivers answer to reports that correspond.
inductive Answers (like : Likeness σ τ φ) (f : ε → φ) (one : σ × Option ε) (two : τ × Option φ) :
    Prop where
  | alike (receivers : like.receivers one.1 two.1) (refusals : two.2 = one.2.map f)
  | parted (taken : one.2 = none) (refused : two.2 = some refusal)
      (parted : like.parted one.1 two.1 refusal)

-- What corresponds in two states, corresponds after each step.
structure Lasts [Receiver σ ε] [Receiver τ φ] (like : Likeness σ τ φ) (f : ε → φ)
    (c d : Classifier) : Prop where
  layout : d.rules.layout = c.rules.layout
  strict : d.strict = c.strict
  opened : ∀ file, like.reports (.opened file) (.opened file)
  file : ∀ report other, like.reports report other → other.file = report.file
  absorbed : ∀ report other line section_, like.reports report other →
    like.reports (report.absorb c.rules line section_).1 (other.absorb d.rules line section_).1
  dropped : ∀ report other line section_ m n, like.reports report other → like.dropped m n →
    like.dropped (m + (report.absorb c.rules line section_).2.toNat)
      (n + (other.absorb d.rules line section_).2.toNat)
  accepted : ∀ one two report other, like.receivers one two → like.reports report other →
    like.Answers f (Receiver.accept one (c.rules.finished report))
      (Receiver.accept two (d.rules.finished other))
  parted : ∀ one two refusal report, like.parted one two refusal →
    like.parted (Receiver.accept one report).1 two refusal

-- One step on both sides.
inductive Follows (like : Likeness σ τ φ) (f : ε → φ)
    (one : State σ × Option (ClassifyError ε)) (two : State τ × Option (ClassifyError φ)) :
    Prop where
  | along (alike : State.Alike like one.1 two.1)
      (failure : two.2 = one.2.map (ClassifyError.map f))
  | parted (passed : one.2 = none) (failure : two.2 = some (.deliver refusal))
      (parted : like.parted one.1.receiver two.1.receiver refusal)

-- The ends of two runs.
inductive Ends (like : Likeness σ τ φ) (f : ε → φ) (one : Ending σ ε) (two : Ending τ φ) :
    Prop where
  | finished (receivers : like.receivers one.receiver two.receiver)
      (first : one.result = .ok tally) (second : two.result = .ok other)
      (tallies : Tallies like.dropped tally other)
  | failed (receivers : like.receivers one.receiver two.receiver)
      (first : one.result = .error error) (second : two.result = .error (error.map f))
  | parted (failure : two.result = .error (.deliver refusal))
      (parted : like.parted one.receiver two.receiver refusal)

end Likeness

variable {like : Likeness σ τ φ} {f : ε → φ} {c d : Classifier} {s : State σ} {t : State τ}
  {header : Header}

theorem reports_alike (alike : s.Alike like t) :
    (s.report? = none ∧ t.report? = none) ∨
      ∃ report other, s.report? = some report ∧ t.report? = some other ∧
        like.reports report other := by
  have related := alike.report
  generalize s.report? = one at related
  generalize t.report? = two at related
  cases related with
  | none => exact .inl ⟨rfl, rfl⟩
  | some related => exact .inr ⟨_, _, rfl, rfl, related⟩

theorem start_alike (nothing : like.dropped 0 0) (receivers : like.receivers one two) :
    (start one).Alike like (start two) :=
  ⟨.none, rfl, ⟨rfl, rfl, rfl, nothing, rfl⟩, receivers⟩

theorem counted_alike (alike : s.Alike like t) : s.counted.Alike like t.counted :=
  { alike with tally := { alike.tally with linesRead := congrArg (· + 1) alike.tally.linesRead } }

variable [Receiver σ ε] [Receiver τ φ]

theorem absorb_follows (lasts : like.Lasts f c d) (alike : s.Alike like t) :
    like.Follows f (absorb (ε := ε) c s line) (absorb (ε := φ) d t line) := by
  by_cases outside : s.report? = none ∨ s.inside? = none
  · have outsideToo : t.report? = none ∨ t.inside? = none := by
      rw [alike.inside]
      rcases reports_alike alike with ⟨_, idle⟩ | ⟨report, _, opened, _⟩
      · exact .inl idle
      · exact .inr (outside.resolve_left (by simp [opened]))
    rw [absorb_outside outside, absorb_outside outsideToo, lasts.strict]
    split
    · exact .along alike (by rw [alike.tally.linesRead]; rfl)
    · refine .along { alike with tally := { alike.tally with unrecognized := ?_ } } rfl
      exact congrArg (· + 1) alike.tally.unrecognized
  · obtain ⟨report, section_, opened, entered⟩ := inside_of_not_outside outside
    rcases reports_alike alike with ⟨idle, _⟩ | ⟨report, other, opened, openedToo, related⟩
    · cases opened.symm.trans idle
    · rw [absorb_inside opened entered, absorb_inside openedToo (alike.inside.trans entered)]
      have absorbed := lasts.absorbed _ _ line section_ related
      have dropped := lasts.dropped _ _ line section_ _ _ related alike.tally.dropped
      exact .along ⟨.some absorbed, alike.inside, { alike.tally with dropped := dropped },
        alike.receivers⟩ rfl

theorem close_follows (lasts : like.Lasts f c d) (alike : s.Alike like t) :
    like.Follows f (close c.rules s) (close d.rules t) := by
  rcases reports_alike alike with ⟨idle, idleToo⟩ | ⟨report, other, opened, openedToo, related⟩
  · rw [close_idle idle, close_idle idleToo]
    exact .along { alike with inside := rfl } rfl
  · rw [close_open opened, close_open openedToo]
    have files := congrArg (· + 1) alike.tally.files
    cases lasts.accepted _ _ _ _ alike.receivers related with
    | alike receivers refusals =>
      refine .along ⟨.none, rfl, { alike.tally with files }, receivers⟩ ?_
      rw [refusals]
      cases (Receiver.accept s.receiver (c.rules.finished report)).2 <;> rfl
    | parted taken refused parted =>
      exact .parted (by rw [taken]; rfl) (by rw [refused]; rfl) parted

theorem openSection_follows (lasts : like.Lasts f c d) (alike : s.Alike like t) :
    like.Follows f (openSection c.rules s header) (openSection d.rules t header) := by
  have files : t.report?.map FileReport.file = s.report?.map FileReport.file := by
    rcases reports_alike alike with ⟨idle, idleToo⟩ | ⟨report, other, opened, openedToo, related⟩
    · rw [idle, idleToo]
    · rw [opened, openedToo, Option.map_some, Option.map_some, lasts.file _ _ related]
  by_cases same : s.report?.map FileReport.file = some header.file
  · obtain ⟨report, opened, named⟩ := Option.map_eq_some_iff.mp same
    obtain ⟨other, openedToo, namedToo⟩ := Option.map_eq_some_iff.mp (files.trans same)
    rw [openSection_same opened named, openSection_same openedToo namedToo]
    exact .along { alike with inside := rfl } rfl
  · have closed := close_follows lasts alike
    rw [openSection_closing same, openSection_closing (files ▸ same)]
    rcases first : close c.rules s with ⟨s', error?⟩
    rcases second : close d.rules t with ⟨t', error'?⟩
    rw [first, second] at closed
    cases closed with
    | along alike failure =>
      dsimp only at failure
      subst failure
      cases error? with
      | some error => exact .along alike rfl
      | none =>
        have inside : Section.after? t'.inside? header.signal =
            Section.after? s'.inside? header.signal := by rw [alike.inside]
        exact .along ⟨.some (lasts.opened _), inside, alike.tally, alike.receivers⟩ rfl
    | parted passed failure parted =>
      dsimp only at passed failure
      subst passed failure
      exact .parted rfl rfl parted

theorem feed_follows (lasts : like.Lasts f c d) (alike : s.Alike like t) (raw : String) :
    like.Follows f (c.feed s raw) (d.feed t raw) := by
  have counted := counted_alike alike
  have same : d.rules.layout.kind (Text.trim raw) = c.rules.layout.kind (Text.trim raw) := by
    rw [lasts.layout]
  cases kind : c.rules.layout.kind (Text.trim raw) with
  | noise =>
    have noise := congrArg (· + 1) alike.tally.noise
    rw [feed_noise kind, feed_noise (same.trans kind)]
    exact .along { counted with tally := { counted.tally with noise } } rfl
  | boundary =>
    rw [feed_boundary kind, feed_boundary (same.trans kind)]
    exact close_follows lasts counted
  | header header =>
    rw [feed_header kind, feed_header (same.trans kind)]
    exact openSection_follows lasts counted
  | content =>
    rw [feed_content kind, feed_content (same.trans kind)]
    exact absorb_follows lasts counted

theorem finish_ends (lasts : like.Lasts f c d) (alike : s.Alike like t) :
    like.Ends f (c.finish s) (d.finish t) := by
  have closed := close_follows lasts alike
  unfold finish
  rcases first : close c.rules s with ⟨s', error?⟩
  rcases second : close d.rules t with ⟨t', error'?⟩
  rw [first, second] at closed
  cases closed with
  | along alike failure =>
    dsimp only at failure
    subst failure
    cases error? with
    | none => exact .finished alike.receivers rfl rfl alike.tally
    | some error => exact .failed alike.receivers rfl rfl
  | parted passed failure parted =>
    dsimp only at passed failure
    subst passed failure
    exact .parted rfl parted

-- By induction on the reads: as long as no refusal parts them, both runs take the same step, and
-- after that only the first one goes on.
theorem ending_ends (lasts : like.Lasts f c d) (alike : s.Alike like t)
    (reads : List Text.LineRead) : like.Ends f (c.ending s reads) (d.ending t reads) := by
  induction reads generalizing s t with
  | nil => exact finish_ends lasts alike
  | cons read rest ih =>
    cases read with
    | error fault => exact .failed alike.receivers rfl rfl
    | ok raw =>
      have fed := feed_follows lasts alike raw
      rcases first : c.feed s raw with ⟨s', error?⟩
      rcases second : d.feed t raw with ⟨t', error'?⟩
      rw [first, second] at fed
      cases fed with
      | along alike failure =>
        dsimp only at failure
        subst failure
        cases error? with
        | none =>
          rw [ending_cons first, ending_cons second]
          exact ih alike
        | some error =>
          rw [ending_stopped first, ending_stopped second]
          exact .failed alike.receivers rfl rfl
      | @parted refusal passed failure parted =>
        dsimp only at passed failure
        subst passed failure
        rw [ending_cons first, ending_stopped second]
        have kept := ending_keeps (Q := fun one => like.parted one t'.receiver refusal) (c := c)
          (fun one report => lasts.parted one _ refusal report) parted rest
        exact .parted rfl kept

end Classifier

end IncludeTidy
