import IncludeTidy.Proofs.Receivers

namespace IncludeTidy

-- Offers the reports in order, up to the first that is refused.
def Receiver.offer [Receiver σ ε] (receiver : σ) : List FileReport → σ × Option ε
  | [] => (receiver, none)
  | report :: rest =>
    match Receiver.accept receiver report with
    | (taker, none) => Receiver.offer taker rest
    | (taker, some refusal) => (taker, some refusal)

variable [Receiver σ ε] {receiver taker : σ}

theorem offer_accepted (accepted : Receiver.accept receiver report = (taker, none))
    (rest : List FileReport) :
    Receiver.offer receiver (report :: rest) = Receiver.offer taker rest := by
  rw [Receiver.offer, accepted]

theorem offer_refused (refused : Receiver.accept receiver report = (taker, some refusal))
    (rest : List FileReport) :
    Receiver.offer receiver (report :: rest) = (taker, some refusal) := by
  rw [Receiver.offer, refused]

-- More reports are offered to what took the ones before, or not at all.
theorem offer_append (receiver : σ) (reports more : List FileReport) :
    Receiver.offer receiver (reports ++ more) =
      match Receiver.offer receiver reports with
      | (taker, none) => Receiver.offer taker more
      | (taker, some refusal) => (taker, some refusal) := by
  induction reports generalizing receiver with
  | nil => rfl
  | cons report rest ih =>
    rcases first : Receiver.accept receiver report with ⟨next, _ | refusal⟩
    · rw [List.cons_append, offer_accepted first, offer_accepted first, ih]
    · rw [List.cons_append, offer_refused first, offer_refused first]

namespace Classifier

-- The receiver has taken all that was collected.
def Took (first : σ) (collected : Collected) (receiver : σ) : Prop :=
  Receiver.offer first collected.reports = (receiver, none)

-- A receiver that takes everything beside the one itself, which has taken the same reports so far,
-- or has been offered them up to the one that it refused.
def Likeness.offering (first : σ) : Likeness Collected σ ε where
  reports := Eq
  dropped := Eq
  receivers := Took first
  parted := fun collected receiver refusal =>
    Receiver.offer first collected.reports = (receiver, some refusal)

variable {first : σ} {c : Classifier} {rules : Ruleset} {header : Header} {s : State Collected}
  {t : State σ}

theorem accept_took (took : Took first collected receiver) (report : FileReport) :
    Receiver.offer first (Receiver.accept collected report).1.reports =
      ((Receiver.accept receiver report).1, (Receiver.accept receiver report).2) := by
  have offered := offer_append first collected.reports [report]
  rw [took] at offered
  refine offered.trans ?_
  rcases answer : Receiver.accept receiver report with ⟨taker, _ | refusal⟩
  · exact offer_accepted answer []
  · exact offer_refused answer []

theorem offering_lasts (c : Classifier) (first : σ) :
    (Likeness.offering first).Lasts Empty.elim c c where
  layout := rfl
  strict := rfl
  opened := fun _ => rfl
  file := fun _ _ same => by rw [same]
  absorbed := fun _ _ _ _ same => by rw [same]; rfl
  dropped := fun _ _ _ _ _ _ same count => by rw [same, count]; rfl
  accepted := fun collected receiver report _ took same => by
    have offered := accept_took took (c.rules.finished report)
    rw [← same]
    rcases answer : Receiver.accept receiver (c.rules.finished report) with ⟨taker, _ | refusal⟩
    · rw [answer] at offered
      exact .alike offered rfl
    · rw [answer] at offered
      exact .parted rfl rfl offered
  parted := fun collected _ _ report stopped => by
    have offered := offer_append first collected.reports [report]
    rwa [stopped] at offered

-- How the run ends that took all reports so far, given how the run ends that nothing stops.
def Bounded (first : σ) (free : Ending Collected Empty) (bound : Ending σ ε) : Prop :=
  match Receiver.offer first free.receiver.reports with
  | (taker, none) => bound = ⟨taker, free.result.mapError (ClassifyError.map Empty.elim)⟩
  | (taker, some refusal) => bound = ⟨taker, .error (.deliver refusal)⟩

theorem bounded_took {free : Ending Collected Empty} {bound : Ending σ ε}
    (took : Took first free.receiver bound.receiver)
    (results : bound.result = free.result.mapError (ClassifyError.map Empty.elim)) :
    Bounded first free bound := by
  unfold Bounded
  rw [took]
  exact Ending.ext rfl results

theorem bounded_refused {free : Ending Collected Empty} {bound : Ending σ ε}
    (offered : Receiver.offer first free.receiver.reports = (bound.receiver, some refusal))
    (failure : bound.result = .error (.deliver refusal)) : Bounded first free bound := by
  unfold Bounded
  rw [offered]
  exact Ending.ext rfl failure

-- Once a report is refused, the run that nothing stops can only hand over more, which changes
-- nothing about what was offered up to there.
theorem processReads_offered (c : Classifier) (first : σ) (reads : List Text.LineRead) :
    Bounded first (c.processReads (⟨[]⟩ : Collected) reads) (c.processReads first reads) := by
  have fresh : (start (⟨[]⟩ : Collected)).Alike (.offering first) (start first) :=
    start_alike rfl rfl
  rw [processReads_ending, processReads_ending]
  cases ending_ends (offering_lasts c first) fresh reads with
  | finished took ok okToo tallies =>
    refine bounded_took took ?_
    rw [okToo, ok, tallies_same tallies]
    rfl
  | failed took failed failedToo =>
    refine bounded_took took ?_
    rw [failedToo, failed]
    rfl
  | parted failure offered => exact bounded_refused offered failure

end Classifier

end IncludeTidy
