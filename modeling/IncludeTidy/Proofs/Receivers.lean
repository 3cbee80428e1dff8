import IncludeTidy.Proofs.Simulation

namespace IncludeTidy

-- Rules that answer every question in the same way, whatever the order of their lists.
structure Ruleset.Agrees (rules other : Ruleset) : Prop where
  layout : other.layout = rules.layout
  header : other.umbrella.header = rules.umbrella.header
  covers : ∀ directive, other.umbrella.covers directive = rules.umbrella.covers directive
  known : ∀ listed, other.falsePositives.contains listed = rules.falsePositives.contains listed

variable {rules other : Ruleset}

theorem agrees_refl (rules : Ruleset) : rules.Agrees rules :=
  ⟨rfl, rfl, fun _ => rfl, fun _ => rfl⟩

theorem screen_agrees (agrees : rules.Agrees other) (file : String) (entry : Entry) :
    other.screen file entry = rules.screen file entry := by
  unfold Ruleset.screen
  rw [agrees.covers, agrees.known]

theorem absorb_agrees (agrees : rules.Agrees other) (report : FileReport) (line : String)
    (section_ : Section) :
    report.absorb other line section_ = report.absorb rules line section_ := by
  cases section_ with
  | additions => simp only [FileReport.absorb, screen_agrees agrees]
  | removals => rfl
  | fullList => rfl

theorem finished_agrees (agrees : rules.Agrees other) (report : FileReport) :
    other.finished report = rules.finished report := by
  unfold Ruleset.finished FileReport.consolidate
  rw [agrees.header]

-- The second receiver refuses exactly when the first one does, and related receivers stay related
-- whether they refuse or not.
def Receiver.Mirrors [Receiver σ ε] [Receiver τ φ] (R : σ → τ → Prop) (f : ε → φ) : Prop :=
  ∀ one two report, R one two →
    R (Receiver.accept one report).1 (Receiver.accept two report).1 ∧
      (Receiver.accept two report).2 = (Receiver.accept one report).2.map f

namespace Classifier

-- Nothing differs but the receivers, and no refusal parts them.
def Likeness.mirroring (R : σ → τ → Prop) (φ : Type) : Likeness σ τ φ where
  reports := Eq
  dropped := Eq
  receivers := R
  parted := fun _ _ _ => False

theorem tallies_same (same : Tallies Eq one two) : two = one := by
  obtain ⟨linesRead, noise, unrecognized, falsePositives, files⟩ := two
  obtain ⟨rfl, rfl, rfl, rfl, rfl⟩ := same
  rfl

theorem alike_mirroring_iff {R : σ → τ → Prop} {s : State σ} {t : State τ} :
    s.Alike (.mirroring R φ) t ↔ t.report? = s.report? ∧ t.inside? = s.inside? ∧
      t.tally = s.tally ∧ R s.receiver t.receiver := by
  constructor
  · intro alike
    refine ⟨?_, alike.inside, tallies_same alike.tally, alike.receivers⟩
    rcases reports_alike alike with ⟨idle, idleToo⟩ | ⟨report, _, opened, openedToo, rfl⟩
    · exact idleToo.trans idle.symm
    · exact openedToo.trans opened.symm
  · rintro ⟨report, inside, tally, receivers⟩
    refine ⟨?_, inside, ?_, receivers⟩
    · rw [report]
      cases s.report? with
      | none => exact .none
      | some report => exact .some rfl
    · rw [tally]
      exact ⟨rfl, rfl, rfl, rfl, rfl⟩

variable [Receiver σ ε] [Receiver τ φ] {R : σ → τ → Prop} {f : ε → φ}

theorem mirroring_lasts (agrees : rules.Agrees other) (mirrors : Receiver.Mirrors R f)
    (strict : Bool) :
    (Likeness.mirroring R φ).Lasts f ⟨rules, strict⟩ ⟨other, strict⟩ where
  layout := agrees.layout
  strict := rfl
  opened := fun _ => rfl
  file := fun _ _ same => by rw [same]
  absorbed := fun _ _ _ _ same => by rw [same, absorb_agrees agrees]; rfl
  dropped := fun _ _ _ _ _ _ same count => by rw [same, absorb_agrees agrees, count]; rfl
  accepted := fun one two report _ related same => by
    obtain ⟨receivers, refusals⟩ := mirrors one two (rules.finished report) related
    rw [← same, finished_agrees agrees]
    exact .alike receivers refusals
  parted := fun _ _ _ _ parted => parted

theorem feed_alike {s : State σ} {t : State τ} {c : Classifier} (mirrors : Receiver.Mirrors R f)
    (alike : s.Alike (.mirroring R φ) t) (raw : String) :
    (c.feed s raw).1.Alike (.mirroring R φ) (c.feed t raw).1 := by
  cases feed_follows (mirroring_lasts (agrees_refl c.rules) mirrors c.strict) alike raw with
  | along alike failure => exact alike
  | parted passed failure parted => exact parted.elim

theorem processReads_mirrors (agrees : rules.Agrees other) (mirrors : Receiver.Mirrors R f)
    (strict : Bool) (related : R one two) (reads : List Text.LineRead) :
    R ((Classifier.mk rules strict).processReads one reads).receiver
        ((Classifier.mk other strict).processReads two reads).receiver ∧
      ((Classifier.mk other strict).processReads two reads).result =
        ((Classifier.mk rules strict).processReads one reads).result.mapError
          (ClassifyError.map f) := by
  have fresh : (start one).Alike (.mirroring R φ) (start two) := start_alike rfl related
  rw [processReads_ending, processReads_ending]
  cases ending_ends (mirroring_lasts agrees mirrors strict) fresh reads with
  | finished receivers ok okToo tallies =>
    refine ⟨receivers, ?_⟩
    rw [okToo, ok, tallies_same tallies]
    rfl
  | failed receivers failed failedToo =>
    refine ⟨receivers, ?_⟩
    rw [failedToo, failed]
    rfl
  | parted failure parted => exact parted.elim

theorem processReads_alike (c : Classifier) (mirrors : Receiver.Mirrors R f) (related : R one two)
    (reads : List Text.LineRead) :
    R (c.processReads one reads).receiver (c.processReads two reads).receiver ∧
      (c.processReads two reads).result =
        (c.processReads one reads).result.mapError (ClassifyError.map f) :=
  processReads_mirrors (agrees_refl c.rules) mirrors c.strict related reads

-- A receiver mirrors itself.
theorem processReads_agrees (agrees : rules.Agrees other) (strict : Bool) (receiver : σ)
    (reads : List Text.LineRead) :
    (Classifier.mk other strict).processReads receiver reads =
      (Classifier.mk rules strict).processReads receiver reads := by
  have itself : Receiver.Mirrors (σ := σ) (τ := σ) Eq (id : ε → ε) := by
    intro one two report same
    subst same
    exact ⟨rfl, Option.map_id_apply.symm⟩
  obtain ⟨receivers, results⟩ := processReads_mirrors agrees itself strict rfl reads
  refine Ending.ext receivers.symm (results.trans ?_)
  cases ((Classifier.mk rules strict).processReads receiver reads).result with
  | ok tally => rfl
  | error error => exact congrArg Except.error error.map_id

end Classifier

-- A receiver that also keeps all that it is offered, refused reports included.
structure Recorded (σ : Type) where
  receiver : σ
  offered : List FileReport
deriving DecidableEq, Repr

instance [Receiver σ ε] : Receiver (Recorded σ) ε where
  accept recorded report :=
    let (receiver, refusal?) := Receiver.accept recorded.receiver report
    (⟨receiver, recorded.offered ++ [report]⟩, refusal?)

-- The receiver refuses no report.
def Receiver.Willing (σ : Type) [Receiver σ ε] : Prop :=
  ∀ (receiver : σ) (report : FileReport), (Receiver.accept receiver report).2 = none

theorem collected_willing : Receiver.Willing Collected := fun _ _ => rfl

def Receiver.takeAll [Receiver σ ε] (receiver : σ) (reports : List FileReport) : σ :=
  reports.foldl (fun receiver report => (Receiver.accept receiver report).1) receiver

section TakeAll

variable [Receiver σ ε]

@[simp]
theorem takeAll_nil (receiver : σ) : Receiver.takeAll receiver [] = receiver := rfl

@[simp]
theorem takeAll_cons (receiver : σ) (report : FileReport) (rest : List FileReport) :
    Receiver.takeAll receiver (report :: rest) =
      Receiver.takeAll (Receiver.accept receiver report).1 rest := rfl

@[simp]
theorem takeAll_append (receiver : σ) (first second : List FileReport) :
    Receiver.takeAll receiver (first ++ second) =
      Receiver.takeAll (Receiver.takeAll receiver first) second :=
  List.foldl_append

end TakeAll

@[simp]
theorem accept_collected (taken : List FileReport) (report : FileReport) :
    Receiver.accept (⟨taken⟩ : Collected) report = (⟨taken ++ [report]⟩, none) := rfl

@[simp]
theorem takeAll_collected (taken reports : List FileReport) :
    Receiver.takeAll (⟨taken⟩ : Collected) reports = ⟨taken ++ reports⟩ := by
  induction reports generalizing taken with
  | nil => simp
  | cons report rest ih => simp [ih]

theorem recorded_mirrors [Receiver σ ε] :
    Receiver.Mirrors (fun (recorded : Recorded σ) receiver => recorded.receiver = receiver) id := by
  intro recorded receiver report same
  subst same
  exact ⟨rfl, Option.map_id_apply.symm⟩

theorem collected_mirrors [Receiver σ ε] (willing : Receiver.Willing σ) (first : σ) :
    Receiver.Mirrors
      (fun (collected : Collected) receiver => Receiver.takeAll first collected.reports = receiver)
      (Empty.elim : Empty → ε) := by
  rintro ⟨taken⟩ receiver report same
  subst same
  exact ⟨by simp, willing _ report⟩

-- What a classification hands over to a receiver that takes everything.
def Classifier.delivered (c : Classifier) (reads : List Text.LineRead) : List FileReport :=
  (c.processReads (⟨[]⟩ : Collected) reads).receiver.reports

theorem processReads_willing [Receiver σ ε] (willing : Receiver.Willing σ) (c : Classifier)
    (receiver : σ) (reads : List Text.LineRead) :
    (c.processReads receiver reads).receiver = Receiver.takeAll receiver (c.delivered reads) ∧
      (c.processReads receiver reads).result =
        (c.processReads (⟨[]⟩ : Collected) reads).result.mapError
          (ClassifyError.map Empty.elim) := by
  have fresh : Receiver.takeAll receiver (Collected.mk []).reports = receiver := rfl
  obtain ⟨taken, result⟩ := c.processReads_alike (collected_mirrors willing receiver) fresh reads
  exact ⟨taken.symm, result⟩

end IncludeTidy
