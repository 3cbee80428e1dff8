import IncludeTidy.Proofs.Failures

namespace IncludeTidy

-- A change of the counts that gets along with their growth, so that it can be made before a line is
-- taken or after it. Stray content is left out: what is done about it depends on the classifier.
structure Tally.Steady (change : Tally → Tally) : Prop where
  read : ∀ t : Tally, change { t with linesRead := t.linesRead + 1 } =
    { change t with linesRead := (change t).linesRead + 1 }
  noise : ∀ t : Tally, change { t with noise := t.noise + 1 } =
    { change t with noise := (change t).noise + 1 }
  dropped : ∀ (t : Tally) (count : Nat),
    change { t with falsePositives := t.falsePositives + count } =
      { change t with falsePositives := (change t).falsePositives + count }
  files : ∀ t : Tally, change { t with files := t.files + 1 } =
    { change t with files := (change t).files + 1 }

theorem steady_unrecognized (count : Nat) :
    Tally.Steady fun t => { t with unrecognized := count } :=
  ⟨fun _ => rfl, fun _ => rfl, fun _ _ => rfl, fun _ => rfl⟩

def Tally.plus (t u : Tally) : Tally :=
  ⟨t.linesRead + u.linesRead, t.noise + u.noise, t.unrecognized + u.unrecognized,
    t.falsePositives + u.falsePositives, t.files + u.files⟩

theorem plus_assoc (t u v : Tally) : (t.plus u).plus v = t.plus (u.plus v) := by
  simp only [Tally.plus, Nat.add_assoc]

theorem plus_comm (t u : Tally) : t.plus u = u.plus t := by
  simp only [Tally.plus, Nat.add_comm]

instance : Std.Associative Tally.plus := ⟨plus_assoc⟩

instance : Std.Commutative Tally.plus := ⟨plus_comm⟩

@[simp]
theorem plus_zero (t : Tally) : t.plus .zero = t := rfl

@[simp]
theorem zero_plus (t : Tally) : Tally.zero.plus t = t := by
  rw [plus_comm, plus_zero]

theorem steady_plus (base : Tally) : Tally.Steady base.plus :=
  ⟨fun _ => rfl, fun _ => rfl, fun _ _ => by simp only [Tally.plus, Nat.add_assoc], fun _ => rfl⟩

-- A line of its own that counts for nothing else.
def Tally.line : Tally := ⟨1, 0, 0, 0, 0⟩

theorem steady_line : Tally.Steady fun t => t.plus .line :=
  ⟨fun _ => rfl, fun _ => rfl, fun _ _ => rfl, fun _ => rfl⟩

-- The same failure with so many more lines above it.
def ClassifyError.below (count : Nat) : ClassifyError ε → ClassifyError ε
  | unrecognized number line => unrecognized (count + number) line
  | read fault => read fault
  | deliver refusal => deliver refusal

namespace Classifier

def State.recounted (change : Tally → Tally) (s : State σ) : State σ :=
  { s with tally := change s.tally }

variable {change : Tally → Tally} {rules : Ruleset} {s : State σ} {raw line : String}
  {header : Header} {report : FileReport} {section_ : Section}

theorem counted_recounted (steady : Tally.Steady change) (s : State σ) :
    (s.recounted change).counted = s.counted.recounted change := by
  unfold State.counted State.recounted
  rw [steady.read]

theorem absorb_recounted (steady : Tally.Steady change) (strict other : Bool)
    (opened : s.report? = some report) (inside : s.inside? = some section_) :
    absorb (ε := ε) ⟨rules, strict⟩ (s.recounted change) line =
      ((absorb (ε := ε) ⟨rules, other⟩ s line).1.recounted change,
        (absorb (ε := ε) ⟨rules, other⟩ s line).2) := by
  rw [absorb_inside (s := s.recounted change) opened inside, absorb_inside opened inside]
  simp only [State.recounted, steady.dropped]

variable [Receiver σ ε]

theorem close_recounted (steady : Tally.Steady change) (rules : Ruleset) (s : State σ) :
    close rules (s.recounted change) =
      ((close rules s).1.recounted change, (close rules s).2) := by
  cases current : s.report? with
  | none =>
    rw [close_idle (s := s.recounted change) current, close_idle current]
    rfl
  | some report =>
    rw [close_open (s := s.recounted change) current, close_open current]
    simp only [State.recounted, steady.files]

theorem openSection_recounted (steady : Tally.Steady change) (rules : Ruleset) (s : State σ)
    (header : Header) :
    openSection rules (s.recounted change) header =
      ((openSection rules s header).1.recounted change, (openSection rules s header).2) := by
  cases current : s.report? with
  | none =>
    rw [openSection_idle (s := s.recounted change) current, openSection_idle current]
    rfl
  | some report =>
    by_cases same : report.file = header.file
    · rw [openSection_same (s := s.recounted change) current same, openSection_same current same]
      rfl
    · have closed := close_recounted steady rules s
      cases answer : (Receiver.accept s.receiver (rules.finished report)).2 with
      | none =>
        rw [openSection_other (s := s.recounted change) current same answer,
          openSection_other current same answer, closed]
        rfl
      | some refusal =>
        rw [openSection_refused (s := s.recounted change) current same answer,
          openSection_refused current same answer, closed]

-- Strictness matters for stray content only, so the two sides may differ in it.
theorem feed_recounted (steady : Tally.Steady change) (settled : ¬ s.Stray rules raw)
    (strict other : Bool) :
    ((Classifier.mk rules strict).feed (s.recounted change) raw).1 =
        ((Classifier.mk rules other).feed s raw).1.recounted change ∧
      ((Classifier.mk rules strict).feed (s.recounted change) raw).2 =
        ((Classifier.mk rules other).feed s raw).2 := by
  have counted := counted_recounted steady s
  cases kind : rules.layout.kind (Text.trim raw) with
  | noise =>
    rw [feed_noise (c := ⟨rules, strict⟩) kind, feed_noise (c := ⟨rules, other⟩) kind, counted]
    have grown := steady.noise s.counted.tally
    simp only [State.recounted, State.counted] at grown ⊢
    rw [grown, steady.read]
    exact ⟨rfl, trivial⟩
  | boundary =>
    rw [feed_boundary (c := ⟨rules, strict⟩) kind, feed_boundary (c := ⟨rules, other⟩) kind,
      counted, close_recounted steady]
    exact ⟨rfl, rfl⟩
  | header header =>
    rw [feed_header (c := ⟨rules, strict⟩) kind, feed_header (c := ⟨rules, other⟩) kind, counted,
      openSection_recounted steady]
    exact ⟨rfl, rfl⟩
  | content =>
    obtain ⟨report, section_, opened, entered⟩ := inside_of_settled kind settled
    rw [feed_content (c := ⟨rules, strict⟩) kind, feed_content (c := ⟨rules, other⟩) kind, counted,
      absorb_recounted (s := s.counted) steady strict other opened entered]
    exact ⟨rfl, rfl⟩

-- Whatever was counted before a line has no part in what becomes of it.
theorem feed_below (c : Classifier) (base : Tally) (s : State σ) (raw : String) :
    c.feed (s.recounted base.plus) raw =
      ((c.feed s raw).1.recounted base.plus,
        (c.feed s raw).2.map (ClassifyError.below base.linesRead)) := by
  obtain ⟨rules, strict⟩ := c
  by_cases stray : s.Stray rules raw
  · rw [feed_stray (s := s.recounted base.plus) stray, feed_stray stray]
    cases strict <;> rfl
  · obtain ⟨state, failure⟩ := feed_recounted (steady_plus base) stray strict strict
    refine Prod.ext state (failure.trans ?_)
    cases failed : ((Classifier.mk rules strict).feed s raw).2 with
    | none => rfl
    | some error =>
      rcases feed_failure failed with ⟨_, astray, _⟩ | ⟨refusal, _, rfl, _⟩
      · exact absurd astray stray
      · rfl

theorem feed_unrecognized (settled : ¬ s.Stray rules raw) (strict : Bool) :
    ((Classifier.mk rules strict).feed s raw).1.tally.unrecognized = s.tally.unrecognized := by
  have same := (feed_recounted (steady_unrecognized s.tally.unrecognized) settled strict strict).1
  have itself : s.recounted (fun t => { t with unrecognized := s.tally.unrecognized }) = s := rfl
  rw [itself] at same
  rw [same]
  dsimp only [State.recounted]

theorem close_linesRead (rules : Ruleset) (s : State σ) :
    (close rules s).1.tally.linesRead = s.tally.linesRead := by
  cases current : s.report? with
  | none => rw [close_idle current]
  | some report => rw [close_open current]

theorem openSection_linesRead (rules : Ruleset) (s : State σ) (header : Header) :
    (openSection rules s header).1.tally.linesRead = s.tally.linesRead := by
  cases current : s.report? with
  | none => rw [openSection_idle current]
  | some report =>
    have closed := close_linesRead rules s
    by_cases same : report.file = header.file
    · rw [openSection_same current same]
    · cases answer : (Receiver.accept s.receiver (rules.finished report)).2 with
      | none => rw [openSection_other current same answer]; exact closed
      | some refusal => rw [openSection_refused current same answer]; exact closed

theorem feed_linesRead (c : Classifier) (s : State σ) (raw : String) :
    (c.feed s raw).1.tally.linesRead = s.tally.linesRead + 1 := by
  cases kind : c.rules.layout.kind (Text.trim raw) with
  | noise => rw [feed_noise kind]; rfl
  | boundary => rw [feed_boundary kind, close_linesRead]; rfl
  | header header => rw [feed_header kind, openSection_linesRead]; rfl
  | content =>
    rw [feed_content kind]
    unfold absorb
    split
    · rfl
    · split <;> rfl

theorem feedOn_linesRead (c : Classifier) (s : State σ) (lines : List String) :
    (c.feedOn s lines).tally.linesRead = s.tally.linesRead + lines.length := by
  induction lines generalizing s with
  | nil => rfl
  | cons raw rest ih =>
    simp only [feedOn_cons, ih, feed_linesRead, List.length_cons]
    omega

end Classifier

end IncludeTidy
