import IncludeTidy.Proofs.Counts
import IncludeTidy.Proofs.Reading

namespace IncludeTidy.Classifier

-- Nothing counted as stray, which is how a strict classification counts.
def State.unstrayed (s : State σ) : State σ := s.recounted fun t => { t with unrecognized := 0 }

variable [Receiver σ ε] {c : Classifier} {rules : Ruleset} {s : State σ} {raw : String}
  {header : Header}

-- One line on both sides.
inductive InStep (rules : Ruleset) (s : State σ) (raw : String) : Prop where
  | settled
      (state : ((Classifier.mk rules true).feed s.unstrayed raw).1 =
        ((Classifier.mk rules false).feed s raw).1.unstrayed)
      (failure : ((Classifier.mk rules true).feed s.unstrayed raw).2 =
        ((Classifier.mk rules false).feed s raw).2)
      (count : ((Classifier.mk rules false).feed s raw).1.tally.unrecognized =
        s.tally.unrecognized)
  | stray
      (refused : (Classifier.mk rules true).feed s.unstrayed raw =
        (s.counted.unstrayed, some (.unrecognized (s.tally.linesRead + 1) (Text.trim raw))))
      (dropped : (Classifier.mk rules false).feed s raw =
        ({ s.counted with
          tally := { s.counted.tally with unrecognized := s.tally.unrecognized + 1 } }, none))

theorem feed_inStep (rules : Ruleset) (s : State σ) (raw : String) : InStep rules s raw := by
  by_cases stray : s.Stray rules raw
  · exact .stray (feed_stray (s := s.unstrayed) stray true) (feed_stray stray false)
  · obtain ⟨state, failure⟩ := feed_recounted (steady_unrecognized 0) stray true false
    exact .settled state failure (feed_unrecognized stray false)

theorem feed_unstrayed (rules : Ruleset) (s : State σ) (raw : String) :
    ((Classifier.mk rules true).feed s.unstrayed raw).1 =
      ((Classifier.mk rules false).feed s raw).1.unstrayed := by
  cases feed_inStep rules s raw with
  | settled state _ _ => exact state
  | stray refused dropped => rw [refused, dropped]; rfl

theorem feedOn_unstrayed (rules : Ruleset) (s : State σ) (lines : List String) :
    (Classifier.mk rules true).feedOn s.unstrayed lines =
      ((Classifier.mk rules false).feedOn s lines).unstrayed := by
  induction lines generalizing s with
  | nil => rfl
  | cons raw rest ih =>
    simp [feed_unstrayed, ih]

theorem feed_unrecognized_iff (rules : Ruleset) (s : State σ) (raw line : String) (number : Nat) :
    ((Classifier.mk rules true).feed s.unstrayed raw).2 = some (.unrecognized number line) ↔
      ((Classifier.mk rules false).feed s raw).1.tally.unrecognized = s.tally.unrecognized + 1 ∧
        number = s.tally.linesRead + 1 ∧ line = Text.trim raw := by
  cases feed_inStep rules s raw with
  | settled _ failure count =>
    rw [failure, count]
    constructor
    · intro failed
      rcases feed_failure failed with ⟨strict, _⟩ | ⟨refusal, report, other, _⟩
      · cases strict
      · cases other
    · rintro ⟨more, _⟩
      exact absurd more.symm (Nat.succ_ne_self _)
  | stray refused dropped =>
    rw [refused, dropped]
    simp [eq_comm]

theorem feed_deliver_iff (rules : Ruleset) (s : State σ) (raw : String) (refusal : ε) :
    ((Classifier.mk rules true).feed s.unstrayed raw).2 = some (.deliver refusal) ↔
      ((Classifier.mk rules false).feed s raw).2 = some (.deliver refusal) := by
  cases feed_inStep rules s raw with
  | settled _ failure _ => rw [failure]
  | stray refused dropped => rw [refused, dropped]; simp

theorem feed_unrecognized_le (rules : Ruleset) (s : State σ) (raw : String) :
    s.tally.unrecognized ≤ ((Classifier.mk rules false).feed s raw).1.tally.unrecognized := by
  cases feed_inStep rules s raw with
  | settled _ _ count => exact Nat.le_of_eq count.symm
  | stray _ dropped => rw [dropped]; exact Nat.le_succ _

theorem feedOn_unrecognized_le (rules : Ruleset) (s : State σ) (lines : List String) :
    s.tally.unrecognized ≤ ((Classifier.mk rules false).feedOn s lines).tally.unrecognized := by
  induction lines generalizing s with
  | nil => exact Nat.le_refl _
  | cons raw rest ih =>
    rw [feedOn_cons]
    exact Nat.le_trans (feed_unrecognized_le rules s raw) (ih _)

theorem close_unrecognized (rules : Ruleset) (s : State σ) :
    (close rules s).1.tally.unrecognized = s.tally.unrecognized := by
  cases current : s.report? with
  | none => rw [close_idle current]
  | some report => rw [close_open current]

-- How a strict run from this state goes: as far as a tolerant one that counts no stray line, or up
-- to the first line that it counts.
inductive Halts (rules : Ruleset) (s : State σ) (lines : List String) : Prop where
  | never
      (clean : ((Classifier.mk rules false).feedOn s lines).tally.unrecognized = 0)
      (fed : (Classifier.mk rules true).feedAll s (lines.map .ok) =
        ((Classifier.mk rules false).feedOn s lines, none))
  | here {before after : List String} {raw : String} (parts : lines = before ++ raw :: after)
      (clean : ((Classifier.mk rules false).feedOn s before).tally.unrecognized = 0)
      (first : ((Classifier.mk rules false).feedOn s (before ++ [raw])).tally.unrecognized = 1)
      (stray : ((Classifier.mk rules false).feedOn s lines).tally.unrecognized ≠ 0)
      (fed : (Classifier.mk rules true).feedAll s (lines.map .ok) =
        (((Classifier.mk rules false).feedOn s before).counted,
          some (.unrecognized (s.tally.linesRead + before.length + 1) (Text.trim raw))))

theorem unstrayed_clean (clean : s.tally.unrecognized = 0) : s.unstrayed = s := by
  unfold State.unstrayed State.recounted
  rw [← clean]

-- By induction on the lines, from any state with nothing counted as stray.
theorem feedAll_halts (willing : Receiver.Willing σ) (rules : Ruleset)
    (clean : s.tally.unrecognized = 0) (lines : List String) : Halts rules s lines := by
  induction lines generalizing s with
  | nil => exact .never clean rfl
  | cons raw rest ih =>
    have itself := unstrayed_clean clean
    cases feed_inStep rules s raw with
    | settled state failure count =>
      have still : ((Classifier.mk rules false).feed s raw).1.tally.unrecognized = 0 :=
        count.trans clean
      rw [itself, unstrayed_clean still] at state
      rw [itself, feed_tolerant (c := ⟨rules, false⟩) willing rfl] at failure
      have fed : (Classifier.mk rules true).feed s raw =
          (((Classifier.mk rules false).feed s raw).1, none) := by
        rw [← state, ← failure]
      cases ih still with
      | never clean all =>
        refine .never (by simpa using clean) ?_
        rw [List.map_cons, feedAll, fed, feedOn_cons]
        exact all
      | @here before after next parts clean first stray all =>
        have read := feed_linesRead (Classifier.mk rules false) s raw
        have longer : raw :: rest = (raw :: before) ++ next :: after := by
          rw [parts, List.cons_append]
        refine .here longer ?_ ?_ ?_ ?_
        · simpa using clean
        · simpa using first
        · simpa using stray
        · rw [List.map_cons, feedAll, fed, feedOn_cons, List.length_cons, ← Nat.add_assoc,
            Nat.add_right_comm s.tally.linesRead, ← read]
          exact all
    | stray refused dropped =>
      rw [itself] at refused
      have one : ((Classifier.mk rules false).feed s raw).1.tally.unrecognized = 1 := by
        rw [dropped, clean]
      have more := feedOn_unrecognized_le rules ((Classifier.mk rules false).feed s raw).1 rest
      rw [one] at more
      have front : raw :: rest = [] ++ raw :: rest := rfl
      refine .here front clean ?_ ?_ ?_
      · simpa using one
      · simpa using Nat.ne_of_gt more
      · rw [List.map_cons, feedAll, refused, unstrayed_clean (s := s.counted) clean]
        rfl

-- A receiver can be one that keeps what it is offered, so equal receivers had equal deliveries.
theorem strict_in_step (rules : Ruleset) (receiver : σ) (lines : List String) :
    let strict : Classifier := ⟨rules, true⟩
    let tolerant : Classifier := ⟨rules, false⟩
    let s := strict.feedOn (start receiver) lines
    let t := tolerant.feedOn (start receiver) lines
    (s.inside? = t.inside? ∧ s.report? = t.report? ∧ s.receiver = t.receiver ∧
      s.tally = { t.tally with unrecognized := 0 }) ∧
    (∀ raw,
      (∀ refusal, (strict.feed s raw).2 = some (.deliver refusal) ↔
        (tolerant.feed t raw).2 = some (.deliver refusal)) ∧
      ∀ number line, (strict.feed s raw).2 = some (.unrecognized number line) ↔
        (tolerant.feed t raw).1.tally.unrecognized = t.tally.unrecognized + 1 ∧
          number = lines.length + 1 ∧ line = Text.trim raw) ∧
    (Receiver.Willing σ →
      ∃ counted, (tolerant.processLines receiver lines).result = .ok counted ∧
        ((∃ found, (strict.processLines receiver lines).result = .ok found) ↔
          counted.unrecognized = 0) ∧
        (counted.unrecognized = 0 →
          strict.processLines receiver lines = tolerant.processLines receiver lines) ∧
        (counted.unrecognized ≠ 0 →
          ∃ before raw after, lines = before ++ raw :: after ∧
            (tolerant.feedOn (start receiver) before).tally.unrecognized = 0 ∧
            (tolerant.feedOn (start receiver) (before ++ [raw])).tally.unrecognized = 1 ∧
            strict.processLines receiver lines =
              ⟨(tolerant.feedOn (start receiver) before).receiver,
                .error (.unrecognized (before.length + 1) (Text.trim raw))⟩)) := by
  intro strict tolerant s t
  subst strict tolerant
  have beside : s = t.unstrayed := feedOn_unstrayed rules (start receiver) lines
  have read : t.tally.linesRead = lines.length := by
    rw [feedOn_linesRead]
    exact Nat.zero_add _
  have total : Receiver.Willing σ → (Classifier.mk rules false).processLines receiver lines =
      (Classifier.mk rules false).finish t :=
    fun willing => processLines_tolerant willing rfl receiver lines
  have halts : Receiver.Willing σ → Halts rules (start receiver) lines :=
    fun willing => feedAll_halts willing rules rfl lines
  refine ⟨?_, fun raw => ⟨fun refusal => ?_, fun number line => ?_⟩, fun willing => ?_⟩
  · rw [beside]
    clear_value t
    exact ⟨rfl, rfl, rfl, rfl⟩
  · rw [beside]
    exact feed_deliver_iff rules t raw refusal
  · rw [beside, ← read]
    exact feed_unrecognized_iff rules t raw line number
  · have finished := (total willing).trans (finish_willing willing _ t)
    refine ⟨_, by rw [finished], ?_⟩
    rw [close_unrecognized]
    cases halts willing with
    | never clean fed =>
      have same : (Classifier.mk rules true).processLines receiver lines =
          (Classifier.mk rules false).processLines receiver lines :=
        (processLines_finished fed).trans (total willing).symm
      refine ⟨?_, fun _ => same, fun stray => absurd clean stray⟩
      rw [same, finished]
      exact ⟨fun _ => clean, fun _ => ⟨_, rfl⟩⟩
    | @here before after raw parts clean first stray fed =>
      have stops := processLines_stopped fed
      have number : (start receiver).tally.linesRead + before.length = before.length :=
        Nat.zero_add _
      rw [number] at stops
      refine ⟨?_, fun clean => absurd clean stray, fun _ =>
        ⟨before, raw, after, parts, clean, first, stops⟩⟩
      rw [stops]
      refine ⟨fun ⟨found, ok⟩ => ?_, fun clean => absurd clean stray⟩
      cases ok

theorem strict_in_step_stray :
    let clean := ["error: x", "../a.h should add these lines:", "class B;", "---"]
    let lines := clean ++ [" stray ", "---"]
    let strict : Classifier := ⟨.builtin, true⟩
    let tolerant : Classifier := ⟨.builtin, false⟩
    let first := start (⟨[]⟩ : Collected)
    Receiver.Willing Collected ∧
      strict.processLines (⟨[]⟩ : Collected) clean =
        tolerant.processLines (⟨[]⟩ : Collected) clean ∧
      (¬ ∃ found, (strict.processLines (⟨[]⟩ : Collected) lines).result = .ok found) ∧
      ∃ before raw after, lines = before ++ raw :: after ∧
        (tolerant.feedOn first before).tally.unrecognized = 0 ∧
        (tolerant.feedOn first (before ++ [raw])).tally.unrecognized = 1 ∧
        strict.processLines (⟨[]⟩ : Collected) lines =
          ⟨(tolerant.feedOn first before).receiver,
            .error (.unrecognized (before.length + 1) (Text.trim raw))⟩ := by
  intro clean lines strict tolerant first
  obtain ⟨_, _, unstopped⟩ := strict_in_step .builtin (⟨[]⟩ : Collected) clean
  obtain ⟨_, passed, _, same, _⟩ := unstopped collected_willing
  have untouched : (tolerant.processLines (⟨[]⟩ : Collected) clean).result.toOption =
      some ⟨4, 1, 0, 0, 1⟩ := by
    decide +kernel
  obtain ⟨_, _, stopped⟩ := strict_in_step .builtin (⟨[]⟩ : Collected) lines
  obtain ⟨_, counted, succeeds, _, stops⟩ := stopped collected_willing
  have marked : (tolerant.processLines (⟨[]⟩ : Collected) lines).result.toOption =
      some ⟨6, 1, 1, 0, 1⟩ := by
    decide +kernel
  rw [passed] at untouched
  rw [counted] at marked
  cases untouched
  cases marked
  exact ⟨collected_willing, same rfl, fun found => Nat.one_ne_zero (succeeds.mp found),
    stops Nat.one_ne_zero⟩

end IncludeTidy.Classifier
