import IncludeTidy.Proofs.Strictness

namespace IncludeTidy

def Layout.hears (layout : Layout) (raw : String) : Bool := !layout.isNoise (Text.trim raw)

theorem kind_unheard {layout : Layout} (unheard : layout.hears raw = false) :
    layout.kind (Text.trim raw) = .noise := by
  unfold Layout.hears at unheard
  rw [Bool.not_eq_false'] at unheard
  rw [Layout.kind, if_pos unheard]

-- So many lines of noise, and so many of stray content.
def Tally.noiseOf (count : Nat) : Tally := ⟨count, count, 0, 0, 0⟩

def Tally.strayOf (count : Nat) : Tally := ⟨count, 0, count, 0, 0⟩

theorem plus_noiseOf (base : Tally) (count : Nat) :
    (base.plus (.noiseOf 1)).plus (.noiseOf count) = base.plus (.noiseOf (count + 1)) := by
  rw [plus_assoc]
  simp only [Tally.plus, Tally.noiseOf, Nat.add_comm 1 count]

theorem plus_strayOf (base : Tally) (count : Nat) :
    (base.plus (.strayOf 1)).plus (.strayOf count) = base.plus (.strayOf (count + 1)) := by
  rw [plus_assoc]
  simp only [Tally.plus, Tally.strayOf, Nat.add_comm 1 count]

namespace Classifier

def heard (c : Classifier) (lines : List String) : List String := lines.filter c.rules.layout.hears

variable {c : Classifier} {s : State σ} {raw : String} {base : Tally} {lines : List String}
  {read : Nat} {whole quiet : Ending σ ε}

theorem heard_cons (hears : c.rules.layout.hears raw = true) (rest : List String) :
    c.heard (raw :: rest) = raw :: c.heard rest := List.filter_cons_of_pos hears

theorem heard_unheard (unheard : c.rules.layout.hears raw = false) (rest : List String) :
    c.heard (raw :: rest) = c.heard rest := List.filter_cons_of_neg (by simp [unheard])

@[simp]
theorem recounted_plus (base more : Tally) (s : State σ) :
    (s.recounted base.plus).recounted more.plus = s.recounted (base.plus more).plus := by
  unfold State.recounted
  dsimp only
  rw [← plus_assoc, plus_comm more]

@[simp]
theorem recounted_zero (s : State σ) : s.recounted Tally.zero.plus = s := by
  unfold State.recounted
  rw [zero_plus]

-- A run on all lines, with some counts made before it, and the run on those that are heard.
inductive Beside (c : Classifier) (base : Tally) (read : Nat) (lines : List String) :
    Ending σ ε → Ending σ ε → Prop where
  | counted {deleted : Nat} (receiver : σ) (tally : Tally)
      (total : (c.heard lines).length + deleted = lines.length) :
      Beside c base read lines
        ⟨receiver, .ok ((base.plus (.noiseOf deleted)).plus tally)⟩ ⟨receiver, .ok tally⟩
  | refused (receiver : σ) (refusal : ε) :
      Beside c base read lines
        ⟨receiver, .error (.deliver refusal)⟩ ⟨receiver, .error (.deliver refusal)⟩
  | stray {before after : List String} {raw : String} {number place : Nat} (receiver : σ)
      (parts : lines = before ++ raw :: after) (hears : c.rules.layout.hears raw = true)
      (numbered : number = base.linesRead + read + before.length + 1)
      (placed : place = read + (c.heard before).length + 1) :
      Beside c base read lines
        ⟨receiver, .error (.unrecognized number (Text.trim raw))⟩
        ⟨receiver, .error (.unrecognized place (Text.trim raw))⟩

theorem beside_unheard (unheard : c.rules.layout.hears raw = false)
    (beside : Beside c (base.plus (.noiseOf 1)) read lines whole quiet) :
    Beside c base read (raw :: lines) whole quiet := by
  cases beside with
  | @counted deleted receiver tally total =>
    have one : (c.heard (raw :: lines)).length + (deleted + 1) = (raw :: lines).length := by
      rw [heard_unheard unheard, List.length_cons, ← total, Nat.add_assoc]
    rw [plus_noiseOf]
    exact .counted receiver tally one
  | refused receiver refusal => exact .refused receiver refusal
  | @stray before after other number place receiver parts audible numbered placed =>
    have longer : raw :: lines = (raw :: before) ++ other :: after := by
      rw [parts, List.cons_append]
    refine .stray receiver longer audible ?_ ?_
    · simp only [numbered, List.length_cons, Tally.plus, Tally.noiseOf]
      omega
    · rw [placed, heard_unheard unheard]

theorem beside_hears (hears : c.rules.layout.hears raw = true)
    (beside : Beside c base (read + 1) lines whole quiet) :
    Beside c base read (raw :: lines) whole quiet := by
  cases beside with
  | @counted deleted receiver tally total =>
    have same : (c.heard (raw :: lines)).length + deleted = (raw :: lines).length := by
      simp only [heard_cons hears, List.length_cons]
      omega
    exact .counted receiver tally same
  | refused receiver refusal => exact .refused receiver refusal
  | @stray before after other number place receiver parts audible numbered placed =>
    have longer : raw :: lines = (raw :: before) ++ other :: after := by
      rw [parts, List.cons_append]
    refine .stray receiver longer audible ?_ ?_
    · rw [numbered, List.length_cons]
      omega
    · rw [placed, heard_cons hears, List.length_cons]
      omega

variable [Receiver σ ε]

-- The lines that are not counted as unrecognized, as far as the run comes; what it does not come to
-- is counted as nothing.
def recognized (c : Classifier) (s : State σ) : List String → List String
  | [] => []
  | raw :: rest =>
    match c.feed s raw with
    | (fed, none) =>
      if fed.tally.unrecognized = s.tally.unrecognized then raw :: recognized c fed rest
      else recognized c fed rest
    | (_, some _) => raw :: rest

theorem feed_unheard (unheard : c.rules.layout.hears raw = false) (base : Tally) (s : State σ) :
    c.feed (s.recounted base.plus) raw = (s.recounted (base.plus (.noiseOf 1)).plus, none) := by
  rw [feed_noise (kind_unheard unheard), ← recounted_plus]
  simp [State.counted, State.recounted, Tally.plus, Tally.noiseOf, Nat.add_comm]

theorem feed_tolerated (tolerant : c.strict = false) (stray : s.Stray c.rules raw) :
    c.feed s raw = (s.recounted (Tally.strayOf 1).plus, none) := by
  obtain ⟨rules, strict⟩ := c
  subst tolerant
  rw [feed_stray stray]
  simp [State.counted, State.recounted, Tally.plus, Tally.strayOf, Nat.add_comm]

theorem finish_plus (c : Classifier) (base : Tally) (s : State σ) :
    c.finish (s.recounted base.plus) =
      ⟨(c.finish s).receiver, (c.finish s).result.map base.plus⟩ := by
  unfold finish
  rw [close_recounted (steady_plus base)]
  rcases close c.rules s with ⟨closed, _ | error⟩ <;> rfl

theorem finish_failure (failed : (c.finish s).result = .error error) :
    ∃ refusal, error = .deliver refusal := by
  unfold finish at failed
  rcases closed : close c.rules s with ⟨t, _ | other⟩
  · rw [closed] at failed
    cases failed
  · rw [closed] at failed
    cases failed
    obtain ⟨refusal, _, refused, _⟩ := close_failure (congrArg Prod.snd closed)
    exact ⟨refusal, refused⟩

theorem finish_unrecognized (ended : (c.finish s).result = .ok tally) :
    tally.unrecognized = s.tally.unrecognized := by
  have count := close_unrecognized c.rules s
  unfold finish at ended
  rcases closed : close c.rules s with ⟨t, _ | error⟩
  · rw [closed] at ended count
    cases ended
    exact count
  · rw [closed] at ended
    cases ended

-- By induction on the lines. A line of noise adds to the counts made before, any other line is fed
-- on both sides.
theorem ending_heard (c : Classifier) (base : Tally) (s : State σ) (lines : List String) :
    Beside c base s.tally.linesRead lines (c.ending (s.recounted base.plus) (lines.map .ok))
      (c.ending s ((c.heard lines).map .ok)) := by
  induction lines generalizing s base with
  | nil =>
    simp only [heard, List.filter_nil, List.map_nil, ending_nil, finish_plus]
    rcases ended : c.finish s with ⟨receiver, error | tally⟩
    · obtain ⟨refusal, rfl⟩ := finish_failure (congrArg Ending.result ended)
      exact .refused receiver refusal
    · have none_ : (c.heard []).length + 0 = ([] : List String).length := rfl
      exact .counted receiver tally none_
  | cons raw rest ih =>
    cases hears : c.rules.layout.hears raw with
    | false =>
      rw [heard_unheard hears, List.map_cons, ending_cons (feed_unheard hears base s)]
      exact beside_unheard hears (ih (base.plus (.noiseOf 1)) s)
    | true =>
      have below := feed_below c base s raw
      have read := feed_linesRead c s raw
      rw [heard_cons hears, List.map_cons, List.map_cons]
      rcases fed : c.feed s raw with ⟨t, _ | error⟩
      · rw [fed] at below read
        rw [ending_cons fed, ending_cons below]
        apply beside_hears hears
        rw [← read]
        exact ih base t
      · rw [fed] at below
        rw [ending_stopped fed, ending_stopped below]
        rcases feed_failure (congrArg Prod.snd fed) with ⟨_, _, rfl⟩ | ⟨refusal, _, rfl, _⟩
        · have front : raw :: rest = [] ++ raw :: rest := rfl
          exact .stray t.receiver front hears rfl rfl
        · exact .refused t.receiver refusal

theorem recognized_stray (tolerant : c.strict = false) (stray : s.Stray c.rules raw)
    (rest : List String) :
    c.recognized s (raw :: rest) = c.recognized (s.recounted (Tally.strayOf 1).plus) rest := by
  have more : ¬ (s.recounted (Tally.strayOf 1).plus).tally.unrecognized = s.tally.unrecognized := by
    simp [State.recounted, Tally.plus, Tally.strayOf]
  rw [recognized, feed_tolerated tolerant stray]
  exact if_neg more

theorem recognized_settled (settled : ¬ s.Stray c.rules raw) (fed : c.feed s raw = (t, none))
    (rest : List String) : c.recognized s (raw :: rest) = raw :: c.recognized t rest := by
  have same : t.tally.unrecognized = s.tally.unrecognized := by
    rw [← feed_unrecognized settled c.strict, fed]
  rw [recognized, fed]
  exact if_pos same

theorem recognized_stopped (stopped : c.feed s raw = (t, some error)) (rest : List String) :
    c.recognized s (raw :: rest) = raw :: rest := by
  rw [recognized, stopped]

theorem settled_unheard (unheard : c.rules.layout.hears raw = false) (s : State σ) :
    ¬ s.Stray c.rules raw := by
  rintro ⟨content, _⟩
  cases content.symm.trans (kind_unheard unheard)

-- A tolerant run fails with nothing that has a line number.
theorem feed_below_tolerant (tolerant : c.strict = false) (base : Tally)
    (fed : c.feed s raw = (t, error?)) :
    c.feed (s.recounted base.plus) raw = (t.recounted base.plus, error?) := by
  rw [feed_below, fed]
  cases error? with
  | none => rfl
  | some error =>
    rcases feed_failure (congrArg Prod.snd fed) with ⟨strict, _⟩ | ⟨refusal, _, rfl, _⟩
    · cases tolerant.symm.trans strict
    · rfl

-- Noise is never counted as unrecognized, so it is the same which of the two is left out first.
theorem heard_recognized (tolerant : c.strict = false) (base : Tally) (s : State σ)
    (lines : List String) :
    c.heard (c.recognized (s.recounted base.plus) lines) = c.recognized s (c.heard lines) := by
  induction lines generalizing s base with
  | nil => rfl
  | cons raw rest ih =>
    cases hears : c.rules.layout.hears raw with
    | false =>
      rw [recognized_settled (settled_unheard hears _) (feed_unheard hears base s),
        heard_unheard hears, heard_unheard hears]
      exact ih (base.plus (.noiseOf 1)) s
    | true =>
      rw [heard_cons hears rest]
      by_cases stray : s.Stray c.rules raw
      · rw [recognized_stray tolerant stray,
          recognized_stray (s := s.recounted base.plus) tolerant stray, recounted_plus]
        have later := ih base (s.recounted (Tally.strayOf 1).plus)
        rwa [recounted_plus, plus_comm] at later
      · rcases fed : c.feed s raw with ⟨t, _ | error⟩
        · have below := feed_below_tolerant tolerant base fed
          rw [recognized_settled stray fed,
            recognized_settled (s := s.recounted base.plus) stray below, heard_cons hears, ih]
        · have below := feed_below_tolerant tolerant base fed
          rw [recognized_stopped fed, recognized_stopped below, heard_cons hears]

-- By induction on the lines, with some counts made before the first run.
theorem ending_recognized (tolerant : c.strict = false) (base : Tally) (s : State σ)
    (lines : List String) :
    let kept := c.recognized (s.recounted base.plus) lines
    let clean := c.ending s (kept.map .ok)
    (∀ tally, clean.result = .ok tally → tally.unrecognized = s.tally.unrecognized) ∧
      ∃ dropped, kept.length + dropped = lines.length ∧
        c.ending (s.recounted base.plus) (lines.map .ok) =
          ⟨clean.receiver, clean.result.map (base.plus (.strayOf dropped)).plus⟩ := by
  induction lines generalizing s base with
  | nil => exact ⟨fun tally => finish_unrecognized, 0, rfl, finish_plus c base s⟩
  | cons raw rest ih =>
    by_cases stray : s.Stray c.rules raw
    · have fed : c.feed (s.recounted base.plus) raw =
          (s.recounted (base.plus (.strayOf 1)).plus, none) := by
        rw [feed_tolerated (s := s.recounted base.plus) tolerant stray, recounted_plus]
      obtain ⟨clean, dropped, total, same⟩ := ih (base.plus (.strayOf 1)) s
      rw [recognized_stray (s := s.recounted base.plus) tolerant stray, recounted_plus,
        List.map_cons, ending_cons fed]
      refine ⟨clean, dropped + 1, ?_, ?_⟩
      · rw [List.length_cons, ← total, Nat.add_assoc]
      · rw [same, plus_strayOf]
    · rcases fed : c.feed s raw with ⟨t, _ | error⟩
      · have below := feed_below_tolerant tolerant base fed
        obtain ⟨clean, dropped, total, same⟩ := ih base t
        have counted : t.tally.unrecognized = s.tally.unrecognized := by
          rw [← feed_unrecognized stray c.strict, fed]
        rw [recognized_settled (s := s.recounted base.plus) stray below]
        dsimp only
        rw [List.map_cons, List.map_cons, ending_cons fed, ending_cons below, ← counted]
        refine ⟨clean, dropped, ?_, same⟩
        rw [List.length_cons, List.length_cons, ← total, Nat.add_right_comm]
      · have below := feed_below_tolerant tolerant base fed
        rw [recognized_stopped below]
        dsimp only
        rw [List.map_cons, ending_stopped fed, ending_stopped below]
        exact ⟨fun tally ended => (by cases ended), 0, rfl, rfl⟩

-- A receiver can be one that keeps what it is offered, so equal receivers had equal deliveries.
theorem noise_unheard (c : Classifier) (receiver : σ) (lines : List String) :
    let heard := c.heard lines
    let whole := c.processLines receiver lines
    let quiet := c.processLines receiver heard
    let noise := lines.length - heard.length
    (quiet.receiver = whole.receiver ∧
      ((∃ tally, quiet.result = .ok tally ∧
          whole.result = .ok { tally with
            linesRead := tally.linesRead + noise, noise := tally.noise + noise }) ∨
        (∃ refusal, quiet.result = .error (.deliver refusal) ∧
          whole.result = .error (.deliver refusal)) ∨
        ∃ before raw after, lines = before ++ raw :: after ∧ c.rules.layout.hears raw = true ∧
          quiet.result =
            .error (.unrecognized ((c.heard before).length + 1) (Text.trim raw)) ∧
          whole.result = .error (.unrecognized (before.length + 1) (Text.trim raw)))) ∧
    (c.strict = false →
      let known := c.heard (c.recognized (start receiver) lines)
      let clean := c.processLines receiver known
      let strays := heard.length - known.length
      clean.receiver = quiet.receiver ∧
        quiet.result = clean.result.map (fun tally => { tally with
          linesRead := tally.linesRead + strays, unrecognized := tally.unrecognized + strays }) ∧
        ∀ tally, clean.result = .ok tally → tally.unrecognized = 0) := by
  intro heard whole quiet noise
  constructor
  · have beside := ending_heard c .zero (start receiver) lines
    rw [recounted_zero, ← processReads_ending, ← processReads_ending] at beside
    change Beside c .zero 0 lines whole quiet at beside
    clear_value whole quiet
    cases beside with
    | @counted deleted taker tally total =>
      have count : deleted = noise := (Nat.sub_eq_of_eq_add' total.symm).symm
      subst count
      refine ⟨rfl, .inl ⟨_, rfl, ?_⟩⟩
      rw [zero_plus, plus_comm]
      rfl
    | refused taker refusal => exact ⟨rfl, .inr (.inl ⟨_, rfl, rfl⟩)⟩
    | stray taker parts hears numbered placed =>
      rw [Tally.zero, Nat.zero_add] at numbered
      rw [Nat.zero_add] at placed
      subst numbered placed
      exact ⟨rfl, .inr (.inr ⟨_, _, _, parts, hears, rfl, rfl⟩)⟩
  · intro tolerant known clean strays
    have same : known = c.recognized (start receiver) heard := by
      have either := heard_recognized tolerant .zero (start receiver) lines
      rwa [recounted_zero] at either
    obtain ⟨counts, dropped, total, ended⟩ :=
      ending_recognized tolerant .zero (start receiver) heard
    rw [recounted_zero, ← same] at counts total ended
    rw [← processReads_ending, ← processReads_ending] at ended
    rw [← processReads_ending] at counts
    change quiet = ⟨clean.receiver, clean.result.map _⟩ at ended
    have count : dropped = strays := (Nat.sub_eq_of_eq_add' total.symm).symm
    have counting : (Tally.strayOf strays).plus = fun tally => { tally with
        linesRead := tally.linesRead + strays, unrecognized := tally.unrecognized + strays } :=
      funext fun tally => plus_comm _ tally
    refine ⟨by rw [ended], ?_, counts⟩
    rw [ended, zero_plus, count, counting]

-- The same text is content of a section once, and stray another time.
theorem noise_unheard_same_text :
    let c : Classifier := ⟨.builtin, false⟩
    let lines :=
      ["", "class B;", "../a.h should add these lines:", "error: x", "class B;", "---", "class B;"]
    let known := ["../a.h should add these lines:", "class B;", "---"]
    let quiet := c.processLines (⟨[]⟩ : Collected) (c.heard lines)
    let clean := c.processLines (⟨[]⟩ : Collected) known
    c.strict = false ∧ c.heard (c.recognized (start (⟨[]⟩ : Collected)) lines) = known ∧
      clean.receiver = quiet.receiver ∧ clean.result.toOption = some ⟨3, 0, 0, 0, 1⟩ ∧
      quiet.result.toOption = some ⟨5, 0, 2, 0, 1⟩ := by
  intro c lines known quiet clean
  have left_ : c.heard (c.recognized (start (⟨[]⟩ : Collected)) lines) = known := by
    decide +kernel
  have counted : clean.result.toOption = some ⟨3, 0, 0, 0, 1⟩ := by decide +kernel
  have strays : (c.heard lines).length - known.length = 2 := by decide +kernel
  obtain ⟨_, tolerated⟩ := noise_unheard c (⟨[]⟩ : Collected) lines
  obtain ⟨same, result, _⟩ := tolerated rfl
  rw [left_] at same result
  rw [strays] at result
  refine ⟨rfl, left_, same, counted, ?_⟩
  change quiet.result = clean.result.map _ at result
  clear_value clean quiet
  rw [result]
  cases ended : clean.result with
  | error error => rw [ended] at counted; cases counted
  | ok tally =>
    rw [ended] at counted
    cases counted
    rfl

end Classifier

end IncludeTidy
