import IncludeTidy.Proofs.Reading

namespace IncludeTidy.Classifier

-- The reads hold something to stop at, under these lines above.
inductive Barred (c : Classifier) : List LineKind → List Text.LineRead → Prop where
  | fault : Barred c above (.error fault :: rest)
  | stray (strict : c.strict = true)
      (stray : Placed.isStray ⟨Text.trim raw, c.rules.layout.kind (Text.trim raw), above⟩ = true) :
      Barred c above (.ok raw :: rest)
  | later (below : Barred c (c.rules.layout.kind (Text.trim raw) :: above) rest) :
      Barred c above (.ok raw :: rest)

variable {c : Classifier} {above : List LineKind}

variable [Receiver σ ε] {s t : State σ}

-- The lines that were fed lead to the state in which the next read is met, so the receiver holds
-- the same before and after the read that stops the classification.
theorem feedAll_stops (willing : Receiver.Willing σ) (stands : s.Stands above)
    (stopped : c.feedAll s reads = (t, some error)) :
    ∃ before read after u, reads = before ++ read :: after ∧ c.feedAll s before = (u, none) ∧
      c.feedAll s (before ++ [read]) = (t, some error) ∧ t.receiver = u.receiver ∧
      c.Barred above reads := by
  induction reads generalizing s above with
  | nil => cases stopped
  | cons read rest ih =>
    cases read with
    | error fault =>
      cases stopped
      exact ⟨[], .error fault, rest, t, rfl, rfl, rfl, rfl, .fault⟩
    | ok raw =>
      rcases feed_leads willing c stands raw with
        ⟨_, next, fed, standing, _⟩ | ⟨⟨strict, stray⟩, failure, failed⟩
      · rw [feedAll, fed] at stopped
        obtain ⟨before, read, after, u, rfl, held, halted, same, barred⟩ := ih standing stopped
        refine ⟨.ok raw :: before, read, after, u, rfl, ?_, ?_, same, .later barred⟩
        · rw [feedAll, fed]; exact held
        · rw [List.cons_append, feedAll, fed]; exact halted
      · have here := stopped
        rw [feedAll, failed] at here
        cases here
        refine ⟨[], .ok raw, rest, s, rfl, rfl, ?_, rfl, .stray strict stray⟩
        rw [List.nil_append, feedAll, failed]

-- What was handed over by the time these reads are taken.
def finalized (c : Classifier) (reads : List Text.LineRead) : List FileReport :=
  (c.feedAll (start (⟨[]⟩ : Collected)) reads).1.receiver.reports

-- All reads before this one can be taken, and this one cannot.
def StopsAt (c : Classifier) (before : List Text.LineRead) (read : Text.LineRead) : Prop :=
  (c.feedAll (start (⟨[]⟩ : Collected)) before).2 = none ∧
    (c.feedAll (start (⟨[]⟩ : Collected)) (before ++ [read])).2 ≠ none

-- Only the reads up to where the classification stops had a part in what was handed over.
theorem processReads_failed {reads : List Text.LineRead}
    (failed : (c.processReads (⟨[]⟩ : Collected) reads).result = .error error) :
    c.Barred [] reads ∧ ∃ before read after, reads = before ++ read :: after ∧
      c.StopsAt before read ∧ c.delivered reads = c.finalized before := by
  unfold delivered
  unfold processReads at failed ⊢
  rcases fed : c.feedAll (start (⟨[]⟩ : Collected)) reads with ⟨t, _ | stop⟩
  · rw [fed] at failed
    dsimp only at failed
    rw [finish_foreseen collected_willing] at failed
    cases failed
  · obtain ⟨before, read, after, u, parts, held, halted, same, barred⟩ :=
      feedAll_stops collected_willing (start_stands _) fed
    refine ⟨barred, before, read, after, parts, ⟨by rw [held], by simp [halted]⟩, ?_⟩
    unfold finalized
    rw [held, ← same]

end IncludeTidy.Classifier
