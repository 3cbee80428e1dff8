import IncludeTidy.Proofs.Decoded
import IncludeTidy.Proofs.Failures

namespace IncludeTidy.Text

-- The lines that can be read from the start of a source, and what stops the reading after them. A
-- source that fails loses the line it was in, a source that ends does not.
inductive Leading : ByteSource → List String → Option ReadFault → Prop where
  | line {lines : List String} (oneLine : 10 ∉ bytes)
      (encoded : withoutLast 13 bytes = line.toUTF8.toList)
      (further : Leading ⟨rest, failure?⟩ lines stop?) :
      Leading ⟨bytes ++ 10 :: rest, failure?⟩ (line :: lines) stop?
  | notText (oneLine : 10 ∉ bytes)
      (broken : ∀ line : String, withoutLast 13 bytes ≠ line.toUTF8.toList) :
      Leading ⟨bytes ++ 10 :: rest, failure?⟩ [] (some .notText)
  | failed (oneLine : 10 ∉ bytes) : Leading ⟨bytes, some reason⟩ [] (some (.device reason))
  | ended : Leading ⟨[], none⟩ [] none
  | last (filled : bytes ≠ []) (oneLine : 10 ∉ bytes) (encoded : bytes = line.toUTF8.toList) :
      Leading ⟨bytes, none⟩ [line] none
  | lastNotText (oneLine : 10 ∉ bytes) (broken : ∀ line : String, bytes ≠ line.toUTF8.toList) :
      Leading ⟨bytes, none⟩ [] (some .notText)

variable {bytes : List UInt8} {source : ByteSource} {lines : List String} {stop? : Option ReadFault}

theorem terminated_line (oneLine : 10 ∉ bytes) (rest : List UInt8) :
    terminated 10 (bytes ++ 10 :: rest) =
      (bytes :: (terminated 10 rest).1, (terminated 10 rest).2) := by
  rw [terminated_free oneLine, terminated_cons, if_pos rfl]
  simp

theorem terminated_unfinished (oneLine : 10 ∉ bytes) : terminated 10 bytes = ([], bytes) := by
  have free := terminated_free oneLine []
  simpa [terminated] using free

theorem reads_line (oneLine : 10 ∉ bytes) (rest : List UInt8) (failure? : Option String) :
    ByteSource.reads ⟨bytes ++ 10 :: rest, failure?⟩ =
      decode (withoutLast 13 bytes) :: ByteSource.reads ⟨rest, failure?⟩ := by
  unfold ByteSource.reads
  rw [terminated_line oneLine]
  rfl

theorem reads_failed (oneLine : 10 ∉ bytes) (reason : String) :
    ByteSource.reads ⟨bytes, some reason⟩ = [.error (.device reason)] := by
  unfold ByteSource.reads
  rw [terminated_unfinished oneLine]
  rfl

theorem reads_last (filled : bytes ≠ []) (oneLine : 10 ∉ bytes) :
    ByteSource.reads ⟨bytes, none⟩ = [decode bytes] := by
  unfold ByteSource.reads
  rw [terminated_unfinished oneLine]
  simp [filled]

-- By induction on the number of bytes: a complete line leaves fewer of them.
theorem leading_exists (source : ByteSource) : ∃ lines stop?, Leading source lines stop? := by
  obtain ⟨bytes, failure?⟩ := source
  induction size : bytes.length using Nat.strongRecOn generalizing bytes with
  | ind count ih =>
    by_cases complete : 10 ∈ bytes
    · obtain ⟨first, rest, rfl, oneLine⟩ := List.eq_append_cons_of_mem complete
      cases decoded : decode (withoutLast 13 first) with
      | ok line =>
        have fewer : rest.length < count := by
          rw [List.length_append, List.length_cons] at size
          omega
        obtain ⟨lines, stop?, further⟩ := ih rest.length fewer rest rfl
        exact ⟨_, _, .line oneLine ((decode_ok_iff _ _).mp decoded) further⟩
      | error fault =>
        cases decode_fault decoded
        exact ⟨_, _, .notText oneLine ((decode_error_iff _).mp decoded)⟩
    · cases failure? with
      | some reason => exact ⟨_, _, .failed complete⟩
      | none =>
        by_cases filled : bytes = []
        · subst filled
          exact ⟨_, _, .ended⟩
        · cases decoded : decode bytes with
          | ok line => exact ⟨_, _, .last filled complete ((decode_ok_iff _ _).mp decoded)⟩
          | error fault =>
            cases decode_fault decoded
            exact ⟨_, _, .lastNotText complete ((decode_error_iff _).mp decoded)⟩

-- What reads give up to the first that failed.
def untilFault : List LineRead → List String × Option ReadFault
  | [] => ([], none)
  | .error fault :: _ => ([], some fault)
  | .ok line :: rest => (line :: (untilFault rest).1, (untilFault rest).2)

theorem leading_reads (leading : Leading source lines stop?) :
    untilFault source.reads = (lines, stop?) := by
  induction leading with
  | line oneLine encoded further ih =>
    rw [reads_line oneLine, (decode_ok_iff _ _).mpr encoded, untilFault, ih]
  | notText oneLine broken => rw [reads_line oneLine, (decode_error_iff _).mpr broken, untilFault]
  | failed oneLine => rw [reads_failed oneLine, untilFault]
  | ended => rfl
  | last filled oneLine encoded =>
    rw [reads_last filled oneLine, (decode_ok_iff _ _).mpr encoded]
    rfl
  | @lastNotText bytes oneLine broken =>
    have filled : bytes ≠ [] := fun empty => broken "" (by simp [empty])
    rw [reads_last filled oneLine, (decode_error_iff _).mpr broken, untilFault]

theorem leading_unique {lines others : List String} (first : Leading source lines stop?)
    (second : Leading source others halt?) : others = lines ∧ halt? = stop? := by
  have same := (leading_reads second).symm.trans (leading_reads first)
  exact ⟨congrArg Prod.fst same, congrArg Prod.snd same⟩

end IncludeTidy.Text

namespace IncludeTidy.Classifier

open Text (untilFault)

variable [Receiver σ ε] {c : Classifier} {receiver : σ} {s : State σ} {raw : String}
  {rest lines : List String}

-- Every line can be taken after the lines before it.
def Passes (c : Classifier) (s : State σ) (lines : List String) : Prop :=
  ∀ before raw after, lines = before ++ raw :: after → (c.feed (c.feedOn s before) raw).2 = none

theorem passes_nil (c : Classifier) (s : State σ) : c.Passes s [] := by
  intro before raw after parts
  cases before <;> cases parts

theorem passes_cons (passed : (c.feed s raw).2 = none) (further : c.Passes (c.feed s raw).1 rest) :
    c.Passes s (raw :: rest) := by
  intro before line after parts
  cases before with
  | nil =>
    cases parts
    exact passed
  | cons first before =>
    cases parts
    rw [feedOn_cons]
    exact further before line after rfl

-- By induction on the lines: all can be taken, or there is a first one that cannot.
theorem feedAll_lines (c : Classifier) (s : State σ) (lines : List String) :
    (c.Passes s lines ∧ c.feedAll s (lines.map .ok) = (c.feedOn s lines, none)) ∨
      ∃ before raw after error, lines = before ++ raw :: after ∧ c.Passes s before ∧
        (c.feed (c.feedOn s before) raw).2 = some error ∧
        c.feedAll s (lines.map .ok) = ((c.feed (c.feedOn s before) raw).1, some error) := by
  induction lines generalizing s with
  | nil => exact .inl ⟨passes_nil c s, rfl⟩
  | cons raw rest ih =>
    rcases fed : c.feed s raw with ⟨t, _ | error⟩
    · have passed : (c.feed s raw).2 = none := by rw [fed]
      have next : (c.feed s raw).1 = t := by rw [fed]
      simp only [List.map_cons, feedAll, fed, feedOn_cons]
      rcases ih t with ⟨further, all⟩ | ⟨before, line, after, error, rfl, further, failed, all⟩
      · exact .inl ⟨passes_cons passed (next ▸ further), all⟩
      · refine .inr
          ⟨raw :: before, line, after, error, rfl, passes_cons passed (next ▸ further), ?_⟩
        rw [feedOn_cons, next]
        exact ⟨failed, all⟩
    · refine .inr ⟨[], raw, rest, error, rfl, passes_nil c s, ?_⟩
      simp [feedOn_nil, fed, feedAll]

-- What follows the first fault has no part, nor has the fault where a line before it failed.
theorem feedAll_untilFault (c : Classifier) (s : State σ) (reads : List Text.LineRead) :
    c.feedAll s reads =
      match c.feedAll s ((untilFault reads).1.map .ok) with
      | (t, some error) => (t, some error)
      | (t, none) => (t, (untilFault reads).2.map .read) := by
  induction reads generalizing s with
  | nil => rfl
  | cons read rest ih =>
    cases read with
    | error fault => rfl
    | ok line =>
      simp only [untilFault, List.map_cons, feedAll]
      rcases c.feed s line with ⟨t, _ | error⟩
      · exact ih t
      · rfl

theorem processReads_passed {reads : List Text.LineRead}
    (fed : c.feedAll (start receiver) ((untilFault reads).1.map .ok) = (s, none)) :
    c.processReads receiver reads =
      match (untilFault reads).2 with
      | some fault => ⟨s.receiver, .error (.read fault)⟩
      | none => c.finish s := by
  unfold processReads
  rw [feedAll_untilFault, fed]
  cases (untilFault reads).2 <;> rfl

theorem processReads_refused {reads : List Text.LineRead}
    (fed : c.feedAll (start receiver) ((untilFault reads).1.map .ok) = (s, some error)) :
    c.processReads receiver reads = ⟨s.receiver, .error error⟩ := by
  unfold processReads
  rw [feedAll_untilFault, fed]

-- The receiver can be one that keeps what it is offered, so an equal receiver was offered the same
-- reports: after a fault, those that the lines handed over, and at an end, the open one behind
-- them.
theorem processSource_leading (c : Classifier) (receiver : σ) (source : Text.ByteSource) :
    ∃ lines stop?, Text.Leading source lines stop? ∧
      (∀ others halt?, Text.Leading source others halt? → others = lines ∧ halt? = stop?) ∧
      ((∃ before raw after error t, lines = before ++ raw :: after ∧
          c.Passes (start receiver) before ∧
          c.feed (c.feedOn (start receiver) before) raw = (t, some error) ∧
          c.processSource receiver source = ⟨t.receiver, .error error⟩) ∨
        c.Passes (start receiver) lines ∧
          let s := c.feedOn (start receiver) lines
          (∀ fault, stop? = some fault →
            c.processSource receiver source = ⟨s.receiver, .error (.read fault)⟩) ∧
          (stop? = none → s.report? = none →
            c.processSource receiver source = ⟨s.receiver, .ok s.tally⟩) ∧
          ∀ report, stop? = none → s.report? = some report →
            c.processSource receiver source =
              ⟨(Receiver.accept s.receiver (c.rules.finished report)).1,
                match (Receiver.accept s.receiver (c.rules.finished report)).2 with
                | none => .ok { s.tally with files := s.tally.files + 1 }
                | some refusal => .error (.deliver refusal)⟩) := by
  obtain ⟨lines, stop?, leading⟩ := Text.leading_exists source
  refine ⟨lines, stop?, leading, fun others halt? => Text.leading_unique leading, ?_⟩
  have read := Text.leading_reads leading
  rcases feedAll_lines c (start receiver) lines with
    ⟨passed, fed⟩ | ⟨before, raw, after, error, parts, passed, failed, fed⟩
  · right
    refine ⟨passed, ?_⟩
    intro s
    have whole : c.feedAll (start receiver) ((untilFault source.reads).1.map .ok) = (s, none) := by
      rw [read, fed]
    have total := processReads_passed whole
    rw [read] at total
    refine ⟨fun fault faulty => ?_, fun ends idle => ?_, fun report ends opened => ?_⟩
    · subst faulty
      exact total
    · subst ends
      exact total.trans (finish_idle idle)
    · subst ends
      exact total.trans (finish_current opened)
  · left
    refine ⟨before, raw, after, error, _, parts, passed, Prod.ext rfl failed, ?_⟩
    exact processReads_refused (by rw [read, fed])

end IncludeTidy.Classifier
