import IncludeTidy.Output.Device
import IncludeTidy.Proofs.Agreement
import IncludeTidy.Proofs.Refusals

namespace IncludeTidy

-- How much room a device has is whatever `free` says of it. A full device takes nothing, with a
-- reason or without one.
structure Device.Fills [Device δ] (free : δ → Nat → Prop) : Prop where
  takes : ∀ {device : δ} {room : Nat} (byte : UInt8) (rest : List UInt8), free device (room + 1) →
    ∃ count, count ≤ room ∧ count ≤ rest.length ∧
      (Device.take device (byte :: rest)).2 = .ok (count + 1) ∧
      free (Device.take device (byte :: rest)).1 (room - count)
  refuses : ∀ {device : δ} (byte : UInt8) (rest : List UInt8), free device 0 →
    ∀ count, (Device.take device (byte :: rest)).2 ≠ .ok (count + 1)
  flushes : ∀ {device : δ} {room : Nat}, free device room →
    (Device.flush device).2 = none ∧ free (Device.flush device).1 room

theorem limited_fills :
    Device.Fills fun (device : Limited) room =>
      device.room? = some room ∧ device.flushFailure? = none where
  takes := by
    rintro ⟨room?, refusal?, flush?⟩ room byte rest ⟨rfl, flush⟩
    refine ⟨min room rest.length, Nat.min_le_left _ _, Nat.min_le_right _ _, ?_, ?_, flush⟩
    · simp [Device.take, Nat.add_min_add_right]
    · simp only [Device.take, List.length_cons, Nat.add_min_add_right]
      congr 1
      omega
  refuses := by
    rintro ⟨room?, refusal?, flush?⟩ byte rest ⟨rfl, _⟩ count
    cases refusal? <;> simp [Device.take]
  flushes := by
    rintro ⟨room?, refusal?, flush?⟩ room ⟨rfl, flush⟩
    exact ⟨flush, rfl, flush⟩

variable [Device δ] {free : δ → Nat → Prop} {room : Nat} {out : Output δ}

-- By induction on the parts that the device takes.
theorem writeAll_fills (fills : Device.Fills free) (bytes : List UInt8)
    (roomy : free out.device room) :
    (out.writeAll bytes).1.taken = out.taken ++ bytes.take room ∧
      ((out.writeAll bytes).2 = none ↔ bytes.length ≤ room) ∧
      (bytes.length ≤ room → free (out.writeAll bytes).1.device (room - bytes.length)) := by
  fun_induction Output.writeAll out bytes generalizing room with
  | case1 out => simpa using roomy
  | case2 out byte rest device reason refused =>
    cases room with
    | zero => simp
    | succ room =>
      obtain ⟨count, _, _, taken, _⟩ := fills.takes byte rest roomy
      rw [refused] at taken
      cases taken
  | case3 out byte rest device nothing =>
    cases room with
    | zero => simp
    | succ room =>
      obtain ⟨count, _, _, taken, _⟩ := fills.takes byte rest roomy
      rw [nothing] at taken
      cases taken
  | case4 out byte rest device count taking ih =>
    cases room with
    | zero => exact absurd (by rw [taking]) (fills.refuses byte rest roomy count)
    | succ room =>
      obtain ⟨same, within, inside, taken, left_⟩ := fills.takes byte rest roomy
      rw [taking] at taken left_
      cases taken
      obtain ⟨all, fits, after⟩ := ih left_
      have shorter : (rest.drop count).length ≤ room - count ↔
          (byte :: rest).length ≤ room + 1 := by
        rw [List.length_drop, List.length_cons]
        omega
      refine ⟨?_, fits.trans shorter, fun short => ?_⟩
      · rw [all, List.append_assoc, List.take_succ_cons, List.cons_append, ← List.take_add,
          Nat.add_sub_cancel' within]
      · have still := after (shorter.mpr short)
        rw [List.length_drop] at still
        rw [List.length_cons]
        convert still using 1
        omega

theorem put_fills (fills : Device.Fills free) (text : String) (failure : DeviceError → WriteError)
    (roomy : free out.device room) :
    (out.put text failure).1.taken = out.taken ++ text.toUTF8.toList.take room ∧
      (text.toUTF8.toList.length ≤ room →
        (out.put text failure).2 = none ∧
          free (out.put text failure).1.device (room - text.toUTF8.toList.length)) ∧
      (room < text.toUTF8.toList.length →
        ∃ cause, (out.put text failure).2 = some (failure cause)) := by
  obtain ⟨taken, fits, after⟩ := writeAll_fills fills text.toUTF8.toList roomy
  unfold Output.put
  rcases wrote : out.writeAll text.toUTF8.toList with ⟨written, error?⟩
  rw [wrote] at taken fits after
  cases error? with
  | none =>
    obtain ⟨flushed, still⟩ := fills.flushes (after (fits.mp rfl))
    simp only [Output.flush, flushed, Option.map_none]
    refine ⟨taken, fun _ => ⟨trivial, still⟩, fun beyond => ?_⟩
    exact absurd (fits.mp rfl) (Nat.not_le.mpr beyond)
  | some cause =>
    refine ⟨taken, fun short => ?_, fun _ => ⟨cause, rfl⟩⟩
    cases fits.mpr short

theorem accept_fills (fills : Device.Fills free) (writer : BlockWriter δ) (report : FileReport)
    (roomy : free writer.out.device room) :
    (Receiver.accept writer report).1.out.taken =
        writer.out.taken ++ (report.block writer.colored).toUTF8.toList.take room ∧
      ((report.block writer.colored).toUTF8.toList.length ≤ room →
        (Receiver.accept writer report).2 = none ∧
          free (Receiver.accept writer report).1.out.device
            (room - (report.block writer.colored).toUTF8.toList.length)) ∧
      (room < (report.block writer.colored).toUTF8.toList.length →
        ∃ cause, (Receiver.accept writer report).2 = some (.changes report.file cause)) := by
  cases changed : report.hasChanges with
  | false =>
    have nothing := (block_eq_empty_iff report writer.colored).mpr changed
    simpa [Receiver.accept, changed, nothing] using roomy
  | true =>
    simp only [Receiver.accept, changed, if_true]
    exact put_fills fills _ _ roomy

def blockBytes (colored : Bool) (reports : List FileReport) : List UInt8 :=
  (blocks colored reports).toUTF8.toList

@[simp]
theorem blockBytes_cons (colored : Bool) (report : FileReport) (rest : List FileReport) :
    blockBytes colored (report :: rest) =
      (report.block colored).toUTF8.toList ++ blockBytes colored rest := by
  simp [blockBytes]

-- The block of this report is the first that goes beyond the room.
def Overflows (colored : Bool) (room : Nat) (reports : List FileReport) (report : FileReport) :
    Prop :=
  ∃ before after, reports = before ++ report :: after ∧
    (blockBytes colored before).length ≤ room ∧
    room < (blockBytes colored (before ++ [report])).length

theorem overflows_first (beyond : room < (report.block colored).toUTF8.toList.length)
    (rest : List FileReport) : Overflows colored room (report :: rest) report := by
  refine ⟨[], rest, rfl, ?_, ?_⟩
  · simp [blockBytes]
  · simp only [List.nil_append, blockBytes_cons, List.length_append]
    omega

theorem overflows_later (within : (first.block colored).toUTF8.toList.length ≤ room)
    (later : Overflows colored (room - (first.block colored).toUTF8.toList.length) rest report) :
    Overflows colored room (first :: rest) report := by
  obtain ⟨before, after, rfl, inside, beyond⟩ := later
  refine ⟨first :: before, after, rfl, ?_, ?_⟩
  · simp only [blockBytes_cons, List.length_append]
    omega
  · simp only [List.cons_append, blockBytes_cons, List.length_append]
    omega

theorem offer_fills (fills : Device.Fills free) (writer : BlockWriter δ) (reports : List FileReport)
    (roomy : free writer.out.device room) :
    (Receiver.offer writer reports).1.out.taken =
        writer.out.taken ++ (blockBytes writer.colored reports).take room ∧
      ((blockBytes writer.colored reports).length ≤ room →
        (Receiver.offer writer reports).2 = none ∧
          (Receiver.offer writer reports).1.outcome =
            reports.foldl Outcome.record writer.outcome) ∧
      (room < (blockBytes writer.colored reports).length →
        ∃ report cause, Overflows writer.colored room reports report ∧
          (Receiver.offer writer reports).2 = some (.changes report.file cause)) := by
  induction reports generalizing writer room with
  | nil => simp [Receiver.offer, blockBytes]
  | cons report rest ih =>
    obtain ⟨taken, fits, exceeds⟩ := accept_fills fills writer report roomy
    rw [blockBytes_cons, List.length_append]
    by_cases within : (report.block writer.colored).toUTF8.toList.length ≤ room
    · obtain ⟨accepted, still⟩ := fits within
      obtain ⟨all, passes, stops⟩ := ih (Receiver.accept writer report).1 still
      rw [accept_colored] at all passes stops
      rw [offer_accepted (Prod.ext rfl accepted)]
      refine ⟨?_, fun short => ?_, fun beyond => ?_⟩
      · rw [all, taken, List.take_append, List.append_assoc]
      · rw [List.foldl_cons, ← accept_outcome]
        exact passes (by omega)
      · obtain ⟨later, cause, spill, refused⟩ := stops (by omega)
        exact ⟨later, cause, overflows_later within spill, refused⟩
    · have beyond := Nat.lt_of_not_le within
      obtain ⟨cause, refused⟩ := exceeds beyond
      rw [offer_refused (Prod.ext rfl refused)]
      refine ⟨?_, fun short => ?_, fun _ => ⟨report, cause, overflows_first beyond rest, rfl⟩⟩
      · rw [taken, List.take_append_of_le_length (Nat.le_of_lt beyond)]
      · omega

namespace RunSettings

theorem runText_fills (fills : Device.Fills free) (settings : RunSettings) (device : δ)
    (roomy : free device room) (source : Text.ByteSource) :
    let delivered := (Classifier.mk settings.rules settings.strict).delivered source.reads
    let run := settings.runText device source
    run.out.taken = (blockBytes settings.colored delivered).take room ∧
      ((blockBytes settings.colored delivered).length ≤ room →
        run.result = settings.judgement source) ∧
      (room < (blockBytes settings.colored delivered).length →
        ∃ report cause, Overflows settings.colored room delivered report ∧
          run.result = .error (.classify (.deliver (.changes report.file cause)))) := by
  intro delivered run
  have bounded := (Classifier.mk settings.rules settings.strict).processReads_offered
    (BlockWriter.on device settings.colored) source.reads
  have offered := offer_fills fills (BlockWriter.on device settings.colored) delivered roomy
  simp only [run, delivered, runText, judgement, Classifier.processSource, Classifier.delivered]
    at offered ⊢
  generalize Classifier.processReads _ (BlockWriter.on device settings.colored) _ = shown at *
  generalize Classifier.processReads _ (⟨[]⟩ : Collected) _ = collected at *
  obtain ⟨⟨reports⟩, result⟩ := collected
  dsimp only [BlockWriter.on, List.nil_append] at bounded offered ⊢
  unfold Classifier.Bounded at bounded
  obtain ⟨taken, fits, exceeds⟩ := offered
  rcases answer : Receiver.offer (BlockWriter.on device settings.colored) reports with
    ⟨writer, refusal?⟩
  rw [BlockWriter.on] at answer
  simp only [answer] at bounded taken fits exceeds
  cases refusal? with
  | none =>
    subst bounded
    refine ⟨taken, fun short => ?_, fun beyond => ?_⟩
    · have outcome : writer.outcome = .ofReports reports :=
        (fits short).2.trans (foldl_record [] reports)
      rw [outcome]
      cases result <;> rfl
    · obtain ⟨_, _, _, refused⟩ := exceeds beyond
      cases refused
  | some refusal =>
    subst bounded
    refine ⟨taken, fun short => ?_, fun beyond => ?_⟩
    · cases (fits short).1
    · obtain ⟨report, cause, spill, refused⟩ := exceeds beyond
      cases refused
      exact ⟨report, cause, spill, rfl⟩

-- A run that fails in itself has nothing to write and is not stopped by the device.
theorem runSummary_fills (fills : Device.Fills free) (settings : RunSettings) (device : δ)
    (roomy : free device room) (source : Text.ByteSource) :
    let whole := match settings.judgement source with
      | .ok _ => (settings.summary source).render.toUTF8.toList
      | .error _ => []
    let run := settings.runSummary device source
    run.out.taken = whole.take room ∧
      (whole.length ≤ room → run.result = settings.judgement source) ∧
      (room < whole.length → ∃ cause, run.result = .error (.write (.summary cause))) := by
  rw [runSummary_eq]
  cases judged : settings.judgement source with
  | error error => exact ⟨List.take_nil.symm, fun _ => rfl, fun beyond => by simp at beyond⟩
  | ok outcome =>
    have fresh : free (Output.on device).device room := roomy
    obtain ⟨taken, fits, exceeds⟩ :=
      put_fills fills (settings.summary source).render .summary fresh
    rcases put : (Output.on device).put (settings.summary source).render .summary with
      ⟨out, _ | error⟩
    · rw [put] at taken exceeds
      refine ⟨taken, fun _ => rfl, fun beyond => ?_⟩
      obtain ⟨_, refused⟩ := exceeds beyond
      cases refused
    · rw [put] at taken fits exceeds
      refine ⟨taken, fun short => ?_, fun beyond => ?_⟩
      · cases (fits short).1
      · obtain ⟨cause, refused⟩ := exceeds beyond
        cases refused
        exact ⟨cause, rfl⟩

-- Whatever the run comes to where everything is taken, the refusal comes first: what has not been
-- read by then can add nothing.
theorem full_device_truncates [Device τ] (willing : Device.Willing τ) (fills : Device.Fills free)
    (settings : RunSettings) (roomy : free device room) (open_ : τ) (source : Text.ByteSource) :
    let delivered := (Classifier.mk settings.rules settings.strict).delivered source.reads
    let whole := settings.run open_ source
    let cut := settings.run device source
    cut.out.taken = whole.out.taken.take (min room whole.out.taken.length) ∧
      (whole.out.taken.length ≤ room → cut.result = whole.result) ∧
      (room < whole.out.taken.length → ∃ error,
        cut.result = .error error ∧ error.exitCode = 2 ∧
          match settings.format with
          | .text => whole.out.taken = blockBytes settings.colored delivered ∧
            ∃ report cause, Overflows settings.colored room delivered report ∧
              error = .classify (.deliver (.changes report.file cause))
          | .json => ∃ cause, error = .write (.summary cause)) := by
  intro delivered whole cut
  rw [← List.take_eq_take_min]
  cases format : settings.format with
  | text =>
    obtain ⟨result, all⟩ := runText_willing willing settings open_ source
    obtain ⟨taken, fits, exceeds⟩ := runText_fills fills settings device roomy source
    simp only [whole, cut, run, format]
    rw [all, result]
    refine ⟨taken, fits, fun beyond => ?_⟩
    obtain ⟨report, cause, spill, failed⟩ := exceeds beyond
    exact ⟨_, failed, rfl, rfl, report, cause, spill, rfl⟩
  | json =>
    obtain ⟨result, all⟩ := runSummary_willing willing settings open_ source
    obtain ⟨taken, fits, exceeds⟩ := runSummary_fills fills settings device roomy source
    simp only [whole, cut, run, format]
    rw [all, result]
    refine ⟨taken, fits, fun beyond => ?_⟩
    obtain ⟨cause, failed⟩ := exceeds beyond
    exact ⟨_, failed, rfl, cause, rfl⟩

-- The second block does not fit, so that nobody sees the line that belongs to no section.
theorem full_device_truncates_second_block :
    Device.Willing Open ∧
      let source : Text.ByteSource :=
        ⟨("../a.h should add these lines:\nclass B;\n---\n" ++
          "../b.h should add these lines:\nclass C;\n---\nstray\n").toUTF8.toList, none⟩
      let settings : RunSettings := ⟨.builtin, .text, false, true⟩
      let device : Limited := ⟨some 30, some "disk full", none⟩
      let delivered := (Classifier.mk .builtin true).delivered source.reads
      let whole := settings.run Open.mk source
      let cut := settings.run device source
      whole.result.toOption = none ∧ whole.out.taken.length = 42 ∧
        cut.out.taken = whole.out.taken.take 30 ∧
        ∃ report cause, Overflows false 30 delivered report ∧
          cut.result = .error (.classify (.deliver (.changes report.file cause))) := by
  refine ⟨open_willing, ?_⟩
  intro source settings device delivered whole cut
  have roomy : device.room? = some 30 ∧ device.flushFailure? = none := ⟨rfl, rfl⟩
  have fails : whole.result.toOption = none := by decide +kernel
  have long : whole.out.taken.length = 42 := by decide +kernel
  obtain ⟨taken, _, stops⟩ :=
    full_device_truncates open_willing limited_fills settings roomy Open.mk source
  have beyond : 30 < whole.out.taken.length := by omega
  obtain ⟨error, failed, _, _, report, cause, spill, same⟩ := stops beyond
  subst same
  refine ⟨fails, long, ?_, report, cause, spill, failed⟩
  change cut.out.taken = _ at taken
  rw [taken, Nat.min_eq_left (Nat.le_of_lt beyond)]

end RunSettings

end IncludeTidy
