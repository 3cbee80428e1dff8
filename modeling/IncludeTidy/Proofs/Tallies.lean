import Mathlib.Data.List.Forall2
import IncludeTidy.Output.Device
import IncludeTidy.Proofs.Output

namespace IncludeTidy

-- The reports, given one after the other, each with the answer to it.
def Receiver.answered [Receiver σ ε] (receiver : σ) : List FileReport → List (FileReport × Option ε)
  | [] => []
  | report :: rest =>
    let (next, refusal?) := Receiver.accept receiver report
    (report, refusal?) :: Receiver.answered next rest

theorem takeAll_mirrors [Receiver σ ε] [Receiver τ φ] {R : σ → τ → Prop} {f : ε → φ}
    (mirrors : Receiver.Mirrors R f) (related : R one two) (reports : List FileReport) :
    R (Receiver.takeAll one reports) (Receiver.takeAll two reports) := by
  induction reports generalizing one two with
  | nil => exact related
  | cons report rest ih => exact ih (mirrors one two report related).1

theorem takeAll_gathers (reports : List FileReport) :
    Gathers ⟨reports⟩ (Receiver.takeAll SummaryBuilder.empty reports) := by
  have fresh : Gathers ⟨[]⟩ SummaryBuilder.empty := ⟨rfl, rfl⟩
  have gathered := takeAll_mirrors gathers_mirrors fresh reports
  simpa using gathered

variable [Device δ]

-- A device that refuses still lacks some of the bytes.
theorem writeAll_refused {out : Output δ} {bytes : List UInt8}
    (refused : (out.writeAll bytes).2 = some cause) :
    (out.writeAll bytes).1.taken.length < out.taken.length + bytes.length := by
  fun_induction Output.writeAll out bytes with
  | case1 => cases refused
  | case2 => simp
  | case3 => simp
  | case4 out byte rest device count taking ih =>
    have short := ih refused
    simp only [List.length_append, List.length_cons, List.length_take, List.length_drop] at short ⊢
    omega

theorem writeAll_part (out : Output δ) (bytes : List UInt8) :
    ∃ piece, piece <+: bytes ∧ (out.writeAll bytes).1.taken = out.taken ++ piece ∧
      (piece = bytes ↔ (out.writeAll bytes).2 = none) := by
  obtain ⟨piece, begins, taken, whole⟩ := out.writeAll_taken bytes
  refine ⟨piece, begins, taken, fun same => ?_, whole⟩
  cases answer : (out.writeAll bytes).2 with
  | none => rfl
  | some cause =>
    have short := writeAll_refused answer
    rw [taken, same, List.length_append] at short
    exact absurd short (Nat.lt_irrefl _)

-- Where all bytes are taken and the flush fails, the answer is not that they could not be written.
theorem put_part (out : Output δ) (text file : String) :
    ∃ piece, piece <+: text.toUTF8.toList ∧
      (out.put text (.changes file)).1.taken = out.taken ++ piece ∧
      (piece = text.toUTF8.toList ↔
        ∀ cause, (out.put text (.changes file)).2 ≠ some (.changes file cause)) ∧
      ∀ error, (out.put text (.changes file)).2 = some error →
        (∃ cause, error = .changes file cause) ∨ ∃ cause, error = .flush cause := by
  obtain ⟨piece, begins, taken, whole⟩ := writeAll_part out text.toUTF8.toList
  refine ⟨piece, begins, ?_⟩
  unfold Output.put
  rcases wrote : out.writeAll text.toUTF8.toList with ⟨after, _ | cause⟩
  · rw [wrote] at taken whole
    refine ⟨taken, iff_of_true (whole.mpr rfl) fun cause refused => ?_, fun error refused => ?_⟩
    · obtain ⟨_, _, mixed⟩ := Option.map_eq_some_iff.mp refused
      cases mixed
    · obtain ⟨cause, _, same⟩ := Option.map_eq_some_iff.mp refused
      exact .inr ⟨cause, same.symm⟩
  · rw [wrote] at taken whole
    refine ⟨taken, ⟨fun same => ?_, fun fine => absurd rfl (fine cause)⟩, fun error refused => ?_⟩
    · cases whole.mp same
    · cases refused
      exact .inl ⟨cause, rfl⟩

-- What the device took for a report, and what the answer to the report says about that.
structure Contribution (colored : Bool) (report : FileReport) (answer : Option WriteError)
    (piece : List UInt8) : Prop where
  begins : piece <+: (report.block colored).toUTF8.toList
  whole : piece = (report.block colored).toUTF8.toList ↔
    ∀ cause, answer ≠ some (.changes report.file cause)
  refusals : ∀ error, answer = some error →
    (∃ cause, error = .changes report.file cause) ∨ ∃ cause, error = .flush cause
  unchanged : report.hasChanges = false → piece = [] ∧ answer = none

theorem accept_contributes (writer : BlockWriter δ) (report : FileReport) :
    ∃ piece, (Receiver.accept writer report).1.out.taken = writer.out.taken ++ piece ∧
      Contribution writer.colored report (Receiver.accept writer report).2 piece := by
  cases changed : report.hasChanges with
  | false =>
    have nothing := (block_eq_empty_iff report writer.colored).mpr changed
    simp only [Receiver.accept, changed, Bool.false_eq_true, if_false]
    refine ⟨[], (List.append_nil _).symm, List.nil_prefix, ?_, nofun, fun _ => ⟨rfl, rfl⟩⟩
    exact iff_of_true (by simp [nothing]) nofun
  | true =>
    obtain ⟨piece, begins, taken, whole, refusals⟩ :=
      put_part writer.out (report.block writer.colored) report.file
    simp only [Receiver.accept, changed, if_true]
    exact ⟨piece, taken, begins, whole, refusals, fun same => by cases changed.symm.trans same⟩

theorem takeAll_outcome (writer : BlockWriter δ) (reports : List FileReport) :
    (Receiver.takeAll writer reports).outcome = reports.foldl Outcome.record writer.outcome :=
  (List.foldl_hom BlockWriter.outcome fun writer report =>
    (accept_outcome writer report).symm).symm

theorem takeAll_contributions (writer : BlockWriter δ) (reports : List FileReport) :
    ∃ pieces : List (List UInt8),
      (∀ k, (Receiver.takeAll writer (reports.take k)).out.taken =
        writer.out.taken ++ (pieces.take k).flatten) ∧
      List.Forall₂ (fun (report, answer) piece => Contribution writer.colored report answer piece)
        (Receiver.answered writer reports) pieces := by
  induction reports generalizing writer with
  | nil => exact ⟨[], fun k => by simp, .nil⟩
  | cons report rest ih =>
    obtain ⟨piece, taken, contribution⟩ := accept_contributes writer report
    obtain ⟨pieces, later, contributions⟩ := ih (Receiver.accept writer report).1
    rw [accept_colored] at contributions
    refine ⟨piece :: pieces, fun k => ?_, .cons contribution contributions⟩
    cases k with
    | zero => exact (List.append_nil _).symm
    | succ k =>
      rw [List.take_succ_cons, List.take_succ_cons, List.flatten_cons, ← List.append_assoc, ← taken]
      exact later k

-- Every report is given to both receivers, whatever the device did about the ones before it.
theorem tallies_agree (device : δ) (colored : Bool) (reports : List FileReport) :
    let first := BlockWriter.on device colored
    let writer := Receiver.takeAll first reports
    let builder := Receiver.takeAll SummaryBuilder.empty reports
    (∀ k, let given := reports.take k
      (Receiver.takeAll first given).outcome =
          (Receiver.takeAll SummaryBuilder.empty given).outcome ∧
        (Receiver.takeAll first given).outcome.filesSeen = given.length ∧
        (Receiver.takeAll first given).outcome.filesChanged =
          given.countP FileReport.hasChanges) ∧
      builder.summary.files = (reports.filter FileReport.hasChanges).map (fun report =>
        ⟨report.file, report.additions.entries, report.removals.entries⟩) ∧
      builder.summary.verdict.filesChanged = writer.outcome.filesChanged ∧
      builder.summary.verdict.status = writer.outcome.status ∧
      ∃ pieces : List (List UInt8),
        (∀ k, (Receiver.takeAll first (reports.take k)).out.taken = (pieces.take k).flatten) ∧
        List.Forall₂ (fun (report, answer) piece => Contribution colored report answer piece)
          (Receiver.answered first reports) pieces := by
  intro first writer builder
  have shown : ∀ given, (Receiver.takeAll first given).outcome = .ofReports given :=
    fun given => (takeAll_outcome first given).trans (foldl_record [] given)
  have files := (takeAll_gathers reports).files
  have verdict : builder.summary.verdict =
      ⟨writer.outcome.status, writer.outcome.filesChanged⟩ := by
    rw [shown, SummaryBuilder.summary, files, verdict_changed]
  refine ⟨fun k => ?_, files, ?_, ?_, takeAll_contributions first reports⟩
  · intro given
    rw [shown, (takeAll_gathers given).outcome]
    exact ⟨rfl, rfl, rfl⟩
  · rw [verdict]
  · rw [verdict]

-- The second block is cut off, and nothing of the last one is taken; all of them count.
example :
    let reports := ["a.h", "b.h", "c.h"].map fun file =>
      { FileReport.opened file with additions := .ofList [⟨"class B;", ""⟩] }
    let first := BlockWriter.on (⟨some 30, some "disk full", none⟩ : Limited) false
    let writer := Receiver.takeAll first reports
    writer.out.taken = "\n== a.h ==\n+class B;\n\n== b.h =".toUTF8.toList ∧
      writer.outcome = ⟨3, 3⟩ ∧
      (Receiver.answered first reports).map Prod.snd =
        [none, some (.changes "b.h" (.failed "disk full")),
          some (.changes "c.h" (.failed "disk full"))] := by
  decide +kernel

end IncludeTidy
