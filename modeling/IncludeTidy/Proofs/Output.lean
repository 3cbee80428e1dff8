import IncludeTidy.Proofs.Receivers
import IncludeTidy.Run

namespace IncludeTidy

namespace Text

theorem toList_loop (bytes : ByteArray) (i : Nat) (seen : List UInt8) :
    ByteArray.toList.loop bytes i seen = seen.reverse ++ bytes.data.toList.drop i := by
  fun_induction ByteArray.toList.loop bytes i seen with
  | case1 i seen inside ih =>
    have bound : i < bytes.data.toList.length := by simpa using inside
    rw [ih, List.reverse_cons, List.append_assoc, List.singleton_append,
      List.drop_eq_getElem_cons bound]
    simp [ByteArray.get!, getElem!_pos bytes.data i inside]
  | case2 i seen outside =>
    rw [List.drop_of_length_le (by simpa using outside), List.append_nil]

theorem toList_data (bytes : ByteArray) : bytes.toList = bytes.data.toList := by
  rw [ByteArray.toList, toList_loop, List.reverse_nil, List.nil_append, List.drop_zero]

@[simp]
theorem toList_empty : ByteArray.empty.toList = [] := by
  rw [toList_data]
  rfl

@[simp]
theorem toList_append (first second : ByteArray) :
    (first ++ second).toList = first.toList ++ second.toList := by
  simp [toList_data]

end Text

-- The device takes at least one byte whenever it is offered some, and every flush succeeds.
structure Device.Willing (δ : Type) [Device δ] : Prop where
  takes : ∀ (device : δ) (byte : UInt8) (rest : List UInt8),
    ∃ count, (Device.take device (byte :: rest)).2 = .ok (count + 1)
  flushes : ∀ device : δ, (Device.flush device).2 = none

theorem open_willing : Device.Willing Open :=
  ⟨fun _ _ rest => ⟨rest.length, rfl⟩, fun _ => rfl⟩

variable [Device δ]

theorem writeAll_willing (willing : Device.Willing δ) (out : Output δ) (bytes : List UInt8) :
    (out.writeAll bytes).2 = none := by
  fun_induction Output.writeAll out bytes with
  | case1 => rfl
  | case2 out byte rest device reason refused =>
    obtain ⟨count, taken⟩ := willing.takes out.device byte rest
    rw [refused] at taken
    cases taken
  | case3 out byte rest device nothing =>
    obtain ⟨count, taken⟩ := willing.takes out.device byte rest
    rw [nothing] at taken
    cases taken
  | case4 out byte rest device count taken ih => exact ih

theorem put_willing (willing : Device.Willing δ) (out : Output δ) (text : String)
    (failure : DeviceError → WriteError) :
    (out.put text failure).2 = none ∧
      (out.put text failure).1.taken = out.taken ++ text.toUTF8.toList := by
  obtain ⟨written, _, taken, whole⟩ := out.writeAll_taken text.toUTF8.toList
  have fine := writeAll_willing willing out text.toUTF8.toList
  rw [whole fine] at taken
  unfold Output.put
  rcases wrote : out.writeAll text.toUTF8.toList with ⟨after, error?⟩
  rw [wrote] at fine taken
  dsimp only at fine taken
  subst fine
  simp only [Output.flush, willing.flushes, Option.map_none, taken, and_self]

namespace Outcome

-- The outcome of a run that saw these reports.
def ofReports (reports : List FileReport) : Outcome :=
  ⟨reports.length, reports.countP FileReport.hasChanges⟩

@[simp]
theorem record_ofReports (reports : List FileReport) (report : FileReport) :
    (ofReports reports).record report = ofReports (reports ++ [report]) := by
  unfold ofReports record
  rw [List.length_append, List.countP_append]
  cases changed : report.hasChanges <;> simp [changed]

end Outcome

theorem foldl_record (seen reports : List FileReport) :
    reports.foldl Outcome.record (.ofReports seen) = .ofReports (seen ++ reports) := by
  induction reports generalizing seen with
  | nil => simp
  | cons report rest ih => simp [ih]

@[simp]
theorem accept_colored (writer : BlockWriter δ) (report : FileReport) :
    (Receiver.accept writer report).1.colored = writer.colored := by
  simp only [Receiver.accept]
  split <;> rfl

-- A report counts even if its block cannot be written.
@[simp]
theorem accept_outcome (writer : BlockWriter δ) (report : FileReport) :
    (Receiver.accept writer report).1.outcome = writer.outcome.record report := by
  simp only [Receiver.accept]
  split <;> rfl

def blocks (colored : Bool) (reports : List FileReport) : String :=
  String.join (reports.map fun report => report.block colored)

theorem block_eq_empty_iff (report : FileReport) (colored : Bool) :
    report.block colored = "" ↔ report.hasChanges = false := by
  unfold FileReport.block FileReport.blockTitle
  cases report.hasChanges <;> simp [String.ext_iff]

@[simp]
theorem blocks_nil (colored : Bool) : blocks colored [] = "" := rfl

@[simp]
theorem blocks_cons (colored : Bool) (report : FileReport) (rest : List FileReport) :
    blocks colored (report :: rest) = report.block colored ++ blocks colored rest := by
  simp [blocks]

@[simp]
theorem blocks_append (colored : Bool) (first second : List FileReport) :
    blocks colored (first ++ second) = blocks colored first ++ blocks colored second := by
  simp only [blocks, List.map_append, String.join_append]

-- A report without changes has an empty block.
theorem blocks_changed (colored : Bool) (reports : List FileReport) :
    blocks colored (reports.filter FileReport.hasChanges) = blocks colored reports := by
  induction reports with
  | nil => rfl
  | cons report rest ih =>
    cases changed : report.hasChanges with
    | false =>
      have nothing := (block_eq_empty_iff report colored).mpr changed
      simp [changed, nothing, ih]
    | true => simp [changed, ih]

-- The verdict on the changed reports is what the outcome says of all reports.
theorem verdict_changed (reports : List FileReport) :
    (Summary.ofFiles ((reports.filter FileReport.hasChanges).map FileReport.changes)).verdict =
      ⟨(Outcome.ofReports reports).status, (Outcome.ofReports reports).filesChanged⟩ := by
  simp only [Summary.ofFiles, Outcome.status, Outcome.ofReports, List.length_map,
    List.countP_eq_length_filter]

-- What the two receivers hold after the same reports.
structure Shows (colored : Bool) (collected : Collected) (writer : BlockWriter δ) : Prop where
  painted : writer.colored = colored
  taken : writer.out.taken = (blocks colored collected.reports).toUTF8.toList
  outcome : writer.outcome = .ofReports collected.reports

structure Gathers (collected : Collected) (builder : SummaryBuilder) : Prop where
  files : builder.files = (collected.reports.filter FileReport.hasChanges).map FileReport.changes
  outcome : builder.outcome = .ofReports collected.reports

theorem shows_mirrors (willing : Device.Willing δ) (colored : Bool) :
    Receiver.Mirrors (Shows (δ := δ) colored) (Empty.elim : Empty → WriteError) := by
  rintro ⟨reports⟩ writer report ⟨painted, taken, outcome⟩
  obtain ⟨fine, added⟩ :=
    put_willing willing writer.out (report.block colored) (.changes report.file)
  subst painted
  cases changed : report.hasChanges with
  | false =>
    simp only [Receiver.accept, changed, Bool.false_eq_true, if_false, outcome,
      Outcome.record_ofReports]
    refine ⟨⟨rfl, ?_, rfl⟩, rfl⟩
    simpa [(block_eq_empty_iff report _).mpr changed] using taken
  | true =>
    simp only [Receiver.accept, changed, if_true, outcome, Outcome.record_ofReports]
    refine ⟨⟨rfl, ?_, rfl⟩, fine⟩
    simp [added, taken]

theorem gathers_mirrors : Receiver.Mirrors Gathers (Empty.elim : Empty → WriteError) := by
  rintro ⟨reports⟩ builder report ⟨files, outcome⟩
  refine ⟨⟨?_, by simp [Receiver.accept, outcome]⟩, rfl⟩
  cases changed : report.hasChanges <;> simp [Receiver.accept, changed, files]

end IncludeTidy
