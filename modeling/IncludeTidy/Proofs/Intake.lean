import IncludeTidy.Proofs.Consolidated
import IncludeTidy.Proofs.Delivery
import IncludeTidy.Proofs.Gathered

namespace IncludeTidy

namespace Classifier

-- The line that feeding takes into the open report.
def intake? (c : Classifier) (s : State σ) (raw : String) : Option Intake :=
  match c.rules.layout.kind (Text.trim raw), s.report?, s.inside? with
  | .content, some _, some section_ => some ⟨section_, Text.trim raw⟩
  | _, _, _ => none

variable {c : Classifier} {raw : String}

theorem intake?_other {s : State σ} (other : c.rules.layout.kind (Text.trim raw) ≠ .content) :
    c.intake? s raw = none := by
  unfold intake?
  split
  · rename_i content _ _
    exact absurd content other
  · rfl

theorem intake?_outside {s : State σ} (outside : s.report? = none ∨ s.inside? = none) :
    c.intake? s raw = none := by
  unfold intake?
  split
  · rename_i opened inside
    simp [opened, inside] at outside
  · rfl

variable [Receiver σ ε]

-- What is taken in while this many reports have been handed over, which is what the next one to be
-- handed over takes in.
def taken (c : Classifier) (number : Nat) (s : State σ) : List Text.LineRead → List Intake
  | [] | .error _ :: _ => []
  | .ok raw :: rest =>
    (if s.tally.files = number then (c.intake? s raw).toList else []) ++
      taken c number (c.feed s raw).1 rest

-- All that a fed line can do to reports.
inductive Fed (c : Classifier) (s : State σ) (raw : String) (t : State σ) : Prop where
  | keeps (receiver : t.receiver = s.receiver) (files : t.tally.files = s.tally.files)
      (report : t.report? = s.report?.map fun report =>
        report.takeIn c.rules (c.intake? s raw).toList)
  | opens (idle : s.report? = none) (receiver : t.receiver = s.receiver)
      (files : t.tally.files = s.tally.files) (opened : t.report? = some (.opened file))
  | hands (current : s.report? = some report) (nothing : c.intake? s raw = none)
      (receiver : t.receiver = (Receiver.accept s.receiver (c.rules.finished report)).1)
      (files : t.tally.files = s.tally.files + 1)
      (fresh : ∀ later, t.report? = some later → ∃ file, later = .opened file)

variable {s : State σ}

theorem fed_plain (nothing : c.intake? s raw = none) (receiver : t.receiver = s.receiver)
    (files : t.tally.files = s.tally.files) (report : t.report? = s.report?) : c.Fed s raw t := by
  refine .keeps receiver files ?_
  rw [report, nothing]
  exact Option.map_id'.symm

theorem close_fed (nothing : c.intake? s raw = none) : c.Fed s raw (close c.rules s.counted).1 := by
  cases current : s.report? with
  | none =>
    rw [close_idle (s := s.counted) current]
    exact fed_plain nothing rfl rfl rfl
  | some report =>
    rw [close_open (s := s.counted) current]
    exact .hands current nothing rfl rfl (fun _ later => by cases later)

theorem openSection_fed (nothing : c.intake? s raw = none) (header : Header) :
    c.Fed s raw (openSection c.rules s.counted header).1 := by
  cases current : s.report? with
  | none =>
    rw [openSection_idle (s := s.counted) current]
    exact .opens current rfl rfl rfl
  | some report =>
    by_cases same : report.file = header.file
    · rw [openSection_same (s := s.counted) current same]
      exact fed_plain nothing rfl rfl rfl
    · cases answer : (Receiver.accept s.counted.receiver (c.rules.finished report)).2 with
      | some refusal =>
        rw [openSection_refused (s := s.counted) current same answer]
        exact close_fed nothing
      | none =>
        rw [openSection_other (s := s.counted) current same answer,
          close_open (s := s.counted) current]
        refine .hands current nothing rfl rfl (fun later opened => ?_)
        cases opened
        exact ⟨_, rfl⟩

theorem absorb_fed (content : c.rules.layout.kind (Text.trim raw) = .content) :
    c.Fed s raw (absorb (ε := ε) c s.counted (Text.trim raw)).1 := by
  cases current : s.report? with
  | none =>
    rw [absorb_outside (s := s.counted) (.inl current)]
    have nothing : c.intake? s raw = none := intake?_outside (.inl current)
    split <;> exact fed_plain nothing rfl rfl rfl
  | some report =>
    cases inside : s.inside? with
    | none =>
      rw [absorb_outside (s := s.counted) (.inr inside)]
      have nothing : c.intake? s raw = none := intake?_outside (.inr inside)
      split <;> exact fed_plain nothing rfl rfl rfl
    | some section_ =>
      rw [absorb_inside (s := s.counted) current inside]
      refine .keeps rfl rfl ?_
      simp [intake?, content, current, inside, FileReport.takeIn]

theorem feed_fed (c : Classifier) (s : State σ) (raw : String) : c.Fed s raw (c.feed s raw).1 := by
  cases kind : c.rules.layout.kind (Text.trim raw) with
  | noise =>
    rw [feed_noise kind]
    exact fed_plain (intake?_other (by simp [kind])) rfl rfl rfl
  | boundary =>
    rw [feed_boundary kind]
    exact close_fed (intake?_other (by simp [kind]))
  | header header =>
    rw [feed_header kind]
    exact openSection_fed (intake?_other (by simp [kind])) header
  | content =>
    rw [feed_content kind]
    exact absorb_fed kind

theorem taken_past {number : Nat} (past : number < s.tally.files) (reads : List Text.LineRead) :
    c.taken number s reads = [] := by
  induction reads generalizing s with
  | nil => rfl
  | cons read rest ih =>
    cases read with
    | error fault => rfl
    | ok raw =>
      have further : number < (c.feed s raw).1.tally.files := by
        cases feed_fed c s raw with
        | keeps _ files _ => omega
        | opens _ _ files _ => omega
        | hands _ _ _ files _ => omega
      rw [taken, ih further, if_neg (by omega), List.append_nil]

-- The report that will be handed over under this number, as it stands: the open one, or one that is
-- still to be opened.
inductive State.Owes (s : State σ) (number : Nat) : FileReport → Prop where
  | current (opened : s.report? = some report) (next : s.tally.files = number) :
      State.Owes s number report
  | later (free : s.tally.files = number → s.report? = none) (file : String) :
      State.Owes s number (.opened file)

-- The count of files is the number of reports offered.
def State.Squared (s : State (Recorded σ)) : Prop :=
  s.tally.files = s.receiver.offered.length

variable {s t : State (Recorded σ)} {number : Nat} {report : FileReport}

@[simp]
theorem offered_accept (recorded : Recorded σ) (report : FileReport) :
    (Receiver.accept recorded report).1.offered = recorded.offered ++ [report] := rfl

theorem fed_squared (squared : s.Squared) (fed : c.Fed s raw t) : t.Squared := by
  unfold State.Squared at squared ⊢
  cases fed with
  | keeps receiver files _ => rw [files, receiver, squared]
  | opens _ receiver files _ => rw [files, receiver, squared]
  | hands _ _ receiver files _ =>
    simp [files, receiver, squared]

theorem ending_extends (c : Classifier) (s : State (Recorded σ)) (reads : List Text.LineRead) :
    s.receiver.offered <+: (c.ending s reads).receiver.offered :=
  ending_keeps (Q := fun recorded : Recorded σ => s.receiver.offered <+: recorded.offered)
    (fun _ _ earlier => earlier.trans (List.prefix_append _ _)) List.prefix_rfl reads

theorem offered_of_extends {earlier later : List FileReport} (extends_ : earlier <+: later)
    (offered : earlier[number]? = some report) : later[number]? = some report := by
  obtain ⟨bound, _⟩ := List.getElem?_eq_some_iff.mp offered
  obtain ⟨rest, rfl⟩ := extends_
  rwa [List.getElem?_append_left bound]

theorem offered_last {earlier : List FileReport} (ahead : earlier.length ≤ number)
    (offered : (earlier ++ [last])[number]? = some report) :
    earlier.length = number ∧ report = last := by
  rw [List.getElem?_append_right ahead] at offered
  obtain ⟨bound, rfl⟩ := List.getElem?_eq_some_iff.mp offered
  rw [List.length_singleton] at bound
  exact ⟨by omega, List.getElem_singleton _⟩

-- A line that stops the run has handed over what it could, and more lines would not change that.
theorem handed_later
    (handed : (c.ending s (.ok raw :: rest)).receiver.offered[number]? = some report) :
    (c.ending (c.feed s raw).1 rest).receiver.offered[number]? = some report := by
  rcases fed : c.feed s raw with ⟨t, _ | error⟩
  · rw [ending_cons fed] at handed
    exact handed
  · unfold ending at handed
    rw [feedAll, fed] at handed
    exact offered_of_extends (ending_extends c t rest) handed

theorem owes_of_keeps (files : t.tally.files = s.tally.files)
    (kept : t.report? = s.report?.map fun report =>
      report.takeIn c.rules (c.intake? s raw).toList)
    (owed : t.Owes number base) :
    ∃ before, s.Owes number before ∧
      base = before.takeIn c.rules
        (if s.tally.files = number then (c.intake? s raw).toList else []) := by
  cases owed with
  | current opened next =>
    obtain ⟨before, current, rfl⟩ := Option.map_eq_some_iff.mp (kept.symm.trans opened)
    refine ⟨before, .current current (files ▸ next), ?_⟩
    rw [if_pos (files ▸ next)]
  | later free file =>
    rw [files, kept, Option.map_eq_none_iff] at free
    refine ⟨_, .later free file, ?_⟩
    split
    · rename_i next
      rw [intake?_outside (.inl (free next))]
      rfl
    · rfl

theorem owes_of_opens (idle : s.report? = none) (opened : t.report? = some (.opened file))
    (owed : t.Owes number base) : s.Owes number base := by
  cases owed with
  | current current next =>
    cases opened.symm.trans current
    exact .later (fun _ => idle) file
  | later free other => exact .later (fun _ => idle) other

theorem owes_of_hands (ahead : s.tally.files < number)
    (fresh : ∀ later, t.report? = some later → ∃ file, later = .opened file)
    (owed : t.Owes number base) : s.Owes number base := by
  have free : s.tally.files = number → s.report? = none := by omega
  cases owed with
  | current opened next =>
    obtain ⟨file, rfl⟩ := fresh _ opened
    exact .later free file
  | later _ file => exact .later free file

-- By induction on the reads, from any state: what is owed under this number takes in what the first
-- line adds to it, and then what the other lines add.
theorem ending_handed (squared : s.Squared) (ahead : s.tally.files ≤ number)
    (handed : (c.ending s reads).receiver.offered[number]? = some report) :
    ∃ base, s.Owes number base ∧
      report = c.rules.finished (base.takeIn c.rules (c.taken number s reads)) := by
  have missing : s.receiver.offered[number]? = none :=
    List.getElem?_eq_none (squared ▸ ahead)
  induction reads generalizing s with
  | nil =>
    rw [ending_nil, finish_receiver] at handed
    cases current : s.report? with
    | none =>
      rw [close_idle current] at handed
      cases missing.symm.trans handed
    | some base =>
      rw [close_open current, offered_accept] at handed
      obtain ⟨next, rfl⟩ := offered_last (squared ▸ ahead) handed
      exact ⟨base, .current current (squared.trans next), rfl⟩
  | cons read rest ih =>
    cases read with
    | error fault => cases missing.symm.trans handed
    | ok raw =>
      have after := handed_later handed
      have fed := feed_fed c s raw
      have square := fed_squared squared fed
      rw [taken]
      generalize (c.feed s raw).1 = t at after fed square ⊢
      cases fed with
      | keeps receiver files kept =>
        obtain ⟨base, owed, total⟩ := ih square (files ▸ ahead) after (receiver ▸ missing)
        obtain ⟨before, owes, rfl⟩ := owes_of_keeps files kept owed
        exact ⟨before, owes, by simp [total]⟩
      | opens idle receiver files opened =>
        obtain ⟨base, owed, total⟩ := ih square (files ▸ ahead) after (receiver ▸ missing)
        refine ⟨base, owes_of_opens idle opened owed, ?_⟩
        rw [intake?_outside (.inl idle)]
        simpa using total
      | @hands base current nothing receiver files fresh =>
        rcases Nat.eq_or_lt_of_le ahead with next | later
        · have here : t.receiver.offered[number]? = some (c.rules.finished base) := by
            simp [receiver, ← next, squared.symm]
          have same := (offered_of_extends (ending_extends c t rest) here).symm.trans after
          refine ⟨base, .current current next, ?_⟩
          rw [taken_past (by omega), nothing, if_pos next]
          exact (Option.some.inj same).symm
        · have beyond : t.receiver.offered[number]? = none :=
            List.getElem?_eq_none (square ▸ (by omega))
          obtain ⟨base, owed, total⟩ := ih square (by omega) after beyond
          refine ⟨base, owes_of_hands later fresh owed, ?_⟩
          rw [if_neg (by omega), List.nil_append]
          exact total

theorem start_squared (receiver : σ) : (start (⟨receiver, []⟩ : Recorded σ)).Squared := rfl

-- Every report that is handed over is the consolidated sum of what was taken in while it was open.
theorem processReads_handed {receiver : σ} {reads : List Text.LineRead}
    (handed : (c.processReads (⟨receiver, []⟩ : Recorded σ) reads).receiver.offered[number]? =
      some report) :
    report = c.rules.finished ((FileReport.opened report.file).takeIn c.rules
      (c.taken number (start (⟨receiver, []⟩ : Recorded σ)) reads)) := by
  rw [processReads_ending] at handed
  obtain ⟨base, owed, total⟩ := ending_handed (start_squared receiver) (Nat.zero_le _) handed
  cases owed with
  | current opened _ => cases opened
  | later _ file =>
    have named : report.file = file := by simp [total, FileReport.opened]
    rw [named]
    exact total

end Classifier

end IncludeTidy
