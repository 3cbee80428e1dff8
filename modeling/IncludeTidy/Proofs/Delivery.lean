import Mathlib.Data.List.ModifyLast
import IncludeTidy.Proofs.Receivers

namespace IncludeTidy

namespace Classifier

def State.openFile? (s : State σ) : Option String := s.report?.map FileReport.file

-- The state of the same classification on the receiver that is recorded.
def State.unrecorded (s : State (Recorded σ)) : State σ :=
  ⟨s.report?, s.inside?, s.tally, s.receiver.receiver⟩

theorem absorb_ne_deliver (c : Classifier) (s : State σ) (line : String) (refusal : ε) :
    (absorb c s line).2 ≠ some (.deliver refusal) := by
  intro refused
  unfold absorb at refused
  split at refused
  · cases refused
  · split at refused <;> cases refused

theorem alike_unrecorded_iff (s : State (Recorded σ)) (t : State σ) :
    s.Alike (.mirroring (fun recorded receiver => recorded.receiver = receiver) ε) t ↔
      s.unrecorded = t := by
  rw [alike_mirroring_iff]
  constructor
  · rintro ⟨report, inside, tally, receiver⟩
    rw [State.unrecorded, ← report, ← inside, ← tally, receiver]
  · rintro rfl
    exact ⟨rfl, rfl, rfl, rfl⟩

variable [Receiver σ ε]

-- Failures are passed over: the next line is fed to the state that the failed one left.
def feedOn (c : Classifier) (s : State σ) (lines : List String) : State σ :=
  lines.foldl (fun s line => (c.feed s line).1) s

-- A classification that is watched, with the reports opened so far, in order, each with what it has
-- taken in. A report is known by its place in this list, which no delivery changes.
structure Watched (σ : Type) where
  state : State (Recorded σ)
  opened : List FileReport

-- A header has opened a report if its file is open after it and was not open before it. Content
-- inside a section goes to the report that was opened last.
def Watched.openedAfter (c : Classifier) (w : Watched σ) (raw : String) : List FileReport :=
  match c.rules.layout.kind (Text.trim raw) with
  | .header header =>
    if w.state.openFile? ≠ some header.file ∧
        (c.feed w.state raw).1.openFile? = some header.file then
      w.opened ++ [.opened header.file]
    else w.opened
  | .content =>
    match w.state.inside? with
    | some section_ =>
      w.opened.modifyLast fun report => (report.absorb c.rules (Text.trim raw) section_).1
    | none => w.opened
  | .noise | .boundary => w.opened

def Watched.next (c : Classifier) (w : Watched σ) (raw : String) : Watched σ :=
  ⟨(c.feed w.state raw).1, w.openedAfter c raw⟩

@[simp]
theorem next_state (c : Classifier) (w : Watched σ) (raw : String) :
    (w.next c raw).state = (c.feed w.state raw).1 := by
  rw [Watched.next]

@[simp]
theorem next_opened (c : Classifier) (w : Watched σ) (raw : String) :
    (w.next c raw).opened = w.openedAfter c raw := by
  rw [Watched.next]

def Watched.offered (w : Watched σ) : List FileReport := w.state.receiver.offered

def Watched.on (receiver : σ) : Watched σ := ⟨start ⟨receiver, []⟩, []⟩

def watch (c : Classifier) (receiver : σ) (lines : List String) : Watched σ :=
  lines.foldl (Watched.next c) (.on receiver)

-- The reports opened are those handed over, as they stood, and then the open one.
structure Orderly (rules : Ruleset) (s : State (Recorded σ)) (opened handed : List FileReport) :
    Prop where
  opened : opened = handed ++ s.report?.toList
  offered : s.receiver.offered = handed.map rules.finished
  files : s.tally.files = handed.length
  inside : s.inside?.isSome → s.report?.isSome

variable {c : Classifier} {rules : Ruleset} {s : State (Recorded σ)}
  {opened handed : List FileReport} {raw line : String} {header : Header}

theorem on_orderly (rules : Ruleset) (receiver : σ) :
    Orderly rules (Watched.on receiver).state (Watched.on receiver).opened [] :=
  ⟨rfl, rfl, rfl, fun inside => inside⟩

theorem counted_orderly (orderly : Orderly rules s opened handed) :
    Orderly rules s.counted opened handed :=
  ⟨orderly.opened, orderly.offered, orderly.files, orderly.inside⟩

theorem close_shut (rules : Ruleset) (s : State σ) :
    (close rules s).1.report? = none ∧ (close rules s).1.inside? = none := by
  cases opened : s.report? with
  | none => rw [close_idle opened]; exact ⟨opened, rfl⟩
  | some report => rw [close_open opened]; exact ⟨rfl, rfl⟩

-- Closing hands over whatever is open, refused or not, so that nothing opened is left behind.
theorem close_orderly (orderly : Orderly rules s opened handed) :
    Orderly rules (close rules s).1 opened opened := by
  obtain ⟨ledger, offered, files, _⟩ := orderly
  cases current : s.report? with
  | none =>
    rw [current, Option.toList_none, List.append_nil] at ledger
    subst ledger
    rw [close_idle current]
    exact ⟨by simp [current], offered, files, fun inside => by cases inside⟩
  | some report =>
    rw [current, Option.toList_some] at ledger
    subst ledger
    rw [close_open current]
    refine ⟨by simp, ?_, by simp [files], fun inside => by cases inside⟩
    simp only [Receiver.accept, offered, List.map_append, List.map_cons, List.map_nil]

theorem finish_receiver (c : Classifier) (s : State σ) :
    (c.finish s).receiver = (close c.rules s).1.receiver := by
  unfold finish
  split
  · rename_i closed
    rw [closed]
  · rename_i closed
    rw [closed]

theorem openFile?_open (current : s.report? = some report) : s.openFile? = some report.file := by
  rw [State.openFile?, current, Option.map_some]

theorem openFile?_idle (idle : s.report? = none) : s.openFile? = none := by
  rw [State.openFile?, idle, Option.map_none]

theorem feed_deliver {s : State σ} (refused : (c.feed s raw).2 = some (.deliver refusal)) :
    (c.feed s raw).1.report? = none ∧ (c.feed s raw).1.inside? = none := by
  cases kind : c.rules.layout.kind (Text.trim raw) with
  | noise => rw [feed_noise kind] at refused; cases refused
  | boundary => rw [feed_boundary kind]; exact close_shut _ _
  | header header =>
    rw [feed_header kind] at refused ⊢
    cases current : s.counted.report? with
    | none => rw [openSection_idle current] at refused; cases refused
    | some report =>
      by_cases same : report.file = header.file
      · rw [openSection_same current same] at refused; cases refused
      · cases answer : (Receiver.accept s.counted.receiver (c.rules.finished report)).2 with
        | none => rw [openSection_other current same answer] at refused; cases refused
        | some refusal => rw [openSection_refused current same answer]; exact close_shut _ _
  | content =>
    rw [feed_content kind] at refused
    exact absurd refused (absorb_ne_deliver _ _ _ _)

variable {w : Watched σ}

theorem openedAfter_header (kind : c.rules.layout.kind (Text.trim raw) = .header header) :
    w.openedAfter c raw =
      if w.state.openFile? ≠ some header.file ∧
          (c.feed w.state raw).1.openFile? = some header.file then
        w.opened ++ [.opened header.file]
      else w.opened := by
  unfold Watched.openedAfter
  rw [kind]

-- A refused delivery leaves nothing open, so that its header opened nothing.
theorem openedAfter_deliver (refused : (c.feed w.state raw).2 = some (.deliver refusal)) :
    w.openedAfter c raw = w.opened := by
  obtain ⟨idle, _⟩ := feed_deliver refused
  cases kind : c.rules.layout.kind (Text.trim raw) with
  | noise => unfold Watched.openedAfter; rw [kind]
  | boundary => unfold Watched.openedAfter; rw [kind]
  | header header =>
    rw [openedAfter_header kind, openFile?_idle idle]
    simp
  | content =>
    rw [feed_content kind] at refused
    exact absurd refused (absorb_ne_deliver _ _ _ _)

theorem header_orderly (orderly : Orderly c.rules w.state w.opened handed)
    (kind : c.rules.layout.kind (Text.trim raw) = .header header) :
    ∃ handed, Orderly c.rules (c.feed w.state raw).1 (w.openedAfter c raw) handed := by
  have counted := counted_orderly orderly
  have closed : Orderly c.rules (close c.rules w.state.counted).1 w.opened w.opened :=
    close_orderly counted
  rw [openedAfter_header kind, feed_header kind]
  cases current : w.state.counted.report? with
  | none =>
    have before : w.state.openFile? = none := openFile?_idle current
    rw [openSection_idle current, before]
    rw [close_idle current] at closed
    refine ⟨w.opened, ?_, closed.offered, closed.files, fun _ => rfl⟩
    simp [State.openFile?, FileReport.opened]
  | some report =>
    have before : w.state.openFile? = some report.file := openFile?_open current
    by_cases same : report.file = header.file
    · rw [openSection_same current same, before]
      refine ⟨handed, ?_, counted.offered, counted.files, fun _ => by rw [current]; rfl⟩
      rw [if_neg (by simp [same])]
      exact counted.opened
    · cases answer : (Receiver.accept w.state.counted.receiver (c.rules.finished report)).2 with
      | none =>
        rw [openSection_other current same answer, before]
        refine ⟨w.opened, ?_, closed.offered, closed.files, fun _ => rfl⟩
        simp [State.openFile?, FileReport.opened, same]
      | some refusal =>
        have after : (close c.rules w.state.counted).1.openFile? = none :=
          openFile?_idle (close_shut _ _).1
        rw [openSection_refused current same answer, after]
        exact ⟨w.opened, by simpa using closed⟩

theorem content_orderly (orderly : Orderly c.rules w.state w.opened handed)
    (kind : c.rules.layout.kind (Text.trim raw) = .content) :
    ∃ handed, Orderly c.rules (c.feed w.state raw).1 (w.openedAfter c raw) handed := by
  have counted := counted_orderly orderly
  unfold Watched.openedAfter
  rw [feed_content kind, kind]
  dsimp only
  cases inside : w.state.inside? with
  | none =>
    rw [absorb_outside (s := w.state.counted) (.inr inside)]
    split
    · exact ⟨handed, counted⟩
    · exact ⟨handed, counted.opened, counted.offered, counted.files, counted.inside⟩
  | some section_ =>
    obtain ⟨report, current⟩ := Option.isSome_iff_exists.mp (orderly.inside (by rw [inside]; rfl))
    rw [absorb_inside (s := w.state.counted) current inside]
    refine ⟨handed, ?_, counted.offered, counted.files, fun _ => rfl⟩
    rw [orderly.opened, current]
    exact List.modifyLast_concat _ _ _

theorem preserves_orderly (orderly : Orderly c.rules w.state w.opened handed) (raw : String) :
    ∃ handed, Orderly c.rules (w.next c raw).state (w.next c raw).opened handed := by
  rw [next_state, next_opened]
  cases kind : c.rules.layout.kind (Text.trim raw) with
  | noise =>
    unfold Watched.openedAfter
    rw [feed_noise kind, kind]
    exact ⟨handed, orderly.opened, orderly.offered, orderly.files, orderly.inside⟩
  | boundary =>
    have closed : Orderly c.rules (close c.rules w.state.counted).1 w.opened w.opened :=
      close_orderly (counted_orderly orderly)
    unfold Watched.openedAfter
    rw [feed_boundary kind, kind]
    exact ⟨w.opened, closed⟩
  | header header => exact header_orderly orderly kind
  | content => exact content_orderly orderly kind

theorem watch_orderly (orderly : Orderly c.rules w.state w.opened handed) (lines : List String) :
    ∃ handed, Orderly c.rules (lines.foldl (Watched.next c) w).state
      (lines.foldl (Watched.next c) w).opened handed := by
  induction lines generalizing w handed with
  | nil => exact ⟨handed, orderly⟩
  | cons raw rest ih =>
    obtain ⟨handed, next⟩ := preserves_orderly orderly raw
    rw [List.foldl_cons]
    exact ih next

-- What is offered goes along with the watched state; the receiver does not see it.
theorem feedOn_unrecorded (c : Classifier) (lines : List String) (w : Watched σ) :
    (lines.foldl (Watched.next c) w).state.unrecorded = c.feedOn w.state.unrecorded lines := by
  induction lines generalizing w with
  | nil => rfl
  | cons raw rest ih =>
    have alike := (alike_unrecorded_iff (ε := ε) w.state _).mpr rfl
    have step := (alike_unrecorded_iff _ _).mp (feed_alike (c := c) recorded_mirrors alike raw)
    simp [ih, step, feedOn]

-- Recording leaves the classification on the receiver itself as it is, so the first part of this
-- holds of every receiver.
theorem reports_offered_in_order (c : Classifier) (receiver : σ) (lines : List String) :
    let w := c.watch receiver lines
    (w.state.inside?.isSome → w.state.report?.isSome) ∧
      w.state.tally.files = w.offered.length ∧
      w.opened.length = w.state.tally.files + (if w.state.report?.isSome then 1 else 0) ∧
      (∀ k, k < w.offered.length → w.offered[k]? = w.opened[k]?.map c.rules.finished) ∧
      w.opened[w.offered.length]? = w.state.report? ∧
      (∀ raw refusal, (c.feed w.state raw).2 = some (.deliver refusal) →
        (w.next c raw).state.report? = none ∧ (w.next c raw).state.inside? = none ∧
          (w.next c raw).opened = w.opened) ∧
      (c.finish w.state).receiver.offered = w.opened.map c.rules.finished ∧
      w.state.unrecorded = c.feedOn (start receiver) lines := by
  intro w
  have same : w.state.unrecorded = c.feedOn (start receiver) lines := feedOn_unrecorded c lines _
  have watched : ∃ handed, Orderly c.rules w.state w.opened handed :=
    watch_orderly (on_orderly c.rules receiver) lines
  clear_value w
  obtain ⟨handed, orderly⟩ := watched
  have offered : w.offered = handed.map c.rules.finished := orderly.offered
  refine ⟨orderly.inside, ?_, ?_, ?_, ?_, ?_, ?_, same⟩
  · rw [orderly.files, offered, List.length_map]
  · rw [orderly.opened, orderly.files, List.length_append]
    cases w.state.report? <;> rfl
  · intro k bound
    rw [offered, List.length_map] at bound
    rw [offered, orderly.opened, List.getElem?_map, List.getElem?_append_left bound]
  · rw [offered, List.length_map, orderly.opened, List.getElem?_append_right (Nat.le_refl _),
      Nat.sub_self]
    cases w.state.report? <;> rfl
  · intro raw refusal refused
    obtain ⟨idle, outside⟩ := feed_deliver refused
    rw [next_state, next_opened]
    exact ⟨idle, outside, openedAfter_deliver refused⟩
  · rw [finish_receiver]
    exact (close_orderly orderly).offered

end Classifier

end IncludeTidy
