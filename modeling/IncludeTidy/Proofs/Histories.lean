import Mathlib.Data.List.Induction
import Mathlib.Data.Set.Card
import IncludeTidy.Proofs.Entries

namespace IncludeTidy.EntryMap

inductive Change where
  | insert (directive why : String)
  | remove (directive : String)
deriving DecidableEq, Repr

def Change.directive : Change → String
  | insert directive _ | remove directive => directive

def change (m : EntryMap) : Change → EntryMap
  | .insert directive why => m.insert directive why
  | .remove directive => (m.remove directive).1

-- The oldest change comes first.
def after (history : List Change) : EntryMap := history.foldl change empty

def last? (history : List Change) (directive : String) : Option Change :=
  history.reverse.find? fun change => change.directive = directive

def Present (history : List Change) (directive : String) : Prop :=
  ∃ why, last? history directive = some (.insert directive why)

-- The change at this place brought the directive in, and no later one took it out.
structure Arrived (history : List Change) (directive : String) (place : Nat) : Prop where
  inserted : ∃ why, history[place]? = some (.insert directive why)
  missing : ¬ Present (history.take place) directive
  stays : ∀ later, place < later → history[later]? ≠ some (.remove directive)

variable {history : List Change} {next : Change} {directive : String} {place : Nat}

@[simp]
theorem after_concat (history : List Change) (next : Change) :
    after (history ++ [next]) = (after history).change next := by
  simp [after]

theorem last?_concat (history : List Change) (next : Change) (directive : String) :
    last? (history ++ [next]) directive =
      if next.directive = directive then some next else last? history directive := by
  by_cases same : next.directive = directive <;> simp [last?, same]

theorem present_concat (history : List Change) (next : Change) (directive : String) :
    Present (history ++ [next]) directive ↔
      (∃ why, next = .insert directive why) ∨
        Present history directive ∧ next ≠ .remove directive := by
  unfold Present
  rw [last?_concat]
  cases next with
  | insert new why =>
    by_cases same : new = directive
    · subst same
      simp [Change.directive]
    · simp [Change.directive, same]
  | remove gone =>
    by_cases same : gone = directive
    · simp [Change.directive, same]
    · simp [Change.directive, same]

-- By induction on the history from its end, as the changes were made.
theorem get?_after (history : List Change) (directive why : String) :
    (after history).get? directive = some why ↔
      last? history directive = some (.insert directive why) := by
  induction history using List.reverseRecOn with
  | nil => simp [after, last?, get?, empty]
  | append_singleton history next ih =>
    rw [after_concat, last?_concat]
    cases next with
    | insert new latest =>
      simp only [change, get?_insert, Change.directive]
      by_cases same : new = directive
      · simp [same]
      · simp [same, Ne.symm same, ih]
    | remove gone =>
      simp only [change, remove_eq, get?_erase, Change.directive]
      by_cases same : gone = directive
      · simp [same]
      · simp [same, Ne.symm same, ih]

theorem contains_after (history : List Change) (directive : String) :
    (after history).contains directive = true ↔ Present history directive := by
  simp only [contains_iff_get?, get?_after, Present]

theorem mem_after (history : List Change) (directive : String) :
    directive ∈ (after history).directives ↔ Present history directive := by
  rw [← contains_iff, contains_after]

-- One more change lets a directive keep its arrival, unless it is removed, or arrive at the end.
theorem arrived_concat (history : List Change) (next : Change) (directive : String) (place : Nat) :
    Arrived (history ++ [next]) directive place ↔
      Arrived history directive place ∧ next ≠ .remove directive ∨
        place = history.length ∧ ¬ Present history directive ∧
          ∃ why, next = .insert directive why := by
  constructor
  · rintro ⟨⟨why, inserted⟩, missing, stays⟩
    obtain ⟨bound, _⟩ := List.getElem?_eq_some_iff.mp inserted
    rw [List.length_append, List.length_singleton] at bound
    rcases Nat.lt_succ_iff_lt_or_eq.mp bound with before | rfl
    · refine .inl ⟨⟨⟨why, ?_⟩, ?_, fun later above removed => ?_⟩, fun removed => ?_⟩
      · rwa [List.getElem?_append_left before] at inserted
      · rwa [List.take_append_of_le_length (Nat.le_of_lt before)] at missing
      · obtain ⟨inside, _⟩ := List.getElem?_eq_some_iff.mp removed
        exact stays later above (by rwa [List.getElem?_append_left inside])
      · exact stays history.length before (by simp [removed])
    · refine .inr ⟨rfl, ?_, why, ?_⟩
      · rwa [List.take_left] at missing
      · simpa using inserted
  · rintro (⟨⟨⟨why, inserted⟩, missing, stays⟩, kept⟩ | ⟨rfl, missing, why, rfl⟩)
    · obtain ⟨bound, _⟩ := List.getElem?_eq_some_iff.mp inserted
      refine ⟨⟨why, ?_⟩, ?_, fun later above removed => ?_⟩
      · rwa [List.getElem?_append_left bound]
      · rwa [List.take_append_of_le_length (Nat.le_of_lt bound)]
      · by_cases inside : later < history.length
        · rw [List.getElem?_append_left inside] at removed
          exact stays later above removed
        · rw [List.getElem?_append_right (Nat.le_of_not_lt inside)] at removed
          obtain ⟨_, last⟩ := List.getElem?_eq_some_iff.mp removed
          rw [List.getElem_singleton] at last
          exact kept last
    · refine ⟨⟨why, by simp⟩, by rwa [List.take_left], fun later above removed => ?_⟩
      obtain ⟨bound, _⟩ := List.getElem?_eq_some_iff.mp removed
      rw [List.length_append, List.length_singleton] at bound
      omega

theorem arrived_lt (arrived : Arrived history directive place) : place < history.length := by
  obtain ⟨why, inserted⟩ := arrived.inserted
  exact (List.getElem?_eq_some_iff.mp inserted).1

theorem present_of_arrived (arrived : Arrived history directive place) :
    Present history directive := by
  induction history using List.reverseRecOn with
  | nil => exact absurd (arrived_lt arrived) (Nat.not_lt_zero _)
  | append_singleton history next ih =>
    rw [present_concat]
    rcases (arrived_concat _ _ _ _).mp arrived with ⟨before, kept⟩ | ⟨_, _, inserted⟩
    · exact .inr ⟨ih before, kept⟩
    · exact .inl inserted

-- A directive that is there does not arrive again.
theorem arrived_known (known : Present history directive)
    (arrived : Arrived (history ++ [next]) directive place) : Arrived history directive place := by
  rcases (arrived_concat _ _ _ _).mp arrived with ⟨before, _⟩ | ⟨_, missing, _⟩
  · exact before
  · exact absurd known missing

theorem arrived_new (missing : ¬ Present history directive)
    (arrived : Arrived (history ++ [next]) directive place) : place = history.length := by
  rcases (arrived_concat _ _ _ _).mp arrived with ⟨before, _⟩ | ⟨here, _⟩
  · exact absurd (present_of_arrived before) missing
  · exact here

theorem arrives_once (present : Present history directive) :
    ∃! place, Arrived history directive place := by
  induction history using List.reverseRecOn with
  | nil =>
    obtain ⟨why, found⟩ := present
    simp [last?] at found
  | append_singleton history next ih =>
    by_cases known : Present history directive
    · obtain ⟨place, before, only⟩ := ih known
      have kept : next ≠ .remove directive := by
        rintro rfl
        rcases (present_concat _ _ _).mp present with ⟨_, inserted⟩ | ⟨_, kept⟩
        · cases inserted
        · exact kept rfl
      refine ⟨place, (arrived_concat _ _ _ _).mpr (.inl ⟨before, kept⟩), fun other arrived => ?_⟩
      exact only other (arrived_known known arrived)
    · have inserted : ∃ why, next = .insert directive why := by
        rcases (present_concat _ _ _).mp present with inserted | ⟨before, _⟩
        · exact inserted
        · exact absurd before known
      refine ⟨history.length, (arrived_concat _ _ _ _).mpr (.inr ⟨rfl, known, inserted⟩), ?_⟩
      exact fun other arrived => arrived_new known arrived

def InOrder (history : List Change) (first second : String) : Prop :=
  ∀ i j, Arrived history first i → Arrived history second j → i < j

theorem inOrder_known (one : Present history first) (two : Present history second)
    (ordered : InOrder history first second) : InOrder (history ++ [next]) first second := by
  intro i j arrived later
  exact ordered i j (arrived_known one arrived) (arrived_known two later)

theorem inOrder_new (known : Present history first) (missing : ¬ Present history second) :
    InOrder (history ++ [next]) first second := by
  intro i j arrived later
  rw [arrived_new missing later]
  exact arrived_lt (arrived_known known arrived)

theorem after_inOrder (history : List Change) :
    (after history).directives.Pairwise (InOrder history) := by
  induction history using List.reverseRecOn with
  | nil => exact List.Pairwise.nil
  | append_singleton history next ih =>
    have still : (after history).directives.Pairwise (InOrder (history ++ [next])) :=
      ih.imp_of_mem fun one two => inOrder_known ((mem_after _ _).mp one) ((mem_after _ _).mp two)
    rw [after_concat]
    cases next with
    | insert new why =>
      simp only [change, directives_insert]
      split
      · exact still
      · rename_i missing
        rw [List.pairwise_append]
        refine ⟨still, List.pairwise_singleton _ _, fun first known second single => ?_⟩
        cases List.mem_singleton.mp single
        rw [mem_after] at known missing
        exact inOrder_new known missing
    | remove gone =>
      rw [change, remove_eq, directives_erase]
      exact still.filter _

theorem size_after (history : List Change) :
    (after history).size = {directive | Present history directive}.ncard := by
  have same : {directive | Present history directive} =
      ((after history).directives.toFinset : Set String) := by
    ext directive
    simp [mem_after]
  have distinct : (after history).directives.Nodup := (after history).distinct
  rw [same, Set.ncard_coe_finset, List.toFinset_card_of_nodup distinct]
  simp [size, directives]

theorem foldl_change_inserts (m : EntryMap) (entries : List Entry) :
    (entries.map fun entry => Change.insert entry.directive entry.why).foldl change m =
      entries.foldl insertEntry m := by
  rw [List.foldl_map]
  rfl

-- A map is told by the history of its changes: what is in it, in which order, and under which
-- justification. The last part is about maps that start from a list.
theorem ordered_after_history (history : List Change) :
    let m := after history
    m.directives.Nodup ∧
      (∀ directive, m.contains directive = true ↔ Present history directive) ∧
      (∀ directive why, m.get? directive = some why ↔
        last? history directive = some (.insert directive why)) ∧
      (∀ directive ∈ m.directives, ∃! place, Arrived history directive place) ∧
      m.directives.Pairwise (fun first second =>
        ∀ i j, Arrived history first i → Arrived history second j → i < j) ∧
      (∀ directive,
        (m.remove directive).1 = after (history ++ [.remove directive]) ∧
          (m.remove directive).1.entries =
            (m.entries.filter fun entry => entry.directive ≠ directive) ∧
          (m.remove directive).2 = m.get? directive) ∧
      m.size = {directive | Present history directive}.ncard ∧
      (∀ directive, m.contains directive = true ↔ directive ∈ m.directives) ∧
      (∀ directive why, m.get? directive = some why ↔ ⟨directive, why⟩ ∈ m.entries) ∧
      (m.isEmpty = true ↔ m.entries = []) ∧
      ∀ entries later, history = (entries.map fun entry =>
        Change.insert entry.directive entry.why) ++ later →
          m = later.foldl change (ofList entries) := by
  intro m
  refine ⟨m.distinct, contains_after history, get?_after history, ?_, after_inOrder history, ?_,
    size_after history, contains_iff m, get?_eq_some_iff m, List.isEmpty_iff, ?_⟩
  · intro directive member
    exact arrives_once ((mem_after _ _).mp member)
  · intro directive
    rw [after_concat]
    refine ⟨rfl, ?_, ?_⟩
    · rw [remove_eq]
      rfl
    · rw [remove_eq]
  · rintro entries later rfl
    simp only [m, after, List.foldl_append, foldl_change_inserts]
    rfl

-- A directive that is inserted again stays where it is; one that was removed comes back at the end.
example :
    (after [.insert "a" "1", .insert "b" "", .insert "a" "2"]).entries = [⟨"a", "2"⟩, ⟨"b", ""⟩] ∧
      (after [.insert "a" "1", .insert "b" "", .remove "a", .insert "a" "2"]).entries =
        [⟨"b", ""⟩, ⟨"a", "2"⟩] := by
  decide

end IncludeTidy.EntryMap
