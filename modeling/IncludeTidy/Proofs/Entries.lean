import Mathlib.Data.List.Count
import Mathlib.Data.List.Nodup
import IncludeTidy.Report.Entry

namespace IncludeTidy.EntryMap

variable {m : EntryMap} {entry : Entry} {entries : List Entry}

theorem contains_iff (m : EntryMap) (directive : String) :
    m.contains directive = true ↔ directive ∈ m.directives := by
  simp [contains, directives]

theorem isEmpty_eq_false_iff (m : EntryMap) :
    m.isEmpty = false ↔ ∃ directive, m.contains directive = true := by
  unfold isEmpty contains
  cases m.entries <;> simp

theorem mem_put (member : entry ∈ put directive why entries) :
    entry = ⟨directive, why⟩ ∨ entry ∈ entries := by
  induction entries with
  | nil => exact .inl (List.mem_singleton.mp member)
  | cons first rest ih =>
    rw [put] at member
    split at member
    · rcases List.mem_cons.mp member with new | old
      · exact .inl new
      · exact .inr (List.mem_cons_of_mem _ old)
    · rcases List.mem_cons.mp member with rfl | later
      · exact .inr List.mem_cons_self
      · rcases ih later with new | old
        · exact .inl new
        · exact .inr (List.mem_cons_of_mem _ old)

theorem mem_insert (member : entry ∈ (m.insert directive why).entries) :
    entry = ⟨directive, why⟩ ∨ entry ∈ m.entries := mem_put member

theorem mem_put_self (directive why : String) (entries : List Entry) :
    ⟨directive, why⟩ ∈ put directive why entries := by
  induction entries with
  | nil => exact List.mem_cons_self
  | cons first rest ih =>
    rw [put]
    split
    · exact List.mem_cons_self
    · exact List.mem_cons_of_mem _ ih

theorem mem_insert_self (m : EntryMap) (directive why : String) :
    ⟨directive, why⟩ ∈ (m.insert directive why).entries := mem_put_self directive why m.entries

@[simp]
theorem contains_insert (m : EntryMap) (new why directive : String) :
    (m.insert new why).contains directive = true ↔
      directive = new ∨ m.contains directive = true := by
  rw [contains_iff, contains_iff]
  unfold directives insert
  rw [put_directives]
  split
  · rename_i known
    constructor
    · exact .inr
    · rintro (rfl | old)
      · exact known
      · exact old
  · simp [or_comm]

theorem mem_inserted (member : entry ∈ (entries.foldl insertEntry m).entries) :
    entry ∈ m.entries ∨ entry ∈ entries := by
  induction entries generalizing m with
  | nil => exact .inl member
  | cons first rest ih =>
    rcases ih member with old | later
    · rcases mem_insert old with rfl | old
      · exact .inr List.mem_cons_self
      · exact .inl old
    · exact .inr (List.mem_cons_of_mem _ later)

@[simp]
theorem contains_inserted (m : EntryMap) (entries : List Entry) (directive : String) :
    (entries.foldl insertEntry m).contains directive = true ↔
      m.contains directive = true ∨ ∃ entry ∈ entries, entry.directive = directive := by
  induction entries generalizing m with
  | nil => simp
  | cons first rest ih =>
    simp only [List.foldl_cons, ih, insertEntry, contains_insert, List.mem_cons,
      exists_eq_or_imp]
    constructor
    · rintro ((same | old) | later)
      · exact .inr (.inl same.symm)
      · exact .inl old
      · exact .inr (.inr later)
    · rintro (old | same | later)
      · exact .inl (.inr old)
      · exact .inl (.inl same.symm)
      · exact .inr later

@[simp]
theorem contains_ofList (entries : List Entry) (directive : String) :
    (ofList entries).contains directive = true ↔
      ∃ entry ∈ entries, entry.directive = directive := by
  have known := contains_inserted empty entries directive
  rwa [or_iff_right (by simp [empty, contains])] at known

@[simp]
theorem contains_erase (m : EntryMap) (gone directive : String) :
    (m.erase gone).contains directive = true ↔
      m.contains directive = true ∧ directive ≠ gone := by
  rw [contains_iff, contains_iff]
  simp only [directives, erase, List.mem_map, List.mem_filter, decide_eq_true_eq]
  constructor
  · rintro ⟨entry, ⟨member, other⟩, rfl⟩
    exact ⟨⟨entry, member, rfl⟩, other⟩
  · rintro ⟨⟨entry, member, rfl⟩, other⟩
    exact ⟨entry, ⟨member, other⟩, rfl⟩

theorem erase_absent (absent : m.contains directive = false) : m.erase directive = m := by
  refine ext (List.filter_eq_self.mpr fun entry member => ?_)
  unfold contains at absent
  rw [List.any_eq_false] at absent
  simpa using absent entry member

theorem count_directives (m : EntryMap) (directive : String) :
    m.directives.count directive = if m.contains directive then 1 else 0 := by
  have listed : m.directives.Nodup := m.distinct
  rw [List.Nodup.count listed]
  simp only [contains_iff]

theorem put_fresh {entries : List Entry} (fresh : directive ∉ entries.map Entry.directive)
    (why : String) : put directive why entries = entries ++ [⟨directive, why⟩] := by
  induction entries with
  | nil => rfl
  | cons entry rest ih =>
    rw [List.map_cons, List.mem_cons, not_or] at fresh
    simp [put, Ne.symm fresh.1, ih fresh.2]

theorem foldl_insertEntry_fresh (m : EntryMap) (entries : List Entry)
    (distinct : ((m.entries ++ entries).map Entry.directive).Nodup) :
    (entries.foldl insertEntry m).entries = m.entries ++ entries := by
  induction entries generalizing m with
  | nil => simp
  | cons entry rest ih =>
    have fresh : entry.directive ∉ m.entries.map Entry.directive := by
      rw [List.map_append, List.nodup_append] at distinct
      exact fun member => distinct.2.2 _ member _ (by simp) rfl
    have put : (m.insertEntry entry).entries = m.entries ++ [entry] := put_fresh fresh entry.why
    rw [List.foldl_cons, ih _ (by simpa [put] using distinct)]
    simp [put]

theorem ofList_entries (m : EntryMap) : ofList m.entries = m :=
  ext (foldl_insertEntry_fresh empty m.entries m.distinct)

theorem insert_fresh (fresh : m.contains directive = false) (why : String) :
    (m.insert directive why).entries = m.entries ++ [⟨directive, why⟩] := by
  refine put_fresh (fun member => ?_) why
  rw [(contains_iff m directive).mpr member] at fresh
  cases fresh

theorem directives_insert (m : EntryMap) (directive why : String) :
    (m.insert directive why).directives =
      if directive ∈ m.directives then m.directives else m.directives ++ [directive] :=
  put_directives directive why m.entries

theorem mem_directives_insert (m : EntryMap) (directive why : String) :
    directive ∈ (m.insert directive why).directives := by
  rw [directives_insert]
  split
  · assumption
  · exact List.mem_append_right _ List.mem_cons_self

@[simp]
theorem directives_erase (m : EntryMap) (gone : String) :
    (m.erase gone).directives = m.directives.filter fun directive => directive ≠ gone := by
  unfold directives erase
  rw [List.filter_map]
  rfl

theorem get?_eq_some_iff (m : EntryMap) (directive why : String) :
    m.get? directive = some why ↔ ⟨directive, why⟩ ∈ m.entries := by
  unfold get?
  constructor
  · intro found
    obtain ⟨entry, first, rfl⟩ := Option.map_eq_some_iff.mp found
    have named : entry.directive = directive := by simpa using List.find?_some first
    subst named
    exact List.mem_of_find?_eq_some first
  · intro member
    cases first : m.entries.find? fun entry => entry.directive = directive with
    | none =>
      have other := List.find?_eq_none.mp first _ member
      simp at other
    | some entry =>
      have named : entry.directive = directive := by simpa using List.find?_some first
      have known := List.mem_of_find?_eq_some first
      rw [List.inj_on_of_nodup_map m.distinct known member named]
      rfl

theorem contains_iff_get? (m : EntryMap) (directive : String) :
    m.contains directive = true ↔ ∃ why, m.get? directive = some why := by
  simp only [get?_eq_some_iff, contains_iff, directives, List.mem_map]
  constructor
  · rintro ⟨entry, member, rfl⟩
    exact ⟨entry.why, member⟩
  · rintro ⟨why, member⟩
    exact ⟨_, member, rfl⟩

theorem find?_put (new why directive : String) (entries : List Entry) :
    (put new why entries).find? (fun entry => entry.directive = directive) =
      if directive = new then some ⟨new, why⟩
      else entries.find? fun entry => entry.directive = directive := by
  induction entries with
  | nil => by_cases same : directive = new <;> simp [put, same, eq_comm]
  | cons first rest ih =>
    rw [put]
    by_cases here : first.directive = new
    · by_cases same : directive = new <;> simp [here, same, eq_comm]
    · rw [if_neg here, List.find?_cons, ih, List.find?_cons]
      by_cases same : directive = new
      · simp [same, here]
      · simp [same]

theorem get?_insert (m : EntryMap) (new why directive : String) :
    (m.insert new why).get? directive =
      if directive = new then some why else m.get? directive := by
  unfold get? insert
  rw [find?_put]
  split <;> rfl

theorem get?_erase (m : EntryMap) (gone directive : String) :
    (m.erase gone).get? directive = if directive = gone then none else m.get? directive := by
  refine Option.ext fun why => ?_
  rw [get?_eq_some_iff]
  by_cases same : directive = gone
  · simp [erase, same]
  · simp [erase, same, get?_eq_some_iff]

-- The directive stands at one place only, so what is left of the list once that place is taken out
-- does not have it.
theorem eraseIdx_found (distinct : (entries.map Entry.directive).Nodup)
    (found : (entries.findIdx? fun entry => entry.directive = directive) = some place) :
    (entries.eraseIdx place = entries.filter fun entry => entry.directive ≠ directive) ∧
      entries[place]? = entries.find? fun entry => entry.directive = directive := by
  induction entries generalizing place with
  | nil => cases found
  | cons first rest ih =>
    rw [List.map_cons, List.nodup_cons] at distinct
    rw [List.findIdx?_cons] at found
    by_cases here : first.directive = directive
    · have others : ∀ entry ∈ rest, entry.directive ≠ directive := by
        intro entry member same
        exact distinct.1 (List.mem_map.mpr ⟨entry, member, same.trans here.symm⟩)
      simp only [here, decide_true, if_true] at found
      cases found
      refine ⟨?_, by simp [here]⟩
      rw [List.eraseIdx_cons_zero, List.filter_cons_of_neg (by simp [here])]
      exact (List.filter_eq_self.mpr fun entry member => by simpa using others entry member).symm
    · simp only [here, decide_false, Bool.false_eq_true, if_false] at found
      obtain ⟨before, later, rfl⟩ := Option.map_eq_some_iff.mp found
      obtain ⟨left_, there⟩ := ih distinct.2 later
      simp [here, left_, there]

theorem remove_eq (m : EntryMap) (directive : String) :
    m.remove directive = (m.erase directive, m.get? directive) := by
  unfold remove
  cases found : m.entries.findIdx? fun entry => entry.directive = directive with
  | none =>
    have absent : m.contains directive = false := by
      rw [List.findIdx?_eq_none_iff] at found
      simpa [contains] using found
    have unknown : m.get? directive = none := by
      rw [List.findIdx?_eq_none_iff] at found
      simpa [get?] using found
    rw [erase_absent absent, unknown]
  | some place =>
    obtain ⟨left_, there⟩ := eraseIdx_found m.distinct found
    refine Prod.ext (ext left_) ?_
    exact congrArg (Option.map Entry.why) there

end IncludeTidy.EntryMap
