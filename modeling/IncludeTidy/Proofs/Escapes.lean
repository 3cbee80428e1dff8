import IncludeTidy.Text.Search

namespace IncludeTidy.Text

-- Every place at which the word stands in the text: what is before it, and what is behind it.
def places (word : List Char) : List Char → List (List Char × List Char)
  | [] => (after? word []).toList.map ([], ·)
  | c :: rest =>
    (after? word (c :: rest)).toList.map ([], ·) ++
      (places word rest).map (Prod.map (c :: ·) id)

-- The text with the words taken out wherever they stand, from its start on.
def without (words : List (List Char)) : List Char → List Char
  | [] => []
  | c :: rest =>
    match words.find? fun word => word.isPrefixOf (c :: rest) with
    | some word => without words (rest.drop (word.length - 1))
    | none => c :: without words rest
termination_by cs => cs.length
decreasing_by
  · rw [List.length_drop, List.length_cons]
    omega
  · exact Nat.lt_succ_self _

-- Words that open with a character which they hold nowhere else, and of which none begins another.
structure Escapes (escape : Char) (words : List (List Char)) : Prop where
  opens : ∀ word ∈ words, word.head? = some escape ∧ escape ∉ word.tail
  apart : ∀ word ∈ words, ∀ other ∈ words, word <+: other → word = other

-- A text that holds an escape character only where one of the words opens.
inductive Whole (escape : Char) (words : List (List Char)) : List Char → Prop where
  | nil : Whole escape words []
  | text (free : escape ∉ piece) (rest : Whole escape words cs) : Whole escape words (piece ++ cs)
  | word (member : word ∈ words) (rest : Whole escape words cs) : Whole escape words (word ++ cs)

variable {escape : Char} {words : List (List Char)} {word other piece cs before after : List Char}

theorem mem_place : (before, after) ∈ (after? word cs).toList.map ([], ·) ↔
    before = [] ∧ cs = word ++ after := by
  simp only [List.mem_map, Option.mem_toList, after?_eq_some_iff, Prod.mk.injEq]
  constructor
  · rintro ⟨_, joined, rfl, rfl⟩
    exact ⟨rfl, joined⟩
  · rintro ⟨rfl, joined⟩
    exact ⟨after, joined, rfl, rfl⟩

theorem mem_places : (before, after) ∈ places word cs ↔ cs = before ++ word ++ after := by
  induction cs generalizing before with
  | nil =>
    simp only [places, mem_place, List.append_assoc, List.nil_eq_append_iff,
      List.append_eq_nil_iff]
  | cons c rest ih =>
    rw [places, List.mem_append, mem_place]
    cases before with
    | nil => simp [Prod.map]
    | cons b before =>
      simp only [reduceCtorEq, false_and, false_or, List.mem_map, Prod.exists, Prod.map, id,
        Prod.mk.injEq, List.cons.injEq, List.cons_append]
      constructor
      · rintro ⟨_, _, member, ⟨rfl, rfl⟩, rfl⟩
        exact ⟨rfl, ih.mp member⟩
      · rintro ⟨rfl, joined⟩
        exact ⟨before, after, ih.mpr joined, ⟨rfl, rfl⟩, rfl⟩

theorem escapes_opened (escapes : Escapes escape words) (member : word ∈ words) :
    ∃ tail, word = escape :: tail ∧ escape ∉ tail := by
  obtain ⟨opens, once⟩ := escapes.opens word member
  cases word with
  | nil => cases opens
  | cons c tail =>
    cases opens
    exact ⟨tail, rfl, once⟩

theorem after?_other (escapes : Escapes escape words) (member : word ∈ words) (other : c ≠ escape) :
    after? word (c :: rest) = none := by
  obtain ⟨tail, rfl, _⟩ := escapes_opened escapes member
  rw [after?, if_neg (Ne.symm other)]

theorem places_text (escapes : Escapes escape words) (member : word ∈ words)
    (free : escape ∉ piece) (rest : List Char) :
    places word (piece ++ rest) = (places word rest).map (Prod.map (piece ++ ·) id) := by
  induction piece with
  | nil => exact (List.map_id _).symm
  | cons c piece ih =>
    rw [List.mem_cons, not_or] at free
    rw [List.cons_append, places, after?_other escapes member (Ne.symm free.1), ih free.2]
    simp only [Option.toList_none, List.map_nil, List.nil_append, List.map_map]
    rfl

theorem places_nil (escapes : Escapes escape words) (member : word ∈ words) :
    places word [] = [] := by
  obtain ⟨tail, rfl, _⟩ := escapes_opened escapes member
  rfl

theorem places_free (escapes : Escapes escape words) (member : word ∈ words)
    (free : escape ∉ piece) : places word piece = [] := by
  have nowhere := places_text escapes member free []
  rwa [List.append_nil, places_nil escapes member] at nowhere

theorem same_of_begins (escapes : Escapes escape words) (member : word ∈ words)
    (memberToo : other ∈ words) (begins : word <+: other ++ rest) : word = other := by
  rcases List.prefix_or_prefix_of_prefix begins (List.prefix_append other rest) with short | long
  · exact escapes.apart word member other memberToo short
  · exact (escapes.apart other memberToo word member long).symm

theorem after?_word (escapes : Escapes escape words) (member : word ∈ words)
    (memberToo : other ∈ words) (rest : List Char) :
    after? word (other ++ rest) = if word = other then some rest else none := by
  split
  · rename_i same
    rw [same]
    exact after?_eq_some_iff.mpr rfl
  · rename_i different
    rw [Option.eq_none_iff_forall_ne_some]
    intro later found
    apply different
    exact same_of_begins escapes member memberToo ⟨later, (after?_eq_some_iff.mp found).symm⟩

theorem places_word (escapes : Escapes escape words) (member : word ∈ words)
    (memberToo : other ∈ words) (rest : List Char) :
    places word (other ++ rest) =
      (if word = other then [([], rest)] else []) ++
        (places word rest).map (Prod.map (other ++ ·) id) := by
  have here := after?_word escapes member memberToo rest
  obtain ⟨tail, rfl, once⟩ := escapes_opened escapes memberToo
  rw [List.cons_append] at here ⊢
  rw [places, here, places_text escapes member once, List.map_map]
  congr 1
  split <;> rfl

theorem without_text (escapes : Escapes escape words) (free : escape ∉ piece) (rest : List Char) :
    without words (piece ++ rest) = piece ++ without words rest := by
  induction piece with
  | nil => rfl
  | cons c piece ih =>
    rw [List.mem_cons, not_or] at free
    have nothing : (words.find? fun word => word.isPrefixOf (c :: (piece ++ rest))) = none := by
      rw [List.find?_eq_none]
      intro word member begins
      obtain ⟨tail, rfl, _⟩ := escapes_opened escapes member
      exact free.1 (List.cons_prefix_cons.mp (List.isPrefixOf_iff_prefix.mp begins)).1
    rw [List.cons_append, without, nothing, ih free.2]
    rfl

theorem without_word (escapes : Escapes escape words) (member : word ∈ words) (rest : List Char) :
    without words (word ++ rest) = without words rest := by
  have found : (words.find? fun other => other.isPrefixOf (word ++ rest)) = some word := by
    cases first : words.find? fun other => other.isPrefixOf (word ++ rest) with
    | none =>
      refine absurd ?_ (List.find?_eq_none.mp first word member)
      exact List.isPrefixOf_iff_prefix.mpr (List.prefix_append word rest)
    | some other =>
      have begins := List.find?_some first
      rw [same_of_begins escapes (List.mem_of_find?_eq_some first) member
        (List.isPrefixOf_iff_prefix.mp begins)]
  obtain ⟨tail, rfl, _⟩ := escapes_opened escapes member
  rw [List.cons_append] at found ⊢
  rw [without, found]
  simp

theorem whole_text (free : escape ∉ piece) : Whole escape words piece := by
  have whole : Whole escape words (piece ++ []) := .text free .nil
  rwa [List.append_nil] at whole

theorem places_append (escapes : Escapes escape words) (member : word ∈ words)
    (whole : Whole escape words cs) (rest : List Char) :
    places word (cs ++ rest) =
      (places word cs).map (Prod.map id (· ++ rest)) ++
        (places word rest).map (Prod.map (cs ++ ·) id) := by
  induction whole with
  | nil =>
    rw [places_nil escapes member]
    exact (List.map_id _).symm
  | text free _ ih =>
    rw [List.append_assoc, places_text escapes member free, places_text escapes member free, ih]
    simp [Prod.map, Function.comp_def]
  | word memberToo _ ih =>
    rw [List.append_assoc, places_word escapes member memberToo,
      places_word escapes member memberToo, ih]
    split <;> simp [Prod.map, Function.comp_def]

theorem without_append (escapes : Escapes escape words) (whole : Whole escape words cs)
    (rest : List Char) : without words (cs ++ rest) = without words cs ++ without words rest := by
  induction whole with
  | nil => simp [without]
  | text free _ ih => simp [without_text escapes free, ih]
  | word member _ ih => simp [without_word escapes member, ih]

theorem mem_places_append (escapes : Escapes escape words) (member : word ∈ words)
    (whole : Whole escape words cs) :
    (before, after) ∈ places word (cs ++ rest) ↔
      (∃ outer, (before, outer) ∈ places word cs ∧ after = outer ++ rest) ∨
        ∃ inner, before = cs ++ inner ∧ (inner, after) ∈ places word rest := by
  rw [places_append escapes member whole, List.mem_append, List.mem_map, List.mem_map]
  constructor
  · rintro (⟨⟨_, outer⟩, found, same⟩ | ⟨⟨inner, _⟩, found, same⟩)
    · cases same
      exact .inl ⟨outer, found, rfl⟩
    · cases same
      exact .inr ⟨inner, rfl, found⟩
  · rintro (⟨outer, found, rfl⟩ | ⟨inner, rfl, found⟩)
    · exact .inl ⟨_, found, rfl⟩
    · exact .inr ⟨_, found, rfl⟩

-- No word stands across the border between two pieces.
theorem mem_places_flatMap (escapes : Escapes escape words) (member : word ∈ words)
    {written : α → List Char} {items : List α}
    (whole : ∀ item ∈ items, Whole escape words (written item)) :
    (before, after) ∈ places word (items.flatMap written) ↔
      ∃ earlier item later inner outer, items = earlier ++ item :: later ∧
        (inner, outer) ∈ places word (written item) ∧
        before = earlier.flatMap written ++ inner ∧ after = outer ++ later.flatMap written := by
  induction items generalizing before with
  | nil => simp [places_nil escapes member]
  | cons first rest ih =>
    rw [List.forall_mem_cons] at whole
    rw [List.flatMap_cons, mem_places_append escapes member whole.1]
    constructor
    · rintro (⟨outer, found, rfl⟩ | ⟨front, rfl, found⟩)
      · exact ⟨[], first, rest, before, outer, rfl, found, rfl, rfl⟩
      · obtain ⟨earlier, item, later, inner, outer, rfl, inside, rfl, rfl⟩ := (ih whole.2).mp found
        refine ⟨first :: earlier, item, later, inner, outer, rfl, inside, ?_, rfl⟩
        rw [List.flatMap_cons, List.append_assoc]
    · rintro ⟨earlier, item, later, inner, outer, parts, inside, rfl, rfl⟩
      cases earlier with
      | nil =>
        cases parts
        exact .inl ⟨outer, inside, rfl⟩
      | cons _ earlier =>
        cases parts
        refine .inr ⟨earlier.flatMap written ++ inner, ?_, ?_⟩
        · rw [List.flatMap_cons, List.append_assoc]
        · exact (ih whole.2).mpr ⟨earlier, item, later, inner, outer, rfl, inside, rfl, rfl⟩

-- A word that stands once in each of the chosen pieces, and in no other.
theorem length_places_flatMap (escapes : Escapes escape words) (member : word ∈ words)
    {written : α → List Char} {chosen : α → Bool} {items : List α}
    (whole : ∀ item ∈ items, Whole escape words (written item))
    (once : ∀ item ∈ items, (places word (written item)).length = (chosen item).toNat) :
    (places word (items.flatMap written)).length = items.countP chosen := by
  induction items with
  | nil => simp [places_nil escapes member]
  | cons first rest ih =>
    rw [List.forall_mem_cons] at whole once
    rw [List.flatMap_cons, places_append escapes member whole.1, List.length_append,
      List.length_map, List.length_map, once.1, ih whole.2 once.2, List.countP_cons, Nat.add_comm]
    cases chosen first <;> rfl

theorem without_flatMap (escapes : Escapes escape words) {written : α → List Char}
    {items : List α} (whole : ∀ item ∈ items, Whole escape words (written item)) :
    without words (items.flatMap written) =
      items.flatMap fun item => without words (written item) := by
  induction items with
  | nil => simp [without]
  | cons first rest ih =>
    rw [List.forall_mem_cons] at whole
    simp [without_append escapes whole.1, ih whole.2]

end IncludeTidy.Text
