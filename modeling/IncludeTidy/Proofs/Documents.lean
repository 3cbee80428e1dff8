import IncludeTidy.Proofs.Printed
import IncludeTidy.Summary

namespace IncludeTidy

namespace Json

-- An object with these fields, without those that have no value.
def ofFields (fields : List (String × Option Json)) : Json :=
  .present (fields.map fun (name, value?) => value?.map fun value => (name, value))

-- The members of such an object, as its reader meets them.
def valued (fields : List (String × Option Json)) : List (Option String × Json) :=
  fields.filterMap fun (name, value?) => value?.map fun value => (some name, value)

theorem ofFields_eq (fields : List (String × Option Json)) :
    ofFields fields = .object (valued fields) := by
  simp only [ofFields, valued, present, ofMembers, List.filterMap_map, List.map_filterMap,
    Function.comp_def, id_eq, Option.map_map]

theorem filter_absent {fields : List (String × Option Json)} (absent : name ∉ fields.map Prod.fst) :
    (valued fields).filter (fun member => member.1 = some name) = [] := by
  refine List.filter_eq_nil_iff.mpr fun member listed => ?_
  obtain ⟨⟨other, value?⟩, field, given⟩ := List.mem_filterMap.mp listed
  obtain ⟨value, rfl, rfl⟩ := Option.map_eq_some_iff.mp given
  have differs : other ≠ name := fun same => absent (same ▸ List.mem_map_of_mem field)
  simpa using differs

-- No name stands twice, so a field is met once, or never if it has no value.
theorem filter_present {fields : List (String × Option Json)}
    (distinct : (fields.map Prod.fst).Nodup) (field : (name, value?) ∈ fields) :
    (valued fields).filter (fun member => member.1 = some name) =
      value?.toList.map fun value => (some name, value) := by
  induction fields with
  | nil => cases field
  | cons first fields ih =>
    obtain ⟨firstName, firstValue?⟩ := first
    obtain ⟨fresh, others⟩ := List.nodup_cons.mp distinct
    rcases List.mem_cons.mp field with same | further
    · cases same
      have rest := filter_absent fresh
      unfold valued at rest ⊢
      cases value? <;> simp [rest]
    · have differs : firstName ≠ name := by
        rintro rfl
        exact fresh (List.mem_map.mpr ⟨_, further, rfl⟩)
      rw [← ih others further]
      unfold valued
      cases firstValue? <;> simp [differs]

theorem mapM_eq_some_map {f : α → Option β} {g : α → β} {items : List α}
    (all : ∀ item ∈ items, f item = some (g item)) : items.mapM f = some (items.map g) := by
  induction items with
  | nil => rfl
  | cons item items ih =>
    obtain ⟨first, others⟩ := List.forall_mem_cons.mp all
    rw [List.mapM_cons, first, ih others]
    rfl

theorem fields?_ofFields (fields : List (String × Option Json))
    (distinct : (fields.map Prod.fst).Nodup) :
    (ofFields fields).fields? (fields.map Prod.fst) = some (fields.map Prod.snd) := by
  have named : (valued fields).all (fun member => member.1.isSome) = true := by
    refine List.all_eq_true.mpr fun member listed => ?_
    obtain ⟨_, _, given⟩ := List.mem_filterMap.mp listed
    obtain ⟨_, _, rfl⟩ := Option.map_eq_some_iff.mp given
    rfl
  rw [ofFields_eq, fields?, if_pos named, List.mapM_map]
  refine mapM_eq_some_map fun field member => ?_
  obtain ⟨name, value?⟩ := field
  simp only [Function.comp_apply, filter_present distinct member]
  cases value? <;> rfl

@[simp]
theorem text?_text (value : String) : (text value).text? = some value := rfl

theorem eq_of_leftOut {empty : Bool} {written : Json}
    (given : (if empty then none else some written) = some value) : value = written := by
  cases empty with
  | true => cases given
  | false => exact (Option.some.inj given).symm

theorem orElse_leftOut {default value : α} {read? : Json → Option α} {empty : Bool}
    (usual : empty = true → value = default) (reads : read? written = some value) :
    orElse default read? (if empty then none else some written) = some value := by
  cases empty with
  | true => rw [usual rfl]; rfl
  | false => exact reads

theorem list?_array {read? : Json → Option α} {write : α → Json}
    (reads : ∀ item, read? (write item) = some item) (items : List α) :
    list? read? (.array (items.map write)) = some items := by
  have all : ∀ item ∈ items, (read? ∘ write) item = some (id item) := fun item _ => reads item
  rw [list?, items?, Option.bind_some, List.mapM_map, mapM_eq_some_map all, List.map_id]

theorem natural?_natural (within : n ≤ bound) : natural? bound (natural n) = some n := by
  have digits : (Nat.toDigits 10 n).all Char.isDigit = true :=
    List.all_eq_true.mpr fun c => Nat.isDigit_of_mem_toDigits (by decide) (by decide)
  have value : Nat.ofDigitChars 10 (Nat.toDigits 10 n) 0 = n :=
    Nat.ofDigitChars_toDigits (by decide) (by decide)
  simp [natural, natural?, digits, value, within]

theorem natural?_le (read : natural? bound value = some n) : n ≤ bound := by
  unfold natural? at read
  split at read
  · dsimp only at read
    split at read
    · rename_i fits
      cases read
      simpa using (Bool.and_eq_true_iff.mp fits).2
    · cases read
  · cases read

theorem plain_ofFields {fields : List (String × Option Json)}
    (all : ∀ field ∈ fields, ∀ value, field.2 = some value → Plain value) :
    Plain (ofFields fields) := by
  refine .ofMembers _ fun member listed => ?_
  obtain ⟨member?, written, rfl⟩ := List.mem_filterMap.mp listed
  obtain ⟨field, given, same⟩ := List.mem_map.mp written
  obtain ⟨value, present, rfl⟩ := Option.map_eq_some_iff.mp same
  exact all field given value present

end Json

namespace Entry

def briefFields (entry : Entry) : List (String × Option Json) :=
  [("directive", some (.text entry.directive)),
    ("why", if entry.why.isEmpty then none else some (.text entry.why))]

theorem toBriefJson_eq (entry : Entry) : entry.toBriefJson = .ofFields entry.briefFields := by
  unfold toBriefJson Json.ofFields briefFields
  cases entry.why.isEmpty <;> rfl

theorem plain_toJson (entry : Entry) : Json.Plain entry.toJson :=
  .ofMembers _ (by simp [Json.Plain.text])

theorem plain_toBriefJson (entry : Entry) : Json.Plain entry.toBriefJson := by
  rw [toBriefJson_eq]
  refine Json.plain_ofFields fun field member value given => ?_
  simp only [briefFields, List.mem_cons, List.not_mem_nil, or_false] at member
  rcases member with rfl | rfl
  · cases given
    exact .text _
  · rw [Json.eq_of_leftOut given]
    exact .text _

theorem ofJson?_toJson (entry : Entry) : ofJson? entry.toJson = some entry := rfl

theorem ofJson?_toBriefJson (entry : Entry) : ofJson? entry.toBriefJson = some entry := by
  have fields : entry.toBriefJson.fields? ["directive", "why"] =
      some (entry.briefFields.map Prod.snd) := by
    rw [toBriefJson_eq]
    exact Json.fields?_ofFields entry.briefFields (by simp [briefFields])
  have why : Json.orElse "" Json.text?
      (if entry.why.isEmpty then none else some (.text entry.why)) = some entry.why :=
    Json.orElse_leftOut (fun empty => String.isEmpty_iff.mp empty) rfl
  simp only [briefFields, List.map_cons, List.map_nil] at fields
  simp only [ofJson?, fields, bind, Option.bind_some, Json.text?_text, why]
  rfl

theorem ofText?_toText (entry : Entry) : ofText? entry.toText = some entry := by
  have parsed : Json.parse? (entry.toText ++ "") = some entry.toJson :=
    Json.parse?_printed Json.blank_compact entry.plain_toJson (by simp)
  rw [String.append_empty] at parsed
  rw [ofText?, parsed, Option.bind_some, ofJson?_toJson]

end Entry

namespace FileChanges

def listed? (entries : List Entry) : Option Json :=
  if entries.isEmpty then none else some (.array (entries.map Entry.toBriefJson))

def fields (changes : FileChanges) : List (String × Option Json) :=
  [("file", some (.text changes.file)), ("add", listed? changes.add),
    ("remove", listed? changes.remove)]

theorem toJson_eq (changes : FileChanges) : changes.toJson = .ofFields changes.fields := by
  unfold toJson Json.ofFields fields listed?
  dsimp only
  cases changes.add.isEmpty <;> cases changes.remove.isEmpty <;> rfl

theorem plain_entries (entries : List Entry) :
    Json.Plain (.array (entries.map Entry.toBriefJson)) :=
  .array _ (List.forall_mem_map.mpr fun entry _ => entry.plain_toBriefJson)

theorem plain_toJson (changes : FileChanges) : Json.Plain changes.toJson := by
  rw [toJson_eq]
  refine Json.plain_ofFields fun field member value given => ?_
  simp only [fields, List.mem_cons, List.not_mem_nil, or_false] at member
  rcases member with rfl | rfl | rfl
  · cases given
    exact .text _
  · rw [Json.eq_of_leftOut given]
    exact plain_entries _
  · rw [Json.eq_of_leftOut given]
    exact plain_entries _

theorem orElse_entries (entries : List Entry) :
    Json.orElse [] (Json.list? Entry.ofJson?) (listed? entries) = some entries :=
  Json.orElse_leftOut (fun empty => List.isEmpty_iff.mp empty)
    (Json.list?_array Entry.ofJson?_toBriefJson entries)

theorem ofJson?_toJson (changes : FileChanges) : ofJson? changes.toJson = some changes := by
  have fields : changes.toJson.fields? ["file", "add", "remove"] =
      some (changes.fields.map Prod.snd) := by
    rw [toJson_eq]
    exact Json.fields?_ofFields changes.fields (by simp [FileChanges.fields])
  simp only [FileChanges.fields, List.map_cons, List.map_nil] at fields
  simp only [ofJson?, fields, bind, Option.bind_some, Json.text?_text, orElse_entries]
  rfl

end FileChanges

theorem Status.ofJson?_name (status : Status) :
    Status.ofJson? (.text status.name) = some status := by
  cases status <;> rfl

namespace Verdict

theorem plain_toJson (verdict : Verdict) : Json.Plain verdict.toJson :=
  .ofMembers _ (by simp [Json.Plain.text, Json.Plain.natural])

theorem ofJson?_toJson {verdict : Verdict} (within : verdict.filesChanged ≤ greatestCount) :
    ofJson? verdict.toJson = some verdict := by
  have fields : verdict.toJson.fields? ["status", "files_changed"] =
      some [some (.text verdict.status.name), some (.natural verdict.filesChanged)] := rfl
  simp only [ofJson?, fields, bind, Option.bind_some, Status.ofJson?_name,
    Json.natural?_natural within]
  rfl

theorem ofJson?_le {value : Json} {verdict : Verdict} (read : ofJson? value = some verdict) :
    verdict.filesChanged ≤ greatestCount := by
  unfold ofJson? at read
  obtain ⟨fields, _, rest⟩ := Option.bind_eq_some_iff.mp read
  split at rest
  · obtain ⟨status, _, rest⟩ := Option.bind_eq_some_iff.mp rest
    obtain ⟨count, counted, made⟩ := Option.bind_eq_some_iff.mp rest
    obtain ⟨number, _, within⟩ := Option.bind_eq_some_iff.mp counted
    cases made
    exact Json.natural?_le within
  · cases rest

end Verdict

namespace Summary

theorem plain_toJson (summary : Summary) : Json.Plain summary.toJson := by
  have files : Json.Plain (.array (summary.files.map FileChanges.toJson)) :=
    .array _ (List.forall_mem_map.mpr fun changes _ => changes.plain_toJson)
  exact .ofMembers _ (by simp [Json.Plain.text, files, summary.verdict.plain_toJson])

theorem ofJson?_toJson {summary : Summary}
    (within : summary.verdict.filesChanged ≤ Verdict.greatestCount) :
    ofJson? summary.toJson = some summary := by
  have fields : summary.toJson.fields? ["schema", "files", "verdict"] =
      some [some (.text summary.schema), some (.array (summary.files.map FileChanges.toJson)),
        some summary.verdict.toJson] := rfl
  have files : Json.orElse [] (Json.list? FileChanges.ofJson?)
      (some (.array (summary.files.map FileChanges.toJson))) = some summary.files :=
    Json.list?_array FileChanges.ofJson?_toJson summary.files
  simp only [ofJson?, fields, bind, Option.bind_some, Json.text?_text, files,
    Verdict.ofJson?_toJson within]
  rfl

theorem ofJson?_le {value : Json} {summary : Summary} (read : ofJson? value = some summary) :
    summary.verdict.filesChanged ≤ Verdict.greatestCount := by
  unfold ofJson? at read
  obtain ⟨fields, _, rest⟩ := Option.bind_eq_some_iff.mp read
  split at rest
  · obtain ⟨schema, _, rest⟩ := Option.bind_eq_some_iff.mp rest
    obtain ⟨files, _, rest⟩ := Option.bind_eq_some_iff.mp rest
    obtain ⟨verdict, judged, made⟩ := Option.bind_eq_some_iff.mp rest
    obtain ⟨document, _, accepted⟩ := Option.bind_eq_some_iff.mp judged
    cases made
    exact Verdict.ofJson?_le accepted
  · cases rest

theorem read?_render {summary : Summary}
    (within : summary.verdict.filesChanged ≤ Verdict.greatestCount) :
    read? summary.render = some summary := by
  have parsed : Json.parse? summary.render = some summary.toJson :=
    Json.parse?_printed Json.blank_lines summary.plain_toJson (by simp [Json.isGap])
  rw [read?, parsed, Option.bind_some, ofJson?_toJson within]

-- Every count that can be read can be written and read again.
theorem document_round_trips :
    (∀ summary : Summary, summary.verdict.filesChanged ≤ Verdict.greatestCount →
      read? summary.render = some summary) ∧
    ∀ (text : String) (summary : Summary), read? text = some summary →
      ∃ again, read? summary.render = some again ∧ again.render = summary.render := by
  refine ⟨fun summary within => read?_render within, fun text summary read => ?_⟩
  obtain ⟨value, _, accepted⟩ := Option.bind_eq_some_iff.mp read
  exact ⟨summary, read?_render (ofJson?_le accepted), rfl⟩

-- The second text has other gaps, another order, an escaped letter and a member that nobody knows.
theorem document_round_trips_escaped :
    let summary : Summary :=
      ⟨"\"\\/", [⟨"é\x01.h", [⟨"#include <😀>", ""⟩, ⟨"class B;", "\tfor \"B\""⟩], []⟩,
        ⟨"", [], []⟩], ⟨.fail, Verdict.greatestCount⟩⟩
    let text := "\x7b\"verdict\":[\"pass\",0],\"other\":null, \"schema\":\"\\u00e9\"\x7d"
    (summary.verdict.filesChanged ≤ Verdict.greatestCount ∧
      read? summary.render = some summary) ∧
    read? text = some ⟨"é", [], ⟨.pass, 0⟩⟩ ∧
      ∃ again, read? (Summary.mk "é" [] ⟨.pass, 0⟩).render = some again ∧
        again.render = (Summary.mk "é" [] ⟨.pass, 0⟩).render := by
  intro summary text
  have accepted : read? text = some ⟨"é", [], ⟨.pass, 0⟩⟩ := by decide +kernel
  exact ⟨⟨Nat.le_refl _, document_round_trips.1 summary (Nat.le_refl _)⟩, accepted,
    document_round_trips.2 text _ accepted⟩

end Summary

end IncludeTidy
