import IncludeTidy.Proofs.Consolidated
import IncludeTidy.Proofs.Decoded
import IncludeTidy.Proofs.Headers

namespace IncludeTidy

namespace Text

def OneLine (text : String) : Prop := '\n' ∉ text.toList

instance (text : String) : Decidable (OneLine text) :=
  inferInstanceAs (Decidable ('\n' ∉ text.toList))

theorem oneLine_empty : OneLine "" := by decide

theorem oneLine_within (oneLine : OneLine whole) (within : cs <:+: whole.toList) :
    OneLine (String.ofList cs) := by
  intro member
  rw [String.toList_ofList] at member
  exact oneLine (within.subset member)

theorem oneLine_append (oneLine : OneLine first) (oneLineToo : OneLine second) :
    OneLine (first ++ second) := by
  intro member
  rw [String.toList_append, List.mem_append] at member
  exact member.elim oneLine oneLineToo

theorem oneLine_trim (oneLine : OneLine line) : OneLine (trim line) := by
  intro member
  exact oneLine ((trim_within line).subset member)

-- Pieces do not hold what the text was cut at.
theorem terminated_pieces [DecidableEq α] (stop : α) (items : List α) :
    (∀ piece ∈ (terminated stop items).1, stop ∉ piece) ∧ stop ∉ (terminated stop items).2 := by
  induction items with
  | nil => exact ⟨nofun, List.not_mem_nil⟩
  | cons first rest ih =>
    obtain ⟨complete, unfinished⟩ := ih
    rw [terminated_cons]
    by_cases same : first = stop
    · rw [if_pos same]
      exact ⟨List.forall_mem_cons.mpr ⟨List.not_mem_nil, complete⟩, unfinished⟩
    · have apart : ∀ piece, stop ∉ piece → stop ∉ first :: piece := by
        intro piece free
        rw [List.mem_cons, not_or]
        exact ⟨Ne.symm same, free⟩
      rw [if_neg same]
      cases pieces : (terminated stop rest).1 with
      | nil => exact ⟨nofun, apart _ unfinished⟩
      | cons line later =>
        rw [pieces, List.forall_mem_cons] at complete
        exact ⟨List.forall_mem_cons.mpr ⟨apart _ complete.1, complete.2⟩, unfinished⟩

theorem oneLine_decode (decoded : decode bytes = .ok line) (free : 10 ∉ bytes) : OneLine line := by
  have lone : Lone String.utf8EncodeChar '\n' 10 := lone_ascii '\n' (by decide)
  intro member
  rw [(decode_ok_iff _ _).mp decoded, toUTF8_encoded] at free
  apply free
  refine List.mem_flatMap.mpr ⟨'\n', member, ?_⟩
  rw [lone.itself]
  exact List.mem_cons_self

theorem withoutLast_subset [DecidableEq α] (item : α) (items : List α) :
    withoutLast item items ⊆ items := by
  unfold withoutLast
  split
  · exact List.dropLast_subset items
  · exact List.Subset.refl items

theorem oneLine_reads {source : ByteSource} (read : .ok line ∈ source.reads) : OneLine line := by
  obtain ⟨complete, unfinished⟩ := terminated_pieces (10 : UInt8) source.bytes
  unfold ByteSource.reads at read
  rcases List.mem_append.mp read with whole | last
  · obtain ⟨piece, member, decoded⟩ := List.mem_map.mp whole
    refine oneLine_decode decoded fun feed => ?_
    exact complete piece member (withoutLast_subset _ _ feed)
  · split at last
    · cases List.mem_singleton.mp last
    · split at last
      · cases last
      · exact oneLine_decode (List.mem_singleton.mp last).symm unfinished

end Text

structure Entry.OneLine (entry : Entry) : Prop where
  directive : Text.OneLine entry.directive
  why : Text.OneLine entry.why

-- The full list is never shown.
structure FileReport.OneLine (report : FileReport) : Prop where
  file : Text.OneLine report.file
  additions : ∀ entry ∈ report.additions.entries, entry.OneLine
  removals : ∀ entry ∈ report.removals.entries, entry.OneLine

variable {entry : Entry} {line raw : String} {report : FileReport} {rules : Ruleset}

theorem oneLine_ofLine (oneLine : Text.OneLine line) : (Entry.ofLine line).OneLine := by
  unfold Entry.ofLine
  split
  · rename_i left right found
    have joined := Text.splitFirst?_joined found
    have inLeft : left <:+: line.toList := by
      rw [joined, List.append_assoc]
      exact (List.prefix_append _ _).isInfix
    have inRight : right <:+: line.toList := by
      rw [joined]
      exact (List.suffix_append _ _).isInfix
    exact ⟨Text.oneLine_trim (Text.oneLine_within oneLine inLeft),
      Text.oneLine_within oneLine inRight⟩
  · exact ⟨Text.oneLine_trim oneLine, Text.oneLine_empty⟩

theorem oneLine_shown (oneLine : entry.OneLine) : Text.OneLine entry.shown := by
  refine Text.oneLine_append oneLine.directive ?_
  unfold Entry.suffix
  split
  · exact Text.oneLine_empty
  · exact Text.oneLine_append (by decide) oneLine.why

theorem oneLine_unmarked (oneLine : entry.OneLine) : entry.withoutRemovalMark.OneLine := by
  unfold Entry.withoutRemovalMark
  split
  · rename_i rest behind
    have joined := Text.after?_eq_some_iff.mp behind
    have within : rest <:+: entry.directive.toList := by
      rw [joined]
      exact (List.suffix_append _ _).isInfix
    exact ⟨Text.oneLine_within oneLine.directive within, oneLine.why⟩
  · exact oneLine

theorem oneLine_insertEntry {m : EntryMap} (known : ∀ entry ∈ m.entries, entry.OneLine)
    (oneLine : entry.OneLine) : ∀ other ∈ (m.insertEntry entry).entries, other.OneLine := by
  intro other member
  rcases EntryMap.mem_insert member with rfl | old
  · exact oneLine
  · exact known other old

theorem oneLine_header {layout : Layout} (kind : layout.kind line = .header header) :
    Text.OneLine header.file := by
  have found : layout.header? line = some header := by
    unfold Layout.kind at kind
    split at kind
    · cases kind
    · split at kind
      · cases kind
      · split at kind
        · rename_i other found
          cases kind
          exact found
        · cases kind
  obtain ⟨_, shape, _, _, _, _, named⟩ := (header?_eq_some_iff layout line header).mp found
  exact named.fits.1

theorem oneLine_opened (oneLine : Text.OneLine file) : (FileReport.opened file).OneLine :=
  ⟨oneLine, nofun, nofun⟩

theorem oneLine_absorb (oneLine : report.OneLine) (read : Text.OneLine line)
    (section_ : Section) : (report.absorb rules line section_).1.OneLine := by
  have entry := oneLine_ofLine read
  obtain ⟨file, additions, removals⟩ := oneLine
  cases section_ with
  | additions =>
    simp only [FileReport.absorb]
    split
    · exact ⟨file, oneLine_insertEntry additions entry, removals⟩
    · exact ⟨file, additions, removals⟩
    · exact ⟨file, additions, removals⟩
  | removals => exact ⟨file, additions, oneLine_insertEntry removals (oneLine_unmarked entry)⟩
  | fullList => exact ⟨file, additions, removals⟩

theorem oneLine_finished (header : Text.OneLine rules.umbrella.header) (oneLine : report.OneLine) :
    (rules.finished report).OneLine := by
  obtain ⟨file, additions, removals⟩ := oneLine
  refine ⟨?_, fun entry member => ?_, fun entry member => ?_⟩
  · rw [finished_file]
    exact file
  · rcases finished_addition rules member with kept | ⟨rfl, _⟩
    · exact additions entry kept
    · exact ⟨header, Text.oneLine_empty⟩
  · rw [finished_removals] at member
    split at member
    · exact removals entry (List.mem_of_mem_filter member)
    · exact removals entry member

namespace Classifier

variable {c : Classifier}

theorem oneLine_lasts (header : Text.OneLine c.rules.umbrella.header) :
    c.Lasts Text.OneLine FileReport.OneLine fun collected : Collected =>
      ∀ report ∈ collected.reports, report.OneLine where
  opens := fun _ _ _ kind => oneLine_opened (oneLine_header kind)
  absorbs := fun _ _ section_ read oneLine =>
    oneLine_absorb oneLine (Text.oneLine_trim read) section_
  hands := fun collected report taken oneLine other member => by
    rcases List.mem_append.mp member with old | last
    · exact taken other old
    · cases List.mem_singleton.mp last
      exact oneLine_finished header oneLine

theorem delivered_oneLine (header : Text.OneLine c.rules.umbrella.header)
    (source : Text.ByteSource) : ∀ report ∈ c.delivered source.reads, report.OneLine :=
  ending_all (oneLine_lasts header) (fun _ => Text.oneLine_reads) ⟨nofun, nofun⟩

end Classifier

end IncludeTidy
