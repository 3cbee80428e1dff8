import IncludeTidy.Proofs.Agreement
import IncludeTidy.Proofs.Directives
import IncludeTidy.Proofs.OneLine

namespace IncludeTidy

namespace Text

-- Each piece is closed by what opens the next one.
theorem opened_closed (stop : α) (pieces : List (List α)) :
    (pieces.flatMap fun piece => stop :: piece) ++ [stop] =
      stop :: pieces.flatMap fun piece => piece ++ [stop] := by
  induction pieces with
  | nil => rfl
  | cons piece rest ih =>
    rw [List.flatMap_cons, List.append_assoc, ih, List.flatMap_cons]
    simp

variable [DecidableEq α] {stop : α} {pieces others : List (List α)}

theorem terminated_closed (free : ∀ piece ∈ pieces, stop ∉ piece) :
    terminated stop (pieces.flatMap fun piece => piece ++ [stop]) = (pieces, []) := by
  induction pieces with
  | nil => rfl
  | cons piece rest ih =>
    rw [List.forall_mem_cons] at free
    simp [terminated_free free.1, terminated_cons, ih free.2]

theorem closed_injective (free : ∀ piece ∈ pieces, stop ∉ piece)
    (freeToo : ∀ piece ∈ others, stop ∉ piece)
    (same : (pieces.flatMap fun piece => piece ++ [stop]) =
      others.flatMap fun piece => piece ++ [stop]) : pieces = others := by
  have cut := congrArg (terminated stop) same
  rw [terminated_closed free, terminated_closed freeToo] at cut
  exact congrArg Prod.fst cut

theorem opened_injective (free : ∀ piece ∈ pieces, stop ∉ piece)
    (freeToo : ∀ piece ∈ others, stop ∉ piece)
    (same : (pieces.flatMap fun piece => stop :: piece) =
      others.flatMap fun piece => stop :: piece) : pieces = others := by
  apply closed_injective free freeToo
  have closed := congrArg (· ++ [stop]) same
  simp only [opened_closed] at closed
  exact (List.cons.inj closed).2

def ofLines (lines : List String) : String := String.join (lines.map (· ++ "\n"))

@[simp]
theorem ofLines_cons (line : String) (lines : List String) :
    ofLines (line :: lines) = line ++ "\n" ++ ofLines lines := by
  simp only [ofLines, List.map_cons, String.join_cons]

theorem toList_ofLines (lines : List String) :
    (ofLines lines).toList = (lines.map String.toList).flatMap fun line => line ++ ['\n'] := by
  rw [ofLines, String.toList_join, List.flatMap_map, List.flatMap_map]
  exact List.flatMap_congr fun _ _ => String.toList_append

@[simp]
theorem ofLines_append (first second : List String) :
    ofLines (first ++ second) = ofLines first ++ ofLines second := by
  simp only [ofLines, List.map_append, String.join_append]

theorem ofLines_injective {first second : List String} (oneLine : ∀ line ∈ first, OneLine line)
    (oneLineToo : ∀ line ∈ second, OneLine line) (same : ofLines first = ofLines second) :
    first = second := by
  have joined := congrArg String.toList same
  rw [toList_ofLines, toList_ofLines] at joined
  have lines := closed_injective (List.forall_mem_map.mpr oneLine)
    (List.forall_mem_map.mpr oneLineToo) joined
  exact List.map_injective_iff.mpr (fun _ _ => String.toList_inj.mp) lines

theorem toUTF8_injective {first second : String}
    (same : first.toUTF8.toList = second.toUTF8.toList) : first = second := by
  have decoded := (decode_ok_iff first.toUTF8.toList first).mpr rfl
  rw [same, (decode_ok_iff second.toUTF8.toList second).mpr rfl] at decoded
  cases decoded
  rfl

end Text

-- What the block of a report shows.
structure Face where
  file : String
  additions : List String
  removals : List String
deriving DecidableEq, Repr

def FileReport.face (report : FileReport) : Face :=
  ⟨report.file, report.additions.entries.map Entry.shown,
    report.removals.entries.map Entry.shown⟩

namespace Face

def title (face : Face) : String := "== " ++ face.file ++ " =="

def entryLines (face : Face) : List String :=
  face.additions.map ("+" ++ ·) ++ face.removals.map ("-" ++ ·)

-- The lines of a block below its empty line.
def lines (face : Face) : List String := face.title :: face.entryLines

def isAddition (line : String) : Bool := line.toList.head? = some '+'

variable {face other : Face} {faces others : List Face}

@[simp]
theorem isAddition_plus (shown : String) : isAddition ("+" ++ shown) = true := by
  have opens : ("+" ++ shown).toList = '+' :: shown.toList := String.toList_append
  rw [isAddition, opens]
  rfl

@[simp]
theorem isAddition_minus (shown : String) : isAddition ("-" ++ shown) = false := by
  have opens : ("-" ++ shown).toList = '-' :: shown.toList := String.toList_append
  rw [isAddition, opens]
  rfl

theorem filter_additions (face : Face) :
    face.entryLines.filter isAddition = face.additions.map ("+" ++ ·) := by
  simp [entryLines, List.filter_map, Function.comp_def]

theorem filter_removals (face : Face) :
    (face.entryLines.filter fun line => !isAddition line) = face.removals.map ("-" ++ ·) := by
  simp [entryLines, List.filter_map, Function.comp_def]

theorem marked_injective (mark : String) :
    Function.Injective (List.map fun shown : String => mark ++ shown) :=
  List.map_injective_iff.mpr fun _ _ => (String.append_right_inj mark).mp

-- The title stands in front of all entries, so an entry that looks like a title is none.
theorem lines_injective (same : face.lines = other.lines) : face = other := by
  obtain ⟨titles, entries⟩ := List.cons.inj same
  have additions := congrArg (List.filter isAddition) entries
  have removals := congrArg (List.filter fun line => !isAddition line) entries
  rw [filter_additions, filter_additions] at additions
  rw [filter_removals, filter_removals] at removals
  have files : "== " ++ face.file = "== " ++ other.file := (String.append_left_inj " ==").mp titles
  cases face
  cases other
  cases (String.append_right_inj "== ").mp files
  cases marked_injective "+" additions
  cases marked_injective "-" removals
  rfl

theorem lines_filled (face : Face) : "" ∉ face.lines := by
  have filled : ∀ mark shown : String, mark ≠ "" → "" ≠ mark ++ shown := by
    intro mark shown named empty
    exact named (String.append_eq_empty_iff.mp empty.symm).1
  intro member
  rcases List.mem_cons.mp member with title | entry
  · rw [Face.title, String.append_assoc] at title
    exact filled "== " _ (by decide) title
  · rcases List.mem_append.mp entry with added | removed
    · obtain ⟨shown, _, empty⟩ := List.mem_map.mp added
      exact filled "+" shown (by decide) empty.symm
    · obtain ⟨shown, _, empty⟩ := List.mem_map.mp removed
      exact filled "-" shown (by decide) empty.symm

-- The lines of all blocks, one block below the other.
def allLines (faces : List Face) : List String := (faces.map lines).flatMap fun block => "" :: block

@[simp]
theorem allLines_cons (face : Face) (faces : List Face) :
    allLines (face :: faces) = "" :: face.lines ++ allLines faces := rfl

theorem allLines_injective (same : allLines faces = allLines others) : faces = others := by
  have filled : ∀ faces : List Face, ∀ block ∈ faces.map lines, "" ∉ block :=
    fun faces => List.forall_mem_map.mpr fun face _ => face.lines_filled
  have blocks := Text.opened_injective (filled faces) (filled others) same
  exact List.map_injective_iff.mpr (fun _ _ => lines_injective) blocks

end Face

variable {report : FileReport} {reports others : List FileReport}

theorem face_oneLine (oneLine : report.OneLine) :
    ∀ line ∈ report.face.lines, Text.OneLine line := by
  intro line member
  rcases List.mem_cons.mp member with rfl | entry
  · exact Text.oneLine_append (Text.oneLine_append (by decide) oneLine.file) (by decide)
  · rcases List.mem_append.mp entry with added | removed
    · obtain ⟨_, shown, rfl⟩ := List.mem_map.mp added
      obtain ⟨new, listed, rfl⟩ := List.mem_map.mp shown
      exact Text.oneLine_append (by decide) (oneLine_shown (oneLine.additions new listed))
    · obtain ⟨_, shown, rfl⟩ := List.mem_map.mp removed
      obtain ⟨gone, listed, rfl⟩ := List.mem_map.mp shown
      exact Text.oneLine_append (by decide) (oneLine_shown (oneLine.removals gone listed))

theorem faces_oneLine (oneLine : ∀ report ∈ reports, report.OneLine) :
    ∀ line ∈ Face.allLines (reports.map FileReport.face), Text.OneLine line := by
  induction reports with
  | nil => nofun
  | cons report rest ih =>
    rw [List.forall_mem_cons] at oneLine
    intro line member
    rw [List.map_cons, Face.allLines_cons] at member
    rcases List.mem_append.mp member with here | later
    · rcases List.mem_cons.mp here with rfl | below
      · exact Text.oneLine_empty
      · exact face_oneLine oneLine.1 line below
    · exact ih oneLine.2 line later

theorem blockLines_shown (mark : String) (entries : List Entry) :
    String.join (entries.map (Entry.blockLine mark none)) =
      Text.ofLines ((entries.map Entry.shown).map (mark ++ ·)) := by
  rw [Text.ofLines, List.map_map, List.map_map]
  exact congrArg String.join (List.map_congr_left fun entry _ => blockLine_plain mark entry)

theorem block_face (changed : report.hasChanges = true) :
    report.block false = Text.ofLines ("" :: report.face.lines) := by
  unfold FileReport.block
  rw [if_pos changed, Face.lines, Face.entryLines, Text.ofLines_cons, Text.ofLines_cons,
    Text.ofLines_append]
  simp only [Bool.false_eq_true, if_false, blockLines_shown, FileReport.blockTitle, Face.title,
    FileReport.face, String.append_assoc]
  rfl

theorem blocks_faces (changed : ∀ report ∈ reports, report.hasChanges = true) :
    blocks false reports = Text.ofLines (Face.allLines (reports.map FileReport.face)) := by
  induction reports with
  | nil => rfl
  | cons report rest ih =>
    rw [List.forall_mem_cons] at changed
    rw [blocks_cons, ih changed.2, block_face changed.1, ← Text.ofLines_append, List.map_cons,
      Face.allLines_cons]

-- Blocks that are the same show the same, whatever reports they come from.
theorem blocks_tell_faces (oneLine : ∀ report ∈ reports, report.OneLine)
    (oneLineToo : ∀ report ∈ others, report.OneLine) :
    blocks false reports = blocks false others ↔
      (reports.filter FileReport.hasChanges).map FileReport.face =
        (others.filter FileReport.hasChanges).map FileReport.face := by
  have shown : ∀ reports : List FileReport, blocks false reports = Text.ofLines
      (Face.allLines ((reports.filter FileReport.hasChanges).map FileReport.face)) := by
    intro reports
    rw [← blocks_changed]
    exact blocks_faces fun report member => (List.mem_filter.mp member).2
  have kept : ∀ reports : List FileReport, (∀ report ∈ reports, report.OneLine) →
      ∀ report ∈ reports.filter FileReport.hasChanges, report.OneLine :=
    fun reports oneLine report member => oneLine report (List.mem_of_mem_filter member)
  rw [shown, shown]
  constructor
  · intro same
    apply Face.allLines_injective
    exact Text.ofLines_injective (faces_oneLine (kept _ oneLine))
      (faces_oneLine (kept _ oneLineToo)) same
  · intro same
    rw [same]

namespace RunSettings

-- Justifications follow a border that entries may hold too, so a face has whole lines. Without a
-- header of one line, a line of a block could be part of an entry.
theorem text_tells_reports [Device δ] [Device φ] (willing : Device.Willing δ)
    (willingToo : Device.Willing φ) (one two : Ruleset) (oneLine : Text.OneLine one.umbrella.header)
    (oneLineToo : Text.OneLine two.umbrella.header) (strict strictToo : Bool) (device : δ)
    (deviceToo : φ) (source sourceToo : Text.ByteSource) :
    let first := ((Classifier.mk one strict).delivered source.reads).filter FileReport.hasChanges
    let second :=
      ((Classifier.mk two strictToo).delivered sourceToo.reads).filter FileReport.hasChanges
    (run ⟨one, .text, false, strict⟩ device source).out.taken =
        (run ⟨two, .text, false, strictToo⟩ deviceToo sourceToo).out.taken ↔
      first.map FileReport.face = second.map FileReport.face := by
  intro first second
  have taken := (runText_willing willing ⟨one, .text, false, strict⟩ device source).2
  have takenToo :=
    (runText_willing willingToo ⟨two, .text, false, strictToo⟩ deviceToo sourceToo).2
  have lines := Classifier.delivered_oneLine (c := ⟨one, strict⟩) oneLine source
  have linesToo := Classifier.delivered_oneLine (c := ⟨two, strictToo⟩) oneLineToo sourceToo
  unfold run
  dsimp only
  rw [taken, takenToo, ← blocks_tell_faces lines linesToo]
  constructor
  · exact Text.toUTF8_injective
  · intro same
    rw [same]

def hostileSource : Text.ByteSource :=
  ⟨"../x == should add these lines:\n== y ==\n".toUTF8.toList, none⟩

def hostileSourceToo : Text.ByteSource :=
  ⟨"y\n../x == should add these lines:\r\n  == y ==".toUTF8.toList, none⟩

theorem text_tells_reports_hostile :
    let two : Ruleset := { Ruleset.builtin with umbrella := ⟨"#include <a.h>", []⟩ }
    let first :=
      ((Classifier.mk .builtin true).delivered hostileSource.reads).filter FileReport.hasChanges
    let second :=
      ((Classifier.mk two false).delivered hostileSourceToo.reads).filter FileReport.hasChanges
    Device.Willing Open ∧ Text.OneLine Ruleset.builtin.umbrella.header ∧
      Text.OneLine two.umbrella.header ∧
      (run ⟨.builtin, .text, false, true⟩ Open.mk hostileSource).out.taken =
        (run ⟨two, .text, false, false⟩ Open.mk hostileSourceToo).out.taken ∧
      first.map FileReport.face = second.map FileReport.face ∧
      first.map FileReport.face = [⟨"x ==", ["== y =="], []⟩] := by
  intro two first second
  have oneLine : Text.OneLine Ruleset.builtin.umbrella.header := by decide +kernel
  have oneLineToo : Text.OneLine two.umbrella.header := by decide +kernel
  have written : (run ⟨.builtin, .text, false, true⟩ Open.mk hostileSource).out.taken =
      (run ⟨two, .text, false, false⟩ Open.mk hostileSourceToo).out.taken := by
    decide +kernel
  have shown : first.map FileReport.face = second.map FileReport.face :=
    (text_tells_reports open_willing open_willing .builtin two oneLine oneLineToo true false Open.mk
      Open.mk hostileSource hostileSourceToo).mp written
  exact ⟨open_willing, oneLine, oneLineToo, written, shown, by decide +kernel⟩

-- A header of two lines reads as two entries.
example :
    let rules : Ruleset :=
      { Ruleset.builtin with umbrella := ⟨"class A;\n+class B;", ["class C;"]⟩ }
    let head := "../a.h should add these lines:"
    let injected := (Classifier.mk rules true).delivered ([head, "class C;"].map .ok)
    let listed := (Classifier.mk rules true).delivered ([head, "class A;", "class B;"].map .ok)
    blocks false injected = blocks false listed ∧
      injected.map FileReport.face ≠ listed.map FileReport.face := by
  decide +kernel

end RunSettings

end IncludeTidy
