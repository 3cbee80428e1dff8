import Mathlib.Data.List.Basic
import IncludeTidy.Proofs.Escapes
import IncludeTidy.Proofs.Output

namespace IncludeTidy

namespace Color

def escape : Char := '\x1b'

def codes : List (List Char) := [green.code.toList, red.code.toList, reset.toList]

def mark : Color → String
  | .green => "+"
  | .red => "-"

theorem escapes_codes : Text.Escapes escape codes := ⟨by decide, by decide⟩

theorem code_mem (color : Color) : color.code.toList ∈ codes := by
  cases color <;> decide

theorem reset_mem : reset.toList ∈ codes := by decide

end Color

def Entry.Unescaped (entry : Entry) : Prop :=
  Color.escape ∉ entry.directive.toList ∧ Color.escape ∉ entry.why.toList

namespace FileReport

-- The entries of a block, one below the other, each with its color.
def painted (report : FileReport) : List (Color × Entry) :=
  report.additions.entries.map (Color.green, ·) ++ report.removals.entries.map (Color.red, ·)

-- All that a block shows of a report.
def texts (report : FileReport) : List String :=
  report.file :: report.painted.flatMap fun (_, entry) => [entry.directive, entry.why]

def Unescaped (report : FileReport) : Prop := ∀ text ∈ report.texts, Color.escape ∉ text.toList

instance (report : FileReport) : Decidable report.Unescaped :=
  inferInstanceAs (Decidable (∀ text ∈ report.texts, Color.escape ∉ text.toList))

end FileReport

def shownLine (colored : Bool) : Color × Entry → String
  | (color, entry) => entry.blockLine color.mark (if colored then some color else none)

def blockLines (colored : Bool) (painted : List (Color × Entry)) : String :=
  String.join (painted.map (shownLine colored))

variable {report : FileReport} {entry : Entry} {color other : Color}

theorem block_painted (changed : report.hasChanges = true) (colored : Bool) :
    report.block colored = report.blockTitle ++ blockLines colored report.painted := by
  simp only [FileReport.block, if_pos changed, blockLines, FileReport.painted, List.map_append,
    List.map_map, String.join_append, String.append_assoc]
  rfl

theorem toList_blockLines (colored : Bool) (painted : List (Color × Entry)) :
    (blockLines colored painted).toList =
      painted.flatMap fun shown => (shownLine colored shown).toList := by
  rw [blockLines, String.toList_join, List.flatMap_map]

theorem painted_unchanged (unchanged : report.hasChanges = false) : report.painted = [] := by
  simpa [FileReport.hasChanges, FileReport.painted, EntryMap.isEmpty] using unchanged

theorem unescaped_painted (unescaped : report.Unescaped) :
    ∀ shown ∈ report.painted, shown.2.Unescaped := by
  intro shown member
  have within : ∀ text ∈ [shown.2.directive, shown.2.why], text ∈ report.texts :=
    fun text shows => List.mem_cons_of_mem _ (List.mem_flatMap.mpr ⟨shown, member, shows⟩)
  exact ⟨unescaped _ (within _ List.mem_cons_self),
    unescaped _ (within _ (List.mem_cons_of_mem _ List.mem_cons_self))⟩

theorem unescaped_title (file : Color.escape ∉ report.file.toList) :
    Color.escape ∉ report.blockTitle.toList := by
  simp only [FileReport.blockTitle, String.toList_append, List.mem_append, not_or]
  exact ⟨⟨by decide, file⟩, by decide⟩

theorem unescaped_body (unescaped : entry.Unescaped) (color : Color) :
    Color.escape ∉ (color.mark ++ entry.directive).toList := by
  rw [String.toList_append, List.mem_append, not_or]
  exact ⟨by cases color <;> decide, unescaped.1⟩

theorem unescaped_ending (unescaped : entry.Unescaped) :
    Color.escape ∉ (entry.suffix ++ "\n").toList := by
  rw [String.toList_append, List.mem_append, not_or]
  refine ⟨?_, by decide⟩
  unfold Entry.suffix
  split
  · decide
  · rw [String.toList_append, List.mem_append, not_or]
    exact ⟨by decide, unescaped.2⟩

theorem toList_coloredLine (color : Color) (entry : Entry) :
    (shownLine true (color, entry)).toList =
      color.code.toList ++ ((color.mark ++ entry.directive).toList ++
        (Color.reset.toList ++ (entry.suffix ++ "\n").toList)) := by
  simp [shownLine, Entry.blockLine, Color.paint]

theorem whole_line (unescaped : entry.Unescaped) (color : Color) :
    Text.Whole Color.escape Color.codes (shownLine true (color, entry)).toList := by
  rw [toList_coloredLine]
  exact .word color.code_mem (.text (unescaped_body unescaped color)
    (.word Color.reset_mem (Text.whole_text (unescaped_ending unescaped))))

theorem without_line (unescaped : entry.Unescaped) (color : Color) :
    Text.without Color.codes (shownLine true (color, entry)).toList =
      (shownLine false (color, entry)).toList := by
  have ending := Text.without_text Color.escapes_codes (unescaped_ending unescaped) []
  rw [List.append_nil, Text.without] at ending
  rw [toList_coloredLine, Text.without_word Color.escapes_codes color.code_mem,
    Text.without_text Color.escapes_codes (unescaped_body unescaped color),
    Text.without_word Color.escapes_codes Color.reset_mem, ending]
  simp [shownLine, Entry.blockLine]

theorem code_injective (color other : Color) :
    color.code.toList = other.code.toList ↔ color = other := by
  cases color <;> cases other <;> decide

theorem code_ne_reset (color : Color) : color.code.toList ≠ Color.reset.toList := by
  cases color <;> decide

theorem places_code_line (unescaped : entry.Unescaped) (color other : Color) :
    Text.places color.code.toList (shownLine true (other, entry)).toList =
      if color = other then
        [([], (other.mark ++ entry.directive ++ Color.reset ++ entry.suffix ++ "\n").toList)]
      else [] := by
  rw [toList_coloredLine, Text.places_word Color.escapes_codes color.code_mem other.code_mem,
    Text.places_text Color.escapes_codes color.code_mem (unescaped_body unescaped other),
    Text.places_word Color.escapes_codes color.code_mem Color.reset_mem,
    Text.places_free Color.escapes_codes color.code_mem (unescaped_ending unescaped),
    if_neg (code_ne_reset color)]
  simp [code_injective]

theorem places_reset_line (unescaped : entry.Unescaped) (color : Color) :
    Text.places Color.reset.toList (shownLine true (color, entry)).toList =
      [((color.code ++ color.mark ++ entry.directive).toList, (entry.suffix ++ "\n").toList)] := by
  rw [toList_coloredLine, Text.places_word Color.escapes_codes Color.reset_mem color.code_mem,
    Text.places_text Color.escapes_codes Color.reset_mem (unescaped_body unescaped color),
    Text.places_word Color.escapes_codes Color.reset_mem Color.reset_mem,
    Text.places_free Color.escapes_codes Color.reset_mem (unescaped_ending unescaped),
    if_neg (code_ne_reset color).symm, if_pos rfl]
  simp

theorem whole_lines (unescaped : report.Unescaped) :
    ∀ shown ∈ report.painted, Text.Whole Color.escape Color.codes (shownLine true shown).toList :=
  fun shown member => whole_line (unescaped_painted unescaped shown member) shown.1

theorem without_block (unescaped : report.Unescaped) :
    Text.without Color.codes (report.block true).toList = (report.block false).toList := by
  cases changed : report.hasChanges with
  | false =>
    rw [(block_eq_empty_iff report true).mpr changed, (block_eq_empty_iff report false).mpr changed,
      String.toList_empty, Text.without]
  | true =>
    have title := unescaped_title (unescaped report.file List.mem_cons_self)
    rw [block_painted changed, block_painted changed, String.toList_append, String.toList_append,
      Text.without_text Color.escapes_codes title, toList_blockLines, toList_blockLines,
      Text.without_flatMap Color.escapes_codes (whole_lines unescaped)]
    congr 1
    refine List.flatMap_congr fun shown member => ?_
    exact without_line (unescaped_painted unescaped shown member) shown.1

-- A report without changes has no block, but no entries either.
theorem places_block (unescaped : report.Unescaped) (member : word ∈ Color.codes) :
    Text.places word (report.block true).toList =
      (Text.places word (report.painted.flatMap fun shown => (shownLine true shown).toList)).map
        (Prod.map (report.blockTitle.toList ++ ·) id) := by
  cases changed : report.hasChanges with
  | false =>
    rw [(block_eq_empty_iff report true).mpr changed, painted_unchanged changed, List.flatMap_nil,
      String.toList_empty, Text.places_nil Color.escapes_codes member, List.map_nil]
  | true =>
    have title := unescaped_title (unescaped report.file List.mem_cons_self)
    rw [block_painted changed, String.toList_append, toList_blockLines,
      Text.places_text Color.escapes_codes member title]

section

-- The code stands once in the line of each chosen entry, and in no other line.
variable {chosen : Color × Entry → Prop} [DecidablePred chosen]
  {front back : Color × Entry → List Char}

theorem length_places_block (unescaped : report.Unescaped) (member : word ∈ Color.codes)
    (sites : ∀ shown ∈ report.painted, Text.places word (shownLine true shown).toList =
      if chosen shown then [(front shown, back shown)] else []) :
    (Text.places word (report.block true).toList).length = report.painted.countP chosen := by
  have once : ∀ shown ∈ report.painted,
      (Text.places word (shownLine true shown).toList).length = (decide (chosen shown)).toNat := by
    intro shown listed
    rw [sites shown listed]
    by_cases is : chosen shown <;> simp [is]
  rw [places_block unescaped member, List.length_map,
    Text.length_places_flatMap Color.escapes_codes member (whole_lines unescaped) once]

theorem block_eq_iff (unescaped : report.Unescaped) (member : word ∈ Color.codes)
    (sites : ∀ shown ∈ report.painted, Text.places word (shownLine true shown).toList =
      if chosen shown then [(front shown, back shown)] else []) :
    (report.block true).toList = before ++ word ++ after ↔
      ∃ earlier shown later, report.painted = earlier ++ shown :: later ∧ chosen shown ∧
        before = (report.blockTitle ++ blockLines true earlier).toList ++ front shown ∧
        after = back shown ++ (blockLines true later).toList := by
  have placed : ∀ shown ∈ report.painted, ∀ inner outer,
      (inner, outer) ∈ Text.places word (shownLine true shown).toList ↔
        chosen shown ∧ inner = front shown ∧ outer = back shown := by
    intro shown listed inner outer
    rw [sites shown listed]
    by_cases is : chosen shown <;> simp [is]
  rw [← Text.mem_places, places_block unescaped member, List.mem_map]
  simp only [String.toList_append, toList_blockLines, List.append_assoc]
  constructor
  · rintro ⟨⟨inner, _⟩, found, same⟩
    cases same
    obtain ⟨earlier, shown, later, inner, outer, parts, inside, rfl, rfl⟩ :=
      (Text.mem_places_flatMap Color.escapes_codes member (whole_lines unescaped)).mp found
    have listed : shown ∈ report.painted := parts ▸ List.mem_append_cons_self
    obtain ⟨is, rfl, rfl⟩ := (placed shown listed inner outer).mp inside
    exact ⟨earlier, shown, later, parts, is, rfl, rfl⟩
  · rintro ⟨earlier, shown, later, parts, is, rfl, rfl⟩
    have listed : shown ∈ report.painted := parts ▸ List.mem_append_cons_self
    have inside := (placed shown listed _ _).mpr ⟨is, rfl, rfl⟩
    exact ⟨_, (Text.mem_places_flatMap Color.escapes_codes member (whole_lines unescaped)).mpr
      ⟨earlier, shown, later, _, _, parts, inside, rfl, rfl⟩, rfl⟩

end

theorem opening_sites (unescaped : report.Unescaped) (color : Color) : ∀ shown ∈ report.painted,
    Text.places color.code.toList (shownLine true shown).toList =
      if color = shown.1 then
        [([], (shown.1.mark ++ shown.2.directive ++ Color.reset ++ shown.2.suffix ++ "\n").toList)]
      else [] :=
  fun shown listed => places_code_line (unescaped_painted unescaped shown listed) color shown.1

theorem closing_sites (unescaped : report.Unescaped) : ∀ shown ∈ report.painted,
    Text.places Color.reset.toList (shownLine true shown).toList =
      if True then
        [((shown.1.code ++ shown.1.mark ++ shown.2.directive).toList,
          (shown.2.suffix ++ "\n").toList)]
      else [] := by
  intro shown listed
  rw [if_pos trivial]
  exact places_reset_line (unescaped_painted unescaped shown listed) shown.1

theorem opened_iff (unescaped : report.Unescaped) (color : Color) (before after : List Char) :
    (report.block true).toList = before ++ color.code.toList ++ after ↔
      ∃ earlier entry later, report.painted = earlier ++ (color, entry) :: later ∧
        before = (report.blockTitle ++ blockLines true earlier).toList ∧
        after = (color.mark ++ entry.directive ++ Color.reset ++ entry.suffix ++ "\n" ++
          blockLines true later).toList := by
  rw [block_eq_iff unescaped color.code_mem (opening_sites unescaped color)]
  constructor
  · rintro ⟨earlier, ⟨_, entry⟩, later, parts, rfl, rfl, rfl⟩
    exact ⟨earlier, entry, later, parts, List.append_nil _, String.toList_append.symm⟩
  · rintro ⟨earlier, entry, later, parts, rfl, rfl⟩
    exact ⟨earlier, (color, entry), later, parts, rfl, (List.append_nil _).symm,
      String.toList_append⟩

theorem closed_iff (unescaped : report.Unescaped) (before after : List Char) :
    (report.block true).toList = before ++ Color.reset.toList ++ after ↔
      ∃ earlier color entry later, report.painted = earlier ++ (color, entry) :: later ∧
        before = (report.blockTitle ++ blockLines true earlier ++
          (color.code ++ color.mark ++ entry.directive)).toList ∧
        after = (entry.suffix ++ "\n" ++ blockLines true later).toList := by
  rw [block_eq_iff unescaped Color.reset_mem (closing_sites unescaped)]
  constructor
  · rintro ⟨earlier, ⟨color, entry⟩, later, parts, _, rfl, rfl⟩
    exact ⟨earlier, color, entry, later, parts, String.toList_append.symm,
      String.toList_append.symm⟩
  · rintro ⟨earlier, color, entry, later, parts, rfl, rfl⟩
    exact ⟨earlier, (color, entry), later, parts, trivial, String.toList_append,
      String.toList_append⟩

-- Each code is counted and placed in the text as a whole, so none is formed by accident where two
-- parts of a block meet.
theorem colors_only_decorate (report : FileReport) (unescaped : report.Unescaped) :
    let colored := (report.block true).toList
    Text.without Color.codes colored = (report.block false).toList ∧
      (Text.places Color.green.code.toList colored).length = report.additions.size ∧
      (Text.places Color.red.code.toList colored).length = report.removals.size ∧
      (Text.places Color.reset.toList colored).length =
        report.additions.size + report.removals.size ∧
      (∀ (color : Color) (before after : List Char),
        colored = before ++ color.code.toList ++ after ↔
          ∃ earlier entry later, report.painted = earlier ++ (color, entry) :: later ∧
            before = (report.blockTitle ++ blockLines true earlier).toList ∧
            after = (color.mark ++ entry.directive ++ Color.reset ++ entry.suffix ++ "\n" ++
              blockLines true later).toList) ∧
      ∀ before after : List Char, colored = before ++ Color.reset.toList ++ after ↔
        ∃ earlier color entry later, report.painted = earlier ++ (color, entry) :: later ∧
          before = (report.blockTitle ++ blockLines true earlier ++
            (color.code ++ color.mark ++ entry.directive)).toList ∧
          after = (entry.suffix ++ "\n" ++ blockLines true later).toList := by
  intro colored
  refine ⟨without_block unescaped, ?_, ?_, ?_, opened_iff unescaped, closed_iff unescaped⟩
  · rw [length_places_block unescaped Color.green.code_mem (opening_sites unescaped .green)]
    simp [FileReport.painted, EntryMap.size, Function.comp_def]
  · rw [length_places_block unescaped Color.red.code_mem (opening_sites unescaped .red)]
    simp [FileReport.painted, EntryMap.size, Function.comp_def]
  · rw [length_places_block unescaped Color.reset_mem (closing_sites unescaped)]
    simp [FileReport.painted, EntryMap.size]

-- Without an escape character in front, what looks like the rest of a code is text.
def bracketed : FileReport :=
  { FileReport.opened "[0m" with
    additions := .ofList [⟨"[32m", ""⟩, ⟨"class B;", "[31m"⟩]
    removals := .ofList [⟨"#include <a.h>", "lines 3-3"⟩] }

theorem colors_only_decorate_bracketed :
    bracketed.Unescaped ∧
      let colored := (bracketed.block true).toList
      Text.without Color.codes colored =
          ("\n== [0m ==\n+[32m\n+class B;  // [31m\n-#include <a.h>  // lines 3-3\n").toList ∧
        (Text.places Color.green.code.toList colored).length = 2 ∧
        (Text.places Color.red.code.toList colored).length = 1 ∧
        (Text.places Color.reset.toList colored).length = 3 := by
  have unescaped : bracketed.Unescaped := by decide +kernel
  have plain : (bracketed.block false).toList =
      ("\n== [0m ==\n+[32m\n+class B;  // [31m\n-#include <a.h>  // lines 3-3\n").toList := by
    decide +kernel
  obtain ⟨erased, green, red, closed, _⟩ := colors_only_decorate bracketed unescaped
  exact ⟨unescaped, erased.trans plain, green, red, closed⟩

-- A directive that is a code itself is taken out with the codes.
example :
    let report := { FileReport.opened "a.h" with additions := .ofList [⟨Color.reset, ""⟩] }
    Text.without Color.codes (report.block true).toList ≠ (report.block false).toList := by
  decide +kernel

end IncludeTidy
