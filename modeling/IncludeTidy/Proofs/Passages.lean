import Mathlib.Data.List.Perm.Basic
import IncludeTidy.Proofs.Counts
import IncludeTidy.Proofs.Groups
import IncludeTidy.Proofs.Intake
import IncludeTidy.Ruleset.Builtin

namespace IncludeTidy

structure Passage (layout : Layout) (file : String) where
  signal : Signal
  headline : String
  body : List String
  headed : layout.kind (Text.trim headline) = .header ⟨signal, file⟩
  plain : ∀ raw ∈ body, (layout.kind (Text.trim raw)).isStructural = false
deriving DecidableEq

-- What a plain line gives to the open report, which is nothing outside any section.
def Layout.gives (layout : Layout) (inside? : Option Section) (raw : String) : List Intake :=
  if layout.kind (Text.trim raw) = .content then
    inside?.toList.map fun section_ => ⟨section_, Text.trim raw⟩
  else []

-- What a plain line counts for while a report for the file is open.
def Ruleset.plainTally (rules : Ruleset) (file : String) (inside? : Option Section)
    (raw : String) : Tally :=
  { Tally.line with
    noise := if rules.layout.kind (Text.trim raw) = .noise then 1 else 0
    unrecognized :=
      if rules.layout.kind (Text.trim raw) = .content ∧ inside? = none then 1 else 0
    falsePositives :=
      (Intake.dropped rules file (rules.layout.gives inside? raw)).length }

namespace Passage

variable {layout : Layout} {file : String}

def lines (passage : Passage layout file) : List String := passage.headline :: passage.body

def inside? (passage : Passage layout file) : Option Section := Section.after? none passage.signal

def taken (passage : Passage layout file) : List Intake :=
  passage.body.flatMap (layout.gives passage.inside?)

def tallies {rules : Ruleset} (passage : Passage rules.layout file) : List Tally :=
  .line :: passage.body.map (rules.plainTally file passage.inside?)

end Passage

-- The one signal that opens a section.
def Section.opener : Section → Signal
  | .additions => .add
  | .removals => .remove
  | .fullList => .fullList

theorem after?_opener (signal : Signal) (section_ : Section) :
    Section.after? none signal = some section_ ↔ signal = section_.opener := by
  cases signal <;> cases section_ <;> simp [Section.after?, Section.opener]

theorem gives_other {layout : Layout} (other : layout.kind (Text.trim raw) ≠ .content) :
    layout.gives inside? raw = [] := if_neg other

theorem gives_outside (layout : Layout) (raw : String) : layout.gives none raw = [] := by
  unfold Layout.gives
  split <;> rfl

theorem gives_inside {layout : Layout} (content : layout.kind (Text.trim raw) = .content) :
    layout.gives (some section_) raw = [⟨section_, Text.trim raw⟩] := if_pos content

variable {rules : Ruleset} {raw : String}

theorem plainTally_noise (noise : rules.layout.kind (Text.trim raw) = .noise) :
    rules.plainTally file inside? raw = { Tally.line with noise := 1 } := by
  unfold Ruleset.plainTally
  rw [gives_other (by simp [noise]), noise]
  rfl

theorem plainTally_outside (content : rules.layout.kind (Text.trim raw) = .content) :
    rules.plainTally file none raw = { Tally.line with unrecognized := 1 } := by
  unfold Ruleset.plainTally
  rw [gives_outside, content]
  rfl

theorem plainTally_inside (content : rules.layout.kind (Text.trim raw) = .content) :
    rules.plainTally file (some section_) raw =
      { Tally.line with
        falsePositives := (Intake.dropped rules file [⟨section_, Text.trim raw⟩]).length } := by
  unfold Ruleset.plainTally
  rw [gives_inside content, content]
  rfl

theorem into_of_gives {layout : Layout} (given : one ∈ layout.gives inside? raw) :
    inside? = some one.into := by
  unfold Layout.gives at given
  split at given
  · obtain ⟨section_, inside, rfl⟩ := List.mem_map.mp given
    exact Option.mem_toList.mp inside
  · cases given

namespace Passage

variable {layout : Layout} {rules : Ruleset} {file : String}

theorem opener_of_taken {passage : Passage layout file} (member : one ∈ passage.taken) :
    passage.signal = one.into.opener := by
  obtain ⟨raw, _, given⟩ := List.mem_flatMap.mp member
  exact (after?_opener _ _).mp (into_of_gives given)

-- Only the passages that open a section give to its list.
theorem entries_apart {passage : Passage layout file} (apart : passage.signal ≠ section_.opener) :
    Intake.entries section_ passage.taken = [] := by
  have nothing : (passage.taken.filter fun one => one.into = section_) = [] := by
    refine List.filter_eq_nil_iff.mpr fun one member into => apart ?_
    rw [opener_of_taken member, of_decide_eq_true into]
  rw [Intake.entries, nothing, List.map_nil]

theorem entries_opening (section_ : Section) (passages : List (Passage layout file)) :
    Intake.entries section_ (passages.flatMap taken) =
      Intake.entries section_
        ((passages.filter fun passage => passage.signal = section_.opener).flatMap taken) := by
  induction passages with
  | nil => rfl
  | cons passage rest ih =>
    by_cases opens : passage.signal = section_.opener
    · simp [opens, ih]
    · simp [opens, ih, entries_apart opens]

-- The passages with one signal stand in the same order in both lists. As this is so for each
-- signal, no passage is lost or added.
def Rearranged (first second : List (Passage layout file)) : Prop :=
  ∀ signal, (first.filter fun passage => passage.signal = signal) =
    second.filter fun passage => passage.signal = signal

variable {first second : List (Passage layout file)}

theorem perm_of_rearranged (rearranged : Rearranged first second) : first.Perm second := by
  refine List.perm_iff_count.mpr fun passage => ?_
  have same := congrArg (List.count passage) (rearranged passage.signal)
  rwa [List.count_filter (by simp), List.count_filter (by simp)] at same

theorem entries_rearranged (rearranged : Rearranged first second) (section_ : Section) :
    Intake.entries section_ (first.flatMap taken) =
      Intake.entries section_ (second.flatMap taken) := by
  rw [entries_opening, rearranged, ← entries_opening]

theorem gathered_rearranged {first second : List (Passage rules.layout file)}
    (rearranged : Rearranged first second) :
    FileReport.gathered rules file (first.flatMap taken) =
      FileReport.gathered rules file (second.flatMap taken) := by
  simp only [gathered_eq, entries_rearranged rearranged]

end Passage

theorem tallies_rearranged {rules : Ruleset} {file : String}
    {first second : List (Passage rules.layout file)}
    (rearranged : Passage.Rearranged first second) :
    (first.flatMap Passage.tallies).foldl Tally.plus .zero =
      (second.flatMap Passage.tallies).foldl Tally.plus .zero :=
  ((Passage.perm_of_rearranged rearranged).flatMap_right Passage.tallies).foldl_op_eq

namespace Classifier

variable [Receiver σ ε] {rules : Ruleset} {file : String} {s t : State σ} {receiver : σ}
  {report : FileReport} {raw : String} {body : List String}

theorem feedAll_cons {c : Classifier} (fed : c.feed s raw = (t, none))
    (reads : List Text.LineRead) : c.feedAll s (.ok raw :: reads) = c.feedAll t reads := by
  rw [feedAll, fed]

theorem feed_plain (opened : s.report? = some report) (named : report.file = file)
    (plain : (rules.layout.kind (Text.trim raw)).isStructural = false) :
    (Classifier.mk rules false).feed s raw =
      (⟨some (report.takeIn rules (rules.layout.gives s.inside? raw)), s.inside?,
        s.tally.plus (rules.plainTally file s.inside? raw), s.receiver⟩, none) := by
  obtain ⟨report?, inside?, tally, receiver⟩ := s
  subst opened named
  cases kind : rules.layout.kind (Text.trim raw) with
  | noise =>
    rw [feed_noise (c := ⟨rules, false⟩) kind, gives_other (by simp [kind]), plainTally_noise kind]
    rfl
  | boundary => rw [kind] at plain; cases plain
  | header header => rw [kind] at plain; cases plain
  | content =>
    rw [feed_content (c := ⟨rules, false⟩) kind]
    cases inside? with
    | none =>
      rw [absorb_outside (.inr rfl), gives_outside, plainTally_outside kind]
      rfl
    | some section_ =>
      rw [absorb_inside rfl rfl, gives_inside kind, plainTally_inside kind, dropped_one]
      rfl

-- By induction on the lines: nothing plain closes the report or leaves the section.
theorem feedAll_plain (opened : s.report? = some report) (named : report.file = file)
    (plain : ∀ raw ∈ body, (rules.layout.kind (Text.trim raw)).isStructural = false)
    (reads : List Text.LineRead) :
    (Classifier.mk rules false).feedAll s (body.map .ok ++ reads) =
      (Classifier.mk rules false).feedAll
        ⟨some (report.takeIn rules (body.flatMap (rules.layout.gives s.inside?))), s.inside?,
          (body.map (rules.plainTally file s.inside?)).foldl Tally.plus s.tally, s.receiver⟩
        reads := by
  induction body generalizing s report with
  | nil =>
    obtain ⟨report?, inside?, tally, receiver⟩ := s
    subst opened
    rfl
  | cons raw rest ih =>
    have first := feed_plain opened named (plain raw List.mem_cons_self)
    have next := ih (s := ⟨some (report.takeIn rules (rules.layout.gives s.inside? raw)), s.inside?,
      s.tally.plus (rules.plainTally file s.inside? raw), s.receiver⟩) rfl
      (by simpa using named)
      fun other member => plain other (List.mem_cons_of_mem _ member)
    rw [List.map_cons, List.cons_append, feedAll_cons first, next, List.flatMap_cons,
      takeIn_append, List.map_cons, List.foldl_cons]

-- A header opens a report for its file, unless one is open already.
theorem feed_headed {c : Classifier} (ready : s.report?.getD (.opened file) = report)
    (named : report.file = file)
    (headed : c.rules.layout.kind (Text.trim raw) = .header ⟨signal, file⟩) :
    c.feed s raw =
      (⟨some report, Section.after? none signal, s.tally.plus .line, s.receiver⟩, none) := by
  obtain ⟨report?, inside?, tally, receiver⟩ := s
  rw [feed_header headed]
  cases report? with
  | none =>
    rw [openSection_idle rfl]
    subst ready
    rfl
  | some open_ =>
    cases ready
    rw [openSection_same rfl named]
    rfl

theorem feedAll_passage (ready : s.report?.getD (.opened file) = report)
    (named : report.file = file) (passage : Passage rules.layout file)
    (reads : List Text.LineRead) :
    (Classifier.mk rules false).feedAll s (passage.lines.map .ok ++ reads) =
      (Classifier.mk rules false).feedAll
        ⟨some (report.takeIn rules passage.taken), passage.inside?,
          passage.tallies.foldl Tally.plus s.tally, s.receiver⟩ reads := by
  have headed := feed_headed (c := ⟨rules, false⟩) ready named passage.headed
  rw [Passage.lines, List.map_cons, List.cons_append, feedAll_cons headed,
    feedAll_plain rfl named passage.plain]
  rfl

-- By induction on the passages: each finds the report that the one before it left open.
theorem feedAll_passages (ready : s.report?.getD (.opened file) = report)
    (named : report.file = file) {passages : List (Passage rules.layout file)}
    (filled : passages ≠ []) :
    ∃ inside?, (Classifier.mk rules false).feedAll s ((passages.flatMap Passage.lines).map .ok) =
      (⟨some (report.takeIn rules (passages.flatMap Passage.taken)), inside?,
        (passages.flatMap Passage.tallies).foldl Tally.plus s.tally, s.receiver⟩, none) := by
  induction passages generalizing s report with
  | nil => exact absurd rfl filled
  | cons passage rest ih =>
    simp only [List.flatMap_cons, List.map_append, List.foldl_append, takeIn_append]
    rw [feedAll_passage ready named]
    by_cases last : rest = []
    · subst last
      exact ⟨_, rfl⟩
    · exact ih rfl (by simpa using named) last

theorem finish_open (c : Classifier) (report : FileReport) (inside? : Option Section)
    (tally : Tally) (receiver : σ) :
    c.finish ⟨some report, inside?, tally, receiver⟩ =
      c.finish ⟨some report, none, tally, receiver⟩ := rfl

theorem processLines_passages {passages : List (Passage rules.layout file)}
    (filled : passages ≠ []) (receiver : σ) :
    (Classifier.mk rules false).processLines receiver (passages.flatMap Passage.lines) =
      (Classifier.mk rules false).finish
        ⟨some (.gathered rules file (passages.flatMap Passage.taken)), none,
          (passages.flatMap Passage.tallies).foldl Tally.plus .zero, receiver⟩ := by
  obtain ⟨inside?, fed⟩ := feedAll_passages (s := start receiver) rfl rfl filled
  rw [processLines_finished fed]
  exact finish_open _ _ _ _ _

theorem open_passages {passages : List (Passage rules.layout file)} (filled : passages ≠ [])
    (receiver : σ) :
    ((Classifier.mk rules false).feedAll (start receiver)
      ((passages.flatMap Passage.lines).map .ok)).1.report? =
        some (.gathered rules file (passages.flatMap Passage.taken)) := by
  obtain ⟨inside?, fed⟩ := feedAll_passages (s := start receiver) rfl rfl filled
  rw [fed]
  rfl

theorem collect_passages {passages : List (Passage rules.layout file)} (filled : passages ≠ []) :
    (Classifier.mk rules false).processLines (⟨[]⟩ : Collected)
        (passages.flatMap Passage.lines) =
      ⟨⟨[rules.finished (.gathered rules file (passages.flatMap Passage.taken))]⟩,
        .ok (((passages.flatMap Passage.tallies).foldl Tally.plus .zero).plus
          ⟨0, 0, 0, 0, 1⟩)⟩ := by
  rw [processLines_passages filled, finish_willing collected_willing, close_open rfl]
  rfl

-- The second part holds of every receiver, as nothing is handed over before the end.
theorem passages_rearranged (rules : Ruleset) (file : String)
    {first second : List (Passage rules.layout file)}
    (rearranged : Passage.Rearranged first second) (receiver : σ) :
    let c : Classifier := ⟨rules, false⟩
    let lines := fun passages : List (Passage rules.layout file) =>
      passages.flatMap Passage.lines
    first.Perm second ∧
      c.processLines receiver (lines first) = c.processLines receiver (lines second) ∧
      (first ≠ [] → ∃ gathered tally, gathered.file = file ∧ ∀ passages ∈ [first, second],
        (c.feedAll (start receiver) ((lines passages).map .ok)).1.report? = some gathered ∧
          c.processLines (⟨[]⟩ : Collected) (lines passages) =
            ⟨⟨[(gathered.consolidate rules.umbrella).1]⟩, .ok tally⟩) := by
  intro c lines
  have permuted := Passage.perm_of_rearranged rearranged
  have gathered := Passage.gathered_rearranged rearranged
  have counted := tallies_rearranged rearranged
  refine ⟨permuted, ?_, fun filled => ?_⟩
  · by_cases filled : first = []
    · subst filled
      rw [List.nil_perm.mp permuted]
    · have filledToo : second ≠ [] := fun empty => filled (empty ▸ permuted).eq_nil
      rw [processLines_passages filled, processLines_passages filledToo, gathered, counted]
  · have filledToo : second ≠ [] := fun empty => filled (empty ▸ permuted).eq_nil
    have named : (FileReport.gathered rules file (first.flatMap Passage.taken)).file = file :=
      takeIn_file rules (.opened file) _
    refine ⟨_, _, named, List.forall_mem_cons.mpr
      ⟨⟨open_passages filled receiver, collect_passages filled⟩, List.forall_mem_singleton.mpr ?_⟩⟩
    rw [gathered, counted]
    exact ⟨open_passages filledToo receiver, collect_passages filledToo⟩

-- The umbrella header is removed in a passage that comes first in one order and last in the other.
theorem passages_rearranged_removals :
    let additions : Passage Ruleset.builtin.layout "a.h" :=
      ⟨.add, "../a.h should add these lines:", ["class B;", "class JSObject;"], by decide +kernel,
        by decide +kernel⟩
    let removals : Passage Ruleset.builtin.layout "a.h" :=
      ⟨.remove, "../a.h should remove these lines:", ["", "- #include <js/TypeDecls.h>"],
        by decide +kernel, by decide +kernel⟩
    let first := [removals, additions]
    let second := [additions, removals]
    let c : Classifier := ⟨.builtin, false⟩
    Passage.Rearranged first second ∧ first ≠ [] ∧ ∃ tally,
      ∀ passages ∈ [first, second],
        c.processLines (⟨[]⟩ : Collected) (passages.flatMap Passage.lines) =
          ⟨⟨[⟨"a.h", .ofList [⟨"class B;", ""⟩], .empty, .empty, true⟩]⟩, .ok tally⟩ := by
  intro additions removals first second c
  have rearranged : Passage.Rearranged first second := by
    intro signal
    cases signal <;> decide
  have filled : first ≠ [] := List.cons_ne_nil _ _
  have reports :
      (c.processLines (⟨[]⟩ : Collected) (first.flatMap Passage.lines)).receiver.reports =
        [⟨"a.h", .ofList [⟨"class B;", ""⟩], .empty, .empty, true⟩] := by
    decide +kernel
  obtain ⟨_, _, delivered⟩ := passages_rearranged .builtin "a.h" rearranged (⟨[]⟩ : Collected)
  obtain ⟨gathered, tally, _, both⟩ := delivered filled
  have ended : ∀ passages ∈ [first, second],
      c.processLines (⟨[]⟩ : Collected) (passages.flatMap Passage.lines) =
        ⟨⟨[(gathered.consolidate Ruleset.builtin.umbrella).1]⟩, .ok tally⟩ :=
    fun passages member => (both passages member).2
  rw [ended first List.mem_cons_self] at reports
  dsimp only at reports
  rw [reports] at ended
  exact ⟨rearranged, filled, tally, ended⟩

end Classifier

end IncludeTidy
