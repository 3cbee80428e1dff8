import IncludeTidy.Proofs.Intake
import IncludeTidy.Proofs.Written

namespace IncludeTidy

-- What the analyzer says about one file, before it is written down.
structure Listing where
  file : String
  additions : List Entry
  removals : List Entry
  fullList : List Entry
deriving DecidableEq, Repr

namespace Listing

def lines (listing : Listing) : List String :=
  ["../" ++ listing.file ++ " should add these lines:"] ++
    listing.additions.map Entry.shown ++
    ["../" ++ listing.file ++ " should remove these lines:"] ++
    listing.removals.map Entry.removalLine ++
    ["The full include-list for ../" ++ listing.file ++ ":"] ++
    listing.fullList.map Entry.shown ++
    ["---"]

-- A listing that its own lines do not blur. A removal is told from a header by its mark, the other
-- entries have to be content by themselves.
structure Legible (listing : Listing) : Prop where
  oneLine : '\n' ∉ listing.file.toList
  unannounced : ¬ " should add these lines:".toList <:+: listing.file.toList
  additions : ∀ entry ∈ listing.additions,
    entry.Legible ∧ Layout.builtin.kind entry.shown = .content
  removals : ∀ entry ∈ listing.removals,
    entry.Legible ∧ ¬ "//".toList <+: entry.directive.toList
  fullList : ∀ entry ∈ listing.fullList,
    entry.Legible ∧ Layout.builtin.kind entry.shown = .content

instance (listing : Listing) : Decidable listing.Legible :=
  decidable_of_iff
    ('\n' ∉ listing.file.toList ∧ ¬ " should add these lines:".toList <:+: listing.file.toList ∧
      (∀ entry ∈ listing.additions,
        entry.Legible ∧ Layout.builtin.kind entry.shown = .content) ∧
      (∀ entry ∈ listing.removals, entry.Legible ∧ ¬ "//".toList <+: entry.directive.toList) ∧
      ∀ entry ∈ listing.fullList, entry.Legible ∧ Layout.builtin.kind entry.shown = .content)
    ⟨fun ⟨oneLine, unannounced, added, removed, full⟩ =>
        ⟨oneLine, unannounced, added, removed, full⟩,
      fun ⟨oneLine, unannounced, added, removed, full⟩ =>
        ⟨oneLine, unannounced, added, removed, full⟩⟩

def report (rules : Ruleset) (listing : Listing) : FileReport where
  file := listing.file
  additions := .ofList (listing.additions.filter fun entry =>
    rules.screen listing.file entry = .keep)
  removals := .ofList listing.removals
  fullList := .ofList listing.fullList
  needsUmbrella := listing.additions.any fun entry => rules.umbrella.covers entry.directive

def dropped (rules : Ruleset) (listing : Listing) : List Entry :=
  listing.additions.filter fun entry => rules.screen listing.file entry = .falsePositive

end Listing

-- What reading listings counts: no line is noise or out of place.
def Tally.ofListings (rules : Ruleset) (listings : List Listing) : Tally where
  linesRead := (listings.flatMap Listing.lines).length
  noise := 0
  unrecognized := 0
  falsePositives := (listings.flatMap (Listing.dropped rules)).length
  files := listings.length

def Tally.grown (tally : Tally) (lines dropped files : Nat) : Tally :=
  { tally with
    linesRead := tally.linesRead + lines
    falsePositives := tally.falsePositives + dropped
    files := tally.files + files }

@[simp]
theorem grown_grown (tally : Tally) (lines dropped files moreLines moreDropped moreFiles : Nat) :
    (tally.grown lines dropped files).grown moreLines moreDropped moreFiles =
      tally.grown (lines + moreLines) (dropped + moreDropped) (files + moreFiles) := by
  simp only [Tally.grown, Nat.add_assoc]

namespace Listing

variable {listing : Listing} {entries : List Entry}

-- All that reading a listing takes in.
def taken (listing : Listing) : List Intake :=
  Intake.under .additions (listing.additions.map Entry.shown) ++
    Intake.under .removals (listing.removals.map Entry.removalLine) ++
    Intake.under .fullList (listing.fullList.map Entry.shown)

theorem map_kept {f : Entry → Entry} (kept : ∀ entry ∈ entries, f entry = entry) :
    entries.map f = entries :=
  (List.map_congr_left kept).trans (List.map_id entries)

-- Additions and the full list are written alike.
theorem shown_back
    (plain : ∀ entry ∈ entries, entry.Legible ∧ Layout.builtin.kind entry.shown = .content) :
    entries.map (Entry.ofLine ∘ Entry.shown) = entries :=
  map_kept fun entry member => ofLine_shown (plain entry member).1

theorem shown_contents
    (plain : ∀ entry ∈ entries, entry.Legible ∧ Layout.builtin.kind entry.shown = .content) :
    ∀ line ∈ entries.map Entry.shown,
      Text.trim line = line ∧ Layout.builtin.kind line = .content := by
  intro line written
  obtain ⟨entry, member, rfl⟩ := List.mem_map.mp written
  obtain ⟨readable, content⟩ := plain entry member
  exact ⟨Text.trim_of_trimmed (trimmed_shown readable), content⟩

theorem removalLine_back
    (marked : ∀ entry ∈ entries, entry.Legible ∧ ¬ "//".toList <+: entry.directive.toList) :
    entries.map (Entry.withoutRemovalMark ∘ Entry.ofLine ∘ Entry.removalLine) = entries := by
  refine map_kept fun entry member => ?_
  obtain ⟨readable, uncommented⟩ := marked entry member
  simp only [Function.comp_apply]
  exact ofLine_removalLine readable uncommented

theorem removalLine_contents
    (marked : ∀ entry ∈ entries, entry.Legible ∧ ¬ "//".toList <+: entry.directive.toList) :
    ∀ line ∈ entries.map Entry.removalLine,
      Text.trim line = line ∧ Layout.builtin.kind line = .content := by
  intro line written
  obtain ⟨entry, member, rfl⟩ := List.mem_map.mp written
  obtain ⟨readable, uncommented⟩ := marked entry member
  have trimmed := trimmed_shown (legible_marked readable uncommented)
  rw [shown_marked] at trimmed
  exact ⟨Text.trim_of_trimmed trimmed, kind_removalLine entry⟩

theorem entries_additions (legible : listing.Legible) :
    Intake.entries .additions listing.taken = listing.additions := by
  simp [taken, shown_back legible.additions]

theorem entries_removals (legible : listing.Legible) :
    (Intake.entries .removals listing.taken).map Entry.withoutRemovalMark = listing.removals := by
  simp [taken, removalLine_back legible.removals]

theorem entries_fullList (legible : listing.Legible) :
    Intake.entries .fullList listing.taken = listing.fullList := by
  simp [taken, shown_back legible.fullList]

-- Counted in the order in which the lines stand.
theorem lines_length (listing : Listing) :
    listing.lines.length =
      1 + listing.additions.length + 1 + listing.removals.length + 1 +
        listing.fullList.length + 1 := by
  simp [lines]
  omega

theorem gathered_taken (rules : Ruleset) (legible : listing.Legible) :
    FileReport.gathered rules listing.file listing.taken = listing.report rules := by
  rw [gathered_eq, entries_additions legible, entries_removals legible, entries_fullList legible]
  rfl

end Listing

theorem dropped_taken {listing : Listing} (rules : Ruleset) (legible : listing.Legible) :
    Intake.dropped rules listing.file listing.taken = listing.dropped rules := by
  rw [Intake.dropped, Listing.entries_additions legible, Listing.dropped]

namespace Classifier

variable [Receiver σ ε] {c : Classifier} {receiver : σ} {tally : Tally} {report : FileReport}
  {section_ : Section} {line : String} {listing : Listing}

theorem feed_under (trimmed : Text.trim line = line)
    (content : c.rules.layout.kind line = .content) :
    c.feed ⟨some report, some section_, tally, receiver⟩ line =
      (⟨some (report.takeIn c.rules [⟨section_, line⟩]), some section_,
        tally.grown 1 (Intake.dropped c.rules report.file [⟨section_, line⟩]).length 0, receiver⟩,
        none) := by
  rw [feed_content (by rw [trimmed, content]), absorb_inside rfl rfl, trimmed, dropped_one]
  rfl

-- By induction on the lines: under an open header, content goes into the report and is counted.
theorem ending_under {lines : List String}
    (contents : ∀ line ∈ lines, Text.trim line = line ∧ c.rules.layout.kind line = .content)
    (rest : List Text.LineRead) :
    c.ending ⟨some report, some section_, tally, receiver⟩ (lines.map .ok ++ rest) =
      c.ending ⟨some (report.takeIn c.rules (Intake.under section_ lines)), some section_,
        tally.grown lines.length
          (Intake.dropped c.rules report.file (Intake.under section_ lines)).length 0, receiver⟩
        rest := by
  induction lines generalizing report tally with
  | nil => rfl
  | cons line lines ih =>
    obtain ⟨trimmed, content⟩ := contents line List.mem_cons_self
    have first : Intake.under section_ (line :: lines) =
      [⟨section_, line⟩] ++ Intake.under section_ lines := rfl
    rw [List.map_cons, List.cons_append, ending_cons (feed_under trimmed content),
      ih fun line member => contents line (List.mem_cons_of_mem _ member), first, takeIn_append,
      dropped_append]
    simp [Nat.add_comm 1]

theorem feed_first (header : c.rules.layout.kind (Text.trim line) = .header ⟨signal, file⟩)
    (opens : Section.after? none signal = some section_) :
    c.feed ⟨none, none, tally, receiver⟩ line =
      (⟨some (.opened file), some section_, tally.grown 1 0 0, receiver⟩, none) := by
  rw [feed_header header, openSection_idle rfl, opens]
  rfl

theorem feed_next (header : c.rules.layout.kind (Text.trim line) = .header ⟨signal, file⟩)
    (opens : Section.after? none signal = some section_) (same : report.file = file) :
    c.feed ⟨some report, some other, tally, receiver⟩ line =
      (⟨some report, some section_, tally.grown 1 0 0, receiver⟩, none) := by
  rw [feed_header header, openSection_same rfl same, opens]
  rfl

theorem feed_last (willing : Receiver.Willing σ)
    (boundary : c.rules.layout.kind (Text.trim line) = .boundary) :
    c.feed ⟨some report, some section_, tally, receiver⟩ line =
      (⟨none, none, tally.grown 1 0 1, (Receiver.accept receiver (c.rules.finished report)).1⟩,
        none) := by
  rw [feed_boundary boundary, close_open rfl, willing]
  rfl

-- The lines of one listing lead from one idle state to the next.
theorem ending_listing (willing : Receiver.Willing σ) (builtin : c.rules.layout = .builtin)
    (legible : listing.Legible) (rest : List Text.LineRead) :
    c.ending ⟨none, none, tally, receiver⟩ (listing.lines.map .ok ++ rest) =
      c.ending ⟨none, none, tally.grown listing.lines.length (listing.dropped c.rules).length 1,
        (Receiver.accept receiver (c.rules.finished (listing.report c.rules))).1⟩ rest := by
  have additions := Listing.shown_contents legible.additions
  have removals := Listing.removalLine_contents legible.removals
  have fullList := Listing.shown_contents legible.fullList
  have boundary : Layout.builtin.kind (Text.trim "---") = .boundary := by decide
  rw [← builtin] at additions removals fullList boundary
  have additionsHeader := kind_additionsHeader legible.oneLine
  have removalsHeader := kind_removalsHeader legible.oneLine legible.unannounced
  have fullListHeader := kind_fullListHeader legible.oneLine
  rw [← builtin] at additionsHeader removalsHeader fullListHeader
  have gathered := Listing.gathered_taken c.rules legible
  have counted := dropped_taken c.rules legible
  simp only [FileReport.gathered, Listing.taken, takeIn_append] at gathered
  simp only [Listing.taken, dropped_append] at counted
  rw [Listing.lines_length, ← counted, ← gathered]
  simp only [Listing.lines, List.map_append, List.map_cons, List.map_nil, List.append_assoc,
    List.cons_append, List.nil_append]
  rw [ending_cons (feed_first additionsHeader rfl), ending_under additions,
    ending_cons (feed_next removalsHeader rfl (by simp [FileReport.opened])),
    ending_under removals,
    ending_cons (feed_next fullListHeader rfl (by simp [FileReport.opened])),
    ending_under fullList, ending_cons (feed_last willing boundary)]
  simp [FileReport.opened, Nat.add_assoc]

-- By induction on the listings, from any state in which no report is open.
theorem ending_listings {listings : List Listing} (willing : Receiver.Willing σ)
    (builtin : c.rules.layout = .builtin) (legible : ∀ listing ∈ listings, listing.Legible) :
    c.ending ⟨none, none, tally, receiver⟩ ((listings.flatMap Listing.lines).map .ok) =
      ⟨Receiver.takeAll receiver
          (listings.map fun listing => c.rules.finished (listing.report c.rules)),
        .ok (tally.grown (listings.flatMap Listing.lines).length
          (listings.flatMap (Listing.dropped c.rules)).length listings.length)⟩ := by
  induction listings generalizing receiver tally with
  | nil => rfl
  | cons listing rest ih =>
    have readable := legible listing List.mem_cons_self
    rw [List.flatMap_cons, List.map_append, ending_listing willing builtin readable,
      ih fun other member => legible other (List.mem_cons_of_mem _ member)]
    simp [Nat.add_comm]

-- What an analyzer prints is read back as it was meant, and nothing in it is stray, so strictness
-- makes no difference.
theorem processLines_listings {listings : List Listing} (willing : Receiver.Willing σ)
    (strict : Bool) (receiver : σ) (legible : ∀ listing ∈ listings, listing.Legible) :
    let reports := listings.map fun listing =>
      ((listing.report .builtin).consolidate Ruleset.builtin.umbrella).1
    reports.map FileReport.file = listings.map Listing.file ∧
      processLines ⟨.builtin, strict⟩ receiver (listings.flatMap Listing.lines) =
        ⟨Receiver.takeAll receiver reports, .ok (Tally.ofListings .builtin listings)⟩ := by
  intro reports
  constructor
  · rw [List.map_map]
    exact List.map_congr_left fun listing _ => finished_file .builtin (listing.report .builtin)
  · rw [processLines, processReads_ending, start, ending_listings willing rfl legible]
    simp [Tally.grown, Tally.zero, Tally.ofListings, Ruleset.finished, reports]

-- The names hold words of headers, and one file is listed twice.
theorem processLines_two_listings :
    let first : Listing :=
      ⟨"a should remove these lines:", [⟨"//x", "a // b"⟩, ⟨"class JSObject;", ""⟩], [],
        [⟨"#include <b.h>", "for  //"⟩]⟩
    let second : Listing :=
      ⟨"a should remove these lines:", [], [⟨"- class B;", "lines 1-1"⟩, ⟨"---", ""⟩], []⟩
    (∀ listing ∈ [first, second], listing.Legible) ∧
      processLines ⟨.builtin, false⟩ (⟨[]⟩ : Collected) ([first, second].flatMap Listing.lines) =
        ⟨⟨[⟨first.file, .ofList [⟨"//x", "a // b"⟩, ⟨"#include <js/TypeDecls.h>", ""⟩], .empty,
            .ofList first.fullList, true⟩,
          ⟨second.file, .empty, .ofList second.removals, .empty, false⟩]⟩,
          .ok ⟨13, 0, 0, 0, 2⟩⟩ := by
  intro first second
  have legible : ∀ listing ∈ [first, second], listing.Legible := by decide +kernel
  have reports : [first, second].map (fun listing =>
      ((listing.report .builtin).consolidate Ruleset.builtin.umbrella).1) =
      [⟨first.file, .ofList [⟨"//x", "a // b"⟩, ⟨"#include <js/TypeDecls.h>", ""⟩], .empty,
          .ofList first.fullList, true⟩,
        ⟨second.file, .empty, .ofList second.removals, .empty, false⟩] := by
    decide +kernel
  have tally : Tally.ofListings .builtin [first, second] = ⟨13, 0, 0, 0, 2⟩ := by decide +kernel
  obtain ⟨_, total⟩ := processLines_listings collected_willing false ⟨[]⟩ legible
  rw [reports, tally, takeAll_collected] at total
  exact ⟨legible, total⟩

end Classifier

end IncludeTidy
