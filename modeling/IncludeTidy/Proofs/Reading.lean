import IncludeTidy.Proofs.Gathered
import IncludeTidy.Proofs.Groups
import IncludeTidy.Proofs.Receivers
import IncludeTidy.Ruleset.Builtin

namespace IncludeTidy

variable {rules : Ruleset} {line : Placed} {rest : List Placed}

-- What a line gives to the report that is open where it stands.
def Placed.intake? (line : Placed) : Option Intake :=
  match line.kind, line.governor?.bind fun header => Section.after? none header.signal with
  | .content, some section_ => some ⟨section_, line.text⟩
  | _, _ => none

-- A group's report, line by line, as far as it has been read.
def FileReport.gatherLine (rules : Ruleset) (report : FileReport) (line : Placed) : FileReport :=
  report.takeIn rules line.intake?.toList

def FileReport.gather (rules : Ruleset) (report : FileReport) (body : List Placed) : FileReport :=
  report.takeIn rules (body.flatMap fun line => line.intake?.toList)

@[simp]
theorem gather_nil (rules : Ruleset) (report : FileReport) : report.gather rules [] = report := rfl

theorem gatherLine_plain (plain : line.kind ≠ .content) (rules : Ruleset) (report : FileReport) :
    report.gatherLine rules line = report := by
  simp [FileReport.gatherLine, Placed.intake?, plain]

theorem gather_cons (rules : Ruleset) (report : FileReport) (line : Placed) (body : List Placed) :
    report.gather rules (line :: body) = (report.gatherLine rules line).gather rules body := by
  simp [FileReport.gather, FileReport.gatherLine]

@[simp]
theorem entries_cons (file : String) (line : Placed) (body : List Placed) (signal : Signal) :
    Group.entries ⟨file, line :: body⟩ signal =
      (if line.isUnder signal then [Entry.ofLine line.text] else []) ++
        Group.entries ⟨file, body⟩ signal := by
  unfold Group.entries
  rw [List.filter_cons]
  split <;> rfl

theorem screened_cons (rules : Ruleset) (file : String) (line : Placed) (body : List Placed)
    (screening : Screening) :
    Group.screened rules ⟨file, line :: body⟩ screening =
      (if line.isUnder .add ∧ rules.screen file (Entry.ofLine line.text) = screening then
        [Entry.ofLine line.text] else []) ++
        Group.screened rules ⟨file, body⟩ screening := by
  unfold Group.screened
  rw [entries_cons]
  by_cases under : line.isUnder .add
  · by_cases screens : rules.screen file (Entry.ofLine line.text) = screening
    · simp [under, screens]
    · simp [under, screens]
  · simp [under]

theorem isUnder_other (content : line.kind ≠ .content) : line.isUnder signal = false := by
  simp [Placed.isUnder, content]

theorem isUnder_ungoverned (free : line.governor? = none) : line.isUnder signal = false := by
  simp [Placed.isUnder, free]

theorem isUnder_governed (content : line.kind = .content)
    (governed : line.governor? = some header) :
    line.isUnder signal = decide (header.signal = signal) := by
  simp [Placed.isUnder, content, governed]

theorem entries_intake? (announces : Section.after? none signal = some section_) (line : Placed) :
    Intake.entries section_ line.intake?.toList =
      if line.isUnder signal then [Entry.ofLine line.text] else [] := by
  by_cases content : line.kind = .content
  · cases governed : line.governor? with
    | none => simp [Placed.intake?, governed, isUnder_ungoverned governed, Intake.entries]
    | some header =>
      rw [isUnder_governed content governed]
      cases signal <;> cases announces <;> cases other : header.signal <;>
        simp [Placed.intake?, content, governed, other, Section.after?, Intake.entries]
  · simp [Placed.intake?, content, isUnder_other content, Intake.entries]

theorem entries_gathered (signal : Signal)
    (announces : Section.after? none signal = some section_) (file : String) (body : List Placed) :
    Intake.entries section_ (body.flatMap fun line => line.intake?.toList) =
      Group.entries ⟨file, body⟩ signal := by
  induction body with
  | nil => rfl
  | cons line body ih =>
    simp [ih, entries_intake? announces]

-- What a group gathers from its lines one by one is what its lists of entries say at once.
theorem gather_opened (rules : Ruleset) (group : Group) :
    (FileReport.opened group.file).gather rules group.body = group.report rules := by
  have additions := entries_gathered .add rfl group.file group.body
  have removals := entries_gathered .remove rfl group.file group.body
  have fullList := entries_gathered .fullList rfl group.file group.body
  have needed : ((group.entries .add).any fun entry => rules.umbrella.covers entry.directive) =
      !(group.screened rules .forwardDecl).isEmpty := by
    rw [Bool.eq_iff_iff]
    simp [Group.screened, screen_forwardDecl_iff]
  have gathered := gathered_eq rules group.file
    (group.body.flatMap fun line => line.intake?.toList)
  rw [additions, removals, fullList, needed] at gathered
  exact gathered

@[simp]
theorem bodyOf_cons (line : Placed) (rest : List Placed) :
    Group.bodyOf (line :: rest) = if line.ends then [] else line :: Group.bodyOf rest := by
  unfold Group.bodyOf
  rw [List.takeWhile_cons]
  cases line.ends <;> rfl

@[simp]
theorem all_cons (line : Placed) (rest : List Placed) :
    Group.all (line :: rest) =
      (line.starts?.toList.map fun file => ⟨file, Group.bodyOf rest⟩) ++ Group.all rest := by
  rw [Group.all]
  cases line.starts? <;> rfl

theorem starts?_of_goesOn (goesOn : line.ends = false) : line.starts? = none := by
  unfold Placed.ends at goesOn
  rw [Bool.or_eq_false_iff] at goesOn
  simpa using goesOn.2

-- The groups that are not handed over yet: the open report's, with all that still belongs to it,
-- and those that start below.
def Group.pending (file? : Option String) (lines : List Placed) : List Group :=
  (file?.toList.map fun file => ⟨file, bodyOf lines⟩) ++ all lines

def FileReport.pending (rules : Ruleset) (report? : Option FileReport) (lines : List Placed) :
    List FileReport :=
  (report?.toList.map fun report => report.gather rules (Group.bodyOf lines)) ++
    (Group.all lines).map fun group => (FileReport.opened group.file).gather rules group.body

theorem pending_of_ends (ends : line.ends = true) (report? : Option FileReport) :
    FileReport.pending rules report? (line :: rest) =
      report?.toList ++ FileReport.pending rules (line.starts?.map .opened) rest := by
  unfold FileReport.pending
  cases report? <;> cases starts : line.starts? <;> simp [ends, starts, FileReport.opened]

theorem pending_of_goesOn (goesOn : line.ends = false) (report? : Option FileReport) :
    FileReport.pending rules report? (line :: rest) =
      FileReport.pending rules (report?.map fun report => report.gatherLine rules line) rest := by
  unfold FileReport.pending
  cases report? <;> simp [goesOn, starts?_of_goesOn goesOn, gather_cons]

def Ruleset.drops (rules : Ruleset) (groups : List Group) : Nat :=
  (groups.flatMap fun group => group.screened rules .falsePositive).length

theorem drops_of_ends (ends : line.ends = true) (file? : Option String) :
    rules.drops (Group.pending file? (line :: rest)) =
      rules.drops (Group.pending line.starts? rest) := by
  unfold Group.pending Ruleset.drops
  cases file? <;> cases starts : line.starts? <;> simp [ends, starts, Group.screened, Group.entries]

theorem drops_of_goesOn (goesOn : line.ends = false) (file? : Option String) :
    rules.drops (Group.pending file? (line :: rest)) =
      (file?.toList.countP fun file =>
        line.isUnder .add && rules.screen file (Entry.ofLine line.text) = .falsePositive) +
        rules.drops (Group.pending file? rest) := by
  unfold Group.pending Ruleset.drops
  rw [bodyOf_cons, if_neg (by simp [goesOn]), all_cons, starts?_of_goesOn goesOn]
  cases file? with
  | none => simp
  | some file =>
    simp only [Option.toList_some, Option.toList_none, List.map_cons, List.map_nil, List.nil_append,
      List.cons_append, List.flatMap_cons, screened_cons, List.length_append, List.countP_cons,
      List.countP_nil]
    by_cases under : line.isUnder .add
    · by_cases screens : rules.screen file (Entry.ofLine line.text) = .falsePositive
      · simp [under, screens]; omega
      · simp [under, screens]
    · simp [under]

theorem place_length (layout : Layout) (above : List LineKind) (lines : List String) :
    (layout.place above lines).length = lines.length := by
  induction lines generalizing above with
  | nil => rfl
  | cons raw rest ih => rw [Layout.place, List.length_cons, List.length_cons, ih]

namespace Classifier

-- Where a classification stands under the lines above: a report is open exactly if the last
-- structural line is a header, and that header names its file and the section.
inductive State.Stands (above : List LineKind) (s : State σ) : Prop where
  | idle (free : ∀ header, above.find? LineKind.isStructural ≠ some (.header header))
      (report : s.report? = none) (inside : s.inside? = none)
  | gathering (governed : above.find? LineKind.isStructural = some (.header header))
      (current : s.report? = some report) (file : report.file = header.file)
      (inside : s.inside? = Section.after? none header.signal)

variable [Receiver σ ε] {c : Classifier} {s t : State σ} {above : List LineKind}

-- How a run has to end: all that is pending goes to the receiver, and the counts grow by what the
-- lines hold.
def foreseen (rules : Ruleset) (s : State σ) (lines : List Placed) : Ending σ ε where
  receiver :=
    Receiver.takeAll s.receiver ((FileReport.pending rules s.report? lines).map rules.finished)
  result := .ok {
    linesRead := s.tally.linesRead + lines.length
    noise := s.tally.noise + lines.countP fun line => line.kind = .noise
    unrecognized := s.tally.unrecognized + lines.countP Placed.isStray
    falsePositives :=
      s.tally.falsePositives + rules.drops (Group.pending (s.report?.map FileReport.file) lines)
    files := s.tally.files + (FileReport.pending rules s.report? lines).length }

theorem finish_foreseen (willing : Receiver.Willing σ) (c : Classifier) (s : State σ) :
    c.finish s = foreseen c.rules s [] := by
  cases current : s.report? with
  | none =>
    rw [finish_idle current]
    unfold foreseen
    rw [current]
    simp [FileReport.pending, Group.pending, Group.all, Ruleset.drops]
  | some report =>
    rw [finish_current current, willing]
    unfold foreseen
    rw [current]
    simp [FileReport.pending, Group.pending, Group.bodyOf, Group.all, Ruleset.drops,
      Group.screened, Group.entries]

theorem foreseen_of_goesOn (goesOn : line.ends = false)
    (report : t.report? = s.report?.map fun report => report.gatherLine rules line)
    (receiver : t.receiver = s.receiver)
    (tally : t.tally = {
      linesRead := s.tally.linesRead + 1
      noise := s.tally.noise + if line.kind = .noise then 1 else 0
      unrecognized := s.tally.unrecognized + if line.isStray then 1 else 0
      falsePositives :=
        s.tally.falsePositives + (s.report?.map FileReport.file).toList.countP fun file =>
          line.isUnder .add && rules.screen file (Entry.ofLine line.text) = .falsePositive
      files := s.tally.files }) :
    foreseen rules s (line :: rest) = foreseen rules t rest := by
  have file : t.report?.map FileReport.file = s.report?.map FileReport.file := by
    rw [report, Option.map_map]
    cases s.report? with
    | none => rfl
    | some report => simp [FileReport.gatherLine]
  unfold foreseen
  rw [pending_of_goesOn goesOn, drops_of_goesOn goesOn, file, report, receiver, tally]
  simp only [List.length_cons, List.countP_cons, decide_eq_true_eq, Nat.add_assoc, Nat.add_comm 1,
    Nat.add_comm (List.countP _ rest)]

theorem foreseen_of_ends (ends : line.ends = true) (structural : line.kind.isStructural = true)
    (report : t.report? = line.starts?.map .opened)
    (receiver : t.receiver = Receiver.takeAll s.receiver (s.report?.toList.map rules.finished))
    (tally : t.tally =
      { s.tally with
        linesRead := s.tally.linesRead + 1
        files := s.tally.files + s.report?.toList.length }) :
    foreseen rules s (line :: rest) = foreseen rules t rest := by
  have file : t.report?.map FileReport.file = line.starts? := by
    rw [report, Option.map_map]
    cases line.starts? <;> rfl
  have silent : (line.kind = .noise) = False ∧ line.isStray = false := by
    cases kind : line.kind <;> simp [kind, LineKind.isStructural, Placed.isStray] at structural ⊢
  unfold foreseen
  rw [pending_of_ends ends, drops_of_ends ends, file, report, receiver, tally]
  simp [silent, Nat.add_assoc, Nat.add_comm 1]

-- The nearest header above a line governs it, and if no boundary is nearer, it is the last
-- structural line too.
theorem governor_of_top (governed : above.find? LineKind.isStructural = some (.header header)) :
    above.findSome? LineKind.header? = some header := by
  induction above with
  | nil => cases governed
  | cons kind rest ih =>
    cases kind with
    | noise => exact ih governed
    | content => exact ih governed
    | boundary => cases governed
    | header nearest => cases governed; rfl

-- What a step leads to: a state that stands under one line more, and from which the same ending is
-- foreseen.
def Leads (c : Classifier) (above : List LineKind) (s : State σ) (raw : String) : Prop :=
  ∃ t, c.feed s raw = (t, none) ∧ t.Stands (c.rules.layout.kind (Text.trim raw) :: above) ∧
    ∀ rest, foreseen c.rules s
        (⟨Text.trim raw, c.rules.layout.kind (Text.trim raw), above⟩ :: rest) =
      foreseen c.rules t rest

theorem stands_under (stands : s.Stands above) (plain : kind.isStructural = false)
    (report : t.report?.map FileReport.file = s.report?.map FileReport.file)
    (inside : t.inside? = s.inside?) : t.Stands (kind :: above) := by
  have same : (kind :: above).find? LineKind.isStructural = above.find? LineKind.isStructural := by
    rw [List.find?_cons, plain]
  cases stands with
  | idle free idle outside =>
    refine .idle (by rwa [same]) ?_ (inside.trans outside)
    rw [idle, Option.map_none] at report
    exact Option.map_eq_none_iff.mp report
  | @gathering header current governed opened file section_ =>
    rw [opened, Option.map_some, file] at report
    obtain ⟨later, openedToo, file⟩ := Option.map_eq_some_iff.mp report
    exact .gathering (by rw [same]; exact governed) openedToo file (inside.trans section_)

theorem ends_of_plain (plain : line.kind.isStructural = false) : line.ends = false := by
  cases kind : line.kind <;>
    simp [Placed.ends, Placed.starts?, kind, LineKind.isStructural] at plain ⊢

theorem noise_leads (stands : s.Stands above)
    (kind : c.rules.layout.kind (Text.trim raw) = .noise) : c.Leads above s raw := by
  unfold Leads
  rw [feed_noise kind, kind]
  refine ⟨_, rfl, stands_under stands rfl rfl rfl, fun rest => ?_⟩
  apply foreseen_of_goesOn (ends_of_plain rfl)
  · cases current : s.report? <;> simp [State.counted, current, gatherLine_plain]
  · rfl
  · simp [State.counted, Placed.isStray, Placed.isUnder]

theorem boundary_leads (willing : Receiver.Willing σ) (c : Classifier) (above : List LineKind)
    (s : State σ) (kind : c.rules.layout.kind (Text.trim raw) = .boundary) :
    c.Leads above s raw := by
  unfold Leads
  rw [feed_boundary kind, kind]
  cases current : s.report? with
  | none =>
    have idle : s.counted.report? = none := current
    rw [close_idle idle]
    refine ⟨_, rfl, .idle (fun _ => by simp [LineKind.isStructural]) idle rfl, fun rest => ?_⟩
    apply foreseen_of_ends rfl rfl
    · simpa [Placed.starts?] using idle
    · rw [current]; rfl
    · rw [current]; rfl
  | some report =>
    have opened : s.counted.report? = some report := current
    rw [close_open opened, willing]
    refine ⟨_, rfl, .idle (fun _ => by simp [LineKind.isStructural]) rfl rfl, fun rest => ?_⟩
    apply foreseen_of_ends rfl rfl
    · simp [Placed.starts?]
    · rw [current]; rfl
    · rw [current]; rfl

theorem starts?_free (free : ∀ header, above.find? LineKind.isStructural ≠ some (.header header))
    (text : String) (header : Header) :
    Placed.starts? ⟨text, .header header, above⟩ = some header.file := by
  unfold Placed.starts? Placed.previous?
  cases top : above.find? LineKind.isStructural with
  | none => rfl
  | some kind =>
    cases kind with
    | header before => exact absurd top (free before)
    | _ => rfl

theorem starts?_governed (governed : above.find? LineKind.isStructural = some (.header before))
    (text : String) (header : Header) :
    Placed.starts? ⟨text, .header header, above⟩ =
      if before.file = header.file then none else some header.file := by
  simp only [Placed.starts?, Placed.previous?, governed]

theorem header_leads (willing : Receiver.Willing σ) (stands : s.Stands above)
    (kind : c.rules.layout.kind (Text.trim raw) = .header header) : c.Leads above s raw := by
  unfold Leads
  rw [feed_header kind, kind]
  cases stands with
  | idle free idle outside =>
    have starts := starts?_free free (Text.trim raw) header
    have idleToo : s.counted.report? = none := idle
    rw [openSection_idle idleToo]
    refine ⟨_, rfl, .gathering rfl rfl rfl rfl, fun rest => ?_⟩
    apply foreseen_of_ends (by simp [Placed.ends, starts]) rfl
    · rw [starts]; rfl
    · rw [idle]; rfl
    · rw [idle]; rfl
  | @gathering before report governed current file inside =>
    have starts := starts?_governed governed (Text.trim raw) header
    have opened : s.counted.report? = some report := current
    by_cases same : report.file = header.file
    · rw [if_pos (file.symm.trans same)] at starts
      rw [openSection_same opened same]
      refine ⟨_, rfl, .gathering rfl current same rfl, fun rest => ?_⟩
      apply foreseen_of_goesOn (by simp [Placed.ends, starts])
      · rw [current]; simp [State.counted, current, gatherLine_plain]
      · rfl
      · simp [State.counted, Placed.isStray, Placed.isUnder]
    · rw [if_neg fun equal => same (file.trans equal)] at starts
      rw [openSection_other opened same (willing _ _), close_open opened]
      refine ⟨_, rfl, .gathering rfl rfl rfl rfl, fun rest => ?_⟩
      apply foreseen_of_ends (by simp [Placed.ends, starts]) rfl
      · rw [starts]; rfl
      · rw [current]; rfl
      · rw [current]; rfl

theorem isStray_stands (stands : s.Stands above) (text : String) :
    Placed.isStray ⟨text, .content, above⟩ = s.inside?.isNone := by
  unfold Placed.isStray Placed.previous?
  cases stands with
  | idle free idle outside =>
    rw [outside]
    cases top : above.find? LineKind.isStructural with
    | none => rfl
    | some kind =>
      cases kind with
      | header before => exact absurd top (free before)
      | _ => rfl
  | gathering governed current file inside => simp [governed, inside]

theorem gatherLine_governed (governed : above.find? LineKind.isStructural = some (.header header))
    (report : FileReport) (text : String) :
    report.gatherLine rules ⟨text, .content, above⟩ =
      (Section.after? none header.signal).elim report fun section_ =>
        (report.absorb rules text section_).1 := by
  unfold FileReport.gatherLine Placed.intake? Placed.governor?
  rw [governor_of_top governed, Option.bind_some]
  cases Section.after? none header.signal <;> rfl

theorem isUnder_top (governed : above.find? LineKind.isStructural = some (.header header))
    (text : String) (signal : Signal) :
    Placed.isUnder signal ⟨text, .content, above⟩ = decide (header.signal = signal) :=
  isUnder_governed rfl (governor_of_top governed)

theorem stray_leads (stands : s.Stands above) (tolerant : c.strict = false)
    (outside : s.inside? = none) (kind : c.rules.layout.kind (Text.trim raw) = .content) :
    c.Leads above s raw := by
  have stray := isStray_stands stands (Text.trim raw)
  rw [outside, Option.isNone_none] at stray
  unfold Leads
  rw [feed_content kind, kind, absorb_outside (s := s.counted) (.inr outside),
    if_neg (by simp [tolerant])]
  refine ⟨_, rfl, stands_under stands rfl rfl rfl, fun rest => ?_⟩
  cases stands with
  | idle free idle _ =>
    apply foreseen_of_goesOn (ends_of_plain rfl)
    · rw [idle]; exact idle
    · rfl
    · simp [State.counted, stray, idle]
  | @gathering header report governed current file inside =>
    have closed : Section.after? none header.signal = none := inside.symm.trans outside
    have other : header.signal ≠ .add := fun add => by rw [add] at closed; cases closed
    apply foreseen_of_goesOn (ends_of_plain rfl)
    · rw [current, Option.map_some, gatherLine_governed governed, closed]; exact current
    · rfl
    · simp [State.counted, stray, isUnder_top governed, other]

theorem after?_additions (signal : Signal) :
    Section.after? none signal = some .additions ↔ signal = .add := by
  cases signal <;> simp [Section.after?]

theorem content_leads (stands : s.Stands above) (inside : s.inside? = some section_)
    (kind : c.rules.layout.kind (Text.trim raw) = .content) : c.Leads above s raw := by
  have stray := isStray_stands stands (Text.trim raw)
  rw [inside, Option.isNone_some] at stray
  cases stands with
  | idle free idle outside => rw [outside] at inside; cases inside
  | @gathering header report governed current file opened =>
    have announced : Section.after? none header.signal = some section_ := opened.symm.trans inside
    have absorbed : (report.absorb c.rules (Text.trim raw) section_).1.file = header.file := by
      simpa using file
    unfold Leads
    rw [feed_content kind, kind, absorb_inside (s := s.counted) current inside]
    refine ⟨_, rfl, ?_, fun rest => ?_⟩
    · exact .gathering governed rfl absorbed opened
    · apply foreseen_of_goesOn (ends_of_plain rfl)
      · rw [current, Option.map_some, gatherLine_governed governed, announced]; rfl
      · rfl
      · have additions : section_ = .additions ↔ header.signal = .add := by
          rw [← after?_additions, announced, Option.some.injEq]
        rw [absorb_dropped, current, isUnder_top governed]
        by_cases add : header.signal = .add
        · by_cases screens : c.rules.screen report.file (Entry.ofLine (Text.trim raw)) =
              .falsePositive
          · simp [State.counted, stray, additions, add, screens]
          · simp [State.counted, stray, screens]
        · simp [State.counted, stray, additions, add]

-- Stray content is all that a strict classifier fails on, and the failing line is only counted.
theorem feed_leads (willing : Receiver.Willing σ) (c : Classifier) (stands : s.Stands above)
    (raw : String) :
    (c.strict = true → Placed.isStray
        ⟨Text.trim raw, c.rules.layout.kind (Text.trim raw), above⟩ = false) ∧ c.Leads above s raw ∨
      (c.strict = true ∧ Placed.isStray
        ⟨Text.trim raw, c.rules.layout.kind (Text.trim raw), above⟩ = true) ∧
        ∃ error, c.feed s raw = (s.counted, some error) := by
  cases kind : c.rules.layout.kind (Text.trim raw) with
  | noise => exact .inl ⟨fun _ => rfl, noise_leads stands kind⟩
  | boundary => exact .inl ⟨fun _ => rfl, boundary_leads willing c above s kind⟩
  | header header => exact .inl ⟨fun _ => rfl, header_leads willing stands kind⟩
  | content =>
    rw [isStray_stands stands]
    cases inside : s.inside? with
    | some section_ => exact .inl ⟨fun _ => rfl, content_leads stands inside kind⟩
    | none =>
      cases strict : c.strict with
      | false => exact .inl ⟨nofun, stray_leads stands strict inside kind⟩
      | true =>
        rw [feed_content kind, absorb_outside (s := s.counted) (.inr inside), if_pos strict]
        exact .inr ⟨⟨rfl, rfl⟩, _, rfl⟩

-- A tolerant classifier meets no failure, and a strict one does not as long as no content is stray.
theorem ending_foreseen (willing : Receiver.Willing σ) (c : Classifier) (stands : s.Stands above)
    (lines : List String)
    (steady : c.strict = true → ∀ line ∈ c.rules.layout.place above lines, line.isStray = false) :
    c.ending s (lines.map .ok) = foreseen c.rules s (c.rules.layout.place above lines) := by
  induction lines generalizing s above with
  | nil => exact finish_foreseen willing c s
  | cons raw rest ih =>
    rw [Layout.place] at steady ⊢
    rcases feed_leads willing c stands raw with
      ⟨_, t, fed, standing, same⟩ | ⟨⟨strict, stray⟩, _⟩
    · rw [List.map_cons, ending_cons fed, same]
      exact ih standing fun strict line member => steady strict line (List.mem_cons_of_mem _ member)
    · have fine := steady strict _ List.mem_cons_self
      rw [stray] at fine
      cases fine

theorem start_stands (receiver : σ) : (start receiver).Stands [] :=
  .idle (fun _ => by simp) rfl rfl

theorem foreseen_start (rules : Ruleset) (receiver : σ) (lines : List String) :
    foreseen rules (start receiver) (rules.layout.place [] lines) =
      ⟨Receiver.takeAll receiver (rules.reports lines), .ok (rules.tally lines)⟩ := by
  have pending : FileReport.pending rules none (rules.layout.place [] lines) =
      (rules.groups lines).map fun group => group.report rules := by
    simp [FileReport.pending, Ruleset.groups, gather_opened]
  have placed : (rules.layout.place [] lines).length = lines.length := place_length _ _ _
  unfold foreseen
  simp [start, Tally.zero, pending, placed, Ruleset.reports, Ruleset.tally, Ruleset.drops,
    Group.pending, Ruleset.groups, Function.comp_def]

-- The right side knows no states: it cuts the lines into groups and lists what each group holds.
theorem processLines_groups (willing : Receiver.Willing σ) (rules : Ruleset) (receiver : σ)
    (lines : List String) :
    processLines ⟨rules, false⟩ receiver lines =
      ⟨Receiver.takeAll receiver (rules.reports lines), .ok (rules.tally lines)⟩ := by
  rw [processLines, processReads_ending, ← foreseen_start]
  exact ending_foreseen willing ⟨rules, false⟩ (start_stands receiver) lines nofun

theorem processLines_collected_one :
    Receiver.Willing Collected ∧
      processLines ⟨.builtin, false⟩ (⟨[]⟩ : Collected)
          ["../a.h should add these lines:", "class JSObject;", "---", "stray"] =
        ⟨⟨[⟨"a.h", .ofList [⟨"#include <js/TypeDecls.h>", ""⟩], .empty, .empty, true⟩]⟩,
          .ok ⟨4, 0, 1, 0, 1⟩⟩ := by
  refine ⟨collected_willing, ?_⟩
  have reports : Ruleset.reports .builtin
      ["../a.h should add these lines:", "class JSObject;", "---", "stray"] =
        [⟨"a.h", .ofList [⟨"#include <js/TypeDecls.h>", ""⟩], .empty, .empty, true⟩] := by
    decide +kernel
  have tally : Ruleset.tally .builtin
      ["../a.h should add these lines:", "class JSObject;", "---", "stray"] = ⟨4, 0, 1, 0, 1⟩ := by
    decide +kernel
  rw [processLines_groups collected_willing, reports, tally]
  rfl

end Classifier

end IncludeTidy
