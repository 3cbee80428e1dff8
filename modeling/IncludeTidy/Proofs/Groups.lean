import IncludeTidy.Proofs.Steps

namespace IncludeTidy

def LineKind.isStructural : LineKind → Bool
  | .boundary | .header _ => true
  | .noise | .content => false

def LineKind.header? : LineKind → Option Header
  | .header found => some found
  | .noise | .boundary | .content => none

-- A trimmed line where it stands: its kind, and the kinds of the lines above it, the nearest first.
structure Placed where
  text : String
  kind : LineKind
  above : List LineKind
deriving DecidableEq, Repr

def Layout.place (layout : Layout) (above : List LineKind) : List String → List Placed
  | [] => []
  | raw :: rest =>
    let text := Text.trim raw
    ⟨text, layout.kind text, above⟩ :: layout.place (layout.kind text :: above) rest

namespace Placed

def previous? (line : Placed) : Option LineKind := line.above.find? LineKind.isStructural

-- The header that says what content means: the nearest one above it.
def governor? (line : Placed) : Option Header := line.above.findSome? LineKind.header?

-- A header starts a group unless the structural line before it is a header for the same file.
def starts? (line : Placed) : Option String :=
  match line.kind, line.previous? with
  | .header header, some (.header before) =>
    if before.file = header.file then none else some header.file
  | .header header, _ => some header.file
  | _, _ => none

-- A group runs up to the next boundary or the next start.
def ends (line : Placed) : Bool := line.kind = .boundary || line.starts?.isSome

-- Content in no section: nothing structural stands above it, or a boundary does, or a header that
-- opens no section.
def isStray (line : Placed) : Bool :=
  line.kind = .content &&
    match line.previous? with
    | some (.header header) => (Section.after? none header.signal).isNone
    | _ => true

def isUnder (signal : Signal) (line : Placed) : Bool :=
  line.kind = .content && line.governor?.map Header.signal = some signal

end Placed

structure Group where
  file : String
  body : List Placed
deriving DecidableEq, Repr

def Group.bodyOf (lines : List Placed) : List Placed := lines.takeWhile fun line => !line.ends

def Group.all : List Placed → List Group
  | [] => []
  | line :: rest =>
    match line.starts? with
    | some file => ⟨file, bodyOf rest⟩ :: all rest
    | none => all rest

namespace Group

-- The entries of the content lines that headers with a signal govern, in order.
def entries (group : Group) (signal : Signal) : List Entry :=
  (group.body.filter (Placed.isUnder signal)).map fun line => Entry.ofLine line.text

def screened (rules : Ruleset) (group : Group) (screening : Screening) : List Entry :=
  (group.entries .add).filter fun entry => rules.screen group.file entry = screening

def report (rules : Ruleset) (group : Group) : FileReport where
  file := group.file
  additions := .ofList (group.screened rules .keep)
  removals := .ofList ((group.entries .remove).map Entry.withoutRemovalMark)
  fullList := .ofList (group.entries .fullList)
  needsUmbrella := !(group.screened rules .forwardDecl).isEmpty

end Group

namespace Ruleset

def groups (rules : Ruleset) (lines : List String) : List Group :=
  Group.all (rules.layout.place [] lines)

-- One report for each group, as it is handed over.
def reports (rules : Ruleset) (lines : List String) : List FileReport :=
  (rules.groups lines).map fun group => rules.finished (group.report rules)

def tally (rules : Ruleset) (lines : List String) : Tally where
  linesRead := lines.length
  noise := (rules.layout.place [] lines).countP fun line => line.kind = .noise
  unrecognized := (rules.layout.place [] lines).countP Placed.isStray
  falsePositives :=
    ((rules.groups lines).flatMap fun group => group.screened rules .falsePositive).length
  files := (rules.groups lines).length

end Ruleset

end IncludeTidy
