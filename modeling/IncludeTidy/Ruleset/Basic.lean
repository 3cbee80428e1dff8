import IncludeTidy.Report.Entry
import IncludeTidy.Report.Layout

namespace IncludeTidy

-- All three parts count, an empty justification too.
structure FalsePositive where
  file : String
  directive : String
  why : String
deriving DecidableEq, Repr

def addNew [DecidableEq α] (items : List α) (item : α) : List α :=
  if item ∈ items then items else items ++ [item]

structure Umbrella where
  header : String
  forwardDecls : List String
deriving DecidableEq, Repr

namespace Umbrella

def covers (umbrella : Umbrella) (directive : String) : Bool :=
  umbrella.forwardDecls.contains directive

def extend (umbrella : Umbrella) (decls : List String) : Umbrella :=
  { umbrella with forwardDecls := decls.foldl addNew umbrella.forwardDecls }

end Umbrella

structure Ruleset where
  layout : Layout
  falsePositives : List FalsePositive
  umbrella : Umbrella
deriving DecidableEq

inductive Screening where
  | keep
  | forwardDecl
  | falsePositive
deriving DecidableEq, Repr

-- The umbrella header is asked first.
def Ruleset.screen (rules : Ruleset) (file : String) (entry : Entry) : Screening :=
  if rules.umbrella.covers entry.directive then .forwardDecl
  else if rules.falsePositives.contains ⟨file, entry.directive, entry.why⟩ then .falsePositive
  else .keep

inductive Consolidation where
  | notNeeded
  -- The file has the header and keeps it.
  | alreadyIncluded
  -- The file has the header and no longer loses it.
  | canceledRemoval
  | injected
  -- The header was among the additions.
  | alreadyPresent
deriving DecidableEq, Repr

-- Puts the umbrella header into a report that needs it. A removal of the header is taken back and
-- then stands for its presence, so the header is never both added and removed.
def FileReport.consolidate (report : FileReport) (umbrella : Umbrella) :
    FileReport × Consolidation :=
  let header := umbrella.header
  if !report.needsUmbrella then (report, .notNeeded)
  else if report.removals.contains header then
    ({ report with removals := report.removals.erase header }, .canceledRemoval)
  else if report.fullList.contains header then (report, .alreadyIncluded)
  else if report.additions.contains header then (report, .alreadyPresent)
  else ({ report with additions := report.additions.insert header "" }, .injected)

end IncludeTidy
