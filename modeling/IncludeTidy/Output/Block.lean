import IncludeTidy.Report.Entry

namespace IncludeTidy

inductive Status where
  | pass
  | fail
deriving DecidableEq, Repr

def Status.ofCount (filesChanged : Nat) : Status := if filesChanged = 0 then .pass else .fail

def Status.exitCode : Status → Nat
  | .pass => 0
  | .fail => 1

structure Outcome where
  filesSeen : Nat
  filesChanged : Nat
deriving DecidableEq, Repr

namespace Outcome

def zero : Outcome := ⟨0, 0⟩

def record (outcome : Outcome) (report : FileReport) : Outcome :=
  ⟨outcome.filesSeen + 1, outcome.filesChanged + report.hasChanges.toNat⟩

def status (outcome : Outcome) : Status := .ofCount outcome.filesChanged

def exitCode (outcome : Outcome) : Nat := outcome.status.exitCode

end Outcome

inductive Color where
  | green
  | red
deriving DecidableEq, Repr

def Color.code : Color → String
  | .green => "\x1b[32m"
  | .red => "\x1b[31m"

def Color.reset : String := "\x1b[0m"

def Color.paint (color : Color) (text : String) : String := color.code ++ text ++ Color.reset

def Entry.suffix (entry : Entry) : String :=
  if entry.why.isEmpty then "" else "  // " ++ entry.why

def Entry.shown (entry : Entry) : String := entry.directive ++ entry.suffix

def Entry.blockLine (mark : String) (color? : Option Color) (entry : Entry) : String :=
  let body := mark ++ entry.directive
  (match color? with
    | some color => color.paint body
    | none => body) ++ entry.suffix ++ "\n"

namespace FileReport

def blockTitle (report : FileReport) : String := "\n== " ++ report.file ++ " ==\n"

def block (report : FileReport) (colored : Bool) : String :=
  if report.hasChanges then
    let color := fun (c : Color) => if colored then some c else none
    report.blockTitle ++
      String.join (report.additions.entries.map (Entry.blockLine "+" (color .green))) ++
      String.join (report.removals.entries.map (Entry.blockLine "-" (color .red)))
  else ""

end FileReport

end IncludeTidy
