import IncludeTidy.Json.Basic
import IncludeTidy.Json.Reader
import IncludeTidy.Output.Block

namespace IncludeTidy

structure FileChanges where
  file : String
  add : List Entry
  remove : List Entry
deriving DecidableEq, Repr

def FileReport.changes (report : FileReport) : FileChanges :=
  ⟨report.file, report.additions.entries, report.removals.entries⟩

structure Verdict where
  status : Status
  filesChanged : Nat
deriving DecidableEq, Repr

-- Lists of entries and justifications that are empty are left out when a summary is written, and
-- may be missing when one is read.
structure Summary where
  schema : String
  files : List FileChanges
  verdict : Verdict
deriving DecidableEq, Repr

def Summary.schemaName : String := "iwyu_tidy.summary.v1"

def Summary.ofFiles (files : List FileChanges) : Summary :=
  ⟨schemaName, files, ⟨.ofCount files.length, files.length⟩⟩

def Json.present (members : List (Option (String × Json))) : Json :=
  .ofMembers (members.filterMap id)

namespace Entry

def toJson (entry : Entry) : Json :=
  .ofMembers [("directive", .text entry.directive), ("why", .text entry.why)]

def toBriefJson (entry : Entry) : Json :=
  .present [some ("directive", .text entry.directive),
    if entry.why.isEmpty then none else some ("why", .text entry.why)]

def ofJson? (value : Json) : Option Entry := do
  match ← value.fields? ["directive", "why"] with
  | [directive, why] =>
    return ⟨← directive.bind Json.text?, ← Json.orElse "" Json.text? why⟩
  | _ => none

def toText (entry : Entry) : String := entry.toJson.printed .compact

def ofText? (text : String) : Option Entry := (Json.parse? text).bind ofJson?

end Entry

def FileChanges.toJson (changes : FileChanges) : Json :=
  let listed := fun (name : String) (entries : List Entry) =>
    if entries.isEmpty then none else some (name, Json.array (entries.map Entry.toBriefJson))
  .present [some ("file", .text changes.file), listed "add" changes.add,
    listed "remove" changes.remove]

def FileChanges.ofJson? (value : Json) : Option FileChanges := do
  let entries? := Json.orElse [] (Json.list? Entry.ofJson?)
  match ← value.fields? ["file", "add", "remove"] with
  | [file, add, remove] => return ⟨← file.bind Json.text?, ← entries? add, ← entries? remove⟩
  | _ => none

namespace Status

def name : Status → String
  | .pass => "pass"
  | .fail => "fail"

def ofName? (name : String) : Option Status := [Status.pass, .fail].find? fun s => s.name = name

-- A status is its name, or an object with the name as its only member and nothing in it.
def ofJson? : Json → Option Status
  | .object [(some name, .scalar .null)] => ofName? name
  | value => value.text?.bind ofName?

end Status

def Verdict.toJson (verdict : Verdict) : Json :=
  .ofMembers [("status", .text verdict.status.name),
    ("files_changed", .natural verdict.filesChanged)]

def Verdict.greatestCount : Nat := Nat.pow 2 64 - 1

def Verdict.ofJson? (value : Json) : Option Verdict := do
  match ← value.fields? ["status", "files_changed"] with
  | [status, filesChanged] =>
    return ⟨← status.bind Status.ofJson?, ← filesChanged.bind (Json.natural? greatestCount)⟩
  | _ => none

namespace Summary

def toJson (summary : Summary) : Json :=
  .ofMembers [("schema", .text summary.schema),
    ("files", .array (summary.files.map FileChanges.toJson)),
    ("verdict", summary.verdict.toJson)]

def ofJson? (value : Json) : Option Summary := do
  match ← value.fields? ["schema", "files", "verdict"] with
  | [schema, files, verdict] =>
    return ⟨← schema.bind Json.text?, ← Json.orElse [] (Json.list? FileChanges.ofJson?) files,
      ← verdict.bind Verdict.ofJson?⟩
  | _ => none

def render (summary : Summary) : String := summary.toJson.printed .lines ++ "\n"

def read? (text : String) : Option Summary := (Json.parse? text).bind ofJson?

end Summary

end IncludeTidy
