import IncludeTidy.Classifier
import IncludeTidy.Output.Block
import IncludeTidy.Output.Device
import IncludeTidy.Summary

namespace IncludeTidy

inductive WriteError where
  | changes (file : String) (cause : DeviceError)
  | summary (cause : DeviceError)
  | flush (cause : DeviceError)
deriving DecidableEq, Repr

def WriteError.message : WriteError → String
  | .changes file cause => "write changes for " ++ file ++ ": " ++ cause.message
  | .summary cause => "write summary: " ++ cause.message
  | .flush cause => "flush output: " ++ cause.message

def Output.put [Device δ] (out : Output δ) (text : String) (failure : DeviceError → WriteError) :
    Output δ × Option WriteError :=
  match out.writeAll text.toUTF8.toList with
  | (out, some cause) => (out, some (failure cause))
  | (out, none) =>
    let (out, cause?) := out.flush
    (out, cause?.map .flush)

structure BlockWriter (δ : Type) where
  out : Output δ
  colored : Bool
  outcome : Outcome
deriving DecidableEq, Repr

-- The outcome counts a report even if its block cannot be written.
instance [Device δ] : Receiver (BlockWriter δ) WriteError where
  accept writer report :=
    let writer := { writer with outcome := writer.outcome.record report }
    if report.hasChanges then
      let (out, error?) := writer.out.put (report.block writer.colored) (.changes report.file)
      ({ writer with out }, error?)
    else (writer, none)

def BlockWriter.on (device : δ) (colored : Bool) : BlockWriter δ := ⟨⟨device, []⟩, colored, .zero⟩

structure SummaryBuilder where
  files : List FileChanges
  outcome : Outcome
deriving DecidableEq, Repr

def SummaryBuilder.empty : SummaryBuilder := ⟨[], .zero⟩

instance : Receiver SummaryBuilder WriteError where
  accept builder report :=
    (⟨if report.hasChanges then builder.files ++ [report.changes] else builder.files,
      builder.outcome.record report⟩, none)

def SummaryBuilder.summary (builder : SummaryBuilder) : Summary := .ofFiles builder.files

inductive Format where
  | text
  | json
deriving DecidableEq, Repr

inductive RunError where
  | classify (error : ClassifyError WriteError)
  | write (error : WriteError)
deriving DecidableEq, Repr

namespace RunError

def message : RunError → String
  | classify error => error.message WriteError.message
  | write error => error.message

def isFormatDrift : RunError → Bool
  | classify error => error.isFormatDrift
  | write _ => false

-- A run that stops never reads as one that found changes.
def exitCode (_ : RunError) : Nat := 2

end RunError

structure RunSettings where
  rules : Ruleset
  format : Format
  colored : Bool
  strict : Bool

structure RunEnding (δ : Type) where
  out : Output δ
  result : Except RunError Outcome

namespace RunSettings

variable [Device δ]

def runText (settings : RunSettings) (device : δ) (source : Text.ByteSource) : RunEnding δ :=
  let classifier : Classifier := ⟨settings.rules, settings.strict⟩
  let ending := classifier.processSource (BlockWriter.on device settings.colored) source
  ⟨ending.receiver.out,
    match ending.result with
    | .ok _ => .ok ending.receiver.outcome
    | .error error => .error (.classify error)⟩

def runSummary (settings : RunSettings) (device : δ) (source : Text.ByteSource) : RunEnding δ :=
  let classifier : Classifier := ⟨settings.rules, settings.strict⟩
  let ending := classifier.processSource SummaryBuilder.empty source
  match ending.result with
  | .error error => ⟨.on device, .error (.classify error)⟩
  | .ok _ =>
    match (Output.on device).put ending.receiver.summary.render .summary with
    | (out, none) => ⟨out, .ok ending.receiver.outcome⟩
    | (out, some error) => ⟨out, .error (.write error)⟩

def run (settings : RunSettings) (device : δ) (source : Text.ByteSource) : RunEnding δ :=
  match settings.format with
  | .text => settings.runText device source
  | .json => settings.runSummary device source

end RunSettings

end IncludeTidy
