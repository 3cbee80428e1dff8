import IncludeTidy.Config
import IncludeTidy.Gate.Options
import IncludeTidy.Gate.Surroundings

namespace IncludeTidy.Gate

inductive ConfigFault where
  | unreadable (cause : FileFault)
  | invalid (cause : ConfigError)
deriving DecidableEq, Repr

def ConfigFault.message (path : String) : ConfigFault → String
  | unreadable cause => "read config file " ++ path ++ ": " ++ cause.message
  | invalid cause => "parse config file " ++ path ++ ": " ++ cause.message

def configName : String := "iwyu-tidy.toml"

-- Where the config is looked for that is not named.
def configPath : String := "./" ++ configName

inductive Failure where
  | usage (cause : UsageError)
  | config (path : String) (cause : ConfigFault)
  | usualConfig (cause : ConfigFault)
  | ruleset (cause : RulesetError)
  | noInput (path : String)
  | run (cause : RunError)
deriving DecidableEq, Repr

namespace Failure

def isFormatDrift : Failure → Bool
  | run cause => cause.isFormatDrift
  | _ => false

def message (failure : Failure) : String :=
  match failure with
  | usage cause => cause.message
  | config path cause => cause.message path
  | usualConfig cause => "load " ++ configName ++ ": " ++ cause.message configPath
  | ruleset cause => "build tables: " ++ cause.message
  | noInput path => "open " ++ path ++ ": " ++ FileFault.message (.missing path)
  | run cause =>
    if cause.isFormatDrift then "report format not recognized: " ++ cause.message else cause.message

end Failure

structure Answer where
  output : List UInt8
  result : Except Failure Outcome

namespace Answer

def failed (failure : Failure) : Answer := ⟨[], .error failure⟩

-- Zero if nothing has to change, one if something has, two if that could not be found out.
def exitCode (answer : Answer) : Nat :=
  match answer.result with
  | .ok outcome => outcome.exitCode
  | .error _ => 2

def isFormatDrift (answer : Answer) : Bool :=
  match answer.result with
  | .ok _ => false
  | .error failure => failure.isFormatDrift

end Answer

def configAt (directory : Directory) (path : String) : Except ConfigFault Config :=
  match directory.text path with
  | .ok text => (Config.read text).mapError .invalid
  | .error cause => .error (.unreadable cause)

def Options.config (options : Options) (directory : Directory) : Except Failure Config :=
  match options.config? with
  | some path => (configAt directory path).mapError (.config path)
  | none =>
    if (directory configPath).isSome then (configAt directory configPath).mapError .usualConfig
    else .ok .empty

def Options.source (options : Options) (around : Surroundings) : Except Failure Text.ByteSource :=
  match options.input? with
  | none => .ok around.input
  | some "-" => .ok around.input
  | some path =>
    match around.directory path with
    | some place => .ok (place.source path)
    | none => .error (.noInput path)

def settings (config : Config) (choices : Choices) (around : Surroundings) :
    Except Failure RunSettings :=
  let choices := choices.or config.choices
  (config.overrides.ruleset?.mapError .ruleset).map fun rules =>
    ⟨rules, choices.format, choices.color.colored?.getD around.display.showsColors, choices.strict⟩

def prepare (options : Options) (around : Surroundings) :
    Except Failure (RunSettings × Text.ByteSource) := do
  let config ← options.config around.directory
  let settings ← settings config options.choices around
  let source ← options.source around
  return (settings, source)

def run (options : Options) (around : Surroundings) : Answer :=
  match prepare options around with
  | .error failure => .failed failure
  | .ok (settings, source) =>
    let ending := settings.run Open.mk source
    ⟨ending.out.taken, ending.result.mapError .run⟩

def answer (arguments : List String) (around : Surroundings) : Answer :=
  match Request.read arguments with
  | .error cause => .failed (.usage cause)
  | .ok (.help full) => ⟨(helpText full).toUTF8.toList, .ok .zero⟩
  | .ok .version => ⟨versionText.toUTF8.toList, .ok .zero⟩
  | .ok (.run options) => run options around

def filesOf (arguments : List String) : List String :=
  match Request.read arguments with
  | .ok (.run options) =>
    options.config?.getD configPath :: (options.input?.toList.filter (· != "-"))
  | _ => []

def readsPipe (arguments : List String) : Bool :=
  match Request.read arguments with
  | .ok (.run options) => options.input?.all (· == "-")
  | _ => false

end IncludeTidy.Gate
