import IncludeTidy.Config

namespace IncludeTidy.Gate

inductive Flag where
  | input
  | config
  | format
  | color
  | strict
  | help
  | briefHelp
  | version
deriving DecidableEq, Repr

def Flag.ofName? : String → Option Flag
  | "input" => some .input
  | "config" => some .config
  | "format" => some .format
  | "color" => some .color
  | "strict" => some .strict
  | "help" => some .help
  | "version" => some .version
  | _ => none

def Flag.ofLetter? : Char → Option Flag
  | 'i' => some .input
  | 'h' => some .briefHelp
  | 'V' => some .version
  | _ => none

def Flag.takesValue : Flag → Bool
  | .input | .config | .format | .color => true
  | .strict | .help | .briefHelp | .version => false

inductive UsageError where
  | unexpected (argument : String)
  | missingValue (flag : Flag)
  | needlessValue (flag : Flag)
  | unknownValue (flag : Flag) (value : String)
  | repeated (flag : Flag)
deriving DecidableEq, Repr

def Flag.name : Flag → String
  | .input => "--input"
  | .config => "--config"
  | .format => "--format"
  | .color => "--color"
  | .strict => "--strict"
  | .help => "--help"
  | .briefHelp => "-h"
  | .version => "--version"

def UsageError.message : UsageError → String
  | .unexpected argument => "unexpected argument `" ++ argument ++ "`"
  | .missingValue flag => "`" ++ flag.name ++ "` needs a value"
  | .needlessValue flag => "`" ++ flag.name ++ "` takes no value"
  | .unknownValue flag value => "`" ++ value ++ "` is no value of `" ++ flag.name ++ "`"
  | .repeated flag => "`" ++ flag.name ++ "` may be given once only"

structure Options where
  input? : Option String
  config? : Option String
  choices : Choices
deriving DecidableEq, Repr

def Options.empty : Options := ⟨none, none, .empty⟩

inductive Request where
  | run (options : Options)
  | help (full : Bool)
  | version
deriving DecidableEq, Repr

def fill (flag : Flag) (value : α) : Option α → Except UsageError (Option α)
  | none => .ok (some value)
  | some _ => .error (.repeated flag)

def known (flag : Flag) (value : String) (ofName? : String → Option α) : Except UsageError α :=
  match ofName? value with
  | some choice => .ok choice
  | none => .error (.unknownValue flag value)

namespace Options

def set (options : Options) (flag : Flag) (value : String) : Except UsageError Options :=
  match flag with
  | .input => return { options with input? := ← fill flag value options.input? }
  | .config => return { options with config? := ← fill flag value options.config? }
  | .format => do
    let format? ← fill flag (← known flag value Format.ofName?) options.choices.format?
    return { options with choices := { options.choices with format? } }
  | .color => do
    let color? ← fill flag (← known flag value ColorChoice.ofName?) options.choices.color?
    return { options with choices := { options.choices with color? } }
  | _ => .error (.needlessValue flag)

def setStrict (options : Options) : Except UsageError Options :=
  if options.choices.strict then .error (.repeated .strict)
  else .ok { options with choices := { options.choices with strict := true } }

end Options

inductive Argument where
  | endOfOptions
  | flag (flag : Flag) (value? : Option String)
  | plain
deriving DecidableEq, Repr

def nameAndValue (cs : List Char) : String × Option String :=
  (String.ofList (cs.takeWhile (· != '=')),
    match cs.dropWhile (· != '=') with
    | [] => none
    | _ :: value => some (String.ofList value))

def attached : List Char → Option String
  | [] => none
  | '=' :: value => some (String.ofList value)
  | value => some (String.ofList value)

def Argument.ofText (argument : String) : Except UsageError Argument :=
  match argument.toList with
  | ['-', '-'] => .ok .endOfOptions
  | '-' :: '-' :: text =>
    let (name, value?) := nameAndValue text
    match Flag.ofName? name with
    | none => .error (.unexpected argument)
    | some found =>
      if value?.isSome && !found.takesValue then .error (.needlessValue found)
      else .ok (.flag found value?)
  | '-' :: letter :: text =>
    match Flag.ofLetter? letter with
    | none => .error (.unexpected argument)
    | some found => .ok (.flag found (if found.takesValue then attached text else none))
  | _ => .ok .plain

-- Each option stands at most once, under its whole name or its letter.
-- Reads arguments from the left; help and the version are answered as soon as they are met.
def Request.ofArguments (options : Options) : List String → Except UsageError Request
  | [] => .ok (.run options)
  | argument :: rest => do
    match ← Argument.ofText argument with
    | .plain => .error (.unexpected argument)
    | .endOfOptions =>
      match rest with
      | [] => .ok (.run options)
      | extra :: _ => .error (.unexpected extra)
    | .flag .help _ => .ok (.help true)
    | .flag .briefHelp _ => .ok (.help false)
    | .flag .version _ => .ok .version
    | .flag .strict _ => Request.ofArguments (← options.setStrict) rest
    | .flag flag (some value) => Request.ofArguments (← options.set flag value) rest
    | .flag flag none =>
      match rest with
      | [] => .error (.missingValue flag)
      | value :: rest =>
        if value = "-" ∨ value.toList.head? ≠ some '-' then
          Request.ofArguments (← options.set flag value) rest
        else .error (.missingValue flag)

def Request.read (arguments : List String) : Except UsageError Request :=
  Request.ofArguments .empty arguments

-- The flags in the order of the help, each as it is written and what it is for.
def usages (full : Bool) : List (Flag × String × String) :=
  [(.input, "-i, --input <INPUT>", "Report to read (default: stdin; `-` also means stdin)"),
    (.config, "    --config <CONFIG>", "Config file (default: ./iwyu-tidy.toml if present)"),
    (.format, "    --format <FORMAT>", "Output format"),
    (.color, "    --color <COLOR>", "When to color additions and removals"),
    (.strict, "    --strict", "Fail on report lines that fall outside any section"),
    if full then (.help, "-h, --help", "Print help (see a summary with \x27-h\x27)")
    else (.briefHelp, "-h, --help", "Print help (see more with \x27--help\x27)"),
    (.version, "-V, --version", "Print version")]

-- The values of a flag that takes one of a few, each with a note.
def Flag.values : Flag → List (String × String)
  | .format => [("text", ""), ("json", "")]
  | .color => [("auto", "Color when stdout is a terminal"), ("always", ""), ("never", "")]
  | _ => []

def Flag.listedValues (flag : Flag) : String :=
  "[possible values: " ++ ", ".intercalate (flag.values.map Prod.fst) ++ "]"

def filled (width : Nat) (text : String) : String := text.pushn ' ' (width - text.length)

def briefUsage : Flag × String × String → String
  | (flag, written, purpose) =>
    "  " ++ filled 23 written ++ purpose ++
      (if flag.values.isEmpty then "" else " " ++ flag.listedValues) ++ "\n"

-- Notes on values take a line each.
def fullUsage : Flag × String × String → String
  | (flag, written, purpose) =>
    let margin := "".pushn ' ' 10
    let noted := fun (value : String × String) =>
      margin ++ "- " ++
        (if value.2.isEmpty then value.1 else filled 8 (value.1 ++ ":") ++ value.2) ++ "\n"
    "  " ++ written ++ "\n" ++ margin ++ purpose ++ "\n" ++
      if flag.values.isEmpty then ""
      else if flag.values.all fun value => value.2.isEmpty then
        "\n" ++ margin ++ flag.listedValues ++ "\n"
      else "\n" ++ margin ++ "Possible values:\n" ++ String.join (flag.values.map noted)

def helpText (full : Bool) : String :=
  let usage := "Usage: iwyu-tidy [OPTIONS]\n\nOptions:\n"
  if full then
    "Reads an include-what-you-use report, drops known false positives, collapses forward " ++
      "declarations into their umbrella header and prints one block per file that needs " ++
      "changes.\n\nExit status: 0 no changes needed, 1 changes needed, 2 error.\n\n" ++ usage ++
      "\n".intercalate ((usages full).map fullUsage)
  else
    "Condense include-what-you-use output into an actionable change list.\n\n" ++ usage ++
      String.join ((usages full).map briefUsage)

def versionText : String := "iwyu-tidy 0.1.0\n"

end IncludeTidy.Gate
