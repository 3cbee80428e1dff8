import IncludeTidy.Ruleset.Builtin
import IncludeTidy.Run
import IncludeTidy.Toml.Document

namespace IncludeTidy

inductive ColorChoice where
  | auto
  | always
  | never
deriving DecidableEq, Repr

def ColorChoice.colored? : ColorChoice → Option Bool
  | .auto => none
  | .always => some true
  | .never => some false

def ColorChoice.ofName? : String → Option ColorChoice
  | "auto" => some .auto
  | "always" => some .always
  | "never" => some .never
  | _ => none

def Format.ofName? : String → Option Format
  | "text" => some .text
  | "json" => some .json
  | _ => none

structure Choices where
  format? : Option Format
  color? : Option ColorChoice
  strict : Bool
deriving DecidableEq, Repr

namespace Choices

def empty : Choices := ⟨none, none, false⟩

def or (first second : Choices) : Choices :=
  ⟨first.format?.or second.format?, first.color?.or second.color?, first.strict || second.strict⟩

def format (choices : Choices) : Format := choices.format?.getD .text

def color (choices : Choices) : ColorChoice := choices.color?.getD .auto

@[simp]
theorem empty_or (choices : Choices) : empty.or choices = choices := by
  simp [empty, Choices.or]

@[simp]
theorem or_empty (choices : Choices) : choices.or empty = choices := by
  simp [empty, Choices.or]

theorem or_or (first second third : Choices) :
    (first.or second).or third = first.or (second.or third) := by
  simp [Choices.or, Option.or_assoc, Bool.or_assoc]

end Choices

structure Config where
  overrides : Overrides
  choices : Choices
deriving DecidableEq, Repr

inductive ConfigError where
  | notToml
  | misfit
deriving DecidableEq, Repr

namespace ConfigError

def title : String := "invalid TOML"

def cause : ConfigError → String
  | notToml => "the text is no TOML document"
  | misfit => "a value is not of the kind that its name stands for"

def message (error : ConfigError) : String := title ++ ": " ++ error.cause

end ConfigError

namespace Config

def empty : Config := ⟨.empty, .empty⟩

def setting? (read? : Toml → Option α) : Option Toml → Option (Option α) :=
  Toml.orElse none fun value => (read? value).map some

def report? (value : Toml) : Option (Option String × Option String × Bool) := do
  let [pathMark, errorMark, strict] ← value.fields? ["path_prefix", "error_prefix", "strict"] | none
  let pathMark ← setting? Toml.text? pathMark
  let errorMark ← setting? Toml.text? errorMark
  let strict ← Toml.orElse false Toml.boolean? strict
  return (pathMark, errorMark, strict)

def umbrella? (value : Toml) : Option (Option String × List String) := do
  let [header, forwardDecls] ← value.fields? ["header", "forward_decls"] | none
  let header ← setting? Toml.text? header
  let forwardDecls ← Toml.orElse [] (Toml.list? Toml.text?) forwardDecls
  return (header, forwardDecls)

def falsePositive? (value : Toml) : Option FalsePositive := do
  let [some file, some directive, why] ← value.fields? ["file", "directive", "why"] | none
  let file ← file.text?
  let directive ← directive.text?
  let why ← Toml.orElse "" Toml.text? why
  return ⟨file, directive, why⟩

def output? (value : Toml) : Option (Option Format × Option ColorChoice) := do
  let [format, color] ← value.fields? ["format", "color"] | none
  let format ← setting? (fun value => value.choice?.bind Format.ofName?) format
  let color ← setting? (fun value => value.choice?.bind ColorChoice.ofName?) color
  return (format, color)

-- Everything may be missing, and names that mean nothing here are allowed.
def ofToml? (value : Toml) : Option Config := do
  let [report, umbrella, falsePositives, output] ←
    value.fields? ["report", "umbrella", "false_positives", "output"] | none
  let (pathMark, errorMark, strict) ← Toml.orElse (none, none, false) report? report
  let (header, forwardDecls) ← Toml.orElse (none, []) umbrella? umbrella
  let falsePositives ← Toml.orElse [] (Toml.list? falsePositive?) falsePositives
  let (format, color) ← Toml.orElse (none, none) output? output
  return ⟨⟨pathMark, errorMark, header, forwardDecls, falsePositives⟩, ⟨format, color, strict⟩⟩

def read (text : String) : Except ConfigError Config :=
  match Toml.parse? text with
  | none => .error .notToml
  | some value =>
    match ofToml? value with
    | none => .error .misfit
    | some config => .ok config

end Config

end IncludeTidy
