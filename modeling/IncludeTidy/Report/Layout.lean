import IncludeTidy.Text.Blank
import IncludeTidy.Text.Search

namespace IncludeTidy

inductive Section where
  | additions
  | removals
  | fullList
deriving DecidableEq, Repr

inductive Signal where
  | add
  | remove
  | fullList
  | correct
  | boundary
deriving DecidableEq, Repr

-- The section before the signal has no part in what follows it.
def Section.after? (_current : Option Section) : Signal → Option Section
  | .add => some .additions
  | .remove => some .removals
  | .fullList => some .fullList
  | .correct | .boundary => none

structure HeaderShape where
  opening : String
  closing : String
  signal : Signal
deriving DecidableEq, Repr

def HeaderShape.Fits (shape : HeaderShape) (file line : String) : Prop :=
  '\n' ∉ file.toList ∧ (shape.opening ++ file ++ shape.closing).toList <+: line.toList

def HeaderShape.file? (shape : HeaderShape) (line : String) : Option String :=
  ((Text.after? shape.opening.toList line.toList).bind
    (Text.longestBefore? shape.closing.toList)).map String.ofList

structure Header where
  signal : Signal
  file : String
deriving DecidableEq, Repr

inductive LineKind where
  | noise
  | boundary
  | header (header : Header)
  | content
deriving DecidableEq, Repr

-- A blank error mark would begin every line and turn the whole report into noise, so there is none.
structure Layout where
  pathMark : String
  errorMark : String
  errorMark_visible : Text.trim errorMark ≠ ""
deriving DecidableEq

namespace Layout

def shapes (layout : Layout) : List HeaderShape :=
  [⟨layout.pathMark, " should add these lines:", .add⟩,
   ⟨layout.pathMark, " should remove these lines:", .remove⟩,
   ⟨"The full include-list for " ++ layout.pathMark, ":", .fullList⟩,
   ⟨"(" ++ layout.pathMark, " has correct #includes/fwd-decls)", .correct⟩]

def header? (layout : Layout) (line : String) : Option Header :=
  layout.shapes.findSome? fun shape => (shape.file? line).map fun file => ⟨shape.signal, file⟩

def isNoise (layout : Layout) (line : String) : Bool :=
  line.isEmpty || layout.errorMark.toList.isPrefixOf line.toList

def boundaryLine : String := "---"

def isBoundary (line : String) : Bool := line = boundaryLine

-- Each line is judged alone. Noise hides a boundary, a boundary a header, and what is none of these
-- is content.
def kind (layout : Layout) (line : String) : LineKind :=
  if layout.isNoise line then .noise
  else if isBoundary line then .boundary
  else match layout.header? line with
    | some header => .header header
    | none => .content

end Layout

end IncludeTidy
