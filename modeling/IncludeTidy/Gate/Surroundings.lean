import IncludeTidy.Text.Lines

namespace IncludeTidy.Gate

inductive Place where
  | file (bytes : List UInt8)
  | directory
deriving DecidableEq, Repr

inductive FileFault where
  | missing (path : String)
  | unreadable (path : String) (cause : Text.ReadFault)
deriving DecidableEq, Repr

def FileFault.message : FileFault → String
  | missing path => "failed to open file `" ++ path ++ "`: No such file or directory (os error 2)"
  | unreadable path cause => "failed to read from file `" ++ path ++ "`: " ++ cause.message

-- A file is read to its end; a directory can be opened but not read.
def directoryFault : Text.ReadFault := .device "Is a directory (os error 21)"

def Place.source (path : String) : Place → Text.ByteSource
  | .file bytes => ⟨bytes, none⟩
  | .directory => ⟨[], some (FileFault.message (.unreadable path directoryFault))⟩

-- What stands at a path, seen from the working directory.
abbrev Directory := String → Option Place

namespace Directory

def text (directory : Directory) (path : String) : Except FileFault String :=
  match directory path with
  | none => .error (.missing path)
  | some .directory => .error (.unreadable path directoryFault)
  | some (.file bytes) => (Text.decode bytes).mapError (.unreadable path)

inductive Stop where
  | top
  | inside
  | file (bytes : List UInt8)

def Stop.place : Stop → Place
  | .file bytes => .file bytes
  | _ => .directory

def Stop.next? (places : List (String × Place)) : Stop → String → Option Stop
  | .file _, _ => none
  | stop, "" => some stop
  | stop, "." => some stop
  | .inside, ".." => some .top
  | .inside, _ => none
  | .top, name =>
    (places.lookup name).map fun
      | .file bytes => .file bytes
      | .directory => .inside

def ofList (places : List (String × Place)) : Directory := fun path =>
  match path.splitOn "/" with
  | [] | "" :: _ => none
  | steps => (steps.foldlM (Stop.next? places) .top).map Stop.place

end Directory

-- Where the output goes, and what the environment says about colors there.
structure Display where
  isTerminal : Bool
  colorless? : Option String
  terminal? : Option String
  colors? : Option String
  forced? : Option String
deriving DecidableEq, Repr

namespace Display

-- A pipe, and nothing said.
def pipe : Display := ⟨false, none, none, none, none⟩

-- A terminal shows colors unless it cannot or is asked not to; anything shows them if it is forced
-- to.
def showsColors (display : Display) : Bool :=
  (display.isTerminal && display.colorless?.isNone && display.terminal?.any (· != "dumb") &&
    display.colors?.all (· != "0")) ||
  display.forced?.any (· != "0")

end Display

structure Surroundings where
  directory : Directory
  input : Text.ByteSource
  display : Display

end IncludeTidy.Gate
