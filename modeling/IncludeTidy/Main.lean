import IncludeTidy.Gate.Basic

namespace IncludeTidy

-- What cannot be read, though it is there, counts as a directory.
def placeAt (path : String) : IO (Option Gate.Place) := do
  try
    return some (.file (← IO.FS.readBinFile path).toList)
  catch
    | .noFileOrDirectory .. => return none
    | _ => return some .directory

def gather (arguments : List String) : IO Gate.Surroundings := do
  let places ← (Gate.filesOf arguments).mapM fun path => return (path, ← placeAt path)
  let input ← if Gate.readsPipe arguments then (← IO.getStdin).readBinToEnd else pure .empty
  let display : Gate.Display :=
    ⟨← (← IO.getStdout).isTty, ← IO.getEnv "NO_COLOR", ← IO.getEnv "TERM", ← IO.getEnv "CLICOLOR",
      ← IO.getEnv "CLICOLOR_FORCE"⟩
  return ⟨fun path => (places.lookup path).join, ⟨input.toList, none⟩, display⟩

end IncludeTidy

def main (arguments : List String) : IO UInt32 := do
  let answer := IncludeTidy.Gate.answer arguments (← IncludeTidy.gather arguments)
  let output ← IO.getStdout
  output.write answer.output.toByteArray
  output.flush
  if let .error failure := answer.result then
    IO.eprintln failure.message
  return answer.exitCode.toUInt32
