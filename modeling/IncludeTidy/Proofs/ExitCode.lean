import IncludeTidy.Gate.Basic
import IncludeTidy.Proofs.Agreement
import IncludeTidy.Proofs.Decoded

namespace IncludeTidy.Gate

variable {options : Options} {around : Surroundings} {directory : Directory}

example :
    (run .empty ⟨fun _ => none,
      ⟨"../a.h should add these lines:\nclass B;\n".toUTF8.toList, none⟩, .pipe⟩).exitCode = 1 := by
  decide +kernel

end IncludeTidy.Gate
