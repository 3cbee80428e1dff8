import IncludeTidy.Main
import IncludeTidy.Output.Device
import IncludeTidy.Proofs.Delivery
import IncludeTidy.Proofs.ExitCode
import IncludeTidy.Proofs.Intake
import IncludeTidy.Proofs.Suggestions
import IncludeTidy.Proofs.Separators
import IncludeTidy.Proofs.Written
import IncludeTidy.Proofs.Listings
import IncludeTidy.Proofs.Strictness
import IncludeTidy.Proofs.Decoded
import IncludeTidy.Proofs.Pieces
import IncludeTidy.Proofs.Passages
import IncludeTidy.Proofs.Headers
import IncludeTidy.Proofs.Sources
import IncludeTidy.Proofs.Dismissals
import IncludeTidy.Proofs.Documents
import IncludeTidy.Proofs.Truncation
import IncludeTidy.Proofs.Noise
import IncludeTidy.Proofs.Histories
import IncludeTidy.Proofs.Keys
import IncludeTidy.Proofs.Unambiguous
import IncludeTidy.Proofs.Tallies
import IncludeTidy.Proofs.Colors
