import Carom.Arena
import Carom.Document.Json
import Carom.Document.World
import Carom.Proofs.Script.Layout
import Carom.Proofs.Text.Numeral
import Carom.Script.Editor
import Carom.Proofs.Interleaving
import Carom.Proofs.Script.Editor
import Carom.Proofs.Script.Meaning
import Carom.Proofs.Script.Acceptance
import Carom.Proofs.Script.Excerpt
import Carom.Proofs.Script.Threshold
import Carom.Proofs.Footprint
import Carom.Proofs.Lockstep
import Carom.Proofs.Commutation
import Carom.Proofs.Steps
import Carom.Proofs.Trigger
import Carom.Proofs.Commit
import Carom.Proofs.Sharing
import Carom.Proofs.Blocks
import Carom.Proofs.Domain
import Carom.Proofs.Isolation
import Carom.Proofs.Script.Concatenation
import Carom.Proofs.Binary64.Decimal
import Carom.Proofs.Text.Digit
import Carom.Proofs.Binary64.Text
import Carom.Proofs.Document.Scalar
import Carom.Proofs.Document.Checked
import Carom.Proofs.Document.RoundTrip
import Carom.Proofs.Square
import Carom.Proofs.Script.FirstFault
import Carom.Proofs.Script.Partition
import Carom.Proofs.Script.Numbers
import Carom.Proofs.Evaluation
import Carom.Proofs.Unrolling
import Carom.Proofs.Conservation
import Carom.Proofs.Kinds
import Carom.Proofs.Script.Annotation
import Carom.Proofs.Comparison
import Carom.Proofs.Draw
import Carom.Proofs.Dispatch
import Carom.Proofs.Script.Naming
import Carom.Proofs.Script.Recompilation
import Carom.Proofs.Display
import Carom.Proofs.Script.Retyping
