import Scrawl.Main
import Scrawl.Session
import Scrawl.Proofs.Grammar.RoundTrip
import Scrawl.Proofs.Eval.Lockstep
import Scrawl.Proofs.Eval.Simulation
import Scrawl.Proofs.Eval.SimulatedNatives
import Scrawl.Proofs.Eval.SimulatedNodes
import Scrawl.Proofs.Codec.RoundTrip
import Scrawl.Proofs.Json.RoundTrip
import Scrawl.Proofs.Scope.Forest
import Scrawl.Proofs.Scope.Inner
import Scrawl.Proofs.Scope.Resolution
import Scrawl.Proofs.Eval.PackedValues
import Scrawl.Proofs.Eval.PackedNodes
import Scrawl.Proofs.Eval.PackedWorlds
import Scrawl.Proofs.Eval.Packed
import Scrawl.Proofs.Scope.Evolution
import Scrawl.Proofs.Eval.Evolution
import Scrawl.Proofs.Eval.Reachable
import Scrawl.Proofs.Eval.Restoring
import Scrawl.Proofs.Grammar.Split
import Scrawl.Proofs.Grammar.Appending
import Scrawl.Proofs.Eval.Appending
import Scrawl.Proofs.Eval.Frame
import Scrawl.Proofs.Eval.Circulation
import Scrawl.Proofs.Eval.Histories
import Scrawl.Proofs.Eval.StandardValues
import Scrawl.Proofs.Files.Writing
import Scrawl.Proofs.Command.Packing
import Scrawl.Proofs.Stage.Growth
import Scrawl.Proofs.Eval.Plans
import Scrawl.Proofs.Eval.StageMoves
import Scrawl.Proofs.Eval.Moments
import Scrawl.Proofs.Eval.Windows
import Scrawl.Proofs.Eval.Congruence
import Scrawl.Proofs.Eval.Control
import Scrawl.Proofs.Eval.Redraws
import Scrawl.Proofs.Eval.Reloading
import Scrawl.Proofs.Decimal.Rounding
import Scrawl.Proofs.Eval.Parameters
import Scrawl.Proofs.Eval.Calls
import Scrawl.Proofs.Eval.Again
import Scrawl.Proofs.Eval.Blocks
import Scrawl.Proofs.Grammar.Comments
import Scrawl.Proofs.Grammar.Keeping
import Scrawl.Proofs.Grammar.Stumbling
import Scrawl.Proofs.Eval.Chains
import Scrawl.Proofs.Eval.Equality
import Scrawl.Proofs.Eval.Effects
import Scrawl.Proofs.Eval.Addressing
import Scrawl.Proofs.Command.Intact
import Scrawl.Proofs.Command.Overwriting
import Scrawl.Proofs.Eval.Merging
import Scrawl.Proofs.Grammar.EmptyItems
import Scrawl.Proofs.Eval.Literals
