import SimdNetwork.Proofs.Outcome
import SimdNetwork.NetworkPlan.Run
import SimdNetwork.Plan.Listing
import SimdNetwork.Settings
import SimdNetwork.Sweep
import SimdNetwork.Proofs.Stage.Valid
import SimdNetwork.Proofs.Stage.Coarsen
import SimdNetwork.Proofs.Route
import SimdNetwork.Proofs.Route.Coarsen
import SimdNetwork.Proofs.Route.Pattern
import SimdNetwork.Proofs.Register.Move
import SimdNetwork.Proofs.Permute.Union
import SimdNetwork.Proofs.Permute.Partition
import SimdNetwork.Proofs.Permute.Sound
import SimdNetwork.Proofs.Permute.Complete
import SimdNetwork.Proofs.Permute.Realise
import SimdNetwork.Proofs.Blend
import SimdNetwork.Proofs.Compare
import SimdNetwork.Proofs.Lowering
import SimdNetwork.Proofs.Register.Keep
import SimdNetwork.Proofs.Register.View
import SimdNetwork.Proofs.Plan.Pack
import SimdNetwork.Proofs.Plan.Compile
import SimdNetwork.Proofs.Plan.Execute
import SimdNetwork.Proofs.Lane
import SimdNetwork.Proofs.Plan.Run
import SimdNetwork.Proofs.Network
import SimdNetwork.Proofs.NetworkPlan
import SimdNetwork.Proofs.Plan.Cost
import SimdNetwork.Proofs.Plan.Agreement
import SimdNetwork.Proofs.Plan.Faults
import SimdNetwork.Proofs.Network.ZeroOne
import SimdNetwork.Proofs.Plan.Pairing
import SimdNetwork.Proofs.Plan.Widen
import SimdNetwork.Proofs.Plan.Preference
import SimdNetwork.Proofs.Plan.Optimal
import SimdNetwork.Proofs.Plan.Rearrange
import SimdNetwork.Proofs.Plan.Settle
import SimdNetwork.Proofs.Blend.Exact
import SimdNetwork.Proofs.Stage.Merge
import SimdNetwork.Proofs.Network.Merge
import SimdNetwork.Proofs.Stage.Validate
import SimdNetwork.Proofs.Stage.History
import SimdNetwork.Proofs.Plan.Selector
import SimdNetwork.Proofs.Table
import SimdNetwork.Proofs.Plan.Requires
import SimdNetwork.Proofs.Plan.Operand
import SimdNetwork.Proofs.Plan.Repair
import SimdNetwork.Proofs.Plan.Signedness
import SimdNetwork.Proofs.Stage.Compose
import SimdNetwork.Proofs.Text.Blank
import SimdNetwork.Proofs.Target.Override
import SimdNetwork.Proofs.Target.Rendered
import SimdNetwork.Proofs.Network.Flat
