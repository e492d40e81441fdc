import SimdNetwork.NetworkPlan
import SimdNetwork.Plan.Run

/-! Running the plan of a network on values. -/

namespace SimdNetwork

/-- The values after every plan has run on them. -/
def NetworkPlan.run (plan : NetworkPlan) (type : LaneType) (values : List Int) :
    Except Fault (List Int) :=
  if values.length ≠ plan.size then .error .networkSize
  else plan.stages.foldlM (fun current stage => stage.run type current) values

/-- The values after each plan of a list in turn. -/
def tracePlans (type : LaneType) : List Plan → List Int → Except Fault (List (List Int))
  | [], _ => .ok []
  | plan :: rest, values => do
    let next ← plan.run type values
    let later ← tracePlans type rest next
    .ok (next :: later)

/-- The values after each stage, whatever the size of the input. -/
def NetworkPlan.trace (plan : NetworkPlan) (type : LaneType) (values : List Int) :
    Except Fault (List (List Int)) :=
  tracePlans type plan.stages values

end SimdNetwork
