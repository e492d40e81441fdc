import SimdNetwork.Plan
import SimdNetwork.Register.Choose
import SimdNetwork.Register.Move

/-! What a plan does to a register. -/

namespace SimdNetwork

/-- The register that all steps of a plan leave. -/
def Plan.execute (plan : Plan) (register : Register) : Except Fault Register := do
  if register.shape ≠ plan.shape then .error .planShape
  else
    let partners ← plan.permute.apply register
    let smaller ← register.keep partners plan.element plan.compare .low
    let larger ← register.keep partners plan.element plan.compare .high
    plan.blend.apply larger smaller

end SimdNetwork
