import SimdNetwork.Blend
import SimdNetwork.Compare
import SimdNetwork.Feature.Set
import SimdNetwork.Permute

/-! Plans: the instructions that a stage was compiled to. -/

namespace SimdNetwork

/-- One permute, one way of comparing and one blend, which together run a stage in a register. -/
structure Plan where
  /-- The register the stage runs in. -/
  shape : Shape
  /-- The element type of its lanes. -/
  element : Element
  /-- The width of the lanes that the permute moves. -/
  permuteUnit : Width
  /-- The permute that brings every lane its partner. -/
  permute : Permute
  /-- The features that the permute needs. -/
  permuteRequires : FeatureSet
  /-- How minimum and maximum are computed. -/
  compare : Compare
  /-- The features that comparing needs. -/
  compareRequires : FeatureSet
  /-- The blend that joins minimum and maximum. -/
  blend : Blend
  /-- The features that the blend needs. -/
  blendRequires : FeatureSet
  /-- The selector that the blend expresses. -/
  selector : Selector
  deriving DecidableEq

/-- What one step of a plan does. -/
inductive Operation where
  /-- Brings every lane its partner. -/
  | permute (permute : Permute)
  /-- Takes the smaller of each lane and its partner. -/
  | minimum (compare : Compare)
  /-- Takes the larger of each lane and its partner. -/
  | maximum (compare : Compare)
  /-- Joins the smaller and the larger values. -/
  | blend (blend : Blend)
  deriving DecidableEq, Repr

/-- The cost of an operation. -/
def Operation.cost : Operation → Nat
  | .permute moved => moved.cost
  | .minimum compare | .maximum compare => compare.cost
  | .blend joined => joined.cost

/-- One step of a plan. -/
structure Step where
  /-- What the step does. -/
  operation : Operation
  /-- The features it needs. -/
  requires : FeatureSet
  deriving DecidableEq

/-- The lowest tier that can run the step. -/
def Step.tier (step : Step) : Tier := step.requires.minimumTier

namespace Plan

/-- The steps of a plan, in the order they run. -/
def steps (plan : Plan) : List Step :=
  [⟨.permute plan.permute, plan.permuteRequires⟩, ⟨.minimum plan.compare, plan.compareRequires⟩,
    ⟨.maximum plan.compare, plan.compareRequires⟩, ⟨.blend plan.blend, plan.blendRequires⟩]

/-- The cost of all steps together. -/
def cost (plan : Plan) : Nat :=
  plan.steps.foldr (fun step total => step.operation.cost + total) 0

/-- The features that any step needs. -/
def requires (plan : Plan) : FeatureSet :=
  (plan.steps.map Step.requires).foldl FeatureSet.union .empty

/-- The lowest tier that can run the plan. -/
def tier (plan : Plan) : Tier := plan.requires.minimumTier

/-- How many element lanes the register has. -/
def lanes (plan : Plan) : Nat := plan.shape.lanes plan.element.width

/-- Whether the permute moves lanes wider than the elements. -/
def isCoarsened (plan : Plan) : Bool := plan.permuteUnit ≠ plan.element.width

end Plan

end SimdNetwork
