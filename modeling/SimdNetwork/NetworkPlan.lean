import SimdNetwork.Network
import SimdNetwork.Plan.Journal

/-! Plans of whole networks, one for each stage. -/

namespace SimdNetwork

/-- The plans that a network was compiled to. -/
structure NetworkPlan where
  /-- How many values the network works on. -/
  size : Nat
  /-- The element type of the values. -/
  element : Element
  /-- The plans of the stages, in the order they run. -/
  stages : List Plan
  deriving DecidableEq

namespace NetworkPlan

/-- The cost of all stages together. -/
def cost (plan : NetworkPlan) : Nat :=
  plan.stages.foldr (fun stage total => stage.cost + total) 0

/-- How many stages move lanes wider than the elements. -/
def coarsenedStages (plan : NetworkPlan) : Nat := plan.stages.countP Plan.isCoarsened

end NetworkPlan

namespace Network

/--
The plan of a network, or the failure of the first stage that has none.

This is the sequential compile, one stage after another. A compile that works on the stages side by
side is assumed to keep their order: it waits for all of them, takes up their outcomes in the order
of the stages and only then looks for the first failure, so that it comes to the same.
-/
def compile (network : Network) (element : Element) (target : Target) (widen : Bool) :
    Except Failure NetworkPlan :=
  (network.stages.mapM fun (stage : Stage) => stage.compile element target widen).map
    fun stages => ⟨network.size, element, stages⟩

/-- The journals of the stages, up to the first that has no plan. -/
def stagesJournal (element : Element) (target : Target) (widen : Bool) : List Stage → Journal
  | [] => []
  | stage :: rest =>
    stage.compileJournal element target widen ++
      match stage.compile element target widen with
      | .ok _ => stagesJournal element target widen rest
      | .error _ => []

/-- The journal of compiling the stages one after another. -/
def stepwiseJournal (network : Network) (element : Element) (target : Target) (widen : Bool) :
    Journal :=
  stagesJournal element target widen network.stages

/-- The journal of compiling the stages side by side, which only says that it was done. -/
def summaryJournal (network : Network) (element : Element) (target : Target) (widen : Bool) :
    Journal :=
  match network.compile element target widen with
  | .ok _ =>
    [⟨.debug, s!"compiled {network.size}-element network of depth {network.depth} " ++
      s!"for {element.name}"⟩]
  | .error _ => []

end Network

end SimdNetwork
