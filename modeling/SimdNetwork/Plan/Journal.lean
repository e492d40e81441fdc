import SimdNetwork.Journal
import SimdNetwork.Plan.Compile

/-! The journal of compiling a stage: what was tried, and what was chosen. -/

namespace SimdNetwork

/-- Which wider lanes the stage moves in. -/
def Stage.coarsenJournal (stage : Stage) (width : Width) : Journal :=
  width.wider.flatMap fun wide =>
    let tried := s!"promotion x{width.factorTo wide} to {wide.bytes} bytes"
    match stage.coarsening? width wide with
    | .ok (some _) => [⟨.trace, tried ++ " accepted"⟩]
    | .ok none => [⟨.trace, tried ++ " rejected"⟩]
    | .error _ => []

/-- The permutes that could not realise the route. -/
def attemptJournal (attempts : List Attempt) : Journal :=
  (attempts.filter fun attempt => attempt.encoding.isNone).map fun attempt =>
    let row := attempt.row
    ⟨.trace, s!"{row.kind.name} at {row.unit.bytes} bytes cannot express the route"⟩

/-- The blends that could not express the selector, up to the first that could. -/
def blendJournal (stage : Stage) (width : Width) : List BlendRow → Journal
  | [] => []
  | row :: rest =>
    match Selector.ofStage stage width row.granularity with
    | .error _ => []
    | .ok selector =>
      match Blend.encode row.kind row.granularity selector width with
      | .ok none =>
        ⟨.trace, s!"{row.kind.name} blend rejected selector {selector.describe}"⟩ ::
          blendJournal stage width rest
      | _ => []

/-- What was chosen for a stage that uses so many lanes. -/
def Plan.summary (plan : Plan) (used : Nat) : Entry :=
  let permute := s!"permute {plan.permute.kind.name} at {plan.permuteUnit.bytes} bytes"
  let compare := s!"compare {plan.compare.describe}"
  let blend := s!"blend {plan.blend.kind.name}"
  ⟨.debug, s!"{plan.element.name} x{used} in {plan.shape.name}: {permute}, {compare}, {blend}"⟩

/-- Everything tried and chosen while the stage was compiled. -/
def Stage.compileJournal (stage : Stage) (element : Element) (target : Target) (widen : Bool) :
    Journal :=
  match stage.setting element target widen with
  | .error _ => []
  | .ok setting =>
    let coarsened := if widen then setting.padded.coarsenJournal element.width else []
    let tried := match permuteAttempts target setting.lowering.shape setting.candidates with
      | .ok attempts => attemptJournal attempts
      | .error _ => []
    let blended := blendJournal setting.padded element.width setting.lowering.blends
    let chosen := match stage.compile element target widen with
      | .ok plan => [plan.summary stage.used]
      | .error _ => []
    coarsened ++ tried ++ blended ++ chosen

end SimdNetwork
