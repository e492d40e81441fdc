import SimdNetwork.Least
import SimdNetwork.Table
import SimdNetwork.Target

/-! Lowerings: the instructions of the tables that a target can run. -/

namespace SimdNetwork

/-- The permutes on lanes of the unit that the target can run. -/
def Target.permutes (target : Target) (shape : Shape) (unit : Width) : List PermuteRow :=
  (permuteTable shape unit).filter fun row => target.supports row.requires

/-- The blends of lanes of the width that the target can run. -/
def Target.blends (target : Target) (shape : Shape) (width : Width) : List BlendRow :=
  (blendTable shape width).filter fun row => target.supports row.requires

/-- What the target lacks for the requirement it comes closest to. -/
def Target.closestMissing (target : Target) (requirements : List FeatureSet) : FeatureSet :=
  (firstLeast? FeatureSet.size (requirements.map (·.missing target.usable))).getD .empty

/-- What a stage in one register and of one element type can be compiled to. -/
structure Lowering where
  /-- The register. -/
  shape : Shape
  /-- The element type. -/
  element : Element
  /-- The permutes of element lanes, in the order they are tried. -/
  permutes : List PermuteRow
  /-- The way of comparing. -/
  compare : CompareRow
  /-- The blends, best first. -/
  blends : List BlendRow
  deriving DecidableEq

namespace Lowering

/-- The permutes that stay inside a lane group. -/
def laneLocal (lowering : Lowering) : List PermuteRow :=
  lowering.permutes.filter fun row => !row.kind.crossesGroups

/-- The permutes that move data between lane groups. -/
def crossLane (lowering : Lowering) : List PermuteRow :=
  lowering.permutes.filter fun row => row.kind.crossesGroups

/-- The blend that is tried first. -/
def richestBlend? (lowering : Lowering) : Option BlendRow := lowering.blends.head?

end Lowering

/-- The error for a primitive and the features it lacks. -/
def unsupported {α : Type} (primitive : Primitive) (missing : FeatureSet) :
    Except CompileError α :=
  .error (.unsupported primitive missing.toList)

/-- Whether the target has the register at all. -/
def Target.resolveRegister (target : Target) (shape : Shape) : Except CompileError Unit :=
  if target.supports shape.requires then .ok ()
  else unsupported (.register shape) (shape.requires.missing target.usable)

/-- The best way of comparing that the target can run. -/
def Target.resolveCompare (target : Target) (shape : Shape) (element : Element) :
    Except CompileError CompareRow :=
  match (compareTable shape element).find? fun row => target.supports row.requires with
  | some row => .ok row
  | none => unsupported .compare
      (target.closestMissing ((compareTable shape element).map CompareRow.requires))

/-- The blends that the target can run, if one of them expresses every selector. -/
def Target.resolveBlends (target : Target) (shape : Shape) (width : Width) :
    Except CompileError (List BlendRow) :=
  if (target.blends shape width).any (·.isComplete shape) then .ok (target.blends shape width)
  else unsupported .blend (target.closestMissing
    (((blendTable shape width).filter (·.isComplete shape)).map BlendRow.requires))

/-- The permutes that the target can run, if one of them realises every route. -/
def Target.resolvePermutes (target : Target) (shape : Shape) (unit : Width) :
    Except CompileError (List PermuteRow) :=
  if (target.permutes shape unit).any (·.isComplete shape) then .ok (target.permutes shape unit)
  else unsupported (if 1 < shape.groups then .crossLane else .laneLocal) (target.closestMissing
    (((permuteTable shape unit).filter (·.isComplete shape)).map PermuteRow.requires))

/-- The lowering of every part of a stage, or the first part the target cannot run. -/
def Target.resolve (target : Target) (shape : Shape) (element : Element) :
    Except CompileError Lowering := do
  target.resolveRegister shape
  let compare ← target.resolveCompare shape element
  let blends ← target.resolveBlends shape element.width
  let permutes ← target.resolvePermutes shape element.width
  .ok ⟨shape, element, permutes, compare, blends⟩

end SimdNetwork
