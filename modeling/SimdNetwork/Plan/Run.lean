import SimdNetwork.Lane
import SimdNetwork.Plan.Execute

/-! Running a plan on values: packing them into a register and reading them back. -/

namespace SimdNetwork

/-- The register that holds the values in its low lanes and the fill in the others. -/
def Plan.pack (plan : Plan) (values : List Int) (fill : Int) : Except Fault Register :=
  let width := plan.element.width
  if plan.lanes < values.length then .error .tooManyValues
  else .ok (Register.build plan.shape fun position =>
    byteOf (wordOf (values.getD (position / width.bytes) fill)) (position % width.bytes))

/-- The values in so many low lanes of a register. -/
def Register.unpack (register : Register) (type : LaneType) (width : Width) (count : Nat) :
    Except Fault (List Int) :=
  if count ≤ register.lanes width then
    .ok ((List.range count).map fun lane => type.ofBits (register.laneBits width lane))
  else .error .outOfRange

/-- The values after the plan has run on them, with the fill in the lanes they leave free. -/
def Plan.runPadded (plan : Plan) (type : LaneType) (values : List Int) (fill : Int) :
    Except Fault (List Int) := do
  if type.element? ≠ some plan.element then .error .laneType
  else
    let packed ← plan.pack values fill
    let result ← plan.execute packed
    result.unpack type plan.element.width values.length

/-- The values after the plan has run on them, with the greatest value in the free lanes. -/
def Plan.run (plan : Plan) (type : LaneType) (values : List Int) : Except Fault (List Int) :=
  plan.runPadded type values type.maxValue

end SimdNetwork
