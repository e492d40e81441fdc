import SimdNetwork.Permute
import SimdNetwork.Route

/-! Encoding a byte route into the operand of a permute. -/

namespace SimdNetwork

namespace Route

/-- The dword selection that realises the route, if one does. -/
def dwordImmediate? (route : Route) : Option UInt8 :=
  (route.sharedPattern? .b4).map packSelections

/-- The low and high word selections that realise the route, if they do. -/
def wordImmediates (route : Route) : Except Fault (Option (UInt8 × UInt8)) :=
  match route.sharedPattern? .b2 with
  | none => .ok none
  | some pattern =>
    let low := pattern.take 4
    let high := pattern.drop 4
    if pattern.length < 4 then .error .outOfRange
    else if low.all (· < 4) && high.all (4 ≤ ·) then
      .ok (some (packSelections low, packSelections (high.map (· - 4))))
    else .ok none

/-- The byte table that realises the route, if it stays in its lane groups. -/
def byteTable? (route : Route) : Option (List UInt8) :=
  if route.isLaneLocal then
    some (route.sources.map fun source => UInt8.ofNat (source % groupBytes))
  else none

/-- The qword selection that realises the route in a register, if one does. -/
def qwordImmediate (route : Route) (shape : Shape) : Except Fault (Option UInt8) :=
  match route.units? 8, shape with
  | none, _ => .ok none
  | some _, .xmm => .ok none
  | some qwords, .ymm =>
    if 4 < qwords.length then .error .wideShift else .ok (some (packSelections qwords))
  | some qwords, .zmm =>
    let low := qwords.take 4
    let high := qwords.drop 4
    if qwords.length < 4 then .error .outOfRange
    -- The instruction makes the same selection in both halves.
    else if (low.zip high).all fun pair => pair.1 < 4 && pair.2 = pair.1 + 4 then
      .ok (some (packSelections low))
    else .ok none

/-- The lane indices that realise the route on units of the width, if it moves such units. -/
def permuteIndices? (route : Route) (unit : Width) : Option (List UInt8) :=
  (route.units? unit.bytes).map (List.map UInt8.ofNat)

/-- Whether a source lies so many lane groups further on than its destination. -/
def isFurther (route : Route) (rotation destination source : Nat) : Bool :=
  source / groupBytes = (destination / groupBytes + rotation) % route.groups

/-- The byte table of the bytes that come from so many lane groups further on. -/
def unionControl (route : Route) (rotation : Nat) : List UInt8 :=
  route.sources.mapIdx fun destination source =>
    if route.isFurther rotation destination source then UInt8.ofNat (source % groupBytes)
    else zeroByte

/-- Whether any byte comes from so many lane groups further on. -/
def usesRotation (route : Route) (rotation : Nat) : Bool :=
  route.sources.zipIdx.any fun place => route.isFurther rotation place.2 place.1

/-- The parts that together realise the route, one for every rotation it uses. -/
def unionParts (route : Route) : List UnionPart :=
  ((List.range route.groups).filter route.usesRotation).map fun rotation =>
    ⟨rotation, route.unionControl rotation⟩

end Route

/-- The permute of the given kind and unit that realises the route, if its operand can say so. -/
def Permute.encode (kind : PermuteKind) (unit : Width) (route : Route) (shape : Shape) :
    Except Fault (Option Permute) :=
  match kind with
  | .dwordImmediate => .ok (route.dwordImmediate?.map .dwords)
  | .wordImmediate =>
    route.wordImmediates.map (Option.map fun immediates => .words immediates.1 immediates.2)
  | .byteTable => .ok (route.byteTable?.map .bytes)
  | .qwordImmediate => (route.qwordImmediate shape).map (Option.map .qwords)
  | .indexed => .ok ((route.permuteIndices? unit).map (.indexed unit))
  | .maskedUnion => .ok (some (.union route.unionParts))

end SimdNetwork
