import SimdNetwork.Stage

/-! Selectors: masks of the lanes that keep the smaller value, at the granularity of a blend. -/

namespace SimdNetwork

/-- What one bit of a selector stands for. -/
inductive Granularity where
  /-- A whole lane. -/
  | lane
  /-- One byte of a lane. -/
  | byte
  /-- One half of a lane. -/
  | pair
  deriving DecidableEq, Repr

namespace Granularity

/-- All granularities. -/
def all : List Granularity := [.lane, .byte, .pair]

/-- The granularity's name. -/
def name : Granularity → String
  | .lane => "Lane"
  | .byte => "Byte"
  | .pair => "Pair"

end Granularity

/-- A mask of the lanes that keep the smaller value. -/
inductive Selector where
  /-- One bit for each lane. -/
  | perLane (bits lanes : Nat)
  /-- One bit for each byte. -/
  | perByte (bits bytes : Nat)
  /-- Two bits for each lane. -/
  | perPair (bits lanes : Nat)
  deriving DecidableEq, Repr

namespace Selector

/-- The mask with every lane's bit repeated, which one word has to hold. -/
def repeatBits (bits lanes factor : Nat) : Except Fault Nat :=
  if lanes ≤ 64 ∧ ∀ lane < lanes, bits.testBit lane → lane * factor < 64 then
    .ok (maskOf (lanes * factor) fun bit => bits.testBit (bit / factor))
  else .error .wideShift

/-- The selector of a stage on lanes of the given width. -/
def ofStage (stage : Stage) (width : Width) (granularity : Granularity) :
    Except Fault Selector := do
  let low ← stage.lowLanes
  match granularity with
  | .lane => .ok (.perLane low stage.lanes)
  | .byte => do
    let bits ← repeatBits low stage.lanes width.bytes
    .ok (.perByte bits (stage.lanes * width.bytes))
  | .pair => do
    let bits ← repeatBits low stage.lanes 2
    .ok (.perPair bits stage.lanes)

/-- The bits of the mask. -/
def bits : Selector → Nat
  | .perLane bits _ | .perByte bits _ | .perPair bits _ => bits

/-- What one bit stands for. -/
def granularity : Selector → Granularity
  | .perLane .. => .lane
  | .perByte .. => .byte
  | .perPair .. => .pair

/-- How many bits the mask has. -/
def size : Selector → Except Fault Nat
  | .perLane _ lanes => .ok lanes
  | .perByte _ bytes => .ok bytes
  | .perPair _ lanes => word (2 * lanes)

/-- How many bits one lane of the given width takes. -/
def stride (selector : Selector) (width : Width) : Nat :=
  match selector with
  | .perLane .. => 1
  | .perByte .. => width.bytes
  | .perPair .. => 2

/-- How many lanes of the given width the mask covers. -/
def lanes (selector : Selector) (width : Width) : Nat :=
  match selector with
  | .perLane _ lanes => lanes
  | .perByte _ bytes => bytes / width.bytes
  | .perPair _ lanes => lanes

/-- The mask reduced to one bit for each lane of the given width, read at the lane's first bit. -/
def laneBits (selector : Selector) (width : Width) : Except Fault Nat :=
  let lanes := selector.lanes width
  let stride := selector.stride width
  if lanes = 0 ∨ (lanes - 1) * stride < 64 then
    .ok (maskOf lanes fun lane => selector.bits.testBit (lane * stride))
  else .error .wideShift

/-- Whether a lane of the given width keeps the smaller value. -/
def isLow (selector : Selector) (lane : Nat) (width : Width) : Except Fault Bool := do
  let bits ← selector.laneBits width
  if lane < 64 then .ok (bits.testBit lane) else .error .wideShift

/-- The mask with its kind and its fields spelled out. -/
def describe : Selector → String
  | .perLane bits lanes => s!"PerLane \x7b bits: {bits}, lanes: {lanes} \x7d"
  | .perByte bits bytes => s!"PerByte \x7b bits: {bits}, bytes: {bytes} \x7d"
  | .perPair bits lanes => s!"PerPair \x7b bits: {bits}, lanes: {lanes} \x7d"

end Selector

end SimdNetwork
