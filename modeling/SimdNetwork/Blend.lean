import SimdNetwork.Selector

/-! Blends: instructions that join the smaller and the larger values lane by lane. -/

namespace SimdNetwork

/-- How a blend is told which lanes to take. -/
inductive BlendKind where
  /-- A move under a mask register. -/
  | maskMove
  /-- A word blend with an immediate. -/
  | wordImmediate
  /-- A dword blend with an immediate. -/
  | dwordImmediate
  /-- A byte blend with a selector vector. -/
  | byteVariable
  deriving DecidableEq, Repr

namespace BlendKind

/-- All kinds of blend. -/
def all : List BlendKind := [.maskMove, .wordImmediate, .dwordImmediate, .byteVariable]

/-- The kind's name. -/
def name : BlendKind → String
  | .maskMove => "MaskMove"
  | .wordImmediate => "WordImmediate"
  | .dwordImmediate => "DwordImmediate"
  | .byteVariable => "ByteVariable"

end BlendKind

/-- A blend with its operand. -/
inductive Blend where
  /-- Takes the lanes of the unit whose mask bits are set. -/
  | maskMove (unit : Width) (mask : Nat)
  /-- Takes the words whose immediate bits are set, eight words at a time. -/
  | words (immediate : UInt8)
  /-- Takes the dwords whose immediate bits are set. -/
  | dwords (immediate : UInt8)
  /-- Takes the bytes whose selector bytes have the top bit set. -/
  | bytes (selector : List UInt8)
  deriving DecidableEq, Repr

namespace Blend

/-- The kind of a blend. -/
def kind : Blend → BlendKind
  | .maskMove .. => .maskMove
  | .words _ => .wordImmediate
  | .dwords _ => .dwordImmediate
  | .bytes _ => .byteVariable

/-- One for the instruction, and one more where a mask or a vector has to be loaded. -/
def cost : Blend → Nat
  | .maskMove .. => 2
  | .words _ => 1
  | .dwords _ => 1
  | .bytes _ => 2

/-- The selector byte that takes a byte. -/
def takeByte : UInt8 := 0x80

/-- The immediate that every eight lanes of a mask share, looked for in one word. -/
def sharedImmediate (bits lanes : Nat) : Except Fault (Option UInt8) :=
  let groups := lanes / 8
  if ∀ group < min groups 8, bits >>> (8 * group) % 256 = bits % 256 then
    if groups ≤ 8 then .ok (some (UInt8.ofNat bits)) else .error .wideShift
  else .ok none

/-- The selector vector of a byte mask, looked for in one word. -/
def selectorBytes (bits count : Nat) : Except Fault (List UInt8) :=
  if count ≤ 64 then
    .ok ((List.range count).map fun byte => if bits.testBit byte then takeByte else 0)
  else .error .wideShift

/-- The blend of the given kind that takes the selected lanes, if its operand can say so. -/
def encode (kind : BlendKind) (granularity : Granularity) (selector : Selector) (width : Width) :
    Except Fault (Option Blend) :=
  if selector.granularity ≠ granularity then .ok none
  else match kind, selector with
    | .maskMove, .perLane bits _ => .ok (some (.maskMove width bits))
    | .wordImmediate, .perLane bits lanes =>
      (sharedImmediate bits lanes).map (Option.map .words)
    | .wordImmediate, .perPair bits _ => .ok (some (.words (UInt8.ofNat bits)))
    | .dwordImmediate, .perLane bits _ => .ok (some (.dwords (UInt8.ofNat bits)))
    | .dwordImmediate, .perPair bits _ => .ok (some (.dwords (UInt8.ofNat bits)))
    | .byteVariable, .perByte bits count =>
      (selectorBytes bits count).map fun selected => some (.bytes selected)
    | _, _ => .ok none

end Blend

end SimdNetwork
