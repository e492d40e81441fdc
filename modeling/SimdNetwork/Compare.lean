/-! Ways of computing the lane-wise minimum and maximum. -/

namespace SimdNetwork

/-- How minimum and maximum are computed. -/
inductive Compare where
  /-- By an instruction for the element type. -/
  | native
  /-- By a signed greater-than and a byte blend, after flipping the sign bits if so marked. -/
  | emulated (flip : Bool)
  deriving DecidableEq, Repr

namespace Compare

/-- One for the instruction, two for a compare and a blend, and three more for the flips. -/
def cost : Compare → Nat
  | .native => 1
  | .emulated false => 2
  | .emulated true => 5

/-- The way of comparing with its mark spelled out. -/
def describe : Compare → String
  | .native => "Native"
  | .emulated flip => s!"Emulated \x7b sign_flip: {flip} \x7d"

end Compare

end SimdNetwork
