/-! What can go wrong while an operation runs on operands it was not made for. -/

namespace SimdNetwork

/-- A broken precondition of a running operation. -/
inductive Fault where
  /-- A lane, byte or slot beyond the end was read or written. -/
  | outOfRange
  /-- A count left the range of a 64-bit word. -/
  | overflow
  /-- A word was shifted by at least its own width. -/
  | wideShift
  /-- The bytes loaded into a register are not as many as the register holds. -/
  | registerSize
  /-- A plan was given a register of another shape. -/
  | planShape
  /-- More values were packed than the register has lanes. -/
  | tooManyValues
  /-- The values are not of the plan's element type. -/
  | laneType
  /-- A network was given an input of another size. -/
  | networkSize
  /-- A stage was given an input of another size. -/
  | stageSize
  deriving DecidableEq, Repr

/-- The wording of a fault that names a caller's mistake; the others carry none. -/
def Fault.message? : Fault → Option String
  | .outOfRange | .overflow | .wideShift => none
  | .registerSize => some "Register size mismatch"
  | .planShape => some "Register width must match the plan"
  | .tooManyValues => some "More values than register lanes"
  | .laneType => some "Lane type does not match the plan's element type"
  | .networkSize => some "Input length must match network size"
  | .stageSize => some "Input length must match logical size"

/-- A count, unless it leaves the range of a 64-bit word. -/
def word (count : Nat) : Except Fault Nat :=
  if count < 1 <<< 64 then .ok count else .error .overflow

end SimdNetwork
