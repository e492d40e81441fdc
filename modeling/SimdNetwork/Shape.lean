import SimdNetwork.Width

/-! Register shapes: vector registers of sixteen, thirty-two and sixty-four bytes. -/

namespace SimdNetwork

/-- The bytes of one lane group, inside which most shuffles stay. -/
def groupBytes : Nat := 16

/-- Which of the three vector registers. -/
inductive Shape where
  | xmm
  | ymm
  | zmm
  deriving DecidableEq, Repr

namespace Shape

/-- All shapes, smallest first. -/
def all : List Shape := [.xmm, .ymm, .zmm]

/-- The bytes of the register. -/
def bytes : Shape → Nat
  | .xmm => 16
  | .ymm => 32
  | .zmm => 64

/-- The register's name. -/
def name : Shape → String
  | .xmm => "xmm"
  | .ymm => "ymm"
  | .zmm => "zmm"

/-- The shape with the given name. -/
def ofName? (text : String) : Option Shape := all.find? fun shape => shape.name = text

/-- How many lane groups the register has. -/
def groups (shape : Shape) : Nat := shape.bytes / groupBytes

/-- How many lanes of the width the register has. -/
def lanes (shape : Shape) (width : Width) : Nat := shape.bytes / width.bytes

/-- The most bytes any register holds. -/
def limit : Nat := 64

/-- The smallest register that holds so many bytes. -/
def fitting? (count : Nat) : Option Shape := all.find? fun shape => count ≤ shape.bytes

/-- The lanes of any width fill the register exactly. -/
theorem lanes_mul_bytes (shape : Shape) (width : Width) :
    shape.lanes width * width.bytes = shape.bytes := by
  -- The bytes of every shape are a multiple of those of every width.
  cases shape <;> cases width <;> decide

end Shape

end SimdNetwork
