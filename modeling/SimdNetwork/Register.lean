import SimdNetwork.Fault
import SimdNetwork.Shape

/-! Register contents: bytes, and the same bytes read as little-endian lanes of any width. -/

namespace SimdNetwork

/-- A vector register with its contents. -/
structure Register where
  /-- Which register it is. -/
  shape : Shape
  /-- Its bytes, lowest first. -/
  bytes : Vector UInt8 shape.bytes
  deriving DecidableEq

/-- The number that bytes spell, lowest byte first. -/
def littleEndian : List UInt8 → Nat
  | [] => 0
  | byte :: rest => byte.toNat + 256 * littleEndian rest

/-- One byte of a number, the lowest being byte zero. -/
def byteOf (number index : Nat) : UInt8 := UInt8.ofNat (number >>> (8 * index))

namespace Register

/-- The byte at a position, zero beyond the end. -/
def byte (register : Register) (position : Nat) : UInt8 :=
  if inside : position < register.shape.bytes then register.bytes[position] else 0

/-- The register whose bytes a function gives. -/
def build (shape : Shape) (content : Nat → UInt8) : Register :=
  ⟨shape, Vector.ofFn fun position => content position⟩

/-- A built register has the shape it was built with. -/
@[simp] theorem shape_build (shape : Shape) (content : Nat → UInt8) :
    (build shape content).shape = shape := rfl

/-- A built register holds what the function gave. -/
@[simp] theorem byte_build (shape : Shape) (content : Nat → UInt8) (position : Nat)
    (inside : position < shape.bytes) : (build shape content).byte position = content position := by
  -- A position inside the register is read from the vector that was made of the function.
  simp [byte, build, inside]

/-- Registers of one shape that agree in every byte are equal. -/
theorem ext_byte {left right : Register} (shapes : left.shape = right.shape)
    (agree : ∀ position < left.shape.bytes, left.byte position = right.byte position) :
    left = right := by
  -- A register is a shape and a vector of its bytes, so the two are compared one by one.
  obtain ⟨shape, leftBytes⟩ := left
  obtain ⟨_, rightBytes⟩ := right
  obtain rfl : shape = _ := shapes
  congr 1
  apply Vector.ext
  intro position inside
  -- Inside the register the total reading is the reading of the vector.
  simpa [byte, inside] using agree position inside

/-- The register with every byte zero. -/
def zero (shape : Shape) : Register := build shape fun _ => 0

/-- The register holding exactly the given bytes. -/
def ofBytes (shape : Shape) (bytes : List UInt8) : Except Fault Register :=
  if bytes.length = shape.bytes then .ok (build shape fun position => bytes.getD position 0)
  else .error .registerSize

/-- The bytes, lowest first. -/
def toBytes (register : Register) : List UInt8 := register.bytes.toList

/-- How many lanes of the width the register has. -/
def lanes (register : Register) (width : Width) : Nat := register.shape.lanes width

/-- The contents of a lane as a number, bytes beyond the end counting as zero. -/
def laneBits (register : Register) (width : Width) (lane : Nat) : Nat :=
  littleEndian ((List.range width.bytes).map fun offset =>
    register.byte (lane * width.bytes + offset))

/-- The contents of a lane that the register has. -/
def lane (register : Register) (width : Width) (lane : Nat) : Except Fault Nat :=
  if lane < register.lanes width then .ok (register.laneBits width lane) else .error .outOfRange

/-- The register with one lane replaced by the low bytes of a number. -/
def setLane (register : Register) (width : Width) (lane value : Nat) : Except Fault Register :=
  if lane < register.lanes width then
    .ok (build register.shape fun position =>
      if position / width.bytes = lane then byteOf value (position % width.bytes)
      else register.byte position)
  else .error .outOfRange

/-- The register with one byte replaced. -/
def setByte (register : Register) (position : Nat) (value : UInt8) : Except Fault Register :=
  if position < register.shape.bytes then
    .ok (build register.shape fun other =>
      if other = position then value else register.byte other)
  else .error .outOfRange

end Register

end SimdNetwork
