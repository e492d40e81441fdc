/-! Lane widths: one, two, four or eight bytes. -/

namespace SimdNetwork

/-- How wide a lane is. -/
inductive Width where
  | b1
  | b2
  | b4
  | b8
  deriving DecidableEq, Repr

namespace Width

/-- All widths, narrowest first. -/
def all : List Width := [.b1, .b2, .b4, .b8]

/-- The bytes of one lane. -/
def bytes : Width → Nat
  | .b1 => 1
  | .b2 => 2
  | .b4 => 4
  | .b8 => 8

/-- The bits of one lane. -/
def bits (width : Width) : Nat := 8 * width.bytes

/-- The width of so many bytes, if there is one. -/
def ofBytes? (count : Nat) : Option Width := all.find? fun width => width.bytes = count

/-- The strictly wider widths, narrowest first. -/
def wider (width : Width) : List Width := all.filter fun other => width.bytes < other.bytes

/-- The word with only the top bit of a lane set. -/
def signBit (width : Width) : Nat := 1 <<< (width.bits - 1)

/-- The letter that instruction names give the width. -/
def letter : Width → String
  | .b1 => "b"
  | .b2 => "w"
  | .b4 => "d"
  | .b8 => "q"

/-- A lane is at least one byte wide. -/
theorem bytes_pos (width : Width) : 0 < width.bytes := by cases width <;> decide

end Width

end SimdNetwork
