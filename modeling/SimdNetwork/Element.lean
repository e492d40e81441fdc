import SimdNetwork.Width

/-! Element types: the integers a register lane can hold. -/

namespace SimdNetwork

/-- An integer type by lane width and signedness. -/
structure Element where
  /-- How wide a lane of this type is. -/
  width : Width
  /-- Whether the top bit counts as negative. -/
  signed : Bool
  deriving DecidableEq, Repr

namespace Element

/-- All element types, narrowest first and unsigned before signed. -/
def all : List Element := Width.all.flatMap fun width => [⟨width, false⟩, ⟨width, true⟩]

/-- The bytes of one element. -/
def bytes (element : Element) : Nat := element.width.bytes

/-- The type's short name: its signedness letter and its bits. -/
def name (element : Element) : String :=
  (if element.signed then "i" else "u") ++ toString element.width.bits

/-- The type with the given short name. -/
def ofName? (text : String) : Option Element := all.find? fun element => element.name = text

/-- The number that the bits of a lane stand for. -/
def value (element : Element) (bits : Nat) : Int :=
  if element.signed then Int.bmod bits (1 <<< element.width.bits) else bits

end Element

end SimdNetwork
