import SimdNetwork.Element

/-! Lane types: the integer types whose values are packed into registers. -/

namespace SimdNetwork

/-- An integer type of values. -/
inductive LaneType where
  /-- The values of an element type. -/
  | narrow (element : Element)
  /-- The values of sixteen bytes, for which there is no element type. -/
  | wide (signed : Bool)
  deriving DecidableEq, Repr

namespace LaneType

/-- The element type of the values, if there is one. -/
def element? : LaneType → Option Element
  | .narrow element => some element
  | .wide _ => none

/-- How many bits a value has. -/
def bits : LaneType → Nat
  | .narrow element => element.width.bits
  | .wide _ => 128

/-- Whether values can be negative. -/
def signed : LaneType → Bool
  | .narrow element => element.signed
  | .wide signed => signed

/-- The lane type with the given short name. -/
def ofName? (text : String) : Option LaneType :=
  if text = "u128" then some (.wide false)
  else if text = "i128" then some (.wide true)
  else (Element.ofName? text).map .narrow

/-- The least value of the type. -/
def minValue (type : LaneType) : Int :=
  if type.signed then -((1 <<< (type.bits - 1) : Nat) : Int) else 0

/-- The greatest value of the type. -/
def maxValue (type : LaneType) : Int :=
  if type.signed then ((1 <<< (type.bits - 1) : Nat) : Int) - 1
  else ((1 <<< type.bits : Nat) : Int) - 1

/-- The value of the type that the low bits of a word stand for. -/
def ofBits (type : LaneType) (word : Nat) : Int :=
  if type.signed then Int.bmod word (1 <<< type.bits) else ((word % (1 <<< type.bits) : Nat) : Int)

end LaneType

/-- The low sixty-four bits of a value in two's complement. -/
def wordOf (value : Int) : Nat := (value % ((1 <<< 64 : Nat) : Int)).toNat

end SimdNetwork
