import SimdNetwork.Lane

/-! Values of a lane type come back from the bits that they are packed into. -/

namespace SimdNetwork

namespace LaneType

/-- The values of a lane type. -/
def Holds (type : LaneType) (value : Int) : Prop := type.minValue ≤ value ∧ value ≤ type.maxValue

/-- Whether a type has a value is decided by its bounds. -/
instance (type : LaneType) (value : Int) : Decidable (type.Holds value) :=
  inferInstanceAs (Decidable (_ ∧ _))

/-- The values of every lane type reach from zero or below to one or above. -/
theorem bounds (type : LaneType) : type.minValue ≤ 0 ∧ 1 ≤ type.maxValue := by
  -- There are ten types, and each has its bounds as numbers.
  rcases type with ⟨width, signed⟩ | signed
  · cases width <;> cases signed <;> decide
  · cases signed <;> decide

/-- Zero and one are values of every lane type. -/
theorem holds_of_isBit (type : LaneType) {bit : Int} (isBit : bit = 0 ∨ bit = 1) :
    type.Holds bit := by
  -- Both lie between the bounds of every type.
  have ends := type.bounds
  exact ⟨by omega, by omega⟩

/-- The greatest value of a lane type is one of its values. -/
theorem holds_maxValue (type : LaneType) : type.Holds type.maxValue := by
  -- The bounds of a type do not cross, since zero and one lie between them.
  have ends := type.bounds
  exact ⟨by omega, Int.le_refl _⟩

/-- Where all values and the fill are of a type, so is what is read at any place or beyond. -/
theorem holds_getD {type : LaneType} {values : List Int} {fill : Int}
    (held : ∀ value ∈ values, type.Holds value) (fillHeld : type.Holds fill) (place : Nat) :
    type.Holds (values.getD place fill) := by
  -- A place has one of the values, and beyond the last there is the fill.
  rw [List.getD_eq_getElem?_getD]
  cases given : values[place]? with
  | none => exact fillHeld
  | some value => exact held value (List.mem_of_getElem? given)

/-- The bits of a lane stand for the same number whether read as an element or as a lane type. -/
theorem ofBits_narrow {element : Element} {bits : Nat} (small : bits < 1 <<< element.width.bits) :
    (narrow element).ofBits bits = element.value bits := by
  -- A signed type reads its bits as the element does, and an unsigned one only cuts them first.
  obtain ⟨width, signed⟩ := element
  cases signed with
  | true => rfl
  | false =>
    -- Bits that fit the lane are not cut.
    exact congrArg Nat.cast (Nat.mod_eq_of_lt small)

/-- The top bit of a lane type counts for half of its words. -/
theorem two_mul_topBit (type : LaneType) : 1 <<< type.bits = 2 * 1 <<< (type.bits - 1) := by
  -- Every type has at least one bit.
  have positive : 1 ≤ type.bits := by
    rcases type with ⟨width, _⟩ | _
    · exact Nat.mul_pos (by decide) width.bytes_pos
    · exact (by decide : 1 ≤ 128)
  rw [Nat.one_shiftLeft, Nat.one_shiftLeft, Nat.mul_comm, Nat.two_pow_pred_mul_two positive]

/-- A word stands for the one value of a lane type that it equals round the type's bits. -/
theorem ofBits_of_emod {type : LaneType} {value : Int} {word : Nat} (held : type.Holds value)
    (same : (word : Int) % ((1 <<< type.bits : Nat) : Int) =
      value % ((1 <<< type.bits : Nat) : Int)) : type.ofBits word = value := by
  -- Of all the numbers that a word equals round the bits, the type has only one in its range.
  obtain ⟨least, most⟩ := held
  rw [minValue] at least
  rw [maxValue] at most
  rw [ofBits]
  cases negative : type.signed with
  | true =>
    -- The value lies in the balanced range, where reducing changes nothing.
    rw [negative, if_pos rfl] at least most
    rw [if_pos rfl, ← Int.emod_bmod, same, Int.emod_bmod]
    have half := type.two_mul_topBit
    exact Int.bmod_eq_of_le (by omega) (by omega)
  | false =>
    -- An unsigned value is its own remainder.
    rw [negative, if_neg Bool.false_ne_true] at least most
    rw [if_neg Bool.false_ne_true, Int.natCast_emod, same]
    exact Int.emod_eq_of_lt least (by omega)

/-- Low bits of a value's word are the value round so many bits. -/
theorem wordOf_emod (value : Int) {bits : Nat} (few : bits ≤ 64) :
    ((wordOf value % (1 <<< bits) : Nat) : Int) = value % ((1 <<< bits : Nat) : Int) := by
  -- Reducing to the word first loses nothing that fewer bits show.
  have part : ((1 <<< bits : Nat) : Int) ∣ ((1 <<< 64 : Nat) : Int) := by
    rw [Nat.one_shiftLeft, Nat.one_shiftLeft]
    exact Int.natCast_dvd_natCast.mpr (Nat.pow_dvd_pow 2 few)
  have positive : 0 ≤ value % ((1 <<< 64 : Nat) : Int) := Int.emod_nonneg _ (by decide)
  rw [Int.natCast_emod, wordOf, Int.toNat_of_nonneg positive, Int.emod_emod_of_dvd _ part]

/-- A value comes back from the low bits of its word when they are no fewer than the type's. -/
theorem ofBits_wordOf {type : LaneType} {value : Int} {width : Width}
    (fits : type.bits ≤ width.bits) (held : type.Holds value) :
    type.ofBits (wordOf value % (1 <<< width.bits)) = value := by
  -- Cutting to the lane loses nothing that the bits of the type show.
  have few : width.bits ≤ 64 := by cases width <;> decide
  have part : ((1 <<< type.bits : Nat) : Int) ∣ ((1 <<< width.bits : Nat) : Int) := by
    rw [Nat.one_shiftLeft, Nat.one_shiftLeft]
    exact Int.natCast_dvd_natCast.mpr (Nat.pow_dvd_pow 2 fits)
  apply ofBits_of_emod held
  rw [wordOf_emod value few, Int.emod_emod_of_dvd _ part]

end LaneType

end SimdNetwork
