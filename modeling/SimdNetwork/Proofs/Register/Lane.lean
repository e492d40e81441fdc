import SimdNetwork.Proofs.Register.Move

/-! Lanes as numbers: what their bytes spell, and how far that reaches. -/

namespace SimdNetwork

/-- Bytes spell a number that their bits can hold. -/
theorem littleEndian_lt (bytes : List UInt8) :
    littleEndian bytes < 1 <<< (8 * bytes.length) := by
  -- Each byte is one digit more, and the others count for their places.
  induction bytes with
  | nil => decide
  | cons byte rest ih =>
    have small := byte.toNat_lt
    rw [Nat.one_shiftLeft] at ih ⊢
    rw [littleEndian, List.length_cons, Nat.mul_succ, Nat.pow_add]
    omega

/-- Equally many bytes that spell the same number are the same bytes. -/
theorem littleEndian_inj {left right : List UInt8} (count : left.length = right.length)
    (same : littleEndian left = littleEndian right) : left = right := by
  -- The first byte is what the number leaves over, and the other bytes spell the quotient.
  induction left generalizing right with
  | nil => exact (List.eq_nil_of_length_eq_zero count.symm).symm
  | cons byte rest ih =>
    cases right with
    | nil => simp at count
    | cons other others =>
      have small := byte.toNat_lt
      have otherSmall := other.toNat_lt
      rw [littleEndian, littleEndian] at same
      have first : byte = other := UInt8.toNat_inj.mp (by omega)
      rw [first, ih (by simpa using count) (by omega)]

/-- A single byte spells itself. -/
@[simp] theorem littleEndian_singleton (byte : UInt8) : littleEndian [byte] = byte.toNat := by
  -- No bytes stand behind it.
  simp [littleEndian]

/-- Bytes behind others count for all places before them. -/
theorem littleEndian_append (low high : List UInt8) :
    littleEndian (low ++ high) = littleEndian low + littleEndian high <<< (8 * low.length) := by
  -- Each byte in front moves those behind up by one place.
  induction low with
  | nil => simp [littleEndian]
  | cons byte rest ih =>
    rw [List.cons_append, littleEndian, ih, littleEndian, List.length_cons, Nat.mul_succ,
      Nat.shiftLeft_add, Nat.shiftLeft_eq _ 8]
    omega

/-- The low bytes of a number spell the number as far as they reach. -/
theorem littleEndian_byteOf (number count : Nat) :
    littleEndian ((List.range count).map (byteOf number)) = number % (1 <<< (8 * count)) := by
  -- Bytes are added at the top, so the induction is on how many there are.
  induction count with
  | zero => simp [littleEndian, Nat.mod_one]
  | succ count ih =>
    -- The next byte is the next digit of the number.
    have digit : (byteOf number count).toNat = number / 2 ^ (8 * count) % 2 ^ 8 := by
      rw [byteOf, UInt8.toNat_ofNat', Nat.shiftRight_eq_div_pow]
    rw [Nat.one_shiftLeft] at ih ⊢
    rw [List.range_succ, List.map_append, List.map_singleton, littleEndian_append, ih,
      littleEndian_singleton, digit, List.length_map, List.length_range, Nat.shiftLeft_eq,
      Nat.mul_succ, Nat.pow_add, Nat.mod_mul, Nat.mul_comm (2 ^ (8 * count))]

/-- Bytes are the low bytes of the number that they spell. -/
theorem map_byteOf_littleEndian (bytes : List UInt8) :
    (List.range bytes.length).map (byteOf (littleEndian bytes)) = bytes := by
  -- Both sides have the same length, and they spell the same number.
  apply littleEndian_inj
  · simp
  · rw [littleEndian_byteOf, Nat.mod_eq_of_lt (littleEndian_lt bytes)]

namespace Register

/-- A lane holds a number of its own width. -/
theorem laneBits_lt (register : Register) (width : Width) (lane : Nat) :
    register.laneBits width lane < 1 <<< width.bits := by
  -- The lane is spelled by as many bytes as its width has.
  have bound := littleEndian_lt ((List.range width.bytes).map fun offset =>
    register.byte (lane * width.bytes + offset))
  rw [List.length_map, List.length_range] at bound
  exact bound

/-- A lane that the register has is read without a fault. -/
theorem lane_eq_ok {register : Register} {width : Width} {lane : Nat}
    (inside : lane < register.shape.lanes width) :
    register.lane width lane = .ok (register.laneBits width lane) := by
  -- The read asks only whether the register has the lane.
  rw [Register.lane, lanes, if_pos inside]

/-- Lanes whose bytes agree hold the same number. -/
theorem laneBits_congr {left right : Register} {width : Width} {lane other : Nat}
    (agree : ∀ offset < width.bytes,
      left.byte (lane * width.bytes + offset) = right.byte (other * width.bytes + offset)) :
    left.laneBits width lane = right.laneBits width other := by
  -- The two lanes are spelled by the same bytes.
  rw [laneBits, laneBits]
  congr 1
  apply List.map_congr_left
  intro offset member
  exact agree offset (List.mem_range.mp member)

/-- A lane whose bytes are the low bytes of a number holds the number as far as it reaches. -/
theorem laneBits_of_byteOf {register : Register} {width : Width} {lane value : Nat}
    (spelled : ∀ offset < width.bytes,
      register.byte (lane * width.bytes + offset) = byteOf value offset) :
    register.laneBits width lane = value % (1 <<< width.bits) := by
  -- The bytes of the lane are those that spell the number as far as they reach.
  rw [laneBits, Width.bits, ← littleEndian_byteOf]
  congr 1
  apply List.map_congr_left
  intro offset member
  exact spelled offset (List.mem_range.mp member)

/-- The bytes of a lane are the bytes of the number it holds. -/
theorem byteOf_laneBits (register : Register) (width : Width) (lane : Nat) {offset : Nat}
    (within : offset < width.bytes) :
    byteOf (register.laneBits width lane) offset =
      register.byte (lane * width.bytes + offset) := by
  -- The number was spelled by these bytes, and spelling it again gives them back.
  have bytes := map_byteOf_littleEndian ((List.range width.bytes).map fun place =>
    register.byte (lane * width.bytes + place))
  rw [List.length_map, List.length_range] at bytes
  exact List.map_inj_left.mp bytes offset (List.mem_range.mpr within)

/-- Lanes that hold the same number agree in their bytes. -/
theorem byte_of_laneBits {left right : Register} {width : Width} {lane other : Nat}
    (same : left.laneBits width lane = right.laneBits width other) {offset : Nat}
    (within : offset < width.bytes) :
    left.byte (lane * width.bytes + offset) = right.byte (other * width.bytes + offset) :=
  -- Equally many bytes spell both numbers, so they are the same bytes.
  List.map_inj_left.mp (littleEndian_inj (by simp) same) offset (List.mem_range.mpr within)

/-- Every byte of a lane that the register has lies in the register. -/
theorem byte_inside {shape : Shape} {width : Width} {lane offset : Nat}
    (inside : lane < shape.lanes width) (within : offset < width.bytes) :
    lane * width.bytes + offset < shape.bytes := by
  -- The lane after this one starts in the register or at its end.
  have room : (lane + 1) * width.bytes ≤ shape.lanes width * width.bytes :=
    Nat.mul_le_mul_right _ inside
  rw [shape.lanes_mul_bytes, Nat.succ_mul] at room
  omega

/-- A byte of the register lies in one of its lanes. -/
theorem lane_lt {shape : Shape} {width : Width} {position : Nat} (inside : position < shape.bytes) :
    position / width.bytes < shape.lanes width := by
  -- The lanes of every width fill the register.
  rw [Nat.div_lt_iff_lt_mul width.bytes_pos, shape.lanes_mul_bytes]
  exact inside

end Register

end SimdNetwork
