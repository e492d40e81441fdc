import SimdNetwork.Proofs.Register.Lane
import SimdNetwork.Register.Choose
import SimdNetwork.Table

/-! Emulated compares keep the same values as the native compare of their element type. -/

namespace SimdNetwork

/-- A way of comparing that is right for the element type. -/
def Compare.Suits (compare : Compare) (element : Element) : Prop :=
  compare = .native ∨ (element.width = .b8 ∧ compare = .emulated (!element.signed))

/-- Every row of the compare table suits its element type. -/
theorem suits_of_mem {row : CompareRow} {shape : Shape} {element : Element}
    (listed : row ∈ compareTable shape element) : row.compare.Suits element := by
  -- Only qwords of the two smaller registers have an emulated compare listed.
  obtain ⟨width, signed⟩ := element
  cases shape <;> cases width <;>
    simp only [compareTable, wideCompares, List.mem_cons, List.not_mem_nil, or_false] at listed
  case xmm.b8 | ymm.b8 =>
    rcases listed with rfl | rfl
    · exact .inl rfl
    · exact .inr ⟨rfl, rfl⟩
  all_goals
    subst listed
    exact .inl rfl

/-- Flipping the top bit of a byte moves it half a turn. -/
theorem toNat_flip (byte : UInt8) : (byte ^^^ 0x80).toNat = (byte.toNat + 128) % 256 := by
  -- A byte has few enough values to look at all of them.
  have every : ∀ number < 256, number ^^^ 128 = (number + 128) % 256 := by decide +kernel
  rw [UInt8.toNat_xor]
  exact every _ byte.toNat_lt

/-- Only the last byte of every lane holds a sign. -/
theorem Register.byte_flipSigns (register : Register) (width : Width) {position : Nat}
    (inside : position < register.shape.bytes) :
    (register.flipSigns width).byte position =
      if position % width.bytes = width.bytes - 1 then register.byte position ^^^ 0x80
      else register.byte position :=
  byte_build _ _ _ inside

section Flip

variable (register : Register) {width : Width} {lane : Nat}
variable (inside : lane < register.shape.lanes width)
include inside

/-- Flipping the sign of a lane moves its number half a turn. -/
theorem laneBits_flipSigns :
    (register.flipSigns width).laneBits width lane =
      (register.laneBits width lane + width.signBit) % (1 <<< width.bits) := by
  -- The number of a lane is split into its top byte and the bytes below it.
  obtain ⟨top, count⟩ : ∃ top, width.bytes = top + 1 :=
    ⟨width.bytes - 1, by have positive := width.bytes_pos; omega⟩
  -- The top byte is flipped, and those before it stay as they are.
  have flipped : ∀ offset < width.bytes,
      (register.flipSigns width).byte (lane * width.bytes + offset) =
        if offset = top then register.byte (lane * width.bytes + offset) ^^^ 0x80
        else register.byte (lane * width.bytes + offset) := by
    intro offset within
    rw [register.byte_flipSigns width (Register.byte_inside inside within),
      (block_of_place lane within).2, show width.bytes - 1 = top by omega]
  have front : (List.range top).map
        (fun offset => (register.flipSigns width).byte (lane * width.bytes + offset)) =
      (List.range top).map fun offset => register.byte (lane * width.bytes + offset) := by
    apply List.map_congr_left
    intro offset member
    have within := List.mem_range.mp member
    rw [flipped offset (by omega), if_neg (by omega)]
  have split : ∀ reading : Nat → UInt8, littleEndian ((List.range width.bytes).map reading) =
      littleEndian ((List.range top).map reading) + (reading top).toNat <<< (8 * top) := by
    intro reading
    rw [count, List.range_succ, List.map_append, List.map_singleton, littleEndian_append,
      littleEndian_singleton, List.length_map, List.length_range]
  have low := littleEndian_lt
    ((List.range top).map fun offset => register.byte (lane * width.bytes + offset))
  rw [List.length_map, List.length_range, Nat.one_shiftLeft] at low
  -- Half a turn is half of what the top byte counts.
  have half : width.signBit = 2 ^ (8 * top) * 128 := by
    rw [Width.signBit, Width.bits, count, show 8 * (top + 1) - 1 = 8 * top + 7 by omega,
      Nat.one_shiftLeft, Nat.pow_add]
  have whole : 1 <<< width.bits = 2 ^ (8 * top) * 256 := by
    rw [Width.bits, count, Nat.one_shiftLeft, Nat.mul_succ, Nat.pow_add]
  rw [Register.laneBits, Register.laneBits, split, split, front, flipped top (by omega),
    if_pos rfl, toNat_flip, half, whole, Nat.shiftLeft_eq, Nat.shiftLeft_eq, Nat.add_assoc,
    Nat.mul_comm _ (2 ^ (8 * top)), Nat.mul_comm _ (2 ^ (8 * top)), ← Nat.mul_add, Nat.mod_mul,
    Nat.add_mul_mod_self_left, Nat.mod_eq_of_lt low, Nat.add_mul_div_left _ _ (Nat.two_pow_pos _),
    Nat.div_eq_of_lt low, Nat.zero_add]

/-- As a signed number a flipped lane is the unsigned number half a turn down. -/
theorem value_flipSigns :
    Element.value ⟨width, true⟩ ((register.flipSigns width).laneBits width lane) =
      (register.laneBits width lane : Int) - width.signBit := by
  -- Half a turn up and then counted from the middle is half a turn down.
  have small := register.laneBits_lt width lane
  rw [laneBits_flipSigns register inside]
  simp only [Element.value, if_true, Width.signBit, Int.bmod]
  cases width <;>
    simp only [Width.bits, Width.bytes, Nat.reduceMul, Nat.reduceSub,
      Nat.reduceShiftLeft] at small ⊢ <;> omega

end Flip

/-- The signed order of flipped lanes is the unsigned order. -/
theorem flipSigns_lt_iff {first second : Register} {width : Width} {lane : Nat}
    (shapes : second.shape = first.shape) (inside : lane < first.shape.lanes width) :
    Element.value ⟨width, true⟩ ((second.flipSigns width).laneBits width lane) <
        Element.value ⟨width, true⟩ ((first.flipSigns width).laneBits width lane) ↔
      Element.value ⟨width, false⟩ (second.laneBits width lane) <
        Element.value ⟨width, false⟩ (first.laneBits width lane) := by
  -- Both numbers are moved down by the same amount.
  rw [value_flipSigns first inside, value_flipSigns second (by rw [shapes]; exact inside)]
  show _ ↔ (second.laneBits width lane : Int) < (first.laneBits width lane : Int)
  omega

section Keep

variable {first second : Register} {element : Element} {side : Side}

/-- The register of the values that a side keeps of two registers of one shape. -/
def Register.kept (first second : Register) (element : Element) (side : Side) : Register :=
  build first.shape fun position =>
    let value := fun (register : Register) =>
      element.value (register.laneBits element.width (position / element.bytes))
    if keepsSecond side (value second < value first) then second.byte position
    else first.byte position

/-- The native compare keeps what the side keeps. -/
theorem nativeKeep_eq_ok (shapes : second.shape = first.shape) :
    first.nativeKeep second element side = .ok (first.kept second element side) := by
  -- The second register has all the lanes that are compared.
  rw [Register.nativeKeep, if_neg (by rw [shapes]; exact Nat.lt_irrefl _)]
  rfl

/-- The bytes of a register are read back from its list. -/
theorem getD_toBytes (register : Register) (position : Nat) :
    register.toBytes.getD position 0 = register.byte position := by
  -- Both readings give zero beyond the end.
  rw [Register.toBytes, Register.byte, List.getD_eq_getElem?_getD, Vector.getElem?_toList]
  split
  · rename_i inside
    simp [inside]
  · rename_i outside
    simp [outside]

/-- The qwords as the emulated compare reads them. -/
def Register.biased (register : Register) (flip : Bool) : Register :=
  if flip then register.flipSigns .b8 else register

/-- Biasing the qwords stays in the same kind of register. -/
theorem shape_biased (register : Register) (flip : Bool) :
    (register.biased flip).shape = register.shape := by
  -- Flipping signs changes bytes only.
  cases flip <;> rfl

/-- The signed order of biased qwords is the order of the eight-byte element type. -/
theorem biased_lt_iff (signed : Bool) {lane : Nat} (shapes : second.shape = first.shape)
    (inside : lane < first.shape.lanes .b8) :
    Element.value ⟨.b8, true⟩ ((second.biased !signed).laneBits .b8 lane) <
        Element.value ⟨.b8, true⟩ ((first.biased !signed).laneBits .b8 lane) ↔
      Element.value ⟨.b8, signed⟩ (second.laneBits .b8 lane) <
        Element.value ⟨.b8, signed⟩ (first.laneBits .b8 lane) := by
  -- Signed qwords are compared as they are, and unsigned ones with their signs flipped.
  cases signed with
  | true => exact Iff.rfl
  | false => exact flipSigns_lt_iff shapes inside

/-- The compare mask has all bits in the qwords where the first number is greater. -/
theorem greaterQwords_biased (signed : Bool) (shapes : second.shape = first.shape) :
    (first.biased !signed).greaterQwords (second.biased !signed) =
      .ok (Register.build first.shape fun position =>
        if Element.value ⟨.b8, signed⟩ (second.laneBits .b8 (position / 8)) <
            Element.value ⟨.b8, signed⟩ (first.laneBits .b8 (position / 8)) then 0xff else 0) := by
  -- The compare looks at the biased qwords, whose order is that of the element type.
  have even : ¬ (second.biased !signed).shape.bytes < (first.biased !signed).shape.bytes := by
    rw [shape_biased, shape_biased, shapes]
    exact Nat.lt_irrefl _
  rw [Register.greaterQwords, if_neg even, shape_biased]
  refine congrArg Except.ok (Register.build_congr ?_)
  intro position inside
  have lane : position / Width.bytes .b8 < first.shape.lanes .b8 := Register.lane_lt inside
  rw [Width.bytes] at lane
  simp only [biased_lt_iff signed shapes lane]

/-- A mask of whole bytes blends exactly the bytes it marks. -/
theorem blendBytes_mask {left right : Register} {shape : Shape} (leftShape : left.shape = shape)
    (rightShape : right.shape = shape) (marked : Nat → Prop) [DecidablePred marked] :
    left.blendBytes right
        (Register.build shape fun position => if marked position then 0xff else 0).toBytes =
      Register.build shape fun position =>
        if marked position then right.byte position else left.byte position := by
  -- A marked byte has its top bit set in the mask, and any other byte has none.
  rw [Register.blendBytes, leftShape]
  apply Register.build_congr
  intro position inside
  rw [getD_toBytes, Register.byte_build _ _ _ inside, rightShape]
  by_cases held : marked position
  · simp [held, inside, Blend.takeByte]
  · simp [held, Blend.takeByte]

/-- A compare of biased qwords and a byte blend keep what the side keeps. -/
theorem emulatedKeep_eq_ok (signed : Bool) (shapes : second.shape = first.shape) :
    first.emulatedKeep second (!signed) side = .ok (first.kept second ⟨.b8, signed⟩ side) := by
  -- The mask tells where the first value is the greater one, and each side blends by it.
  cases side with
  | low =>
    -- The smaller value is the second one where the first is greater.
    show ((first.biased !signed).greaterQwords (second.biased !signed) >>= fun mask =>
      Except.ok (first.blendBytes second mask.toBytes)) = _
    rw [greaterQwords_biased signed shapes, ok_bind, blendBytes_mask rfl shapes]
    refine congrArg Except.ok (Register.build_congr ?_)
    intro position _
    by_cases greater : Element.value ⟨.b8, signed⟩ (second.laneBits .b8 (position / 8)) <
        Element.value ⟨.b8, signed⟩ (first.laneBits .b8 (position / 8))
    · simp [Register.keepsSecond, Element.bytes, Width.bytes, greater]
    · simp [Register.keepsSecond, Element.bytes, Width.bytes, greater]
  | high =>
    -- The larger value is the first one there, and the second one elsewhere.
    show ((first.biased !signed).greaterQwords (second.biased !signed) >>= fun mask =>
      Except.ok (second.blendBytes first mask.toBytes)) = _
    rw [greaterQwords_biased signed shapes, ok_bind, blendBytes_mask shapes rfl]
    refine congrArg Except.ok (Register.build_congr ?_)
    intro position _
    by_cases greater : Element.value ⟨.b8, signed⟩ (second.laneBits .b8 (position / 8)) <
        Element.value ⟨.b8, signed⟩ (first.laneBits .b8 (position / 8))
    · simp [Register.keepsSecond, Element.bytes, Width.bytes, greater]
    · simp [Register.keepsSecond, Element.bytes, Width.bytes, greater]

/-- Every way of comparing that suits the element type keeps what the side keeps. -/
theorem keep_eq_ok {compare : Compare} (suits : compare.Suits element)
    (shapes : second.shape = first.shape) :
    first.keep second element compare side = .ok (first.kept second element side) := by
  -- What suits is the native compare, or for qwords the emulated one with the right bias.
  obtain ⟨width, signed⟩ := element
  rcases suits with rfl | ⟨wide, rfl⟩
  · exact nativeKeep_eq_ok shapes
  · subst wide
    exact emulatedKeep_eq_ok signed shapes

end Keep

end SimdNetwork
