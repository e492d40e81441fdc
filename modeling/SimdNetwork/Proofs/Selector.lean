import SimdNetwork.Proofs.Stage.Valid
import SimdNetwork.Selector

/-! Selectors of stages that fit in one word: the bits are the low lanes, repeated as asked. -/

namespace SimdNetwork

namespace Stage

/-- Only a lane of the stage keeps the smaller value. -/
theorem lt_of_isLow {stage : Stage} {lane : Nat} (low : stage.isLow lane = true) :
    lane < stage.lanes := by
  -- A lane is low because of its partner, and only a lane of the stage has one listed.
  unfold isLow at low
  split at low
  · rename_i partner paired
    exact (List.getElem?_eq_some_iff.mp paired).1
  · simp at low

/-- The bits of the mask of low lanes are the low lanes. -/
theorem testBit_lowMask (stage : Stage) (lane : Nat) :
    (maskOf stage.lanes stage.isLow).testBit lane = stage.isLow lane := by
  -- The mask ends with the lanes, and beyond them none is low.
  rw [testBit_maskOf]
  cases low : stage.isLow lane with
  | false => simp
  | true => simp [lt_of_isLow low]

/-- A stage of at most a word's lanes has a mask of its low lanes. -/
theorem lowLanes_eq_ok {stage : Stage} (few : stage.lanes ≤ 64) :
    stage.lowLanes = .ok (maskOf stage.lanes stage.isLow) := by
  -- Any lane of so few has its bit in the word.
  have inside : ∀ lane < stage.lanes, stage.isLow lane → lane < 64 :=
    fun lane bound _ => Nat.lt_of_lt_of_le bound few
  rw [lowLanes, if_pos inside]

end Stage

/-- How many bits each lane has in a selector of the granularity. -/
def Granularity.stride (granularity : Granularity) (width : Width) : Nat :=
  match granularity with
  | .lane => 1
  | .byte => width.bytes
  | .pair => 2

/-- Every lane has a bit at every granularity. -/
theorem Granularity.stride_pos (granularity : Granularity) (width : Width) :
    0 < granularity.stride width := by
  -- A lane has one bit, two bits or one for each of its bytes.
  cases granularity with
  | lane => exact Nat.one_pos
  | byte => exact width.bytes_pos
  | pair => exact Nat.two_pos

namespace Selector

/-- A mask that fits in a word can be repeated as long as the result fits too. -/
theorem repeatBits_eq_ok (bits : Nat) {lanes factor : Nat} (positive : 0 < factor)
    (few : lanes * factor ≤ 64) :
    repeatBits bits lanes factor =
      .ok (maskOf (lanes * factor) fun bit => bits.testBit (bit / factor)) := by
  -- Where the last repetition still lies in the word, so do all the others.
  have narrow : lanes ≤ lanes * factor := Nat.le_mul_of_pos_right lanes positive
  have inside : ∀ lane < lanes, bits.testBit lane → lane * factor < 64 := by
    intro lane bound _
    have below := Nat.mul_lt_mul_of_pos_right bound positive
    omega
  rw [repeatBits, if_pos ⟨by omega, inside⟩]

/-- The bits of a selector of the given kind for a stage. -/
def lowBits (stage : Stage) (stride : Nat) : Nat :=
  maskOf (stage.lanes * stride) fun bit => stage.isLow (bit / stride)

/-- A bit of a stage's selector is set when the lane it belongs to keeps the smaller value. -/
theorem testBit_lowBits (stage : Stage) {stride : Nat} (positive : 0 < stride) (bit : Nat) :
    (lowBits stage stride).testBit bit = stage.isLow (bit / stride) := by
  -- A bit belongs to the lane that its number falls into, and past the last lane none is low.
  rw [lowBits, testBit_maskOf]
  cases low : stage.isLow (bit / stride) with
  | false => simp
  | true =>
    have inside := Stage.lt_of_isLow low
    rw [Nat.div_lt_iff_lt_mul positive] at inside
    simp [inside]

/-- Repeating the mask of low lanes repeats the bit of every lane. -/
theorem repeatBits_lowMask (stage : Stage) {stride : Nat} (positive : 0 < stride)
    (few : stage.lanes * stride ≤ 64) :
    repeatBits (maskOf stage.lanes stage.isLow) stage.lanes stride =
      .ok (lowBits stage stride) := by
  -- The bit that is repeated is that of the lane, and so tells whether the lane is low.
  rw [repeatBits_eq_ok _ positive few, lowBits]
  simp only [Stage.testBit_lowMask]

/-- The selector of a stage with the bits of its low lanes. -/
def ofLow (stage : Stage) (width : Width) : Granularity → Selector
  | .lane => .perLane (lowBits stage 1) stage.lanes
  | .byte => .perByte (lowBits stage width.bytes) (stage.lanes * width.bytes)
  | .pair => .perPair (lowBits stage 2) stage.lanes

/-- A stage has a selector at every granularity that fits in one word. -/
theorem ofStage_eq_ok {stage : Stage} {width : Width} {granularity : Granularity}
    (few : stage.lanes * granularity.stride width ≤ 64) :
    ofStage stage width granularity = .ok (ofLow stage width granularity) := by
  -- The lanes alone take no more bits than all their repetitions, so the first mask fits, too.
  have narrow : stage.lanes ≤ stage.lanes * granularity.stride width :=
    Nat.le_mul_of_pos_right _ (granularity.stride_pos width)
  rw [ofStage, Stage.lowLanes_eq_ok (by omega), ok_bind]
  cases granularity with
  -- A selector of lanes is the mask itself, each bit standing once.
  | lane => simp [ofLow, lowBits]
  | byte =>
    dsimp only
    rw [repeatBits_lowMask stage width.bytes_pos few, ok_bind, ofLow]
  | pair =>
    dsimp only
    rw [repeatBits_lowMask stage Nat.two_pos few, ok_bind, ofLow]

section Reading

variable (stage : Stage) (width : Width) (granularity : Granularity)

/-- A stage's selector has the bits of the low lanes, each repeated as the granularity asks. -/
@[simp] theorem bits_ofLow :
    (ofLow stage width granularity).bits = lowBits stage (granularity.stride width) := by
  -- The three kinds of selector differ in the stride alone.
  cases granularity <;> rfl

/-- The bits of one lane stand as far apart as they were repeated. -/
@[simp] theorem stride_ofLow :
    (ofLow stage width granularity).stride width = granularity.stride width := by
  cases granularity <;> rfl

/-- A stage's selector covers the lanes of the stage. -/
@[simp] theorem lanes_ofLow : (ofLow stage width granularity).lanes width = stage.lanes := by
  -- Only the selector of bytes counts its bytes, and these divide evenly into lanes.
  cases granularity with
  | lane => rfl
  | byte => exact Nat.mul_div_cancel stage.lanes width.bytes_pos
  | pair => rfl

variable {stage width granularity}

/-- A selector that fits in one word has as many bits as its lanes take. -/
theorem size_ofLow (few : stage.lanes * granularity.stride width ≤ 64) :
    (ofLow stage width granularity).size = .ok (stage.lanes * granularity.stride width) := by
  -- Lanes and bytes are counted as they are, and only pairs are counted by doubling.
  cases granularity with
  | lane => simp [ofLow, size, Granularity.stride]
  | byte => rfl
  | pair =>
    -- Twice the lanes are at most the bits of a word, so their count does not overflow.
    have small : 2 * stage.lanes < 1 <<< 64 := by
      rw [Granularity.stride] at few
      omega
    rw [ofLow, size, word, if_pos small, Granularity.stride, Nat.mul_comm]

/-- No bit beyond the size of a stage's selector is set. -/
theorem testBit_ofLow_beyond {bit : Nat} (beyond : stage.lanes * granularity.stride width ≤ bit) :
    (ofLow stage width granularity).bits.testBit bit = false := by
  -- The mask that the bits were made as ends there.
  rw [bits_ofLow, lowBits, testBit_maskOf, decide_eq_false (Nat.not_lt.mpr beyond)]
  rfl

/-- Reduced to one bit for each lane, a stage's selector is the mask of the low lanes. -/
theorem laneBits_ofLow (few : stage.lanes * granularity.stride width ≤ 64) :
    (ofLow stage width granularity).laneBits width = .ok (maskOf stage.lanes stage.isLow) := by
  -- The first bit of a lane tells of the lane, wherever it stands.
  have positive := granularity.stride_pos width
  -- The last lane's first bit lies below the end of the mask, which is the end of the word.
  have inside : stage.lanes = 0 ∨ (stage.lanes - 1) * granularity.stride width < 64 := by
    rcases Nat.eq_zero_or_pos stage.lanes with none_left | some_lane
    · exact .inl none_left
    · have last := Nat.mul_lt_mul_of_pos_right (Nat.sub_one_lt_of_lt some_lane) positive
      exact .inr (Nat.lt_of_lt_of_le last few)
  rw [laneBits, lanes_ofLow, stride_ofLow, if_pos inside, bits_ofLow]
  simp only [testBit_lowBits stage positive, Nat.mul_div_cancel _ positive]

/-- A stage's selector tells of every lane whether it is low. -/
theorem isLow_ofLow (few : stage.lanes * granularity.stride width ≤ 64) {lane : Nat}
    (inside : lane < stage.lanes) :
    (ofLow stage width granularity).isLow lane width = .ok (stage.isLow lane) := by
  -- The lane is one of those in the word, and its bit is read from the mask of lanes.
  have narrow := Nat.le_mul_of_pos_right stage.lanes (granularity.stride_pos width)
  rw [isLow, laneBits_ofLow few, ok_bind, if_pos (by omega), Stage.testBit_lowMask]

end Reading

end Selector

end SimdNetwork
