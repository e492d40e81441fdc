import SimdNetwork.Proofs.Blend
import SimdNetwork.Proofs.Register.Lane
import SimdNetwork.Proofs.Stage.Exchange

/-!
Encoding a blend is exact: what it gives takes every lane from the side that the lane keeps, and
where it gives nothing no operand of the instruction would have done so.
-/

namespace SimdNetwork

/-- The register that a side takes its lanes from. -/
def Side.source (side : Side) (smaller larger : Register) : Register :=
  match side with
  | .low => smaller
  | .high => larger

/-- A blend that takes every lane of a stage from the register of the lane's side. -/
def Blend.TakesSides (blend : Blend) (stage : Stage) (width : Width) (shape : Shape) : Prop :=
  ∀ larger smaller : Register, larger.shape = shape → smaller.shape = shape →
    ∃ blended, blend.apply larger smaller = .ok blended ∧ blended.shape = shape ∧
      ∀ lane < shape.lanes width, ∃ side, stage.side lane = .ok side ∧
        blended.lane width lane = (side.source smaller larger).lane width lane

section Sides

variable {stage : Stage} {shape : Shape} {width : Width} {larger smaller : Register}

/-- The side of a lane takes the smaller value just where the lane is low. -/
theorem Stage.byte_source {lane : Nat} (inside : lane < stage.lanes) (position : Nat) :
    ((Side.ofPair lane (stage.mate lane)).source smaller larger).byte position =
      if stage.isLow lane then smaller.byte position else larger.byte position := by
  -- Both ask whether the partner of the lane is a later lane.
  rw [isLow, partners_mate inside, Side.ofPair]
  by_cases before : lane < stage.mate lane
  · simp [before, Side.source]
  · simp [before, Side.source]

theorem Side.shape_source (side : Side) (largerShape : larger.shape = shape)
    (smallerShape : smaller.shape = shape) : (side.source smaller larger).shape = shape := by
  -- The source is one of two registers of that shape.
  cases side with
  | low => exact smallerShape
  | high => exact largerShape

/-- Taking the lanes from their sides is taking the bytes of the low lanes. -/
theorem Blend.takesSides_iff {blend : Blend} (full : stage.lanes = shape.lanes width) :
    blend.TakesSides stage width shape ↔ blend.Selects stage width shape := by
  -- A lane is its bytes, and all of them come from the register of its side.
  constructor
  · intro takes larger smaller largerShape smallerShape
    obtain ⟨blended, applied, shaped, lanewise⟩ := takes larger smaller largerShape smallerShape
    rw [applied]
    refine congrArg Except.ok (Register.ext_byte shaped ?_)
    intro position inside
    rw [shaped] at inside
    -- The byte stands somewhere in a lane, and equal lanes have equal bytes.
    have laneInside : position / width.bytes < shape.lanes width := Register.lane_lt inside
    obtain ⟨side, sided, same⟩ := lanewise _ laneInside
    rw [Stage.side_eq_ok (full ▸ laneInside)] at sided
    cases sided
    rw [Register.lane_eq_ok (by rwa [shaped]), Register.lane_eq_ok
      (by rwa [Side.shape_source _ largerShape smallerShape]), Except.ok.injEq] at same
    have bytes := Register.byte_of_laneBits same (Nat.mod_lt position width.bytes_pos)
    rw [Nat.div_add_mod' position width.bytes, Stage.byte_source (full ▸ laneInside)] at bytes
    rw [bytes, Register.byte_build _ _ _ inside]
  · intro selects larger smaller largerShape smallerShape
    refine ⟨_, selects larger smaller largerShape smallerShape, rfl, ?_⟩
    intro lane inside
    refine ⟨_, Stage.side_eq_ok (full ▸ inside), ?_⟩
    rw [Register.lane_eq_ok inside, Register.lane_eq_ok
      (by rwa [Side.shape_source _ largerShape smallerShape])]
    -- All bytes of the lane are taken from the same register.
    refine congrArg Except.ok (Register.laneBits_congr fun offset within => ?_)
    rw [Register.byte_build _ _ _ (Register.byte_inside inside within),
      (block_of_place lane within).1, Stage.byte_source (full ▸ inside)]

end Sides

section Immediates

variable {stage : Stage} {shape : Shape}

/-- The register with every bit set, which shows against zero from where a lane was taken. -/
def Register.ones (shape : Shape) : Register := build shape fun _ => 0xff

theorem Register.shape_ones (shape : Shape) : (ones shape).shape = shape := rfl

theorem Register.shape_zero (shape : Shape) : (zero shape).shape = shape := rfl

/-- Lanes that are taken as a stage selects them are chosen just where the stage is low. -/
theorem chosen_of_selects {unit width : Width} {chosen : Nat → Bool}
    (selects : (Register.zero shape).takeLanes (Register.ones shape) unit chosen =
      .ok (Register.build shape fun position =>
        if stage.isLow (position / width.bytes) then (Register.ones shape).byte position
        else (Register.zero shape).byte position))
    {position : Nat} (inside : position < shape.bytes) :
    chosen (position / unit.bytes) = stage.isLow (position / width.bytes) := by
  -- Zero and ones differ in every byte, so each byte of the result shows where it came from.
  rw [Register.takeLanes_eq_ok (Register.shape_zero shape) (Register.shape_ones shape),
    Except.ok.injEq] at selects
  -- A byte with bits was taken, and one without was not.
  have taken := congrArg (Register.byte · position) selects
  simp only [Register.byte_build _ _ _ inside, Register.ones, Register.zero] at taken
  cases picked : chosen (position / unit.bytes) <;>
    cases low : stage.isLow (position / width.bytes) <;> simp [picked, low] at taken ⊢

/-- An immediate that selects the words of a stage is shared by all its lane groups. -/
theorem sharedImmediate_ne_none (full : stage.lanes = shape.lanes .b2) {immediate : UInt8}
    (selects : (Blend.words immediate).Selects stage .b2 shape) :
    Blend.sharedImmediate (Selector.lowBits stage 1) stage.lanes ≠ .ok none := by
  -- The immediate has the bits of the low lanes, the same ones for every group of eight.
  have selected : ∀ lane < stage.lanes,
      (Selector.lowBits stage 1).testBit lane = immediate.toNat.testBit (lane % 8) := by
    intro lane inside
    -- The first byte of the lane shows whether the immediate took it.
    have covered : lane * 2 < shape.bytes :=
      Register.byte_inside (full ▸ inside) (show 0 < Width.bytes .b2 by decide)
    have chosen := chosen_of_selects (selects _ _ rfl rfl) covered
    rw [Width.bytes, Nat.mul_div_cancel lane (by decide)] at chosen
    rw [Selector.testBit_lowBits stage Nat.one_pos, Nat.div_one, chosen]
  -- The bits of every group are those of the immediate, so they are those of the first one.
  have shared : ∀ group < min (stage.lanes / 8) 8,
      Selector.lowBits stage 1 >>> (8 * group) % 256 = Selector.lowBits stage 1 % 256 := by
    intro group bound
    rw [group_eq_first_iff]
    intro bit inByte
    rw [selected _ (by omega), selected _ (by omega), Nat.mul_add_mod]
  simp only [Blend.sharedImmediate, if_pos shared]
  split <;> simp

end Immediates

/-- Where the selector of a stage is not encoded, no operand of the blend selects the stage. -/
theorem OffersBlend.not_selects {kind : BlendKind} {granularity : Granularity} {stage : Stage}
    {width : Width} {shape : Shape} (offers : OffersBlend shape width kind granularity)
    (full : stage.lanes = shape.lanes width)
    (missing : Blend.encode kind granularity (Selector.ofLow stage width granularity) width =
      .ok none) {blend : Blend} (sameKind : blend.kind = kind) :
    ¬ blend.Selects stage width shape := by
  -- Only the words of several lane groups can be left without an encoding.
  intro selects
  cases offers with
  | words size narrow =>
    subst size
    -- The words have no immediate of their own when their lane groups do not share one.
    obtain ⟨found, looked, nothing⟩ := map_eq_ok.mp missing
    rw [Option.map_eq_none_iff.mp nothing] at looked
    cases blend with
    | words immediate => exact sharedImmediate_ne_none full selects looked
    | maskMove | dwords | bytes => cases sameKind
  | bytes narrow =>
    -- A vector that is built is always encoded.
    obtain ⟨vector, _, nothing⟩ := map_eq_ok.mp missing
    cases nothing
  | maskMove | wordPairs | dwords | dwordPairs => cases missing

/-- A row's choice for a stage is what it encodes of the stage's selector. -/
theorem BlendRow.choice?_eq_ok {row : BlendRow} {stage : Stage} {width : Width}
    {result : Option BlendChoice} (made : row.choice? stage width = .ok result) :
    ∃ selector encoded, Selector.ofStage stage width row.granularity = .ok selector ∧
      Blend.encode row.kind row.granularity selector width = .ok encoded ∧
        encoded.map (BlendChoice.mk row selector) = result := by
  -- A choice is made in two steps, the selector and its encoding.
  obtain ⟨selector, selected, mapped⟩ := bind_eq_ok.mp made
  obtain ⟨encoded, looked, same⟩ := map_eq_ok.mp mapped
  exact ⟨selector, encoded, selected, looked, same⟩

/--
Encoding a blend is exact.

Every row of the table has a selector for every stage that fills the register, and encodes it
without a fault. The blend it gives is of the row's kind and takes every lane from the register of
the lane's side. It gives none just where no operand of that kind of blend does so.
-/
theorem Blend.encode_exact {shape : Shape} {width : Width} {row : BlendRow}
    (listed : row ∈ blendTable shape width) (stage : Stage)
    (full : stage.lanes = shape.lanes width) :
    ∃ selector result, Selector.ofStage stage width row.granularity = .ok selector ∧
      Blend.encode row.kind row.granularity selector width = .ok result ∧
        (∀ blend, result = some blend →
          blend.kind = row.kind ∧ blend.TakesSides stage width shape) ∧
        (result = none ↔
          ∀ blend : Blend, blend.kind = row.kind → ¬ blend.TakesSides stage width shape) := by
  -- Every row answers for the stage, and its answer is the blend that it encodes, if any.
  have offers := offersBlend_of_mem listed
  obtain ⟨choice, made, serves, _⟩ := offers.answers full
  obtain ⟨selector, result, selected, encoded, rfl⟩ := BlendRow.choice?_eq_ok made
  have sound : ∀ blend, result = some blend →
      blend.kind = row.kind ∧ blend.TakesSides stage width shape := by
    rintro blend rfl
    have served := serves _ rfl
    exact ⟨served.kind_eq, (takesSides_iff full).mpr served.selects⟩
  refine ⟨selector, result, selected, encoded, sound, ?_, ?_⟩
  · rintro rfl blend kind takes
    -- The selector of the stage has the bits of its low lanes, and those are not encoded.
    rw [Selector.ofStage_eq_ok (full ▸ offers.stride_le), Except.ok.injEq] at selected
    subst selected
    exact offers.not_selects full encoded kind ((takesSides_iff full).mp takes)
  · -- Were there a blend, it would take the sides itself.
    intro impossible
    cases result with
    | none => rfl
    | some blend => exact absurd (sound blend rfl).2 (impossible blend (sound blend rfl).1)

/-- One immediate serves the words of two lane groups that swap alike, and none a single swap. -/
theorem Blend.encode_exact_words_of_two_groups :
    wordBlend .ymm .lane ∈ blendTable .ymm .b2 ∧
    (Blend.encode .wordImmediate .lane (.perLane 1 16) .b2 = .ok none ∧
      ∀ immediate, ¬ (Blend.words immediate).TakesSides
        ⟨[1, 0, 2, 3, 4, 5, 6, 7, 8, 9, 10, 11, 12, 13, 14, 15], 16⟩ .b2 .ymm) ∧
    Blend.encode .wordImmediate .lane (.perLane 0x5555 16) .b2 = .ok (some (.words 0x55)) ∧
      (Blend.words 0x55).TakesSides
        ⟨[1, 0, 3, 2, 5, 4, 7, 6, 9, 8, 11, 10, 13, 12, 15, 14], 16⟩ .b2 .ymm := by
  -- Both stages fill the register, and each is run through the encoder.
  have listed : wordBlend .ymm .lane ∈ blendTable .ymm .b2 := List.mem_cons_self
  refine ⟨listed, ⟨rfl, ?_⟩, rfl, ?_⟩
  · obtain ⟨selector, result, selected, encoded, _, missing⟩ := Blend.encode_exact listed
      ⟨[1, 0, 2, 3, 4, 5, 6, 7, 8, 9, 10, 11, 12, 13, 14, 15], 16⟩ rfl
    cases selected
    cases encoded
    exact fun immediate => missing.mp rfl (.words immediate) rfl
  · obtain ⟨selector, result, selected, encoded, sound, _⟩ := Blend.encode_exact listed
      ⟨[1, 0, 3, 2, 5, 4, 7, 6, 9, 8, 11, 10, 13, 12, 15, 14], 16⟩ rfl
    cases selected
    cases encoded
    exact (sound (.words 0x55) rfl).2

end SimdNetwork
