import SimdNetwork.Plan.Compile
import SimdNetwork.Plan.Run
import SimdNetwork.Proofs.Lane
import SimdNetwork.Proofs.Register.Lane
import SimdNetwork.Proofs.Stage.Exchange

/-! Values come back from the lanes that they are packed into. -/

namespace SimdNetwork

section Pack

variable {plan : Plan} {values : List Int} {fill : Int} {packed : Register}

/-- Values are packed when the register has a lane for each of them. -/
theorem Plan.exists_pack (room : values.length ≤ plan.lanes) :
    ∃ packed, plan.pack values fill = .ok packed := by
  -- The number of values is all that is tested.
  rw [Plan.pack]
  exact ⟨_, if_neg (Nat.not_lt.mpr room)⟩

/-- Values are packed into the register of the plan. -/
theorem Plan.shape_pack (made : plan.pack values fill = .ok packed) :
    packed.shape = plan.shape := by
  -- The register is built in the shape of the plan.
  rw [pack] at made
  split at made
  · simp at made
  · cases made
    rfl

/-- A packed lane holds the low bits of its value, or of the fill. -/
theorem Plan.laneBits_pack (made : plan.pack values fill = .ok packed) {lane : Nat}
    (inside : lane < plan.lanes) :
    packed.laneBits plan.element.width lane =
      wordOf (values.getD lane fill) % (1 <<< plan.element.width.bits) := by
  -- Values that were packed had room, so the register is the one that is built from them.
  rw [pack] at made
  split at made
  · simp at made
  · cases made
    -- The bytes of the lane are the low bytes of the word, in order.
    apply Register.laneBits_of_byteOf
    intro offset within
    obtain ⟨ofLane, ofOffset⟩ := block_of_place lane within
    rw [Register.byte_build _ _ _ (Register.byte_inside inside within), ofLane, ofOffset]

/-- A packed lane stands for the value that was put there. -/
theorem Plan.value_pack (made : plan.pack values fill = .ok packed) {lane : Nat}
    (inside : lane < plan.lanes)
    (held : (LaneType.narrow plan.element).Holds (values.getD lane fill)) :
    plan.element.value (packed.laneBits plan.element.width lane) = values.getD lane fill := by
  -- The type of the lanes loses nothing of a value that it holds.
  rw [← LaneType.ofBits_narrow (packed.laneBits_lt _ _), laneBits_pack made inside]
  exact LaneType.ofBits_wordOf (Nat.le_refl _) held

/-- Every lane of the plan is read back as the low bits of what was packed there. -/
theorem Plan.unpack_eq_ok (made : plan.pack values fill = .ok packed) (type : LaneType) :
    packed.unpack type plan.element.width plan.lanes =
      .ok ((List.range plan.lanes).map fun lane =>
        type.ofBits (wordOf (values.getD lane fill) % (1 <<< plan.element.width.bits))) := by
  -- The register has the lanes of the plan, so all of them are read.
  have lanes : packed.lanes plan.element.width = plan.lanes := by
    rw [Register.lanes, shape_pack made, Plan.lanes]
  rw [Register.unpack, if_pos (Nat.le_of_eq lanes.symm)]
  refine congrArg Except.ok (List.map_congr_left ?_)
  intro lane member
  rw [laneBits_pack made (List.mem_range.mp member)]

/-- The values of a type that the lanes can hold come back with the fill behind them. -/
theorem Plan.map_ofBits_eq {type : LaneType} (fits : type.bits ≤ plan.element.width.bits)
    (room : values.length ≤ plan.lanes) (held : ∀ value ∈ values, type.Holds value)
    (fillHeld : type.Holds fill) :
    ((List.range plan.lanes).map fun lane =>
        type.ofBits (wordOf (values.getD lane fill) % (1 <<< plan.element.width.bits))) =
      values ++ List.replicate (plan.lanes - values.length) fill := by
  -- Both lists read a value or the fill in every lane.
  rw [← Stage.map_getD_range values fill room]
  apply List.map_congr_left
  intro lane _
  exact LaneType.ofBits_wordOf fits (LaneType.holds_getD held fillHeld lane)

end Pack

/--
Packing and reading back cuts values to the lanes, and changes none of a type that fits them.

Any type may be packed into the lanes of any plan. On the way a value is extended to a word, cut to
the bytes of a lane, read from them without a sign and cut again to its own type, so what is read
back is the value of the low bits that the lane has room for.
-/
theorem Plan.unpack_pack (plan : Plan) (type : LaneType) (values : List Int) (fill : Int)
    (room : values.length ≤ plan.lanes) (held : ∀ value ∈ values, type.Holds value)
    (fillHeld : type.Holds fill) :
    ∃ packed results, plan.pack values fill = .ok packed ∧
      packed.unpack type plan.element.width plan.lanes = .ok results ∧
      results.length = plan.lanes ∧
      (∀ lane < plan.lanes, results[lane]? = some (type.ofBits
        (wordOf (values.getD lane fill) % (1 <<< (8 * plan.element.bytes))))) ∧
      (type.bits ≤ plan.element.width.bits →
        results = values ++ List.replicate (plan.lanes - values.length) fill) := by
  -- There is room for the values, so they are packed and every lane is read.
  obtain ⟨packed, made⟩ : ∃ packed, plan.pack values fill = .ok packed := Plan.exists_pack room
  refine ⟨packed, _, made, unpack_eq_ok made type, by simp, ?_, ?_⟩
  · intro lane inside
    rw [List.getElem?_map, List.getElem?_range inside]
    rfl
  · intro fits
    exact map_ofBits_eq fits room held fillHeld

/-- Signed bytes come back from the lanes of unsigned words, and a dword from there is cut. -/
theorem Plan.unpack_pack_words :
    ∃ plan, Stage.compile ⟨[2, 1, 0, 0], 3⟩ ⟨.b2, false⟩ (.ofTier .avx2) true = .ok plan ∧
      (∀ value ∈ [-128, -1, 127], (LaneType.narrow ⟨.b1, true⟩).Holds value) ∧
      (∃ packed, plan.pack [-128, -1, 127] 5 = .ok packed ∧
        packed.unpack (.narrow ⟨.b1, true⟩) .b2 8 = .ok [-128, -1, 127, 5, 5, 5, 5, 5]) ∧
      (LaneType.narrow ⟨.b4, false⟩).Holds 65543 ∧
      ∃ packed results, plan.pack [65543] 0 = .ok packed ∧
        packed.unpack (.narrow ⟨.b4, false⟩) .b2 8 = .ok results ∧ results[0]? = some 7 := by
  -- Of the plan only the number of its lanes and its element type matter.
  obtain ⟨plan, compiled, lanes, element⟩ : ∃ plan, Stage.compile ⟨[2, 1, 0, 0], 3⟩ ⟨.b2, false⟩
      (.ofTier .avx2) true = .ok plan ∧ plan.lanes = 8 ∧ plan.element = ⟨.b2, false⟩ :=
    ⟨_, rfl, rfl, rfl⟩
  refine ⟨plan, compiled, by decide, ?_, by decide, ?_⟩
  · obtain ⟨packed, results, made, read, _, _, whole⟩ := Plan.unpack_pack plan
      (.narrow ⟨.b1, true⟩) [-128, -1, 127] 5 (by rw [lanes]; decide) (by decide) (by decide)
    rw [lanes, element] at read whole
    rw [whole (by decide)] at read
    exact ⟨packed, made, read⟩
  · obtain ⟨packed, results, made, read, _, cut, _⟩ := Plan.unpack_pack plan
      (.narrow ⟨.b4, false⟩) [65543] 0 (by rw [lanes]; decide) (by decide) (by decide)
    rw [lanes, element] at read cut
    exact ⟨packed, results, made, read, cut 0 (by decide)⟩

end SimdNetwork
