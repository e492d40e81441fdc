import SimdNetwork.Proofs.Blend.Exact
import SimdNetwork.Proofs.Plan.Compile
import SimdNetwork.Proofs.Stage.History

/-! A selector reads back as the mask of the low lanes of the stage it was made for. -/

namespace SimdNetwork

/-- A lane is low when its side is. -/
theorem Stage.isLow_eq_side {stage : Stage} {lane : Nat} (inside : lane < stage.lanes) :
    ∃ side, stage.side lane = .ok side ∧ stage.isLow lane = decide (side = .low) := by
  -- Both ask whether the partner is a later lane.
  refine ⟨_, side_eq_ok inside, ?_⟩
  rw [isLow_eq, Side.ofPair]
  by_cases before : lane < stage.mate lane
  · simp [before]
  · simp [before]

section Served

variable {stage : Stage} {element : Element} {target : Target} {widen : Bool} {shape : Shape}
variable {parts : Plan.Parts}

/-- A plan's selector is that of the padded stage, at a granularity that fits in one word. -/
theorem Plan.Parts.Serve.selector_eq (serve : parts.Serve stage element target widen shape) :
    parts.padded.lanes * parts.blend.row.granularity.stride element.width ≤ 64 ∧
      parts.plan.selector =
        Selector.ofLow parts.padded element.width parts.blend.row.granularity := by
  -- The plan's selector is the one that its blend was encoded from.
  obtain ⟨before, after, rows, _, serves⟩ := serve.blend
  -- The row of the blend is one of the table, and so takes a selector that fits.
  have usable : parts.blend.row ∈ target.blends shape element.width := by
    rw [rows]
    simp
  have offers := offersBlend_of_mem (List.mem_filter.mp usable).1
  have few : parts.padded.lanes * parts.blend.row.granularity.stride element.width ≤ 64 := by
    rw [Stage.lanes_padTo serve.padded]
    exact offers.stride_le
  -- The blend was encoded from the selector of the padded stage, and the plan keeps it.
  obtain ⟨selector, encoded, selected, _, chosen⟩ := BlendRow.choice?_eq_ok serves.made
  obtain ⟨blend, _, same⟩ := Option.map_eq_some_iff.mp chosen
  rw [Selector.ofStage_eq_ok few, Except.ok.injEq] at selected
  refine ⟨few, ?_⟩
  rw [Plan.Parts.plan, selected, ← same]

end Served

/--
Selectors are derived from the stage alone.

At every granularity that fits in one word a stage has a selector. Reduced to one bit for each lane
it is the mask of the stage's low lanes, it tells of every lane whether its side is the low one, and
it has no bit beyond its size. So the selector of a plan, whatever the target and the blend, is
reduced to the mask of the low lanes of the stage that was compiled, before it was padded.
-/
theorem Stage.selector_reads_lowLanes (stage : Stage) (valid : stage.Valid) :
    (∀ (width : Width) (granularity : Granularity),
      stage.lanes * granularity.stride width ≤ 64 →
        ∃ selector low, Selector.ofStage stage width granularity = .ok selector ∧
          stage.lowLanes = .ok low ∧ selector.laneBits width = .ok low ∧
          (∀ lane < stage.lanes, ∃ side, stage.side lane = .ok side ∧
            selector.isLow lane width = .ok (decide (side = .low))) ∧
          selector.size = .ok (stage.lanes * granularity.stride width) ∧
          ∀ bit, stage.lanes * granularity.stride width ≤ bit →
            selector.bits.testBit bit = false) ∧
    ∀ (element : Element) (target : Target) (widen : Bool) (plan : Plan),
      stage.compile element target widen = .ok plan →
        ∃ low, stage.lowLanes = .ok low ∧ plan.selector.laneBits element.width = .ok low := by
  -- A plan is read like any selector, but one of the padded stage.
  constructor
  · intro width granularity few
    -- A lane takes at least one bit of the selector, so one word holds a bit for each lane too.
    have narrow := Nat.le_mul_of_pos_right stage.lanes (granularity.stride_pos width)
    refine ⟨_, _, Selector.ofStage_eq_ok few, lowLanes_eq_ok (by omega),
      Selector.laneBits_ofLow few, ?_, Selector.size_ofLow few,
      fun _ => Selector.testBit_ofLow_beyond⟩
    intro lane inside
    obtain ⟨side, sided, low⟩ := isLow_eq_side inside
    exact ⟨side, sided, by rw [Selector.isLow_ofLow few inside, low]⟩
  · intro element target widen plan compiled
    obtain ⟨shape, parts, _, serve, rfl⟩ := parts_of_compile valid compiled
    obtain ⟨few, derived⟩ := serve.selector_eq
    have narrow := Nat.le_mul_of_pos_right parts.padded.lanes
      (parts.blend.row.granularity.stride_pos element.width)
    -- The lanes that padding added are not low, so the mask is that of the stage itself.
    have low := lowLanes_eq_ok (by omega : parts.padded.lanes ≤ 64)
    rw [lowLanes_padTo serve.padded] at low
    exact ⟨_, low, by rw [derived, Selector.laneBits_ofLow few]⟩

/-- Six qwords in three pairs: a byte mask of the stage itself, and the plan on eight lanes. -/
theorem Stage.selector_reads_lowLanes_six_qwords :
    Stage.Valid ⟨[1, 0, 4, 5, 2, 3], 6⟩ ∧
    Stage.lanes ⟨[1, 0, 4, 5, 2, 3], 6⟩ * Granularity.stride .byte .b8 ≤ 64 ∧
    Selector.ofStage ⟨[1, 0, 4, 5, 2, 3], 6⟩ .b8 .byte = .ok (.perByte 0xffff00ff 48) ∧
    Selector.laneBits (.perByte 0xffff00ff 48) .b8 = .ok 0xd ∧
    (∀ bit, 48 ≤ bit → Nat.testBit 0xffff00ff bit = false) ∧
    ∃ plan, Stage.compile ⟨[1, 0, 4, 5, 2, 3], 6⟩ ⟨.b8, false⟩ (.ofTier .avx512) true = .ok plan ∧
      plan.selector.laneBits .b8 = .ok 0xd := by
  -- The mask and the selector are computed, and the theorem ties the plan to them.
  have valid : Stage.Valid ⟨[1, 0, 4, 5, 2, 3], 6⟩ := by decide
  have few : Stage.lanes ⟨[1, 0, 4, 5, 2, 3], 6⟩ * Granularity.stride .byte .b8 ≤ 64 := by decide
  have lowLanes : Stage.lowLanes ⟨[1, 0, 4, 5, 2, 3], 6⟩ = .ok 0xd := rfl
  have selected : Selector.ofStage ⟨[1, 0, 4, 5, 2, 3], 6⟩ .b8 .byte =
      .ok (.perByte 0xffff00ff 48) := rfl
  have found : Stage.shapeFor ⟨[1, 0, 4, 5, 2, 3], 6⟩ ⟨.b8, false⟩ = .ok .zmm := rfl
  obtain ⟨plan, compiled⟩ : ∃ plan, Stage.compile ⟨[1, 0, 4, 5, 2, 3], 6⟩ ⟨.b8, false⟩
      (.ofTier .avx512) true = .ok plan := Stage.exists_compile valid found rfl
  obtain ⟨derived, planned⟩ := Stage.selector_reads_lowLanes ⟨[1, 0, 4, 5, 2, 3], 6⟩ valid
  obtain ⟨selector, low, made, same, reduced, _, _, beyond⟩ := derived .b8 .byte few
  obtain ⟨planLow, planSame, planReduced⟩ := planned _ _ _ plan compiled
  rw [selected, Except.ok.injEq] at made
  rw [lowLanes, Except.ok.injEq] at same planSame
  subst made same planSame
  exact ⟨valid, few, selected, reduced, beyond, plan, compiled, planReduced⟩

end SimdNetwork
