import SimdNetwork.Proofs.Route

/-! A valid stage coarsens just when its bytes move in the wider units, and then moves the same. -/

namespace SimdNetwork

/-- Different units expand to different positions. -/
theorem expand_inj {size : Nat} (positive : 0 < size) {left right : List Nat} :
    expand size left = expand size right ↔ left = right := by
  -- An expansion can be read back, so it tells what was expanded.
  constructor
  · intro same
    -- Reading the positions back as units undoes the expansion on both sides.
    have own := (blocks?_eq_some_iff positive).mpr (rfl : expand size left = expand size left)
    have other := (blocks?_eq_some_iff positive).mpr same
    exact Option.some.inj (own.symm.trans other)
  · rintro rfl
    rfl

/-- The route of a stage moves in wider units just when the stage's lanes move in such blocks. -/
theorem Route.units?_ofStage_mul (stage : Stage) (width : Width) {factor : Nat}
    (positive : 0 < factor) :
    (ofStage stage width).units? (width.bytes * factor) = blocks? factor stage.partners := by
  have bytes := width.bytes_pos
  -- Bytes of lanes of blocks are bytes of blocks, and the expansion into bytes loses nothing.
  apply Option.ext
  intro units
  rw [units?_eq_some_iff (Nat.mul_pos bytes positive), blocks?_eq_some_iff positive, ofStage,
    Nat.mul_comm, ← expand_expand bytes positive, expand_inj bytes]

theorem lt_roundedUp_iff {used factor block : Nat} (positive : 0 < factor) :
    block < (used + factor - 1) / factor ↔ block * factor < used := by
  -- Rounding up counts just the blocks whose first lane is used.
  rw [← Nat.succ_le_iff, Nat.le_div_iff_mul_le positive, Nat.succ_mul]
  omega

namespace Stage

section Blocks

variable {stage : Stage} {factor : Nat} {units : List Nat}

/-- The first lane of a block is paired with the first lane of the block's partner. -/
theorem partners_of_blocks (positive : 0 < factor) (blocks : stage.partners = expand factor units)
    {block unit : Nat} (named : units[block]? = some unit) :
    stage.partners[block * factor]? = some (unit * factor) := by
  -- Expanding a block starts with its first lane, at the first lane of its partner.
  rw [blocks, getElem?_expand positive, Nat.mul_div_cancel block positive, named,
    Nat.mul_mod_left]
  rfl

/-- The blocks of a valid stage make a valid stage, even when the last used one is half padding. -/
theorem Valid.blocks (valid : stage.Valid) (positive : 0 < factor)
    (blocks : stage.partners = expand factor units) :
    Valid ⟨units, (stage.used + factor - 1) / factor⟩ := by
  -- The blocks tile the lanes, so there is room for their used part.
  have total : stage.lanes = units.length * factor := by rw [lanes, blocks, length_expand]
  have fits := valid.used_le
  rw [total] at fits
  -- A block counts as used when its first lane is, so the first lanes carry every condition.
  have first : ∀ {block unit : Nat}, (units.take ((stage.used + factor - 1) / factor))[block]? =
      some unit → block * factor < stage.used ∧ units[block]? = some unit := by
    intro block unit named
    rw [List.getElem?_take] at named
    split at named
    · rename_i inside
      exact ⟨(lt_roundedUp_iff positive).mp inside, named⟩
    · cases named
  rw [valid_iff]
  refine ⟨?_, ?_, ?_, ?_, ?_⟩
  · rw [lt_roundedUp_iff positive, Nat.zero_mul]
    exact valid.used_pos
  · -- A block beyond the last would have its first lane beyond the stage.
    apply Nat.le_of_not_lt
    intro more
    have beyond := (lt_roundedUp_iff positive).mp more
    exact absurd fits (Nat.not_le.mpr beyond)
  · -- The partner of the first lane lies in the stage, and so does its block.
    intro unit member
    obtain ⟨block, named⟩ := List.mem_iff_getElem?.mp member
    have below := valid.partner_lt (List.mem_of_getElem? (partners_of_blocks positive blocks named))
    rw [total] at below
    exact Nat.lt_of_mul_lt_mul_right below
  · intro unit member
    obtain ⟨block, named⟩ := List.mem_iff_getElem?.mp member
    obtain ⟨used, listed⟩ := first named
    rw [lt_roundedUp_iff positive]
    exact valid.partner_lt_used used (partners_of_blocks positive blocks listed)
  · -- Used blocks with one partner have used first lanes with one partner.
    rw [List.Nodup, List.pairwise_iff_getElem]
    intro left right leftInside rightInside before same
    obtain ⟨leftUsed, leftNamed⟩ := first (List.getElem?_eq_getElem leftInside)
    obtain ⟨rightUsed, rightNamed⟩ := first (List.getElem?_eq_getElem rightInside)
    rw [← same] at rightNamed
    have lanes := valid.eq_of_same_partner leftUsed rightUsed
      (partners_of_blocks positive blocks leftNamed) (partners_of_blocks positive blocks rightNamed)
    have equal := Nat.eq_of_mul_eq_mul_right positive lanes
    omega

/-- A valid stage coarsens to the blocks it moves in, and the check of the result never refuses. -/
theorem Valid.coarsen_eq (valid : stage.Valid) (large : 2 ≤ factor) :
    stage.coarsen factor = (blocks? factor stage.partners).map fun units =>
      ⟨units, (stage.used + factor - 1) / factor⟩ := by
  -- The blocks that were read make a valid stage, so the check behind the reading passes.
  have positive : 0 < factor := by omega
  rw [coarsen, if_neg (by omega)]
  cases found : blocks? factor stage.partners with
  | none => rfl
  | some units =>
    have checked := valid.blocks positive ((blocks?_eq_some_iff positive).mp found)
    rw [Option.bind_some, checked.ofPartners_eq]
    rfl

end Blocks

/--
Coarsening a valid stage is exact.

It never faults, it succeeds just when the bytes of the stage move in the wider units, what it
gives is those units as a valid stage that moves the same bytes, and the check behind the reading
of the blocks refuses none that were read.
-/
theorem coarsens_iff_moves_in_units (stage : Stage) (width : Width) (factor : Nat)
    (valid : stage.Valid) (large : 2 ≤ factor) :
    ∃ result, stage.coarsenWritten factor = .ok result ∧
      (∀ units, (Route.ofStage stage width).units? (width.bytes * factor) = some units ↔
        ∃ coarse, result = some coarse ∧ coarse.partners = units) ∧
      (∀ coarse, result = some coarse →
        coarse.used = (stage.used + factor - 1) / factor ∧ coarse.Valid ∧
          ∀ wide : Width, wide.bytes = width.bytes * factor →
            Route.ofStage coarse wide = Route.ofStage stage width) ∧
      ∀ written, stage.lanes % factor = 0 →
        writtenUnits factor (chunks factor stage.written) = .ok (some written) →
          ∃ coarse, ofWritten written ((stage.used + factor - 1) / factor) = .ok coarse ∧
            result = some coarse := by
  -- The reading in lane order comes to the same, and is told by the blocks alone.
  have positive : 0 < factor := by omega
  refine ⟨stage.coarsen factor, coarsenWritten_eq stage factor, ?_, ?_, ?_⟩
  · intro units
    rw [Route.units?_ofStage_mul stage width positive, valid.coarsen_eq large]
    simp only [Option.map_eq_some_iff]
    constructor
    · intro found
      exact ⟨_, ⟨units, found, rfl⟩, rfl⟩
    · rintro ⟨_, ⟨_, found, rfl⟩, rfl⟩
      exact found
  · -- Expanding blocks into lanes and lanes into bytes is one expansion.
    intro coarse made
    obtain ⟨_, expanded, used, checked⟩ := coarsen_eq_some made
    refine ⟨used, checked, ?_⟩
    intro wide size
    rw [Route.ofStage, Route.ofStage, expanded, expand_expand width.bytes_pos positive, size,
      Nat.mul_comm]
  · -- What is read from the highest lane down are the blocks, turned round.
    intro written whole read
    rw [writtenUnits_written large whole, Except.ok.injEq, Option.map_eq_some_iff] at read
    obtain ⟨units, found, rfl⟩ := read
    have checked := valid.blocks positive ((blocks?_eq_some_iff positive).mp found)
    refine ⟨_, checked.ofPartners_eq, ?_⟩
    rw [valid.coarsen_eq large, found]
    rfl

/-- Two blocks swap; the last used block is half padding, and padding reads a used block. -/
theorem coarsens_iff_moves_in_units_five_bytes :
    Stage.Valid ⟨[2, 3, 0, 1, 4, 5, 0, 1], 5⟩ ∧
    Stage.coarsenWritten ⟨[2, 3, 0, 1, 4, 5, 0, 1], 5⟩ 2 = .ok (some ⟨[1, 0, 2, 0], 3⟩) ∧
    (Route.ofStage ⟨[2, 3, 0, 1, 4, 5, 0, 1], 5⟩ .b1).units? 2 = some [1, 0, 2, 0] ∧
    Stage.Valid ⟨[1, 0, 2, 0], 3⟩ ∧
    Route.ofStage ⟨[1, 0, 2, 0], 3⟩ .b2 = Route.ofStage ⟨[2, 3, 0, 1, 4, 5, 0, 1], 5⟩ .b1 := by
  -- One stage is coarsened, and its units, its validity and its bytes are what they should be.
  have valid : Stage.Valid ⟨[2, 3, 0, 1, 4, 5, 0, 1], 5⟩ := by decide
  obtain ⟨result, made, units, moved, _⟩ :=
    coarsens_iff_moves_in_units ⟨[2, 3, 0, 1, 4, 5, 0, 1], 5⟩ .b1 2 valid (by decide)
  obtain rfl : some ⟨[1, 0, 2, 0], 3⟩ = result := Except.ok.inj made
  obtain ⟨_, checked, same⟩ := moved _ rfl
  exact ⟨valid, made, (units _).mpr ⟨_, rfl, rfl⟩, checked, same .b2 rfl⟩

end Stage

end SimdNetwork
