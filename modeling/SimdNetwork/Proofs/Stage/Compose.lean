import SimdNetwork.Proofs.Route.Coarsen

/-! Coarsening in two steps is coarsening at once, so the wider readings of a stage leave no gap. -/

namespace SimdNetwork

/-- Units of units are the larger units, and are found just when those are. -/
theorem blocks?_mul {size factor : Nat} (sizePositive : 0 < size) (factorPositive : 0 < factor)
    (positions : List Nat) :
    blocks? (size * factor) positions = (blocks? size positions).bind (blocks? factor) := by
  -- Both readings find the units exactly when the positions are these units, expanded twice.
  apply Option.ext
  intro units
  rw [blocks?_eq_some_iff (Nat.mul_pos sizePositive factorPositive), Nat.mul_comm,
    ← expand_expand sizePositive factorPositive, Option.bind_eq_some_iff]
  constructor
  · intro expanded
    exact ⟨expand factor units, (blocks?_eq_some_iff sizePositive).mpr expanded,
      (blocks?_eq_some_iff factorPositive).mpr rfl⟩
  · rintro ⟨between, outer, inner⟩
    rw [(blocks?_eq_some_iff sizePositive).mp outer, (blocks?_eq_some_iff factorPositive).mp inner]

/-- Rounding up twice is rounding up once. -/
theorem roundedUp_roundedUp {used first second : Nat} (firstPositive : 0 < first)
    (secondPositive : 0 < second) :
    ((used + first - 1) / first + second - 1) / second =
      (used + first * second - 1) / (first * second) := by
  -- Either way a block is counted when the first of all its lanes is used.
  have counted : ∀ block, block < ((used + first - 1) / first + second - 1) / second ↔
      block < (used + first * second - 1) / (first * second) := by
    intro block
    rw [lt_roundedUp_iff secondPositive, lt_roundedUp_iff firstPositive,
      lt_roundedUp_iff (Nat.mul_pos firstPositive secondPositive), Nat.mul_assoc,
      Nat.mul_comm second first]
  apply Nat.le_antisymm
  · exact Nat.le_of_not_lt fun more => Nat.lt_irrefl _ ((counted _).mp more)
  · exact Nat.le_of_not_lt fun more => Nat.lt_irrefl _ ((counted _).mpr more)

/-- The wider widths are listed so that each is reached through those before it. -/
theorem Width.wider_steps (width : Width) :
    width.wider.Pairwise fun middle wide =>
      2 ≤ width.factorTo middle ∧ 2 ≤ middle.factorTo wide ∧
        width.factorTo middle * middle.factorTo wide = width.factorTo wide := by
  -- Every step up the widths doubles the lane, so the factors multiply.
  cases width <;> decide

/-- Members whose choice forces that of all members before them make up the front of a list. -/
theorem filter_isPrefix {α : Type} {list : List α} {chosen : α → Bool}
    (forced : list.Pairwise fun early late => chosen late = true → chosen early = true) :
    list.filter chosen <+: list := by
  -- Either the first member is kept, or it and with it all others are left out.
  induction list with
  | nil => exact List.prefix_refl _
  | cons first rest ih =>
    rw [List.pairwise_cons] at forced
    by_cases head : chosen first = true
    · rw [List.filter_cons_of_pos head, List.prefix_cons_inj]
      exact ih forced.2
    · -- Once a member is left out, so is everything behind it.
      have none_later : rest.filter chosen = [] := by
        rw [List.filter_eq_nil_iff]
        exact fun late member taken => head (forced.1 late member taken)
      rw [List.filter_cons_of_neg head, none_later]
      exact List.nil_prefix

namespace Stage

section Steps

variable {stage : Stage}

/-- A valid stage coarsens by a product as it coarsens by one factor after the other. -/
theorem Valid.coarsen_mul (valid : stage.Valid) {first second : Nat} (firstLarge : 2 ≤ first)
    (secondLarge : 2 ≤ second) :
    stage.coarsen (first * second) =
      (stage.coarsen first).bind fun coarse => coarse.coarsen second := by
  -- Blocks of blocks are the larger blocks, and rounding up twice is rounding up once.
  have firstPositive : 0 < first := by omega
  have secondPositive : 0 < second := by omega
  have large : 2 ≤ first * second :=
    Nat.le_trans firstLarge (Nat.le_mul_of_pos_right first secondPositive)
  rw [valid.coarsen_eq large, valid.coarsen_eq firstLarge,
    blocks?_mul firstPositive secondPositive]
  cases found : blocks? first stage.partners with
  | none => rfl
  | some units =>
    -- The blocks of the first step are a valid stage again, so the second reads them alike.
    have checked := valid.blocks firstPositive ((blocks?_eq_some_iff firstPositive).mp found)
    rw [Option.bind_some, Option.map_some, Option.bind_some, checked.coarsen_eq secondLarge,
      roundedUp_roundedUp firstPositive secondPositive]

/-- A valid stage that coarsens to a width coarsens to all the widths listed before it. -/
theorem Valid.wider_coarsens (valid : stage.Valid) (width : Width) :
    width.wider.Pairwise fun middle wide => (stage.coarsen (width.factorTo wide)).isSome = true →
      (stage.coarsen (width.factorTo middle)).isSome = true := by
  -- Coarsening to the later width goes through the earlier one.
  refine width.wider_steps.imp ?_
  rintro middle wide ⟨middleLarge, wideLarge, product⟩ coarsens
  rw [← product, valid.coarsen_mul middleLarge wideLarge] at coarsens
  exact Option.isSome_of_isSome_bind coarsens

/-- The widths of the wider readings are the wider widths that the stage coarsens to. -/
theorem map_width_wideReadings (stage : Stage) (width : Width) :
    (stage.wideReadings width).map Coarsening.width =
      width.wider.filter fun wide => (stage.coarsen (width.factorTo wide)).isSome := by
  -- A width is listed when there is a stage to list it with.
  rw [wideReadings, List.map_filterMap, ← List.filterMap_eq_filter]
  congr 1
  funext wide
  cases found : stage.coarsen (width.factorTo wide) <;> simp [Option.guard, found]

end Steps

/--
Coarsening a valid stage composes.

Coarsening by a product never faults, and gives what coarsening by one factor and then by the other
gives: nothing, or the same stage with the same used size. So the wider readings are found without a
fault, and their widths, which are those the stage coarsens to, are the first few of all the wider
ones.
-/
theorem coarsens_in_steps (stage : Stage) (width : Width) (first second : Nat)
    (valid : stage.Valid) (firstLarge : 2 ≤ first) (secondLarge : 2 ≤ second) :
    (∃ result, stage.coarsenWritten (first * second) = .ok result ∧
      (stage.coarsenWritten first >>= fun between =>
        between.elim (.ok none) fun coarse => coarse.coarsenWritten second) = .ok result) ∧
    ∃ wider, stage.coarsenings width = .ok wider ∧
      wider.map Coarsening.width <+: width.wider ∧
      ∀ wide ∈ width.wider, wide ∈ wider.map Coarsening.width ↔
        ∃ coarse, stage.coarsenWritten (width.factorTo wide) = .ok (some coarse) := by
  -- All that is written from the highest lane down is read in lane order first.
  refine ⟨⟨stage.coarsen (first * second), coarsenWritten_eq _ _, ?_⟩, _,
    coarsenings_eq stage width, ?_, ?_⟩
  · -- Neither step faults, so both come to what they come to in lane order.
    rw [coarsenWritten_eq, ok_bind, valid.coarsen_mul firstLarge secondLarge]
    cases stage.coarsen first with
    | none => rfl
    | some coarse => exact coarsenWritten_eq coarse second
  · -- The widths that are left out are all behind those that are kept.
    rw [map_width_wideReadings]
    exact filter_isPrefix (valid.wider_coarsens width)
  · -- A width is kept when the stage coarsens to it.
    intro wide wider
    rw [map_width_wideReadings, List.mem_filter, coarsenWritten_eq, Option.isSome_iff_exists]
    simp only [wider, true_and, Except.ok.injEq]

/--
Four blocks of four bytes, of which two swap, the third is only begun and the last reads the first:
they are read in pairs, in pairs of pairs and so in fours, and no wider.
-/
theorem coarsens_in_steps_nine_bytes :
    ∃ stage : Stage, stage = ⟨[4, 5, 6, 7, 0, 1, 2, 3, 8, 9, 10, 11, 0, 1, 2, 3], 9⟩ ∧
    stage.Valid ∧
    stage.coarsenWritten (2 * 2) = .ok (some ⟨[1, 0, 2, 0], 3⟩) ∧
    (stage.coarsenWritten 2 >>= fun between =>
      between.elim (.ok none) fun coarse => coarse.coarsenWritten 2) =
        .ok (some ⟨[1, 0, 2, 0], 3⟩) ∧
    (∃ wider, stage.coarsenings .b1 = .ok wider ∧ wider.map Coarsening.width = [.b2, .b4]) ∧
    [.b2, .b4] <+: Width.b1.wider ∧
    ¬ ∃ coarse, stage.coarsenWritten (Width.b1.factorTo .b8) = .ok (some coarse) := by
  -- The stage is coarsened both ways, and its widths stop before the widest.
  have valid : Stage.Valid ⟨[4, 5, 6, 7, 0, 1, 2, 3, 8, 9, 10, 11, 0, 1, 2, 3], 9⟩ := by decide
  obtain ⟨⟨result, made, steps⟩, wider, found, front, listed⟩ :=
    coarsens_in_steps _ .b1 2 2 valid (by decide) (by decide)
  obtain rfl : some ⟨[1, 0, 2, 0], 3⟩ = result := Except.ok.inj made
  cases found
  refine ⟨_, rfl, valid, made, steps, ⟨_, rfl, rfl⟩, front, ?_⟩
  rw [← listed .b8 (by decide)]
  decide

end Stage

end SimdNetwork
