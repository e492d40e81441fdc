import SimdNetwork.Proofs.Stage.Exchange

/-! Stages that move different lanes commute, and one stage can do the work of both. -/

namespace SimdNetwork

namespace Stage

variable {first second merged : Stage} {lane : Nat}

/-- Two stages of the same lanes, of which one at least leaves each used lane alone. -/
structure Independent (first second : Stage) : Prop where
  /-- The first stage is valid. -/
  first_valid : first.Valid
  /-- The second stage is valid. -/
  second_valid : second.Valid
  /-- Both have the same lanes. -/
  lanes_eq : second.lanes = first.lanes
  /-- Both use the same lanes. -/
  used_eq : second.used = first.used
  /-- A used lane is its own partner in one of them. -/
  alone : ∀ lane < first.used, first.partner lane = .ok lane ∨ second.partner lane = .ok lane

/-- The partners of the first stage, or of the second for lanes that the first leaves alone. -/
def mergedPartners (first second : Stage) : List Nat :=
  (List.range first.lanes).map fun lane =>
    if first.mate lane = lane then second.mate lane else first.mate lane

/-- A stage moves the partner of every lane that it moves. -/
theorem Valid.mate_mate_ne {stage : Stage} (valid : stage.Valid) (inside : lane < stage.used)
    (moved : stage.mate lane ≠ lane) : stage.mate (stage.mate lane) ≠ stage.mate lane := by
  -- Otherwise the lane and its partner would share a partner.
  intro settled
  exact moved (valid.mate_inj (valid.mate_lt inside) inside settled)

namespace Independent

/-- Independence does not depend on the order of the two stages. -/
@[symm] theorem symm (independent : first.Independent second) : second.Independent first where
  first_valid := independent.second_valid
  second_valid := independent.first_valid
  lanes_eq := independent.lanes_eq.symm
  used_eq := independent.used_eq.symm
  alone lane inside := (independent.alone lane (independent.used_eq ▸ inside)).symm

variable (independent : first.Independent second) (inside : lane < first.used)
include independent inside

/-- The second stage leaves alone what the first one moves. -/
theorem mate_eq (moved : first.mate lane ≠ lane) : second.mate lane = lane := by
  -- A used lane is one of both stages, so each of them lists a partner for it.
  have room := independent.first_valid.used_le
  have sameLanes := independent.lanes_eq
  rcases independent.alone lane inside with alone | alone
  · rw [partner_eq_ok (by omega), Except.ok.injEq] at alone
    exact absurd alone moved
  · rwa [partner_eq_ok (by omega), Except.ok.injEq] at alone

/-- The second stage leaves alone the partners of the first one's lanes, too. -/
theorem mate_mate_eq (moved : first.mate lane ≠ lane) :
    second.mate (first.mate lane) = first.mate lane :=
  -- The partner of a lane that the first stage moves is moved by it as well.
  independent.mate_eq (independent.first_valid.mate_lt inside)
    (independent.first_valid.mate_mate_ne inside moved)

/-- A lane that the first stage leaves alone gets no partner that the first stage gives away. -/
theorem mate_ne_mate {other : Nat} (otherInside : other < first.used)
    (alone : first.mate other = other) (moved : first.mate lane ≠ lane) :
    second.mate other ≠ first.mate lane := by
  -- The partner that the first stage gives away is one that the second leaves alone.
  intro shared
  -- The second stage would pair two lanes with the same one, so the two are one lane.
  have same : other = first.mate lane := by
    refine independent.second_valid.mate_inj (independent.used_eq ▸ otherInside)
      (independent.used_eq ▸ independent.first_valid.mate_lt inside) ?_
    rw [shared, independent.mate_mate_eq inside moved]
  rw [same] at alone
  exact independent.first_valid.mate_mate_ne inside moved alone

end Independent

/-- A stage that pairs the used lanes as the first of two stages does, or else the second. -/
structure Merges (merged first second : Stage) : Prop where
  /-- The stage is valid. -/
  valid : merged.Valid
  /-- It has the lanes that the two stages have. -/
  lanes_eq : merged.lanes = first.lanes
  /-- It uses the lanes that the two stages use. -/
  used_eq : merged.used = first.used
  /-- A used lane has its partner from a stage that moves it, if there is one. -/
  mate_eq : ∀ lane < first.used,
    merged.mate lane = if first.mate lane = lane then second.mate lane else first.mate lane

/-- For independent stages it does not matter which one is asked first. -/
theorem Merges.symm (merges : merged.Merges first second)
    (independent : first.Independent second) : merged.Merges second first where
  valid := merges.valid
  lanes_eq := merges.lanes_eq.trans independent.lanes_eq.symm
  used_eq := merges.used_eq.trans independent.used_eq.symm
  mate_eq lane inside := by
    rw [independent.used_eq] at inside
    rw [merges.mate_eq lane inside]
    -- A lane that both stages leave alone is its own partner either way.
    by_cases alone : first.mate lane = lane
    · rw [if_pos alone, alone]
      split
      · assumption
      · rfl
    · rw [if_neg alone, if_pos (independent.mate_eq inside alone)]

/-- Merging keeps the lanes. -/
theorem lanes_mergedPartners :
    lanes ⟨first.mergedPartners second, first.used⟩ = first.lanes := by
  -- A partner is listed for every lane of the first stage.
  rw [lanes, mergedPartners, List.length_map, List.length_range]

theorem mate_mergedPartners (inside : lane < first.lanes) :
    mate ⟨first.mergedPartners second, first.used⟩ lane =
      if first.mate lane = lane then second.mate lane else first.mate lane := by
  -- The lane is one of those that a partner is listed for.
  rw [mate, List.getD_eq_getElem?_getD, mergedPartners, List.getElem?_map,
    List.getElem?_range inside, Option.map_some, Option.getD_some]

/-- The merged partners of independent stages are those of a valid stage. -/
theorem Independent.valid_mergedPartners (independent : first.Independent second) :
    Valid ⟨first.mergedPartners second, first.used⟩ := by
  -- Each lane has a partner from one of the two stages, and both stages are valid.
  have fits := independent.first_valid.used_le
  have sameLanes := independent.lanes_eq
  have sameUsed := independent.used_eq
  refine valid_of_mates independent.first_valid.used_pos ?_ ?_ ?_ ?_
  · rwa [lanes_mergedPartners]
  · -- A lane of one stage is a lane of the other, with its partner there.
    rw [lanes_mergedPartners]
    intro lane inside
    rw [mate_mergedPartners inside]
    split
    · exact sameLanes ▸ independent.second_valid.mate_lt_lanes (sameLanes ▸ inside)
    · exact independent.first_valid.mate_lt_lanes inside
  · -- Either stage keeps the used lanes among themselves.
    intro lane inside
    rw [mate_mergedPartners (Nat.lt_of_lt_of_le inside fits)]
    split
    · exact sameUsed ▸ independent.second_valid.mate_lt (sameUsed ▸ inside)
    · exact independent.first_valid.mate_lt inside
  · intro left leftInside right rightInside same
    rw [mate_mergedPartners (Nat.lt_of_lt_of_le leftInside fits),
      mate_mergedPartners (Nat.lt_of_lt_of_le rightInside fits)] at same
    -- Each stage pairs its own lanes apart, and the lanes of one are not partners in the other.
    split at same
    · rename_i leftAlone
      split at same
      · exact independent.second_valid.mate_inj (sameUsed ▸ leftInside)
          (sameUsed ▸ rightInside) same
      · rename_i rightMoved
        exact absurd same (independent.mate_ne_mate rightInside leftInside leftAlone rightMoved)
    · rename_i leftMoved
      split at same
      · rename_i rightAlone
        exact absurd same.symm
          (independent.mate_ne_mate leftInside rightInside rightAlone leftMoved)
      · exact independent.first_valid.mate_inj leftInside rightInside same

/-- The merged partners of independent stages make a stage that merges the two. -/
theorem Independent.exists_merged (independent : first.Independent second) :
    ∃ merged, ofPartners (first.mergedPartners second) first.used = .ok merged ∧
      merged.Merges first second := by
  -- The partners pass the check, and a stage made from them lists them.
  have valid := independent.valid_mergedPartners
  refine ⟨_, valid.ofPartners_eq, valid, lanes_mergedPartners, rfl, ?_⟩
  intro lane inside
  exact mate_mergedPartners (Nat.lt_of_lt_of_le inside independent.first_valid.used_le)

section Running

variable {α : Type} [Min α] [Max α] (idempotent : ∀ value : α, max value value = value)
include idempotent

/-- One independent stage after the other leaves in each used lane what the merged stage does. -/
theorem Merges.outcome_eq (merges : merged.Merges first second)
    (independent : first.Independent second) (value : Nat → α) (inside : lane < first.used) :
    second.outcome (first.outcome value) lane = merged.outcome value lane := by
  -- A lane and its partner are both left alone by the stage that does not move the lane.
  by_cases alone : first.mate lane = lane
  · -- The second stage reads two lanes that the first one left alone.
    have other : first.mate (second.mate lane) = second.mate lane := by
      by_cases alsoAlone : second.mate lane = lane
      · rw [alsoAlone, alone]
      · exact independent.symm.mate_mate_eq (independent.used_eq ▸ inside) alsoAlone
    have paired := merges.mate_eq lane inside
    rw [if_pos alone] at paired
    rw [outcome, outcome_alone idempotent alone, outcome_alone idempotent other, outcome, paired]
  · -- The second stage does not touch what the first one made of the lane.
    have paired := merges.mate_eq lane inside
    rw [if_neg alone] at paired
    rw [outcome_alone idempotent (independent.mate_eq inside alone), outcome, outcome, paired]

/-- One independent stage after the other does to every input what the merged stage does. -/
theorem Merges.exchange_eq (merges : merged.Merges first second)
    (independent : first.Independent second) (values : List α) :
    (first.exchange values >>= second.exchange) = merged.exchange values := by
  -- All three stages take inputs of one size, and on these the outcomes agree in every used lane.
  by_cases count : values.length = first.used
  · cases values with
    -- A valid stage uses a lane, so there is a value.
    | nil => exact absurd count (Nat.ne_of_lt independent.first_valid.used_pos)
    | cons fill rest =>
      -- The first value serves to fill lanes beyond the last, which are never read.
      have mergedCount := count.trans merges.used_eq.symm
      rw [independent.first_valid.exchange_eq fill count, ok_bind, ← independent.used_eq,
        independent.second_valid.exchange_range, merges.valid.exchange_eq fill mergedCount,
        merges.used_eq, independent.used_eq]
      refine congrArg Except.ok (List.map_congr_left ?_)
      intro lane member
      exact merges.outcome_eq idempotent independent _ (List.mem_range.mp member)
  · -- An input of another size is turned away by either.
    rw [exchange, if_pos count, exchange, if_pos (merges.used_eq ▸ count)]
    rfl

end Running

end Stage

end SimdNetwork
