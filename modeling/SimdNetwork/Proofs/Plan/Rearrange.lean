import Mathlib.Algebra.BigOperators.Group.Finset.Piecewise
import Mathlib.Algebra.Ring.Int.Defs
import SimdNetwork.Proofs.Plan.Run

/-! A stage rearranges its values exactly when it is an involution. -/

namespace SimdNetwork

/-- The stage gives back the values it was given, in whatever order. -/
def Stage.Rearranges (stage : Stage) (values : List Int) : Prop :=
  ∃ results, stage.exchange values = .ok results ∧ results.Perm values

section Involution

variable {stage : Stage} {value : Nat → Int} {lane : Nat}

/-- The lane whose value a lane keeps: its partner when the two are out of order. -/
def Stage.origin (stage : Stage) (value : Nat → Int) (lane : Nat) : Nat :=
  if value (max lane (stage.mate lane)) < value (min lane (stage.mate lane)) then stage.mate lane
  else lane

theorem Stage.outcome_eq_origin (stage : Stage) (value : Nat → Int) (lane : Nat) :
    stage.outcome value lane = value (stage.origin value lane) := by
  -- The lower of the two lanes keeps the smaller value, and the upper one the larger.
  by_cases lower : lane < stage.mate lane
  · have upper : max lane (stage.mate lane) = stage.mate lane := Nat.max_eq_right (by omega)
    have bottom : min lane (stage.mate lane) = lane := Nat.min_eq_left (by omega)
    simp only [outcome, origin, Side.ofPair, if_pos lower, Side.kept, upper, bottom]
    split <;> omega
  · have upper : max lane (stage.mate lane) = lane := Nat.max_eq_left (by omega)
    have bottom : min lane (stage.mate lane) = stage.mate lane := Nat.min_eq_right (by omega)
    simp only [outcome, origin, Side.ofPair, if_neg lower, Side.kept, upper, bottom]
    split <;> omega

/-- Partners that are paired with each other swap both or neither. -/
theorem Stage.origin_origin (back : stage.mate (stage.mate lane) = lane) :
    stage.origin value (stage.origin value lane) = lane := by
  -- The two lanes are out of order, or they are not, and both of them see which.
  by_cases disorder : value (max lane (stage.mate lane)) < value (min lane (stage.mate lane))
  · -- The partner sees the same two lanes, and so it finds the same disorder.
    have own : stage.origin value lane = stage.mate lane := if_pos disorder
    rw [own, origin, back, Nat.max_comm, Nat.min_comm, if_pos disorder]
  · have own : stage.origin value lane = lane := if_neg disorder
    rw [own, own]

/-- A map of places that undoes itself lists every place once. -/
theorem map_range_perm {count : Nat} {move : Nat → Nat}
    (inside : ∀ place < count, move place < count)
    (back : ∀ place < count, move (move place) = place) :
    ((List.range count).map move).Perm (List.range count) := by
  -- Both lists have no repetition, so they need only have the same members.
  have distinct : ((List.range count).map move).Nodup := by
    rw [List.Nodup, List.pairwise_map]
    refine List.nodup_range.imp_of_mem ?_
    intro left right leftListed rightListed differ same
    -- Moving back tells the two places apart again.
    apply differ
    rw [← back left (List.mem_range.mp leftListed), same,
      back right (List.mem_range.mp rightListed)]
  rw [List.perm_ext_iff_of_nodup distinct List.nodup_range]
  intro place
  simp only [List.mem_map, List.mem_range]
  constructor
  · rintro ⟨source, below, rfl⟩
    exact inside source below
  · intro below
    exact ⟨move place, inside place below, back place below⟩

/--
Lanes below a count rearrange their values when each of them is the partner of its partner.

A lane whose partner is not below the count must not hold more than the partner. It is the lower of
the two then, and keeps its own value.
-/
theorem Stage.outcome_perm {count : Nat}
    (back : ∀ lane < count, stage.mate (stage.mate lane) = lane)
    (noLess : ∀ lane < count, count ≤ stage.mate lane → value lane ≤ value (stage.mate lane)) :
    ((List.range count).map (stage.outcome value)).Perm ((List.range count).map value) := by
  -- Every lane keeps the value of some lane, and which one undoes itself.
  have inside : ∀ lane < count, stage.origin value lane < count := by
    intro lane below
    rw [origin]
    split
    · -- A partner that is not below the count would have to hold less to be read instead.
      rename_i disorder
      apply Classical.byContradiction
      intro outside
      have ordered := noLess lane below (Nat.le_of_not_lt outside)
      rw [Nat.max_eq_right (by omega), Nat.min_eq_left (by omega)] at disorder
      omega
    · exact below
  have moved := map_range_perm inside fun lane below => origin_origin (back lane below)
  -- The results are the values read at a rearrangement of the lanes.
  have results : (List.range count).map (stage.outcome value) =
      ((List.range count).map (stage.origin value)).map value := by
    rw [List.map_map]
    apply List.map_congr_left
    intro lane _
    exact stage.outcome_eq_origin value lane
  rw [results]
  exact moved.map value

/-- An involution rearranges every input of its size. -/
theorem Stage.Valid.rearranges (valid : stage.Valid)
    (back : ∀ lane < stage.used, stage.mate (stage.mate lane) = lane) {values : List Int}
    (count : values.length = stage.used) : stage.Rearranges values := by
  -- The exchange gives the outcomes of the used lanes, and their number is that of the values.
  refine ⟨_, valid.exchange_eq 0 count, ?_⟩
  have same : ((List.range stage.used).map (stage.outcome (values.getD · 0))).Perm
      ((List.range stage.used).map (values.getD · 0)) := by
    refine outcome_perm back ?_
    -- The partner of a used lane is used, so none of them lies beyond.
    intro lane below beyond
    exact absurd (valid.mate_lt below) (Nat.not_lt.mpr beyond)
  rwa [map_getD_range_length values 0 count] at same

/-- Values are rearranged in lanes that lead back, when nothing less fills the lanes beyond. -/
theorem Stage.outcomes_perm {values : List Int} {fill : Int}
    (back : ∀ lane < values.length, stage.mate (stage.mate lane) = lane)
    (bound : ∀ value ∈ values, value ≤ fill) : (stage.outcomes values fill).Perm values := by
  -- Lanes beyond the values hold the fill, which is no less than any of them.
  have same : (stage.outcomes values fill).Perm
      ((List.range values.length).map (values.getD · fill)) := by
    refine outcome_perm back ?_
    -- A partner beyond the values holds the fill.
    intro lane below beyond
    simp only [List.getD_eq_getElem?_getD, List.getElem?_eq_getElem below,
      List.getElem?_eq_none beyond, Option.getD_some, Option.getD_none]
    exact bound _ (List.getElem_mem below)
  rwa [map_getD_range_length values fill rfl] at same

/-- A plan rearranges values that stand in lanes which are the partners of their partners. -/
theorem Plan.Parts.Serve.run_perm {parts : Plan.Parts} {element : Element} {target : Target}
    {widen : Bool} {shape : Shape} (serve : parts.Serve stage element target widen shape)
    {values : List Int} (room : values.length ≤ parts.plan.lanes)
    (held : ∀ value ∈ values, (LaneType.narrow element).Holds value)
    (back : ∀ lane < values.length, stage.mate (stage.mate lane) = lane) :
    ∃ results, parts.plan.run (.narrow element) values = .ok results ∧ results.Perm values := by
  -- The lanes beyond hold the greatest value of the type, and so nothing less.
  refine ⟨_, serve.runPadded_filled room held (LaneType.holds_maxValue _), ?_⟩
  exact Stage.outcomes_perm back fun value member => (held value member).2

end Involution

section Losing

variable {stage : Stage} {lane other : Nat}

/-- One in a single lane, and zero in all others. -/
def spot (lane other : Nat) : Int := if other = lane then 1 else 0

@[simp] theorem spot_self (lane : Nat) : spot lane lane = 1 := if_pos rfl

theorem spot_of_ne (differs : other ≠ lane) : spot lane other = 0 := if_neg differs

theorem spot_eq (lane other : Nat) : spot lane other = 0 ∨ spot lane other = 1 := by
  -- It is one in its lane and zero elsewhere.
  rw [spot]
  split
  · exact .inr rfl
  · exact .inl rfl

/-- Two values of which one is zero are kept as each of them is kept beside a zero. -/
theorem Side.kept_split (side : Side) {own other : Int} (apart : own = 0 ∨ other = 0) :
    side.kept own other = side.kept 0 other + side.kept own 0 := by
  -- Either summand has only zeros to look at.
  cases side with
  | low =>
    simp only [Side.kept]
    omega
  | high =>
    simp only [Side.kept]
    omega

/-- A stage that rearranges values keeps their sum. -/
theorem Stage.Valid.sum_outcome (valid : stage.Valid) {value : Nat → Int}
    (rearranges : stage.Rearranges ((List.range stage.used).map value)) :
    ∑ lane ∈ Finset.range stage.used, stage.outcome value lane =
      ∑ lane ∈ Finset.range stage.used, value lane := by
  -- The results are the outcomes of the used lanes.
  obtain ⟨results, exchanged, same⟩ := rearranges
  rw [valid.exchange_range] at exchanged
  cases exchanged
  -- A sum does not depend on the order of its terms.
  exact same.sum_eq

/-- Two ones, in a lane and in its partner, leave in any other lane what they leave one by one. -/
theorem Stage.Valid.outcome_add (valid : stage.Valid) (inside : lane < stage.used)
    (oneWay : stage.mate (stage.mate lane) ≠ lane) (below : other < stage.used)
    (differs : other ≠ lane) :
    stage.outcome (fun place => spot lane place + spot (stage.mate lane) place) other =
      stage.outcome (spot lane) other + stage.outcome (spot (stage.mate lane)) other := by
  -- The partner of the lane is looked at from no other lane.
  have unshared : stage.mate other ≠ stage.mate lane := by
    intro same
    exact differs (valid.mate_inj below inside same)
  have apart : spot (stage.mate lane) other = 0 ∨ spot lane (stage.mate other) = 0 := by
    by_cases isMate : other = stage.mate lane
    · -- The partner itself does not look back at the lane.
      subst isMate
      exact .inr (spot_of_ne oneWay)
    · exact .inl (spot_of_ne isMate)
  simp only [outcome, spot_of_ne differs, spot_of_ne unshared, Int.zero_add, Int.add_zero]
  exact Side.kept_split _ apart

/-- The lane itself keeps one of two ones, but none or both of them one by one. -/
theorem Stage.outcome_add_ne (apart : stage.mate lane ≠ lane) :
    stage.outcome (fun place => spot lane place + spot (stage.mate lane) place) lane ≠
      stage.outcome (spot lane) lane + stage.outcome (spot (stage.mate lane)) lane := by
  -- Only the side of the lane matters, so both are tried.
  have away : lane ≠ stage.mate lane := fun same => apart same.symm
  simp only [outcome, spot_self, spot_of_ne apart, spot_of_ne away]
  -- Beside a zero the low side keeps no one, and the high side every one.
  cases Side.ofPair lane (stage.mate lane) with
  | low => decide
  | high => decide

/-- A stage that rearranges all zeros and ones leads back from every partner. -/
theorem Stage.Valid.mate_mate (valid : stage.Valid)
    (rearranges : ∀ bits : List Int, bits.length = stage.used →
      (∀ bit ∈ bits, bit = 0 ∨ bit = 1) → stage.Rearranges bits)
    (inside : lane < stage.used) : stage.mate (stage.mate lane) = lane := by
  -- Otherwise ones in the lane, in its partner and in both of them are three inputs that disagree.
  apply Classical.byContradiction
  intro oneWay
  have apart : stage.mate lane ≠ lane := by
    intro same
    exact oneWay (by rw [same, same])
  -- Rearranging zeros and ones keeps their number.
  have kept : ∀ value : Nat → Int, (∀ place, value place = 0 ∨ value place = 1) →
      ∑ place ∈ Finset.range stage.used, stage.outcome value place =
        ∑ place ∈ Finset.range stage.used, value place := by
    intro value isBit
    refine valid.sum_outcome (rearranges _ (by simp) ?_)
    intro bit member
    obtain ⟨place, _, rfl⟩ := List.mem_map.mp member
    exact isBit place
  -- Ones in two different lanes do not add up to a two.
  have both : ∀ place, spot lane place + spot (stage.mate lane) place = 0 ∨
      spot lane place + spot (stage.mate lane) place = 1 := by
    intro place
    by_cases here : place = lane
    · subst here
      rw [spot_self, spot_of_ne fun same => apart same.symm]
      exact .inr rfl
    · rw [spot_of_ne here, Int.zero_add]
      exact spot_eq _ _
  -- All three sums are kept, so what two ones leave adds up over the lanes.
  have total : ∑ place ∈ Finset.range stage.used,
      (stage.outcome (fun place => spot lane place + spot (stage.mate lane) place) place -
        (stage.outcome (spot lane) place + stage.outcome (spot (stage.mate lane)) place)) = 0 := by
    rw [Finset.sum_sub_distrib, Finset.sum_add_distrib, kept _ both, kept _ (spot_eq lane),
      kept _ (spot_eq (stage.mate lane)), Finset.sum_add_distrib, sub_self]
  -- It adds up in every lane but the one that sees both.
  rw [Finset.sum_eq_single_of_mem lane (Finset.mem_range.mpr inside) fun other listed differs =>
    sub_eq_zero.mpr (valid.outcome_add inside oneWay (Finset.mem_range.mp listed) differs)] at total
  exact Stage.outcome_add_ne apart (sub_eq_zero.mp total)

end Losing

/--
A stage neither loses nor duplicates values exactly when it is an involution.

For every lane type, a valid stage rearranges all inputs of its size just when every used lane is
the partner of its partner. Both lanes of a pair look at the same two values then, so one keeps the
smaller and the other the larger. Every plan of such a stage rearranges its input as well, also when
there are fewer values than used lanes.
-/
theorem Stage.rearranges_iff_isInvolution (stage : Stage) (valid : stage.Valid) :
    (∀ type : LaneType,
      (∀ values : List Int, values.length = stage.used → (∀ value ∈ values, type.Holds value) →
        ∃ results, stage.exchange values = .ok results ∧ results.Perm values) ↔
      stage.isInvolution = true) ∧
    ∀ (element : Element) (target : Target) (widen : Bool) (plan : Plan),
      stage.isInvolution = true → stage.compile element target widen = .ok plan →
        ∀ values : List Int, values.length ≤ stage.used →
          (∀ value ∈ values, (LaneType.narrow element).Holds value) →
            ∃ results, plan.run (.narrow element) values = .ok results ∧ results.Perm values := by
  -- An involution is one whose used lanes all lead back.
  rw [valid.isInvolution_iff]
  constructor
  · intro type
    constructor
    · intro rearranges lane inside
      -- Zeros and ones are values of every type, so they are among the inputs.
      refine valid.mate_mate ?_ inside
      intro bits count isBit
      exact rearranges bits count fun bit member => type.holds_of_isBit (isBit bit member)
    · intro back values count _
      exact valid.rearranges back count
  · intro element target widen plan back compiled values room held
    obtain ⟨shape, parts, _, serve, rfl⟩ := parts_of_compile valid compiled
    -- The values reach used lanes only, and all of these lead back.
    refine serve.run_perm ?_ held fun lane below => back lane (Nat.lt_of_lt_of_le below room)
    exact Nat.le_trans room (serve.used_le_lanes valid)

/-- A cycle of four lanes whose sides alternate loses values, and a swap of two words does not. -/
theorem Stage.rearranges_iff_isInvolution_cycle :
    Stage.Valid ⟨[2, 3, 1, 0], 4⟩ ∧
    (¬ ∀ values : List Int, values.length = 4 →
      (∀ value ∈ values, (LaneType.narrow ⟨.b1, false⟩).Holds value) →
        ∃ results, Stage.exchange ⟨[2, 3, 1, 0], 4⟩ values = .ok results ∧ results.Perm values) ∧
    Stage.Valid ⟨[2, 1, 0, 0], 3⟩ ∧
    ∃ plan, Stage.compile ⟨[2, 1, 0, 0], 3⟩ ⟨.b2, true⟩ (.ofTier .avx2) true = .ok plan ∧
      ∃ results, plan.run (.narrow ⟨.b2, true⟩) [32767, -1, -32768] = .ok results ∧
        results.Perm [32767, -1, -32768] := by
  -- Whether each of the stages is an involution is decided by looking at its lanes.
  have cycle : Stage.Valid ⟨[2, 3, 1, 0], 4⟩ := by decide
  have swap : Stage.Valid ⟨[2, 1, 0, 0], 3⟩ := by decide
  refine ⟨cycle, ?_, swap, _, rfl, ?_⟩
  · intro rearranges
    have involution :=
      ((Stage.rearranges_iff_isInvolution ⟨[2, 3, 1, 0], 4⟩ cycle).1 _).mp rearranges
    exact absurd involution (by decide)
  · exact (Stage.rearranges_iff_isInvolution ⟨[2, 1, 0, 0], 3⟩ swap).2 ⟨.b2, true⟩ (.ofTier .avx2)
      true _ (by decide) rfl _ (by decide) (by decide)

/--
A plan of an involution rearranges longer inputs, too, as far as the padding they reach leads back.

Whether a stage is an involution is decided on its used lanes alone. A plan takes values in all its
lanes, and those behind the used lanes stand in padding, of which each lane that holds a value has
to be the partner of its partner.
-/
theorem Stage.rearranges_padding (stage : Stage) (valid : stage.Valid)
    (involution : stage.isInvolution = true) (element : Element) (target : Target) (widen : Bool)
    (plan : Plan) (compiled : stage.compile element target widen = .ok plan) (values : List Int)
    (room : values.length ≤ plan.lanes)
    (held : ∀ value ∈ values, (LaneType.narrow element).Holds value)
    (answered : ∀ lane partner, stage.used ≤ lane → lane < values.length →
      stage.partner lane = .ok partner → stage.partner partner = .ok lane) :
    ∃ results, plan.run (.narrow element) values = .ok results ∧ results.Perm values := by
  -- With the padding that is reached, all lanes that hold a value lead back.
  obtain ⟨shape, parts, _, serve, rfl⟩ := parts_of_compile valid compiled
  exact serve.run_perm room held (valid.mate_mate_below involution answered)

/-- A fourth word stands in padding that reads a used lane, and takes a copy of the word there. -/
theorem Stage.padding_not_rearranged :
    Stage.Valid ⟨[2, 1, 0, 2], 3⟩ ∧ Stage.isInvolution ⟨[2, 1, 0, 2], 3⟩ = true ∧
    ∃ plan, Stage.compile ⟨[2, 1, 0, 2], 3⟩ ⟨.b2, false⟩ (.ofTier .sse4) true = .ok plan ∧
      plan.run (.narrow ⟨.b2, false⟩) [9, 0, 1, 0] = .ok [1, 0, 9, 1] ∧
        ¬ [1, 0, 9, 1].Perm ([9, 0, 1, 0] : List Int) := by
  -- The plan is run by what its parts do, without looking into the register.
  have valid : Stage.Valid ⟨[2, 1, 0, 2], 3⟩ := by decide
  refine ⟨valid, by decide, _, rfl, ?_, by decide⟩
  obtain ⟨shape, parts, _, serve, plan⟩ := parts_of_compile valid
    (rfl : Stage.compile ⟨[2, 1, 0, 2], 3⟩ ⟨.b2, false⟩ (.ofTier .sse4) true = .ok _)
  have room : [9, 0, 1, 0].length ≤ parts.plan.lanes := by
    rw [← plan]
    decide
  -- The padding keeps the larger of its own word and that of the third lane, which keeps its copy.
  rw [plan]
  exact serve.runPadded_filled room (by decide) (LaneType.holds_maxValue _)

end SimdNetwork
