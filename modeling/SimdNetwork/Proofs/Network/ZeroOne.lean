import Mathlib.Data.Int.ConditionallyCompleteOrder
import Mathlib.Data.Int.SuccPred
import Mathlib.Data.List.Basic
import SimdNetwork.Proofs.NetworkPlan

/-! A compiled network that brings all zeros and ones into order does so with every input. -/

namespace SimdNetwork

theorem Side.kept_map (side : Side) {relabel : Int → Int} (monotone : Monotone relabel)
    (own other : Int) :
    side.kept (relabel own) (relabel other) = relabel (side.kept own other) := by
  -- The smaller and the larger of two values are kept apart by no relabelling in order.
  cases side with
  | low => exact monotone.map_min.symm
  | high => exact monotone.map_max.symm

section Relabelling

variable {relabel : Int → Int} {values results : List Int}

/-- One stage: relabelling in order before the exchange is relabelling after it. -/
theorem Stage.Valid.exchange_map {stage : Stage} (valid : stage.Valid)
    (monotone : Monotone relabel) (count : values.length = stage.used)
    (exchanged : stage.exchange values = .ok results) :
    stage.exchange (values.map relabel) = .ok (results.map relabel) := by
  -- It is enough to follow a single lane, which looks at two of the values.
  have lanewise : ∀ lane ∈ List.range values.length,
      stage.exchangeLane (values.map relabel) lane =
        (stage.exchangeLane values lane).map relabel := by
    intro lane member
    obtain ⟨partner, own, other, paired, ownValue, otherValue⟩ :=
      valid.exists_pair count (count ▸ List.mem_range.mp member)
    -- The lane and its partner are relabelled where they stand.
    have ownMapped : (values.map relabel)[lane]? = some (relabel own) := by
      rw [List.getElem?_map, ownValue, Option.map_some]
    have otherMapped : (values.map relabel)[partner]? = some (relabel other) := by
      rw [List.getElem?_map, otherValue, Option.map_some]
    rw [exchangeLane_eq_ok paired ownValue otherValue,
      exchangeLane_eq_ok paired ownMapped otherMapped, Side.kept_map _ monotone]
    rfl
  rw [Stage.exchange, if_neg (by simp [count]), mapM_eq_ok] at exchanged
  rw [Stage.exchange, if_neg (by simp [count]), List.length_map, mapM_eq_ok,
    List.map_congr_left lanewise]
  -- Relabelling what each lane gives is relabelling the list of what all lanes give.
  calc (List.range values.length).map (fun lane => (stage.exchangeLane values lane).map relabel)
      = ((List.range values.length).map (stage.exchangeLane values)).map (Except.map relabel) := by
        rw [List.map_map]
        rfl
    _ = (results.map Except.ok).map (Except.map relabel) := by rw [exchanged]
    _ = (results.map relabel).map Except.ok := by
        rw [List.map_map, List.map_map]
        rfl

/-- All stages: relabelling in order before a run is relabelling after it. -/
theorem foldlM_exchange_map {size : Nat} {stages : List Stage}
    (suits : ∀ stage ∈ stages, stage.Suits size) (monotone : Monotone relabel)
    (count : values.length = size)
    (exchanged : stages.foldlM (fun current stage => stage.exchange current) values =
      .ok results) :
    stages.foldlM (fun current stage => stage.exchange current) (values.map relabel) =
      .ok (results.map relabel) := by
  -- The next stage meets values that are relabelled in the same way, and as many of them.
  induction stages generalizing values with
  | nil =>
    cases exchanged
    rfl
  | cons stage rest ih =>
    rw [List.forall_mem_cons] at suits
    rw [List.foldlM_cons] at exchanged ⊢
    obtain ⟨next, first, later⟩ := bind_eq_ok.mp exchanged
    have used : values.length = stage.used := count.trans suits.1.used_eq.symm
    -- An exchange gives as many values as it takes.
    obtain ⟨same, again, sameLength, _⟩ := suits.1.valid.exists_exchange used
    obtain rfl : same = next := Except.ok.inj (again.symm.trans first)
    rw [suits.1.valid.exchange_map monotone used first, ok_bind]
    exact ih suits.2 (sameLength.trans count) later

end Relabelling

/-- One from the threshold on, and zero below it. -/
def mark (threshold value : Int) : Int := if threshold ≤ value then 1 else 0

theorem mark_monotone (threshold : Int) : Monotone (mark threshold) := by
  -- The mark changes at the threshold only, and upwards.
  intro smaller larger ordered
  by_cases reached : threshold ≤ smaller
  · -- A larger value has reached the threshold as well.
    rw [mark, mark, if_pos reached, if_pos (by omega)]
  · rw [mark, if_neg reached, mark]
    split
    · omega
    · omega

theorem mark_eq (threshold value : Int) : mark threshold value = 0 ∨ mark threshold value = 1 := by
  -- Every value has reached the threshold or not.
  rw [mark]
  split
  · exact .inr rfl
  · exact .inl rfl

/-- Values ascend as soon as their marks do, whatever the threshold. -/
theorem pairwise_of_marks {values : List Int}
    (ascending : ∀ threshold, (values.map (mark threshold)).Pairwise (· ≤ ·)) :
    values.Pairwise (· ≤ ·) := by
  -- Were a later value less than an earlier one, some threshold would lie between them.
  rw [List.pairwise_iff_getElem]
  intro earlier later earlierInside laterInside before
  -- The earlier value is taken as the threshold, so it is marked itself.
  have marks := List.pairwise_iff_getElem.mp (ascending values[earlier]) earlier later
    (by simpa using earlierInside) (by simpa using laterInside) before
  rw [List.getElem_map, List.getElem_map] at marks
  by_cases ordered : values[earlier] ≤ values[later]
  · exact ordered
  · rw [mark, mark, if_pos (Int.le_refl _), if_neg ordered] at marks
    omega

/-- The plan runs on the values, and they come out in non-decreasing order. -/
def NetworkPlan.Ascends (plan : NetworkPlan) (values : List Int) : Prop :=
  ∃ results, plan.run (.narrow plan.element) values = .ok results ∧ results.Pairwise (· ≤ ·)

namespace Network

variable {network : Network} {element : Element} {target : Target} {widen : Bool}
variable {plan : NetworkPlan} {values : List Int}

/-- Whether values ascend can be read off the network itself. -/
theorem Built.ascends_iff (built : network.Built)
    (compiled : network.compile element target widen = .ok plan)
    (admits : Admits network.size element values) :
    plan.Ascends values ↔
      ∃ results, network.exchange values = .ok results ∧ results.Pairwise (· ≤ ·) := by
  -- The plan and the network end with the same values.
  obtain ⟨results, ran, exchanged⟩ := built.exists_run compiled admits
  obtain ⟨_, _, rfl⟩ := compile_eq_ok.mp compiled
  rw [NetworkPlan.Ascends, ran, exchanged]

/--
A plan puts every input into non-decreasing order just when it does so with zeros and ones.

Every stage commutes with every relabelling of the values that keeps their order, and hence so does
a run of any depth. No stage has to be an involution for it.
-/
theorem ascends_iff_bits_ascend (network : Network) (element : Element) (target : Target)
    (widen : Bool) (plan : NetworkPlan) (built : network.Built)
    (compiled : network.compile element target widen = .ok plan) :
    (∀ bits : List Int, bits.length = network.size → (∀ bit ∈ bits, bit = 0 ∨ bit = 1) →
      plan.Ascends bits) ↔
    ∀ values : List Int, values.length = network.size →
      (∀ value ∈ values, (LaneType.narrow element).Holds value) → plan.Ascends values := by
  -- Zeros and ones are values of every type, so only one direction needs an argument.
  constructor
  · intro bitsAscend values count held
    rw [built.ascends_iff compiled ⟨count, held⟩]
    obtain ⟨results, _, exchanged⟩ := built.exists_run compiled ⟨count, held⟩
    refine ⟨results, exchanged, pairwise_of_marks fun threshold => ?_⟩
    -- The marks of the input are zeros and ones, and their run ends with the marks of the results.
    have length : (values.map (mark threshold)).length = network.size := by
      rw [List.length_map]
      exact count
    have bits : ∀ bit ∈ values.map (mark threshold), bit = 0 ∨ bit = 1 := by
      intro bit member
      obtain ⟨value, _, rfl⟩ := List.mem_map.mp member
      exact mark_eq threshold value
    have marked : network.exchange (values.map (mark threshold)) =
        .ok (results.map (mark threshold)) :=
      foldlM_exchange_map built.suits (mark_monotone threshold) count exchanged
    obtain ⟨ends, run, ascending⟩ := (built.ascends_iff compiled
      ⟨length, fun bit member => LaneType.holds_of_isBit _ (bits bit member)⟩).mp
        (bitsAscend _ length bits)
    obtain rfl : ends = results.map (mark threshold) := Except.ok.inj (run.symm.trans marked)
    exact ascending
  · intro valuesAscend bits count isBit
    exact valuesAscend bits count fun bit member => LaneType.holds_of_isBit _ (isBit bit member)

/-- Two rounds of a cycle of three lanes put all signed bytes into order, though they lose some. -/
theorem ascends_iff_bits_ascend_cycle :
    Network.Built ⟨3, [⟨[1, 2, 0], 3⟩, ⟨[1, 2, 0], 3⟩]⟩ ∧
    ∃ plan, Network.compile ⟨3, [⟨[1, 2, 0], 3⟩, ⟨[1, 2, 0], 3⟩]⟩ ⟨.b1, true⟩ (.ofTier .sse4)
        true = .ok plan ∧
      (∀ bits : List Int, bits.length = 3 → (∀ bit ∈ bits, bit = 0 ∨ bit = 1) →
        plan.Ascends bits) ∧
        plan.Ascends [127, -128, 5] := by
  -- That the plan puts zeros and ones into order is shown by running the network on them.
  have built : Network.Built ⟨3, [⟨[1, 2, 0], 3⟩, ⟨[1, 2, 0], 3⟩]⟩ :=
    .fromStages (by decide) (by rfl : ofStages 3 [⟨[1, 2, 0], 3⟩, ⟨[1, 2, 0], 3⟩] = _)
  obtain ⟨plan, compiled⟩ : ∃ plan, Network.compile ⟨3, [⟨[1, 2, 0], 3⟩, ⟨[1, 2, 0], 3⟩]⟩
      ⟨.b1, true⟩ (.ofTier .sse4) true = .ok plan := ⟨_, rfl⟩
  have bitsAscend : ∀ bits : List Int, bits.length = 3 → (∀ bit ∈ bits, bit = 0 ∨ bit = 1) →
      plan.Ascends bits := by
    intro bits count isBit
    rw [built.ascends_iff compiled
      ⟨count, fun bit member => LaneType.holds_of_isBit _ (isBit bit member)⟩]
    -- The eight inputs are run through the network one by one.
    obtain ⟨first, second, third, rfl⟩ := List.length_eq_three.mp count
    simp only [List.forall_mem_cons] at isBit
    obtain ⟨rfl | rfl, rfl | rfl, rfl | rfl, _⟩ := isBit
    all_goals exact ⟨_, rfl, by decide⟩
  exact ⟨built, plan, compiled, bitsAscend, (ascends_iff_bits_ascend _ _ _ _ plan built compiled).mp
    bitsAscend [127, -128, 5] rfl (by decide)⟩

end Network

end SimdNetwork
