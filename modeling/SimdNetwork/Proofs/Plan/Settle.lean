import SimdNetwork.Proofs.Plan.Run

/-!
A plan of an involution puts every pair into order, and running it again changes no used lane.
-/

namespace SimdNetwork

namespace Stage

variable {stage : Stage} {value : Nat → Int} {lane : Nat}

/-- Of a lane and its partner the later one does not hold less. -/
def Ordered (stage : Stage) (value : Nat → Int) (lane : Nat) : Prop :=
  value (min lane (stage.mate lane)) ≤ value (max lane (stage.mate lane))

/-- Whether a lane is in order with its partner depends on the values of these two alone. -/
theorem ordered_congr {other : Nat → Int} (own : value lane = other lane)
    (mates : value (stage.mate lane) = other (stage.mate lane)) :
    stage.Ordered value lane ↔ stage.Ordered other lane := by
  -- The earlier and the later of the two lanes are the two lanes.
  rw [Ordered, Ordered]
  rcases Nat.le_total lane (stage.mate lane) with before | after
  · rw [Nat.min_eq_left before, Nat.max_eq_right before, own, mates]
  · rw [Nat.min_eq_right after, Nat.max_eq_left after, own, mates]

/-- A lane that is in order with its partner keeps its value. -/
theorem outcome_of_ordered (ordered : stage.Ordered value lane) :
    stage.outcome value lane = value lane := by
  -- The lane keeps its side of the pair, and its own value is the one on that side.
  rw [Ordered] at ordered
  by_cases lower : lane < stage.mate lane
  · -- The earlier lane keeps the smaller value, which is its own.
    rw [Nat.min_eq_left (by omega), Nat.max_eq_right (by omega)] at ordered
    simp only [outcome, Side.ofPair, if_pos lower, Side.kept]
    omega
  · -- The later lane keeps the larger value, which is its own.
    rw [Nat.min_eq_right (by omega), Nat.max_eq_left (by omega)] at ordered
    simp only [outcome, Side.ofPair, if_neg lower, Side.kept]
    omega

/-- An exchange leaves partners that are paired with each other in order. -/
theorem ordered_outcome (back : stage.mate (stage.mate lane) = lane) :
    stage.Ordered (stage.outcome value) lane := by
  -- Both lanes look at the same two values, and keep one each.
  rw [Ordered]
  rcases Nat.lt_trichotomy lane (stage.mate lane) with before | alone | after
  · -- The partner is the later lane of the same pair, so it keeps the larger value.
    have later : ¬ stage.mate lane < lane := by omega
    rw [Nat.min_eq_left (by omega), Nat.max_eq_right (by omega)]
    simp only [outcome, back, Side.ofPair, if_pos before, if_neg later, Side.kept]
    omega
  · -- A lane without a partner is in order with itself.
    have same : min lane (stage.mate lane) = max lane (stage.mate lane) := by omega
    exact Int.le_of_eq (congrArg (stage.outcome value) same)
  · -- The partner is the earlier lane of the same pair, so it keeps the smaller value.
    have later : ¬ lane < stage.mate lane := by omega
    rw [Nat.min_eq_right (by omega), Nat.max_eq_left (by omega)]
    simp only [outcome, back, Side.ofPair, if_pos after, if_neg later, Side.kept]
    omega

section Filled

variable {values : List Int} {fill : Int}

/-- After an exchange of values and a fill, mutual partners are in order also with the fill. -/
theorem ordered_outcomes (back : stage.mate (stage.mate lane) = lane)
    (inside : lane < values.length) :
    stage.Ordered ((stage.outcomes values fill).getD · fill) lane := by
  -- The partner may lie behind the values, where it holds the fill.
  by_cases given : stage.mate lane < values.length
  · -- Both lanes of the pair hold results.
    have ordered : stage.Ordered (stage.outcome (values.getD · fill)) lane := ordered_outcome back
    refine (ordered_congr ?_ ?_).mpr ordered
    · rw [getD_outcomes, if_pos inside]
    · rw [getD_outcomes, if_pos given]
  · -- The partner lies behind the values, so the lane kept at most the fill.
    have beyond : values.length ≤ stage.mate lane := Nat.le_of_not_lt given
    have filled : values.getD (stage.mate lane) fill = fill := by
      rw [List.getD_eq_getElem?_getD, List.getElem?_eq_none beyond, Option.getD_none]
    rw [Ordered, Nat.min_eq_left (by omega), Nat.max_eq_right (by omega), getD_outcomes,
      getD_outcomes, if_pos inside, if_neg given, outcome, filled, Side.ofPair, if_pos (by omega)]
    exact Int.min_le_right _ _

/-- What one exchange left in mutual partners is left there by the next. -/
theorem outcomes_outcomes (back : lane < values.length → stage.mate (stage.mate lane) = lane) :
    (stage.outcomes (stage.outcomes values fill) fill)[lane]? =
      (stage.outcomes values fill)[lane]? := by
  -- What a lane holds after one run is in order, and so the next run keeps it.
  by_cases inside : lane < values.length
  · rw [getElem?_outcomes (by simpa using inside),
      outcome_of_ordered (ordered_outcomes (back inside) inside), getD_outcomes, if_pos inside,
      getElem?_outcomes inside]
  · -- Neither list reaches that far.
    rw [getElem?_outcomes_beyond (by simpa using inside), getElem?_outcomes_beyond inside]

/-- A lane that is its own partner is left alone. -/
theorem outcomes_alone (alone : stage.mate lane = lane) :
    (stage.outcomes values fill)[lane]? = values[lane]? := by
  -- Such a lane is compared with itself.
  by_cases inside : lane < values.length
  · rw [getElem?_outcomes inside, outcome_alone Int.max_self alone, List.getD_eq_getElem?_getD,
      List.getElem?_eq_getElem inside, Option.getD_some]
  · rw [getElem?_outcomes_beyond inside, List.getElem?_eq_none (Nat.le_of_not_lt inside)]

/-- Mutual partners end in order. -/
theorem outcomes_ordered (back : stage.mate (stage.mate lane) = lane) {low high : Int}
    (lower : (stage.outcomes values fill)[min lane (stage.mate lane)]? = some low)
    (upper : (stage.outcomes values fill)[max lane (stage.mate lane)]? = some high) :
    low ≤ high := by
  -- Both of the places are in the list, so the outcomes of the two lanes are compared.
  obtain ⟨lowerInside, _⟩ := List.getElem?_eq_some_iff.mp lower
  obtain ⟨upperInside, _⟩ := List.getElem?_eq_some_iff.mp upper
  rw [length_outcomes] at lowerInside upperInside
  rw [getElem?_outcomes lowerInside, Option.some.injEq] at lower
  rw [getElem?_outcomes upperInside, Option.some.injEq] at upper
  rw [← lower, ← upper]
  exact ordered_outcome back

end Filled

/-- Of mutual partners the earlier lane is the low one and the later lane the high one. -/
theorem Valid.sides_of_mates (valid : stage.Valid) (inside : lane < stage.used)
    (back : stage.mate (stage.mate lane) = lane) (apart : stage.mate lane ≠ lane) :
    stage.side (min lane (stage.mate lane)) = .ok .low ∧
      stage.side (max lane (stage.mate lane)) = .ok .high := by
  -- Which lane is the earlier one decides both sides.
  have room := valid.used_le
  have mateInside := valid.mate_lt inside
  -- Each of the two lanes has the other one as its partner.
  have own := side_eq_ok (show lane < stage.lanes by omega)
  have other := side_eq_ok (show stage.mate lane < stage.lanes by omega)
  rw [back] at other
  rcases Nat.lt_or_gt_of_ne apart with after | before
  · rw [Nat.min_eq_right (by omega), Nat.max_eq_left (by omega), own, other, Side.ofPair,
      Side.ofPair, if_pos after, if_neg (by omega)]
    exact ⟨rfl, rfl⟩
  · rw [Nat.min_eq_left (by omega), Nat.max_eq_right (by omega), own, other, Side.ofPair,
      Side.ofPair, if_pos before, if_neg (by omega)]
    exact ⟨rfl, rfl⟩

end Stage

section Runs

variable {parts : Plan.Parts} {stage : Stage} {element : Element} {target : Target} {widen : Bool}
variable {shape : Shape} {values : List Int} {fill : Int}

/-- What a plan gives can be given to it again, whatever lanes the values reach into. -/
theorem Plan.Parts.Serve.runPadded_twice (serve : parts.Serve stage element target widen shape)
    (room : values.length ≤ parts.plan.lanes)
    (held : ∀ value ∈ values, (LaneType.narrow element).Holds value)
    (fillHeld : (LaneType.narrow element).Holds fill) :
    parts.plan.runPadded (.narrow element) values fill = .ok (stage.outcomes values fill) ∧
      parts.plan.runPadded (.narrow element) (stage.outcomes values fill) fill =
        .ok (stage.outcomes (stage.outcomes values fill) fill) := by
  -- A lane keeps a value that was there, or the fill, so the results are of the type again.
  have resultsHeld : ∀ result ∈ stage.outcomes values fill,
      (LaneType.narrow element).Holds result := by
    intro result member
    obtain ⟨lane, _, rfl⟩ := List.mem_map.mp member
    have fits := LaneType.holds_getD held fillHeld
    rcases (Side.ofPair lane (stage.mate lane)).kept_eq (values.getD lane fill)
      (values.getD (stage.mate lane) fill) with same | same
    · rw [Stage.outcome, same]
      exact fits lane
    · rw [Stage.outcome, same]
      exact fits _
  exact ⟨serve.runPadded_filled room held fillHeld,
    serve.runPadded_filled (by rwa [Stage.length_outcomes]) resultsHeld fillHeld⟩

end Runs

/--
A plan of an involution settles every pair.

The earlier lane of a pair is the low one and the later lane the high one. One run of any plan puts
the pair into order and leaves lanes without a partner alone, and a second run changes none of the
used lanes, since a pair in order is left as it is. It changes nothing at all unless there are more
values than used lanes, and they reach padding that is not the partner of its partner.
-/
theorem Stage.settles_of_isInvolution (stage : Stage) (valid : stage.Valid)
    (involution : stage.isInvolution = true) :
    (∀ lane partner, lane < stage.used → stage.partner lane = .ok partner → partner ≠ lane →
      stage.side (min lane partner) = .ok .low ∧ stage.side (max lane partner) = .ok .high) ∧
    ∀ (element : Element) (target : Target) (widen : Bool) (plan : Plan),
      stage.compile element target widen = .ok plan →
        ∀ values : List Int, values.length ≤ plan.lanes →
          (∀ value ∈ values, (LaneType.narrow element).Holds value) →
            ∃ results again, plan.run (.narrow element) values = .ok results ∧
              plan.run (.narrow element) results = .ok again ∧
              results.length = values.length ∧
              (∀ lane partner, lane < stage.used → stage.partner lane = .ok partner →
                ∀ low high, results[min lane partner]? = some low →
                  results[max lane partner]? = some high → low ≤ high) ∧
              (∀ lane < stage.used, stage.partner lane = .ok lane →
                results[lane]? = values[lane]?) ∧
              (∀ lane < stage.used, again[lane]? = results[lane]?) ∧
              ((∀ lane partner, stage.used ≤ lane → lane < values.length →
                stage.partner lane = .ok partner → stage.partner partner = .ok lane) →
                  again = results) := by
  -- All is said of partners that are listed, and proved of mates, which every lane has.
  have back := valid.isInvolution_iff.mp involution
  have usedLanes := valid.used_le
  have mates : ∀ lane partner, lane < stage.used → stage.partner lane = .ok partner →
      partner = stage.mate lane := by
    intro lane partner inside paired
    rw [partner_eq_ok (by omega)] at paired
    exact (Except.ok.inj paired).symm
  constructor
  · intro lane partner inside paired apart
    obtain rfl := mates lane partner inside paired
    exact valid.sides_of_mates inside (back lane inside) apart
  -- The two runs are followed on the outcomes of the stage, which no plan shows in.
  intro element target widen plan compiled values room held
  obtain ⟨shape, parts, _, serve, rfl⟩ := parts_of_compile valid compiled
  obtain ⟨first, second⟩ := serve.runPadded_twice room held
    (LaneType.holds_maxValue (.narrow element))
  refine ⟨_, _, first, second, length_outcomes, ?_, ?_, ?_, ?_⟩
  · intro lane partner used paired low high lower upper
    rw [mates lane partner used paired] at lower upper
    exact outcomes_ordered (back lane used) lower upper
  · intro lane used paired
    exact outcomes_alone (mates lane lane used paired).symm
  · intro lane used
    exact outcomes_outcomes fun _ => back lane used
  · -- Where the values reach only mutual partners, each of them is left alone.
    intro answered
    apply List.ext_getElem?
    intro lane
    exact outcomes_outcomes (valid.mate_mate_below involution answered lane)

/-- A swap and a lone lane settle three words, with padding that reads a used lane. -/
theorem Stage.settles_of_isInvolution_three_words :
    Stage.Valid ⟨[2, 1, 0, 0], 3⟩ ∧ Stage.isInvolution ⟨[2, 1, 0, 0], 3⟩ = true ∧
    Stage.side ⟨[2, 1, 0, 0], 3⟩ 0 = .ok .low ∧ Stage.side ⟨[2, 1, 0, 0], 3⟩ 2 = .ok .high ∧
    ∃ plan, Stage.compile ⟨[2, 1, 0, 0], 3⟩ ⟨.b2, true⟩ (.ofTier .avx2) true = .ok plan ∧
      ∃ results, plan.run (.narrow ⟨.b2, true⟩) [32767, -1, -32768] = .ok results ∧
        plan.run (.narrow ⟨.b2, true⟩) results = .ok results ∧ results[1]? = some (-1) := by
  -- The values do not reach into padding, so all of them are settled.
  have valid : Stage.Valid ⟨[2, 1, 0, 0], 3⟩ := by decide
  obtain ⟨sides, settles⟩ := Stage.settles_of_isInvolution ⟨[2, 1, 0, 0], 3⟩ valid (by decide)
  obtain ⟨low, high⟩ := sides 0 2 (by decide) rfl (by decide)
  refine ⟨valid, by decide, low, high, _, rfl, ?_⟩
  obtain ⟨results, again, ran, ranAgain, _, _, alone, _, settled⟩ := settles ⟨.b2, true⟩
    (.ofTier .avx2) true _ rfl [32767, -1, -32768] (by decide) (by decide)
  obtain rfl := settled fun lane partner beyond inside => absurd inside (Nat.not_lt.mpr beyond)
  exact ⟨_, ran, ranAgain, alone 1 (by decide) rfl⟩

/-- A fourth word stands in padding that reads a used lane, and only the second run settles it. -/
theorem Stage.padding_unsettled :
    Stage.Valid ⟨[2, 1, 0, 2], 3⟩ ∧ Stage.isInvolution ⟨[2, 1, 0, 2], 3⟩ = true ∧
    ∃ plan, Stage.compile ⟨[2, 1, 0, 2], 3⟩ ⟨.b2, false⟩ (.ofTier .sse4) true = .ok plan ∧
      plan.run (.narrow ⟨.b2, false⟩) [9, 0, 1, 0] = .ok [1, 0, 9, 1] ∧
        plan.run (.narrow ⟨.b2, false⟩) [1, 0, 9, 1] = .ok [1, 0, 9, 9] := by
  -- The plan is run twice by what its parts do, without looking into the register.
  have valid : Stage.Valid ⟨[2, 1, 0, 2], 3⟩ := by decide
  refine ⟨valid, by decide, _, rfl, ?_⟩
  obtain ⟨shape, parts, _, serve, plan⟩ := parts_of_compile valid
    (rfl : Stage.compile ⟨[2, 1, 0, 2], 3⟩ ⟨.b2, false⟩ (.ofTier .sse4) true = .ok _)
  have room : [9, 0, 1, 0].length ≤ parts.plan.lanes := by
    rw [← plan]
    decide
  -- The padding keeps the larger of its own word and what the third lane held before the run.
  rw [plan]
  exact serve.runPadded_twice room (by decide) (LaneType.holds_maxValue _)

end SimdNetwork
