import SimdNetwork.Proofs.Plan.Compile

/-! More usable features never make a plan dearer. -/

namespace SimdNetwork

/-- The cost of all blends of a kind. -/
def BlendKind.cost : BlendKind → Nat
  | .maskMove | .byteVariable => 2
  | .wordImmediate | .dwordImmediate => 1

/-- A blend costs what its kind costs. -/
theorem Blend.cost_eq_kind (blend : Blend) : blend.cost = blend.kind.cost := by
  -- No operand has a say in what a blend costs.
  cases blend <;> rfl

/-- Every blend costs one or two. -/
theorem BlendKind.cost_bounds (kind : BlendKind) : 1 ≤ kind.cost ∧ kind.cost ≤ 2 := by
  -- The costs of the four kinds are looked at.
  cases kind <;> decide

/-- A plan pays for its permute, for two compares and for its blend. -/
theorem Plan.cost_eq (plan : Plan) :
    plan.cost = plan.permute.cost + 2 * plan.compare.cost + plan.blend.cost := by
  -- The four steps are added up, two of which compare.
  simp only [cost, steps, List.foldr_cons, List.foldr_nil, Operation.cost]
  omega

/-- A target can run a plan when it can permute, compare and blend as the plan does. -/
theorem Plan.supports_requires_iff {plan : Plan} {target : Target} :
    target.supports plan.requires = true ↔
      target.supports plan.permuteRequires = true ∧ target.supports plan.compareRequires = true ∧
        target.supports plan.blendRequires = true := by
  -- The union of all steps has a feature when a step has it, and two steps compare.
  have needs : ∀ feature, plan.requires.contains feature = true ↔
      plan.permuteRequires.contains feature = true ∨
        plan.compareRequires.contains feature = true ∨
          plan.blendRequires.contains feature = true := by
    intro feature
    simp [requires, steps, or_assoc]
  simp only [Target.supports, FeatureSet.covers_iff, needs, or_imp, forall_and]

/--
The first member that passes a test, and the first that passes another test which it passes too.

They are the same, or the second stands before the first and fails the first test.
-/
theorem find?_of_passes {α : Type} {list : List α} {related : α → α → Prop}
    (ordered : list.Pairwise related) {test otherTest : α → Bool} {first earlier : α}
    (found : list.find? test = some first) (passes : otherTest first = true)
    (otherFound : list.find? otherTest = some earlier) :
    earlier = first ∨ (related earlier first ∧ test earlier = false) := by
  -- Both searches skip the members that fail both tests.
  induction list with
  | nil => simp at found
  | cons head rest ih =>
    obtain ⟨before, later⟩ := List.pairwise_cons.mp ordered
    rw [List.find?_cons] at found otherFound
    cases own : test head with
    | true =>
      -- A head that passes the first test is the first member, which passes the other test too.
      simp only [own, Option.some.injEq] at found
      subst found
      simp only [passes, Option.some.injEq] at otherFound
      exact .inl otherFound.symm
    | false =>
      simp only [own] at found
      cases other : otherTest head with
      | true =>
        -- A head that passes only the other test stands before the first member.
        simp only [other, Option.some.injEq] at otherFound
        subst otherFound
        exact .inr ⟨before first (List.mem_of_find?_eq_some found), own⟩
      | false =>
        simp only [other] at otherFound
        exact ih later found otherFound

/-- The ways of comparing are listed cheapest first. -/
theorem compareTable_ordered (shape : Shape) (element : Element) :
    (compareTable shape element).Pairwise fun earlier later =>
      earlier.compare.cost ≤ later.compare.cost := by
  -- Where two ways are listed, the native one comes first.
  obtain ⟨width, signed⟩ := element
  cases shape <;> cases width <;> cases signed <;> simp [compareTable, wideCompares] <;> decide

/-- The blends of lanes below qwords are listed cheapest first. -/
theorem blendTable_narrow_ordered (shape : Shape) {width : Width} (narrow : width ≠ .b8) :
    (blendTable shape width).Pairwise fun earlier later =>
      earlier.kind.cost ≤ later.kind.cost := by
  -- An immediate costs one and stands before the mask moves and selector vectors, which cost two.
  cases width with
  | b1 => cases shape <;> simp [blendTable, narrowMaskMove, variableBlend, BlendKind.cost]
  | b2 =>
    cases shape <;> simp [blendTable, wordBlend, narrowMaskMove, variableBlend, BlendKind.cost]
  | b4 => cases shape <;> simp [blendTable, dwordBlend, wordBlend, wideMaskMove, BlendKind.cost]
  | b8 => contradiction

/--
The blends are listed cheapest first, but for those that come with a native compare.

Such a blend needs the same features as the native compare, and without these comparing costs more.
-/
theorem blendTable_ordered (shape : Shape) (element : Element) :
    (blendTable shape element.width).Pairwise fun earlier later =>
      earlier.kind.cost ≤ later.kind.cost ∨
        ∃ native rest, compareTable shape element = native :: rest ∧
          native.requires = earlier.requires ∧
            ∀ other ∈ rest, native.compare.cost < other.compare.cost := by
  -- Only the blends of qwords are not listed cheapest first.
  by_cases narrow : element.width ≠ .b8
  · exact (blendTable_narrow_ordered shape narrow).imp .inl
  · obtain ⟨width, signed⟩ := element
    obtain rfl : width = .b8 := Classical.not_not.mp narrow
    -- On qwords a mask move stands before a cheaper blend, and needs what the native compare needs.
    have masked : shape ≠ .zmm → ∃ native rest,
        compareTable shape ⟨.b8, signed⟩ = native :: rest ∧
          native.requires = (wideMaskMove shape).requires ∧
            ∀ other ∈ rest, native.compare.cost < other.compare.cost := by
      intro small
      cases shape with
      | xmm => exact ⟨_, _, rfl, rfl, by cases signed <;> decide⟩
      | ymm => exact ⟨_, _, rfl, rfl, by cases signed <;> decide⟩
      | zmm => contradiction
    cases shape with
    | xmm =>
      have first := masked (by decide)
      simp [blendTable, variableBlend, dwordBlend, BlendKind.cost, first]
    | ymm =>
      have first := masked (by decide)
      simp [blendTable, dwordBlend, first]
    | zmm => simp [blendTable]

/-- Whether a row expresses a stage. -/
def BlendRow.expresses (row : BlendRow) (stage : Stage) (width : Width) : Bool :=
  match row.choice? stage width with
  | .ok (some _) => true
  | _ => false

section Serving

variable {stage : Stage} {element : Element} {target : Target} {widen : Bool} {shape : Shape}
variable {parts : Plan.Parts}

/-- The blend that serves a stage is the first of the table that is usable and expresses it. -/
theorem Plan.Parts.Serve.find?_blend (serve : parts.Serve stage element target widen shape) :
    (blendTable shape element.width).find? (fun row =>
        target.supports row.requires && row.expresses parts.padded element.width) =
      some parts.blend.row := by
  -- The rows before it are usable but do not express the stage.
  obtain ⟨before, after, split, rejected, served⟩ := serve.blend
  have expressed : parts.blend.row.expresses parts.padded element.width = true := by
    rw [BlendRow.expresses, served.made]
  have skipped : before.find? (·.expresses parts.padded element.width) = none := by
    rw [List.find?_eq_none]
    intro row earlier
    simp [BlendRow.expresses, rejected row earlier]
  -- Looking through the usable rows is looking through the table for usable ones.
  have among : (target.blends shape element.width).find?
      (·.expresses parts.padded element.width) = some parts.blend.row := by
    rw [split, List.find?_append, skipped, Option.none_or, List.find?_cons, expressed]
  rw [Target.blends, List.find?_filter] at among
  simpa only [Bool.decide_and, Bool.decide_eq_true] using among

/-- The blend that serves a stage costs what its row's kind costs. -/
theorem Plan.Parts.Serve.blend_cost (serve : parts.Serve stage element target widen shape) :
    parts.blend.blend.cost = parts.blend.row.kind.cost := by
  -- The blend is of the kind of its row.
  obtain ⟨_, _, _, _, served⟩ := serve.blend
  rw [Blend.cost_eq_kind, served.kind_eq]

/-- A target can run the plans that are made for it. -/
theorem Plan.Parts.Serve.supports_requires (serve : parts.Serve stage element target widen shape) :
    target.supports parts.plan.requires = true := by
  obtain ⟨candidate, _, usable⟩ := serve.permute.offered
  have compareUsable := List.find?_some serve.resolved.compare_eq
  have blendUsable := List.find?_some serve.find?_blend
  rw [Bool.and_eq_true] at blendUsable
  -- Each part was looked for among the rows that the target can run.
  exact Plan.supports_requires_iff.mpr
    ⟨(List.mem_filter.mp usable).2, compareUsable, blendUsable.1⟩

end Serving

section Other

variable {stage : Stage} {element : Element} {target other : Target} {widen : Bool} {shape : Shape}
variable {parts better : Plan.Parts}
variable (serve : parts.Serve stage element target widen shape)
variable (otherServe : better.Serve stage element other widen shape)
variable (runs : other.supports parts.plan.requires = true)
include serve otherServe runs

/-- A target that can run a plan has the plan's permute to choose from. -/
theorem permute_cost_le : better.permute.permute.cost ≤ parts.permute.permute.cost := by
  -- The plan's permute is one of those among which the other target takes the cheapest.
  have least := otherServe.permute_least
  rw [otherServe.padded_eq serve] at least
  obtain ⟨⟨candidate, listed, usable⟩, encoded⟩ := serve.permute
  refine least _ ⟨⟨candidate, listed, ?_⟩, encoded⟩
  -- The row is one of the same table, and the other target can run it.
  rw [Target.permutes, List.mem_filter] at usable ⊢
  exact ⟨usable.1, (Plan.supports_requires_iff.mp runs).1⟩

/-- A target that can run a plan compares and blends at no higher cost than the plan. -/
theorem compare_blend_cost_le :
    2 * better.lowering.compare.compare.cost + better.blend.blend.cost ≤
      2 * parts.lowering.compare.compare.cost + parts.blend.blend.cost := by
  -- Both targets take the first rows they can use, so the other one takes no later rows.
  obtain ⟨_, compareRuns, blendRuns⟩ := Plan.supports_requires_iff.mp runs
  have ownBlend := serve.find?_blend
  have otherBlend := otherServe.find?_blend
  rw [otherServe.padded_eq serve] at otherBlend
  rw [serve.blend_cost, otherServe.blend_cost]
  -- The other target finds the same way of comparing, or one that is listed before it.
  have compares : better.lowering.compare.compare.cost ≤ parts.lowering.compare.compare.cost := by
    rcases find?_of_passes (compareTable_ordered shape element) serve.resolved.compare_eq
      compareRuns otherServe.resolved.compare_eq with equal | ⟨cheaper, _⟩
    · exact Nat.le_of_eq (by rw [equal])
    · exact cheaper
  -- The plan's blend expresses the stage, so the other target finds it or an earlier one.
  have blendUsable : (other.supports parts.blend.row.requires &&
      parts.blend.row.expresses parts.padded element.width) = true := by
    have expressed := List.find?_some ownBlend
    rw [Bool.and_eq_true] at expressed ⊢
    exact ⟨blendRuns, expressed.2⟩
  -- An earlier blend is no dearer, unless it is the mask move of qwords.
  rcases find?_of_passes (blendTable_ordered shape element) ownBlend blendUsable otherBlend with
    equal | ⟨cheaper | ⟨native, rest, listed, needs, dearer⟩, unusable⟩
  · rw [equal]
    omega
  · omega
  · -- The mask move came with the native compare, which the plan's own target does not have.
    have passed := List.find?_some otherBlend
    rw [Bool.and_eq_true] at passed
    have otherNative : other.supports native.requires = true := by
      rw [needs]
      exact passed.1
    have ownLacks : target.supports native.requires = false := by
      rw [needs]
      simpa [passed.2] using unusable
    have otherFound := otherServe.resolved.compare_eq
    have ownFound := serve.resolved.compare_eq
    rw [listed, List.find?_cons, otherNative] at otherFound
    rw [listed, List.find?_cons, ownLacks] at ownFound
    have saved := dearer _ (List.mem_of_find?_eq_some ownFound)
    obtain rfl : native = better.lowering.compare := Option.some.inj otherFound
    have otherBounds := better.blend.row.kind.cost_bounds
    have ownBounds := parts.blend.row.kind.cost_bounds
    omega

/-- A target that can run a plan compiles the stage at no higher cost than the plan. -/
theorem Plan.Parts.Serve.cost_le : better.plan.cost ≤ parts.plan.cost := by
  -- The permutes are compared by themselves, and the compares together with the blends.
  have permutes := permute_cost_le serve otherServe runs
  have others := compare_blend_cost_le serve otherServe runs
  rw [Plan.cost_eq, Plan.cost_eq]
  simp only [Plan.Parts.plan]
  omega

end Other

/-- More usable features keep a stage compiling, in the same register and at no higher cost. -/
theorem Stage.compile_mono (stage : Stage) (element : Element) (widen : Bool) (poor rich : Target)
    (plan : Plan) (valid : stage.Valid) (wider : rich.usable.covers poor.usable = true)
    (compiled : stage.compile element poor widen = .ok plan) :
    ∃ better, stage.compile element rich widen = .ok better ∧ better.shape = plan.shape ∧
      better.cost ≤ plan.cost := by
  -- The richer target has all that the plan needs, and its own plan is made from no dearer parts.
  obtain ⟨shape, parts, found, serve, rfl⟩ := parts_of_compile valid compiled
  obtain ⟨lowering, lowered⟩ := Target.resolve_mono wider serve.resolved
  obtain ⟨better, recompiled⟩ : ∃ better, stage.compile element rich widen = .ok better :=
    exists_compile valid found lowered
  obtain ⟨other, richParts, foundAgain, richServe, rfl⟩ := parts_of_compile valid recompiled
  obtain rfl : shape = other := Except.ok.inj (found.symm.trans foundAgain)
  refine ⟨richParts.plan, recompiled, ?_, ?_⟩
  · exact richServe.resolved.shape_eq.trans serve.resolved.shape_eq.symm
  · -- The richer target can run the plan too, and so it finds one that costs no more.
    exact serve.cost_le richServe (Target.supports_mono wider serve.supports_requires)

/-- On two signed qwords the richer target pays more for its blend and less for all steps. -/
theorem Stage.compile_mono_two_qwords :
    Stage.Valid ⟨[1, 0], 2⟩ ∧
    (Target.ofTier .avx512).usable.covers (Target.ofTier .avx2).usable = true ∧
    ∃ plan better, Stage.compile ⟨[1, 0], 2⟩ ⟨.b8, true⟩ (.ofTier .avx2) true = .ok plan ∧
      Stage.compile ⟨[1, 0], 2⟩ ⟨.b8, true⟩ (.ofTier .avx512) true = .ok better ∧
        plan.blend.cost < better.blend.cost ∧ better.shape = plan.shape ∧
          better.cost ≤ plan.cost := by
  -- Both plans are computed, and the richer target moves by a mask where the other blends.
  refine ⟨by decide, by decide, _, _, rfl, rfl, by decide, ?_⟩
  obtain ⟨better, compiled, shape, cost⟩ := Stage.compile_mono ⟨[1, 0], 2⟩ ⟨.b8, true⟩ true
    (.ofTier .avx2) (.ofTier .avx512) _ (by decide) (by decide) rfl
  cases compiled
  exact ⟨shape, cost⟩

end SimdNetwork
