import SimdNetwork.Proofs.Plan.Cost

/-!
A plan is as cheap as any choice of a compare, a blend and a permute that the target can run, or
costs one more on qwords.
-/

namespace SimdNetwork

/-- The first member that passes a test is related to every later one that passes it. -/
theorem related_of_find? {α : Type} {list : List α} {related : α → α → Prop}
    (ordered : list.Pairwise related) {test : α → Bool} {first other : α}
    (found : list.find? test = some first) (listed : other ∈ list) (passes : test other = true) :
    other = first ∨ related first other := by
  -- The list is split at the first member, and the other one stands at it or behind it.
  obtain ⟨_, before, after, rfl, failed⟩ := List.find?_eq_some_iff_append.mp found
  rw [List.mem_append, List.mem_cons] at listed
  rcases listed with front | rfl | back
  · -- What stands before the first one fails the test.
    have fails := failed other front
    simp [passes] at fails
  · exact .inl rfl
  · have later := (List.pairwise_append.mp ordered).2.1
    exact .inr ((List.pairwise_cons.mp later).1 other back)

/-- A blend among those tried: a usable row of the table that expresses the stage's selector. -/
structure BlendChoice.Among (choice : BlendChoice) (target : Target) (shape : Shape)
    (stage : Stage) (width : Width) : Prop where
  /-- The row is one of the table. -/
  listed : choice.row ∈ blendTable shape width
  /-- The target can run it. -/
  usable : target.supports choice.row.requires = true
  /-- The row expresses the selector of the stage as this blend. -/
  encoded : choice.row.choice? stage width = .ok (some choice)

/-- A blend that expresses a stage in a register costs what its row's kind costs. -/
theorem BlendChoice.Among.cost_eq {choice : BlendChoice} {target : Target} {shape : Shape}
    {stage : Stage} {width : Width} (among : choice.Among target shape stage width)
    (full : stage.lanes = shape.lanes width) : choice.blend.cost = choice.row.kind.cost := by
  -- What a row of the table makes of a stage that fills the register is of the row's kind.
  obtain ⟨result, made, serves, _⟩ := (offersBlend_of_mem among.listed).answers full
  rw [among.encoded] at made
  have served := serves choice (Except.ok.inj made).symm
  rw [Blend.cost_eq_kind, served.kind_eq]

/-- A compare, a blend and a permute, chosen independently of each other. -/
structure Alternative where
  /-- The row that says how lanes are compared. -/
  compare : CompareRow
  /-- The blend with its row and its selector. -/
  blend : BlendChoice
  /-- The permute with its row. -/
  permute : PermuteChoice

namespace Alternative

/-- An alternative pays for two compares, for its blend and for its permute. -/
def cost (alternative : Alternative) : Nat :=
  2 * alternative.compare.compare.cost + alternative.blend.blend.cost +
    alternative.permute.permute.cost

/-- What makes a plan of a padded stage possible: every part is usable and expresses the stage. -/
structure Allowed (alternative : Alternative) (element : Element) (target : Target) (shape : Shape)
    (padded : Stage) (candidates : List Candidate) : Prop where
  /-- The compare is one of the table. -/
  compare_listed : alternative.compare ∈ compareTable shape element
  /-- The target can run the compare. -/
  compare_usable : target.supports alternative.compare.requires = true
  /-- The blend expresses the selector of the stage. -/
  blend : alternative.blend.Among target shape padded element.width
  /-- The permute encodes the route of a candidate. -/
  permute : alternative.permute.Among target shape candidates

end Alternative

section Serving

variable {stage : Stage} {element : Element} {target : Target} {widen : Bool} {shape : Shape}
variable {parts : Plan.Parts}

/-- No compare that the target can run is cheaper than that of a plan. -/
theorem Plan.Parts.Serve.compare_least (serve : parts.Serve stage element target widen shape)
    {row : CompareRow} (listed : row ∈ compareTable shape element)
    (usable : target.supports row.requires = true) :
    parts.lowering.compare.compare.cost ≤ row.compare.cost := by
  -- The compares are listed cheapest first, and the first usable one is taken.
  rcases related_of_find? (compareTable_ordered shape element) serve.resolved.compare_eq listed
    usable with rfl | cheaper
  · exact Nat.le_refl _
  · exact cheaper

/-- The blend of a plan is among those that the target can run for the stage. -/
theorem Plan.Parts.Serve.blend_among (serve : parts.Serve stage element target widen shape) :
    parts.blend.Among target shape parts.padded element.width := by
  -- It was found in the table, by a test that asks for just this.
  have first := List.find?_some serve.find?_blend
  rw [Bool.and_eq_true] at first
  obtain ⟨_, _, _, _, served⟩ := serve.blend
  exact ⟨List.mem_of_find?_eq_some serve.find?_blend, first.1, served.made⟩

/-- On lanes below qwords no blend that the target can run is cheaper than that of a plan. -/
theorem Plan.Parts.Serve.blend_least (serve : parts.Serve stage element target widen shape)
    (narrow : element.width ≠ .b8) {choice : BlendChoice}
    (among : choice.Among target shape parts.padded element.width) :
    parts.blend.blend.cost ≤ choice.blend.cost := by
  -- The other blend passes the test by which the plan's own was found.
  have passes : (target.supports choice.row.requires &&
      choice.row.expresses parts.padded element.width) = true := by
    rw [among.usable, BlendRow.expresses, among.encoded]
    rfl
  rw [serve.blend_cost, among.cost_eq (Stage.lanes_padTo serve.padded)]
  -- The blends of such lanes are listed cheapest first, and the first that fits is taken.
  rcases related_of_find? (blendTable_narrow_ordered shape narrow) serve.find?_blend among.listed
    passes with same | cheaper
  · exact Nat.le_of_eq (by rw [same])
  · exact cheaper

/-- Some blend is the cheapest that the target can run for the stage. -/
theorem Plan.Parts.Serve.exists_cheapest_blend
    (serve : parts.Serve stage element target widen shape) :
    ∃ cheapest : BlendChoice, cheapest.Among target shape parts.padded element.width ∧
      ∀ other : BlendChoice, other.Among target shape parts.padded element.width →
        cheapest.blend.cost ≤ other.blend.cost := by
  -- There are only two costs, so no search through the blends is needed.
  have bounds : ∀ blend : Blend, 1 ≤ blend.cost ∧ blend.cost ≤ 2 := by
    intro blend
    rw [Blend.cost_eq_kind]
    exact blend.kind.cost_bounds
  -- Blends cost one or two, so the plan's own is the cheapest unless there is one that costs one.
  by_cases cheap : ∃ choice : BlendChoice,
      choice.Among target shape parts.padded element.width ∧ choice.blend.cost = 1
  · obtain ⟨choice, among, one⟩ := cheap
    refine ⟨choice, among, ?_⟩
    intro other _
    have bound := bounds other.blend
    omega
  · refine ⟨parts.blend, serve.blend_among, ?_⟩
    intro other among
    have dear : other.blend.cost ≠ 1 := fun one => cheap ⟨other, among, one⟩
    have bound := bounds other.blend
    have ownBound := bounds parts.blend.blend
    omega

end Serving

/--
No alternative is cheaper than a plan, up to one on qwords.

The alternatives are all usable compares, all usable blends that express the stage's selector and
all usable permutes that encode the stage's route at the width of a candidate. On lanes below qwords
the plan costs as much as the cheapest of them, and on qwords at most one more, since there a mask
move is tried before a cheaper immediate.
-/
theorem Stage.cost_least_of_compile (stage : Stage) (element : Element) (target : Target)
    (widen : Bool) (plan : Plan) (valid : stage.Valid)
    (compiled : stage.compile element target widen = .ok plan) :
    ∃ (padded : Stage) (candidates : List Candidate) (cheapest : Alternative),
      stage.shapeFor element = .ok plan.shape ∧
      stage.padTo (plan.shape.lanes element.width) = .ok padded ∧
      padded.candidates element.width widen = .ok candidates ∧
      cheapest.Allowed element target plan.shape padded candidates ∧
      (∀ other : Alternative, other.Allowed element target plan.shape padded candidates →
        cheapest.cost ≤ other.cost) ∧
      (element.width ≠ .b8 → plan.cost = cheapest.cost) ∧
      (element.width = .b8 → cheapest.cost ≤ plan.cost ∧ plan.cost ≤ cheapest.cost + 1) := by
  -- The cheapest alternative is the plan's own parts with the cheapest blend.
  obtain ⟨shape, parts, found, serve, rfl⟩ := parts_of_compile valid compiled
  obtain ⟨blend, among, least⟩ := serve.exists_cheapest_blend
  have compareListed := List.mem_of_find?_eq_some serve.resolved.compare_eq
  have compareUsable := List.find?_some serve.resolved.compare_eq
  have cheaper := least parts.blend serve.blend_among
  have total : parts.plan.cost = parts.permute.permute.cost +
      2 * parts.lowering.compare.compare.cost + parts.blend.blend.cost := Plan.cost_eq _
  rw [serve.shape_plan]
  -- The plan's own compare and permute are the cheapest, so only the blend may be replaced.
  refine ⟨parts.padded, _, ⟨parts.lowering.compare, blend, parts.permute⟩, found, serve.padded,
    candidates_eq _ _ _, ?_, ?_, ?_, ?_⟩
  · exact ⟨compareListed, compareUsable, among,
      (among_iff_open fun _ => ofStage_reading).mpr serve.permute⟩
  · -- Part by part, no other alternative is cheaper.
    intro other allowed
    have compares := serve.compare_least allowed.compare_listed allowed.compare_usable
    have blends := least other.blend allowed.blend
    have permutes := serve.permute_least other.permute
      ((among_iff_open fun _ => ofStage_reading).mp allowed.permute)
    simp only [Alternative.cost]
    omega
  · intro narrow
    have dearer := serve.blend_least narrow among
    simp only [Alternative.cost]
    omega
  · -- Blends cost one or two, so no two of them are further apart than one.
    intro _
    have ownBound := parts.blend.blend.kind.cost_bounds
    have bound := blend.blend.kind.cost_bounds
    rw [← Blend.cost_eq_kind] at ownBound bound
    simp only [Alternative.cost]
    omega

/-- On two signed qwords the cheapest alternative blends by an immediate, and saves one. -/
theorem Stage.cost_least_of_compile_two_qwords :
    Stage.Valid ⟨[1, 0], 2⟩ ∧
    ∃ plan, Stage.compile ⟨[1, 0], 2⟩ ⟨.b8, true⟩ (.ofTier .avx512) true = .ok plan ∧
      ∃ cheapest : Alternative,
        cheapest.Allowed ⟨.b8, true⟩ (.ofTier .avx512) .xmm ⟨[1, 0], 2⟩
          [⟨.b8, ⟨[1, 0], 2⟩⟩] ∧ plan.cost = cheapest.cost + 1 := by
  -- The plan is computed, and one alternative is shown to be cheaper than it.
  have valid : Stage.Valid ⟨[1, 0], 2⟩ := by decide
  refine ⟨valid, _, rfl, ?_⟩
  obtain ⟨padded, candidates, cheapest, _, made, listed, allowed, least, _, within⟩ :=
    Stage.cost_least_of_compile ⟨[1, 0], 2⟩ ⟨.b8, true⟩ (.ofTier .avx512) true _ valid rfl
  cases made
  cases listed
  refine ⟨cheapest, allowed, ?_⟩
  -- The immediate blend makes an alternative that is cheaper than the plan.
  have saving : Alternative.Allowed
      ⟨⟨.native, .ofList [.avx512f, .avx512vl]⟩,
        ⟨dwordBlend .pair, .perPair 3 2, .dwords 3⟩,
        ⟨⟨.dwordImmediate, .b8, .ofList [.sse2]⟩, .dwords swapImmediate⟩⟩
      ⟨.b8, true⟩ (.ofTier .avx512) .xmm ⟨[1, 0], 2⟩ [⟨.b8, ⟨[1, 0], 2⟩⟩] :=
    ⟨by decide, by decide, ⟨by decide, by decide, rfl⟩, ⟨_, List.mem_cons_self, by decide,
      by decide, rfl⟩⟩
  have cheaper := least _ saving
  have bound := (within rfl).2
  exact Nat.le_antisymm bound (Nat.succ_le_succ cheaper)

end SimdNetwork
