import Mathlib.Data.List.Nodup
import Mathlib.Order.MinMax
import SimdNetwork.Proofs.Permute.Realise
import SimdNetwork.Proofs.Plan.Cost
import SimdNetwork.Proofs.Plan.Preference

/-! What a plan says it needs is what it does need. -/

namespace SimdNetwork

namespace Tier

/-- Tiers are told apart by their ranks. -/
theorem rank_injective : Function.Injective rank := by
  -- No two of the three ranks are the same.
  intro left right same
  cases left <;> cases right <;> trivial

/-- Tiers are ordered as their ranks are. -/
instance : LinearOrder Tier := LinearOrder.lift' rank rank_injective

/-- The highest of several tiers is within another when all of them are. -/
theorem foldl_max_le_iff (tiers : List Tier) (first tier : Tier) :
    tiers.foldl max first ≤ tier ↔ first ≤ tier ∧ ∀ other ∈ tiers, other ≤ tier := by
  -- The highest so far takes the next tier in, so the start stays quantified over.
  induction tiers generalizing first with
  | nil => simp
  | cons next rest ih => rw [List.foldl_cons, ih, max_le_iff, List.forall_mem_cons, and_assoc]

end Tier

namespace FeatureSet

/-- The tier of a set is the lowest that provides all its members. -/
theorem minimumTier_le_iff (set : FeatureSet) (tier : Tier) :
    set.minimumTier ≤ tier ↔ tier.features.covers set = true := by
  -- The set's tier is the highest among the tiers of its members.
  rw [minimumTier, Tier.foldl_max_le_iff, covers_iff]
  have lowest : Tier.sse4 ≤ tier := Nat.zero_le _
  -- A tier provides the features whose own tier it includes.
  simp [lowest, Tier.features]

/-- A set that covers another needs at least its tier. -/
theorem minimumTier_mono {set part : FeatureSet} (covered : set.covers part = true) :
    part.minimumTier ≤ set.minimumTier := by
  -- The tier of the larger set provides all of it, and so all of the smaller one.
  have provided := (minimumTier_le_iff set set.minimumTier).mp (le_refl _)
  rw [minimumTier_le_iff, covers_iff]
  rw [covers_iff] at covered provided
  exact fun feature held => provided feature (covered feature held)

end FeatureSet

namespace Target

/-- The target of a tier can use just what the tier provides. -/
theorem usable_ofTier (tier : Tier) : (ofTier tier).usable = tier.features := by
  -- All that is present is allowed, since both ask for the same tier.
  ext feature
  exact Bool.and_self _

/-- What a target supports is within its declared tier. -/
theorem minimumTier_le_of_supports {target : Target} {needed : FeatureSet}
    (supported : target.supports needed = true) : needed.minimumTier ≤ target.tier := by
  -- A feature is usable only when the declared tier allows it.
  rw [FeatureSet.minimumTier_le_iff, FeatureSet.covers_iff]
  rw [supports, FeatureSet.covers_iff] at supported
  intro feature held
  have allowed := ((contains_usable target feature).mp (supported feature held)).2
  exact decide_eq_true allowed

/-- The target of a tier can be lowered to in every register that the tier provides. -/
theorem exists_resolve_ofTier (shape : Shape) (element : Element) {tier : Tier}
    (provided : shape.requires.minimumTier ≤ tier) :
    ∃ lowering, (ofTier tier).resolve shape element = .ok lowering := by
  -- The lowest tier that has the register can be lowered to for every element type.
  obtain ⟨lowering, lowest⟩ : ∃ lowering,
      (ofTier shape.requires.minimumTier).resolve shape element = .ok lowering := by
    obtain ⟨width, signed⟩ := element
    cases shape <;> cases width <;> cases signed <;> exact ⟨_, rfl⟩
  -- Higher tiers only add features, and these never take a lowering away.
  refine resolve_mono ?_ (resolved_of_resolve lowest)
  rw [usable_ofTier, usable_ofTier, FeatureSet.covers_iff]
  intro feature held
  exact decide_eq_true (le_trans (of_decide_eq_true held) provided)

end Target

/-- Every way of comparing in a register needs at least the tier that has the register. -/
theorem tier_le_of_mem_compareTable {shape : Shape} {element : Element} {row : CompareRow}
    (listed : row ∈ compareTable shape element) :
    shape.requires.minimumTier ≤ row.requires.minimumTier := by
  -- Every table of compares is looked through.
  revert row
  obtain ⟨width, signed⟩ := element
  cases shape <;> cases width <;> cases signed <;> decide

/-- A requirement is that of the only row of a table with the given mark. -/
def IsListed {Row Mark : Type} (table : List Row) (mark : Row → Mark)
    (requires : Row → FeatureSet) (own : Mark) (needed : FeatureSet) : Prop :=
  ∃ row ∈ table, mark row = own ∧ requires row = needed ∧
    ∀ other ∈ table, mark other = own → other = row

/-- A step of a plan needs what the row of its kind needs, in the table that it was taken from. -/
def Step.IsListed (step : Step) (plan : Plan) : Prop :=
  match step.operation with
  | .permute permute => SimdNetwork.IsListed (permuteTable plan.shape plan.permuteUnit)
      PermuteRow.kind PermuteRow.requires permute.kind step.requires
  | .minimum compare | .maximum compare => SimdNetwork.IsListed
      (compareTable plan.shape plan.element) CompareRow.compare CompareRow.requires compare
      step.requires
  | .blend blend => SimdNetwork.IsListed (blendTable plan.shape plan.element.width)
      BlendRow.kind BlendRow.requires blend.kind step.requires

/-- Where no two rows of a table have one mark, the mark tells what a row needs. -/
theorem isListed_of_mem {Row Mark : Type} {table : List Row} {mark : Row → Mark} {row : Row}
    (distinct : (table.map mark).Nodup) (listed : row ∈ table) (requires : Row → FeatureSet) :
    IsListed table mark requires (mark row) (requires row) := by
  -- Another row of the same mark would be a second one in the table.
  refine ⟨row, listed, rfl, rfl, ?_⟩
  intro other otherListed same
  exact List.inj_on_of_nodup_map distinct otherListed listed same

/-- There is at most one native and one emulated compare in a table. -/
theorem nodup_compares (shape : Shape) (element : Element) :
    ((compareTable shape element).map CompareRow.compare).Nodup := by
  -- Every table of compares is looked through.
  obtain ⟨width, signed⟩ := element
  cases shape <;> cases width <;> cases signed <;> decide

/-- There is at most one blend of every kind in a table. -/
theorem nodup_blendKinds (shape : Shape) (width : Width) :
    ((blendTable shape width).map BlendRow.kind).Nodup := by
  -- Every table of blends is looked through.
  cases shape <;> cases width <;> decide

section Serving

variable {stage : Stage} {element : Element} {target : Target} {widen : Bool} {shape : Shape}
variable {parts : Plan.Parts}

/-- The permute of a plan is of the kind and the unit of its row. -/
theorem Plan.Parts.Serve.permute_row (serve : parts.Serve stage element target widen shape) :
    parts.permute.permute.kind = parts.permute.row.kind ∧
      parts.permute.row ∈ permuteTable shape parts.permute.row.unit := by
  -- The permute was encoded for the kind of the row.
  have fits := Route.fits_ofStage serve.valid (Stage.lanes_padTo serve.padded)
  refine ⟨(Permute.kind_of_encode fits serve.permute.encoded).1, ?_⟩
  -- A table holds rows of its own unit, whichever candidate it was looked up for.
  obtain ⟨candidate, _, usable⟩ := serve.permute.offered
  have listed := (List.mem_filter.mp usable).1
  rw [(offered_of_mem listed).unit_eq]
  exact listed

/-- Every step of a plan is charged with the row it was taken from. -/
theorem Plan.Parts.Serve.isListed (serve : parts.Serve stage element target widen shape) :
    ∀ step ∈ parts.plan.steps, step.IsListed parts.plan := by
  -- Each of the three parts was taken from a table without repeated kinds.
  obtain ⟨permuteKind, permuteListed⟩ := serve.permute_row
  obtain ⟨_, _, _, _, served⟩ := serve.blend
  have permute := isListed_of_mem (nodup_permuteKinds _ _) permuteListed PermuteRow.requires
  have compare := isListed_of_mem (nodup_compares shape element)
    (List.mem_of_find?_eq_some serve.resolved.compare_eq) CompareRow.requires
  have blend := isListed_of_mem (nodup_blendKinds shape element.width)
    (List.mem_of_find?_eq_some serve.find?_blend) BlendRow.requires
  -- The permute and the blend are of the kinds of their rows, and the compare is its row's own.
  rw [← permuteKind, ← serve.shape_plan] at permute
  rw [← serve.shape_plan, ← serve.resolved.element_eq] at compare
  rw [← served.kind_eq, ← serve.shape_plan, ← serve.resolved.element_eq] at blend
  simp only [Plan.steps, List.forall_mem_cons]
  exact ⟨permute, compare, compare, blend, by simp⟩

/-- A plan needs at least the tier that has its register. -/
theorem Plan.Parts.Serve.tier_le (serve : parts.Serve stage element target widen shape) :
    shape.requires.minimumTier ≤ parts.plan.tier := by
  -- The compare was listed for the register of the plan.
  have listed := List.mem_of_find?_eq_some serve.resolved.compare_eq
  -- The compare alone needs that tier, and the plan needs what the compare needs.
  refine le_trans (tier_le_of_mem_compareTable listed) (FeatureSet.minimumTier_mono ?_)
  rw [FeatureSet.covers_iff]
  intro feature needed
  simp [Plan.requires, Plan.steps, Plan.Parts.plan, needed]

end Serving

/--
What a plan reports to need is right, step by step and as a whole.

Every step needs what the only row of its kind in the step's table needs. The target supports all of
it, so the plan's tier is within the declared one, and that tier and those above it are just the
tiers that provide it. The target that has the features of the plan's tier compiles the stage as
well, at no higher cost.
-/
theorem Stage.requires_of_compile (stage : Stage) (element : Element) (target : Target)
    (widen : Bool) (plan : Plan) (valid : stage.Valid)
    (compiled : stage.compile element target widen = .ok plan) :
    (∀ step ∈ plan.steps, step.IsListed plan) ∧
    target.supports plan.requires = true ∧
    plan.tier ≤ target.tier ∧
    (∀ tier : Tier, tier.features.covers plan.requires = true ↔ plan.tier ≤ tier) ∧
    ∃ again, stage.compile element (.ofTier plan.tier) widen = .ok again ∧
      again.cost ≤ plan.cost := by
  -- The rows, the target and the tiers are settled before the stage is compiled again.
  obtain ⟨shape, parts, found, serve, rfl⟩ := parts_of_compile valid compiled
  have supported := serve.supports_requires
  refine ⟨serve.isListed, supported, Target.minimumTier_le_of_supports supported,
    fun tier => (FeatureSet.minimumTier_le_iff _ tier).symm, ?_⟩
  -- The plan's tier has the register, and so a lowering for it.
  obtain ⟨lowering, lowered⟩ := Target.exists_resolve_ofTier shape element serve.tier_le
  obtain ⟨again, recompiled⟩ :
      ∃ again, stage.compile element (.ofTier parts.plan.tier) widen = .ok again :=
    exists_compile valid found lowered
  refine ⟨again, recompiled, ?_⟩
  obtain ⟨other, otherParts, foundAgain, otherServe, rfl⟩ := parts_of_compile valid recompiled
  obtain rfl : shape = other := Except.ok.inj (found.symm.trans foundAgain)
  -- It provides what the plan needs, so each part of the plan is there to choose from.
  refine serve.cost_le otherServe ?_
  rw [Target.supports, Target.usable_ofTier, ← FeatureSet.minimumTier_le_iff]
  exact le_refl parts.plan.tier

/-- Seventeen bytes need the highest tier for their blend, and with all of it get cheaper. -/
theorem Stage.requires_of_compile_seventeen_bytes :
    Stage.Valid ⟨[16, 1, 2, 3, 4, 5, 6, 7, 8, 9, 10, 11, 12, 13, 14, 15, 0], 17⟩ ∧
    ∃ plan again,
      Stage.compile ⟨[16, 1, 2, 3, 4, 5, 6, 7, 8, 9, 10, 11, 12, 13, 14, 15, 0], 17⟩ ⟨.b1, false⟩
        ((Target.ofTier .avx512).erase .avx512vbmi) true = .ok plan ∧
      plan.tier = .avx512 ∧ (∀ step ∈ plan.steps, step.IsListed plan) ∧
      (Tier.features .avx2).covers plan.requires = false ∧
      Stage.compile ⟨[16, 1, 2, 3, 4, 5, 6, 7, 8, 9, 10, 11, 12, 13, 14, 15, 0], 17⟩ ⟨.b1, false⟩
        (.ofTier .avx512) true = .ok again ∧ again.cost < plan.cost := by
  -- Both plans are computed, and the tiers below are ruled out by the theorem.
  have valid : Stage.Valid ⟨[16, 1, 2, 3, 4, 5, 6, 7, 8, 9, 10, 11, 12, 13, 14, 15, 0], 17⟩ := by
    decide
  obtain ⟨listed, _, _, least, again, recompiled, _⟩ := Stage.requires_of_compile
    ⟨[16, 1, 2, 3, 4, 5, 6, 7, 8, 9, 10, 11, 12, 13, 14, 15, 0], 17⟩ ⟨.b1, false⟩
    ((Target.ofTier .avx512).erase .avx512vbmi) true _ valid rfl
  refine ⟨valid, _, again, rfl, rfl, listed, ?_, recompiled, ?_⟩
  · -- The tier below is not among those that provide what the plan needs.
    rw [← Bool.not_eq_true, least]
    decide
  · cases recompiled
    decide

end SimdNetwork
