import SimdNetwork.Proofs.NetworkPlan
import SimdNetwork.Proofs.Stage.Merge

/-!
Independent stages that follow each other in a network can change places, or become one stage.
-/

namespace SimdNetwork

/-- Stages that can stand in a network of the given size in place of others. -/
structure Replaces (replacement original : List Stage) (size : Nat) : Prop where
  /-- There is a stage to replace. -/
  original_ne_nil : original ≠ []
  /-- There is a stage in its place. -/
  replacement_ne_nil : replacement ≠ []
  /-- The new stages suit the network. -/
  suits : ∀ stage ∈ replacement, stage.Suits size
  /-- They compile wherever the old ones did. -/
  compiles : ∀ {element : Element} {target : Target} {widen : Bool},
    (∀ stage ∈ original, ∃ plan, stage.compile element target widen = .ok plan) →
      ∀ stage ∈ replacement, ∃ plan, stage.compile element target widen = .ok plan
  /-- They do the same to every input. -/
  exchange_eq : ∀ {α : Type} [Min α] [Max α], (∀ value : α, max value value = value) →
    ∀ values : List α,
      Network.exchange ⟨size, replacement⟩ values = Network.exchange ⟨size, original⟩ values

/-- Networks that cannot be told apart by running them, nor by running their plans. -/
structure Network.Alike (network other : Network) : Prop where
  /-- They do the same to every input, of values that are the larger of themselves. -/
  exchange_eq : ∀ {α : Type} [Min α] [Max α], (∀ value : α, max value value = value) →
    ∀ values : List α, other.exchange values = network.exchange values
  /-- The other one compiles, too, and its plan does the same to every input. -/
  run_eq : ∀ {element : Element} {target : Target} {widen : Bool} {plan : NetworkPlan},
    network.compile element target widen = .ok plan →
      ∃ otherPlan, other.compile element target widen = .ok otherPlan ∧
        ∀ (type : LaneType) (values : List Int), (∀ value ∈ values, type.Holds value) →
          otherPlan.run type values = plan.run type values

namespace Network

variable {network other : Network} {element : Element} {target : Target} {widen : Bool}
variable {plan otherPlan : NetworkPlan} {type : LaneType} {values : List Int}

/-- The first stage of a plan turns away values of another type. -/
theorem Built.run_laneType (built : network.Built) (nonempty : network.stages ≠ [])
    (compiled : network.compile element target widen = .ok plan)
    (count : values.length = network.size) (differs : type.element? ≠ some element) :
    plan.run type values = .error .laneType := by
  -- The size of the input is right, so the first stage is the first to look at it.
  obtain ⟨plans, stagewise, rfl⟩ := compile_eq_ok.mp compiled
  rw [NetworkPlan.run_eq_foldlM count]
  have suits := built.suits
  cases stages : network.stages with
  | nil => exact absurd stages nonempty
  | cons stage rest =>
    rw [stages] at stagewise suits
    rw [List.mapM_cons] at stagewise
    obtain ⟨head, first, others⟩ := bind_eq_ok.mp stagewise
    obtain ⟨later, _, listed⟩ := bind_eq_ok.mp others
    cases listed
    -- The plan of the stage has the element type that it was compiled for.
    obtain ⟨_, parts, _, serve, rfl⟩ :=
      Stage.parts_of_compile (suits stage List.mem_cons_self).valid first
    have planElement : parts.plan.element = element := serve.resolved.element_eq
    rw [List.foldlM_cons, Plan.run, Plan.runPadded, planElement, if_pos differs]
    rfl

/-- Networks of one size that do the same to every input have plans that do. -/
theorem Built.run_congr (built : network.Built) (otherBuilt : other.Built)
    (nonempty : network.stages ≠ []) (otherNonempty : other.stages ≠ [])
    (size : other.size = network.size)
    (same : ∀ values : List Int, other.exchange values = network.exchange values)
    (compiled : network.compile element target widen = .ok plan)
    (otherCompiled : other.compile element target widen = .ok otherPlan)
    (held : ∀ value ∈ values, type.Holds value) :
    otherPlan.run type values = plan.run type values := by
  -- An input is of the wrong size, or of the wrong type, or one that both plans run on.
  by_cases count : values.length = network.size
  · have otherCount : values.length = other.size := count.trans size.symm
    by_cases sameType : type.element? = some element
    · -- Both plans run as their networks do.
      obtain rfl : type = .narrow element := by
        cases type with
        | narrow own => exact congrArg LaneType.narrow (Option.some.inj sameType)
        | wide signed => cases sameType
      obtain ⟨results, ran, exchanged⟩ := built.exists_run compiled ⟨count, held⟩
      obtain ⟨otherResults, otherRan, otherExchanged⟩ :=
        otherBuilt.exists_run otherCompiled ⟨otherCount, held⟩
      rw [same, exchanged, Except.ok.injEq] at otherExchanged
      rw [ran, otherRan, otherExchanged]
    · -- Both turn away values of another type.
      rw [built.run_laneType nonempty compiled count sameType,
        otherBuilt.run_laneType otherNonempty otherCompiled otherCount sameType]
  · -- Both plans are of the same size, which is not that of the input.
    obtain ⟨_, _, rfl⟩ := compile_eq_ok.mp compiled
    obtain ⟨_, _, rfl⟩ := compile_eq_ok.mp otherCompiled
    rw [NetworkPlan.run, NetworkPlan.run, if_pos count, if_pos (size ▸ count)]

end Network

section Replacing

variable {size : Nat} {before original after replacement : List Stage}

/-- Stages can be replaced between any others. -/
theorem Replaces.exchange_within (replaces : Replaces replacement original size) {α : Type} [Min α]
    [Max α] (idempotent : ∀ value : α, max value value = value) (values : List α) :
    Network.exchange ⟨size, before ++ replacement ++ after⟩ values =
      Network.exchange ⟨size, before ++ original ++ after⟩ values := by
  -- The stages before leave the same values for either, and those after are given the same.
  have same := replaces.exchange_eq idempotent
  simp only [Network.exchange] at same
  simp only [Network.exchange, List.foldlM_append, same]

/-- A network in which some stages are replaced is one that cannot be told apart. -/
theorem Network.Built.alike_of_replaces
    (built : Network.Built ⟨size, before ++ original ++ after⟩)
    (replaces : Replaces replacement original size) :
    ∃ other, Network.ofStages size (before ++ replacement ++ after) = .ok other ∧
      Network.Alike ⟨size, before ++ original ++ after⟩ other := by
  -- A stage of the new network is an old one or a replacement, and both suit.
  have suits : ∀ stage ∈ before ++ replacement ++ after, stage.Suits size := by
    have old := built.suits
    simp only [List.forall_mem_append] at old ⊢
    exact ⟨⟨old.1.1, replaces.suits⟩, old.2⟩
  -- All have the size of the network, so they make one that is built.
  have made : Network.ofStages size (before ++ replacement ++ after) =
      .ok ⟨size, before ++ replacement ++ after⟩ :=
    Network.ofStages_eq_ok.mpr ⟨fun stage listed => (suits stage listed).used_eq, rfl⟩
  have otherBuilt : Network.Built ⟨size, before ++ replacement ++ after⟩ :=
    .fromStages (fun stage listed => (suits stage listed).valid) made
  refine ⟨_, made, replaces.exchange_within, ?_⟩
  -- What holds of the networks holds of their plans, once the new one is known to compile.
  intro element target widen plan compiled
  have every := Network.exists_compile_iff.mp ⟨plan, compiled⟩
  obtain ⟨otherPlan, otherCompiled⟩ : ∃ otherPlan, Network.compile
      ⟨size, before ++ replacement ++ after⟩ element target widen = .ok otherPlan := by
    rw [Network.exists_compile_iff]
    simp only [List.forall_mem_append] at every ⊢
    exact ⟨⟨every.1.1, replaces.compiles every.1.2⟩, every.2⟩
  refine ⟨otherPlan, otherCompiled, ?_⟩
  intro type values held
  exact built.run_congr otherBuilt (by simp [replaces.original_ne_nil])
    (by simp [replaces.replacement_ne_nil]) rfl (replaces.exchange_within Int.max_self) compiled
    otherCompiled held

end Replacing

section Independence

variable {first second merged : Stage} {size : Nat}

/-- Two stages run as one network does. -/
theorem Network.exchange_pair {α : Type} [Min α] [Max α] (values : List α) :
    Network.exchange ⟨size, [first, second]⟩ values =
      (first.exchange values >>= second.exchange) := by
  -- A network of two stages has nothing left to do after the second.
  simp only [Network.exchange, List.foldlM_cons, List.foldlM_nil, bind_pure]

theorem Network.exchange_single {α : Type} [Min α] [Max α] (values : List α) :
    Network.exchange ⟨size, [merged]⟩ values = merged.exchange values := by
  -- A network of one stage has nothing left to do after it.
  simp only [Network.exchange, List.foldlM_cons, List.foldlM_nil, bind_pure]

/-- The merged stage stands in place of the two. -/
theorem Stage.Merges.replaces (merges : merged.Merges first second)
    (independent : first.Independent second) (used : first.used = size) :
    Replaces [merged] [first, second] size where
  original_ne_nil := List.cons_ne_nil _ _
  replacement_ne_nil := List.cons_ne_nil _ _
  suits := by
    rw [List.forall_mem_singleton]
    exact ⟨merges.valid, merges.used_eq.trans used⟩
  compiles := by
    intro element target widen compiles
    rw [List.forall_mem_singleton]
    -- Whether a stage compiles depends on its lanes, and the merged stage has those of the first.
    exact (exists_ok_and_error_of_map (Stage.map_compile_congr independent.first_valid merges.valid
      merges.lanes_eq)).1.mpr (compiles first List.mem_cons_self)
  exchange_eq := by
    intro α _ _ idempotent values
    rw [Network.exchange_single, Network.exchange_pair, merges.exchange_eq idempotent independent]

/-- Independent stages stand in each other's place. -/
theorem Stage.Independent.replaces_swapped (independent : first.Independent second)
    (used : first.used = size) : Replaces [second, first] [first, second] size where
  original_ne_nil := List.cons_ne_nil _ _
  replacement_ne_nil := List.cons_ne_nil _ _
  suits := by
    rw [List.forall_mem_cons, List.forall_mem_singleton]
    exact ⟨⟨independent.second_valid, independent.used_eq.trans used⟩,
      independent.first_valid, used⟩
  compiles := by
    intro element target widen compiles
    simp only [List.forall_mem_cons] at compiles ⊢
    exact ⟨compiles.2.1, compiles.1, compiles.2.2⟩
  exchange_eq := by
    intro α _ _ idempotent values
    -- In either order they do what the merged stage does.
    obtain ⟨merged, _, merges⟩ := independent.exists_merged
    rw [Network.exchange_pair, Network.exchange_pair, merges.exchange_eq idempotent independent,
      (merges.symm independent).exchange_eq idempotent independent.symm]

end Independence

/--
Independent stages commute and merge.

The merged partners of two independent stages make a stage. Wherever the two follow each other in a
network, they can change places or be replaced by that stage: the network and its plan do to every
input what they did before.
-/
theorem Network.alike_of_independent (first second : Stage)
    (independent : first.Independent second) :
    ∃ merged, Stage.ofPartners (first.mergedPartners second) first.used = .ok merged ∧
      ∀ (size : Nat) (before after : List Stage),
        Network.Built ⟨size, before ++ [first, second] ++ after⟩ →
          ∀ replacement ∈ [[second, first], [merged]],
            ∃ other, Network.ofStages size (before ++ replacement ++ after) = .ok other ∧
              Network.Alike ⟨size, before ++ [first, second] ++ after⟩ other := by
  -- The merged stage comes first, since it does not depend on the network.
  obtain ⟨merged, made, merges⟩ := independent.exists_merged
  refine ⟨merged, made, ?_⟩
  intro size before after built replacement listed
  have used : first.used = size := (built.suits first (by simp)).used_eq
  apply built.alike_of_replaces
  simp only [List.mem_cons, List.not_mem_nil, or_false] at listed
  rcases listed with rfl | rfl
  · exact independent.replaces_swapped used
  · exact merges.replaces independent used

/-- A cycle of three lanes and a swap of two others, between further stages, and with padding. -/
theorem Network.alike_of_independent_cycle_and_swap :
    Stage.Independent ⟨[1, 2, 0, 3, 4, 0], 5⟩ ⟨[0, 1, 2, 4, 3, 5], 5⟩ ∧
    Stage.ofPartners [1, 2, 0, 4, 3, 0] 5 = .ok ⟨[1, 2, 0, 4, 3, 0], 5⟩ ∧
    Network.Alike
      ⟨5, [⟨[4, 3, 2, 1, 0], 5⟩, ⟨[1, 2, 0, 3, 4, 0], 5⟩, ⟨[0, 1, 2, 4, 3, 5], 5⟩,
        ⟨[1, 0, 3, 2, 4], 5⟩]⟩
      ⟨5, [⟨[4, 3, 2, 1, 0], 5⟩, ⟨[0, 1, 2, 4, 3, 5], 5⟩, ⟨[1, 2, 0, 3, 4, 0], 5⟩,
        ⟨[1, 0, 3, 2, 4], 5⟩]⟩ ∧
    ∃ plan otherPlan,
      Network.compile ⟨5, [⟨[4, 3, 2, 1, 0], 5⟩, ⟨[1, 2, 0, 3, 4, 0], 5⟩,
        ⟨[0, 1, 2, 4, 3, 5], 5⟩, ⟨[1, 0, 3, 2, 4], 5⟩]⟩ ⟨.b2, false⟩ (.ofTier .sse4) false =
          .ok plan ∧
      Network.compile ⟨5, [⟨[4, 3, 2, 1, 0], 5⟩, ⟨[1, 2, 0, 4, 3, 0], 5⟩,
        ⟨[1, 0, 3, 2, 4], 5⟩]⟩ ⟨.b2, false⟩ (.ofTier .sse4) false = .ok otherPlan ∧
      otherPlan.run (.narrow ⟨.b2, false⟩) [9, 65535, 0, 7, 3] =
        plan.run (.narrow ⟨.b2, false⟩) [9, 65535, 0, 7, 3] := by
  -- The two stages stand between others, and are both swapped and joined there.
  have independent : Stage.Independent ⟨[1, 2, 0, 3, 4, 0], 5⟩ ⟨[0, 1, 2, 4, 3, 5], 5⟩ := by
    refine ⟨by decide, by decide, rfl, rfl, ?_⟩
    simp only [Stage.partner_eq_ok_iff]
    decide
  obtain ⟨merged, made, alike⟩ := Network.alike_of_independent _ _ independent
  have given : Stage.ofPartners [1, 2, 0, 4, 3, 0] 5 = .ok ⟨[1, 2, 0, 4, 3, 0], 5⟩ := rfl
  obtain rfl : ⟨[1, 2, 0, 4, 3, 0], 5⟩ = merged := Except.ok.inj (given.symm.trans made)
  have built : Network.Built ⟨5, [⟨[4, 3, 2, 1, 0], 5⟩] ++
      [⟨[1, 2, 0, 3, 4, 0], 5⟩, ⟨[0, 1, 2, 4, 3, 5], 5⟩] ++ [⟨[1, 0, 3, 2, 4], 5⟩]⟩ :=
    .fromStages (by decide) (Network.ofStages_eq_ok.mpr ⟨by decide, rfl⟩)
  -- Both replacements are made in one place, between the first stage and the last.
  obtain ⟨_, swapped, alikeSwapped⟩ := alike 5 _ _ built _ List.mem_cons_self
  obtain ⟨_, joined, alikeJoined⟩ :=
    alike 5 _ _ built _ (List.mem_cons_of_mem _ List.mem_cons_self)
  cases swapped
  cases joined
  refine ⟨independent, given, alikeSwapped, ?_⟩
  obtain ⟨otherPlan, compiled, runs⟩ :
      ∃ otherPlan, Network.compile _ ⟨.b2, false⟩ (.ofTier .sse4) false = .ok otherPlan ∧ _ :=
    alikeJoined.run_eq rfl
  exact ⟨_, otherPlan, rfl, compiled, runs _ _ (by decide)⟩

end SimdNetwork
