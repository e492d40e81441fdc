import SimdNetwork.NetworkPlan.Run
import SimdNetwork.Proofs.Network
import SimdNetwork.Proofs.Plan.Run

/-! A compiled network does to values what the network does to them, stage after stage. -/

namespace SimdNetwork

/-- Values that a network can be run on: as many as its size, all of its element type. -/
structure Admits (size : Nat) (element : Element) (values : List Int) : Prop where
  /-- There are as many values as the network takes. -/
  length_eq : values.length = size
  /-- Every value is one of the element type. -/
  held : ∀ value ∈ values, (LaneType.narrow element).Holds value

section Stages

variable {size : Nat} {element : Element} {target : Target} {widen : Bool} {values : List Int}

/-- One stage: its plan and the stage itself agree, and give values that the next one can take. -/
theorem Stage.Suits.exists_run {stage : Stage} {plan : Plan} (suits : stage.Suits size)
    (compiled : stage.compile element target widen = .ok plan)
    (admits : Admits size element values) :
    ∃ results, plan.run (.narrow element) values = .ok results ∧
      stage.exchange values = .ok results ∧ Admits size element results := by
  -- There is a value for every used lane, so the plan and the stage come to the same.
  have count : values.length = stage.used := admits.length_eq.trans suits.used_eq.symm
  obtain ⟨shape, parts, _, serve, rfl⟩ := parts_of_compile suits.valid compiled
  obtain ⟨results, exchanged, sameLength, fromValues⟩ := suits.valid.exists_exchange count
  refine ⟨results, ?_, exchanged, sameLength.trans admits.length_eq, ?_⟩
  · exact (serve.runPadded suits.valid count admits.held _).trans exchanged
  · -- The results are values of the input, moved.
    intro result member
    exact admits.held result (fromValues result member)

/-- All stages: running the plans and running the stages agree to the end. -/
theorem exists_foldlM_run {stages : List Stage} {plans : List Plan}
    (suits : ∀ stage ∈ stages, stage.Suits size)
    (compiled : stages.mapM (fun stage => stage.compile element target widen) = .ok plans)
    (admits : Admits size element values) :
    ∃ results,
      plans.foldlM (fun current plan => plan.run (.narrow element) current) values = .ok results ∧
        stages.foldlM (fun current stage => stage.exchange current) values = .ok results := by
  -- What one stage gives is admitted again, so the induction goes on from there.
  induction stages generalizing plans values with
  | nil =>
    cases compiled
    exact ⟨values, rfl, rfl⟩
  | cons stage rest ih =>
    rw [List.mapM_cons] at compiled
    obtain ⟨plan, first, compiled⟩ := bind_eq_ok.mp compiled
    obtain ⟨later, others, built⟩ := bind_eq_ok.mp compiled
    cases built
    rw [List.forall_mem_cons] at suits
    obtain ⟨next, ran, exchanged, again⟩ := suits.1.exists_run first admits
    rw [List.foldlM_cons, List.foldlM_cons, ran, exchanged, ok_bind, ok_bind]
    exact ih suits.2 others again

/-- The first plans are those of the first stages. -/
theorem mapM_take {stages : List Stage} {plans : List Plan}
    (compiled : stages.mapM (fun stage => stage.compile element target widen) = .ok plans)
    (count : Nat) :
    (stages.take count).mapM (fun stage => stage.compile element target widen) =
      .ok (plans.take count) := by
  -- That all stages compile to the plans is said of each of them by itself.
  rw [mapM_eq_ok] at compiled ⊢
  rw [List.map_take, compiled, List.map_take]

end Stages

/-- On an input of its size the plan of a network runs its stages one after another. -/
theorem NetworkPlan.run_eq_foldlM {plan : NetworkPlan} {type : LaneType} {values : List Int}
    (count : values.length = plan.size) :
    plan.run type values =
      plan.stages.foldlM (fun current stage => stage.run type current) values := by
  -- The number of values is tested once, before the first stage.
  rw [NetworkPlan.run, if_neg (by simp [count])]

namespace Network

variable {network : Network} {element : Element} {target : Target} {widen : Bool}

/-- A compiled network has the size, the element type and the stages' plans of the network. -/
theorem compile_eq_ok {plan : NetworkPlan} :
    network.compile element target widen = .ok plan ↔
      ∃ plans, network.stages.mapM (fun stage => stage.compile element target widen) = .ok plans ∧
        plan = ⟨network.size, element, plans⟩ := by
  -- Only the plans of the stages are looked for, and all else is copied.
  rw [compile, map_eq_ok]
  constructor
  · rintro ⟨plans, compiled, rfl⟩
    exact ⟨plans, compiled, rfl⟩
  · rintro ⟨plans, compiled, rfl⟩
    exact ⟨plans, compiled, rfl⟩

/-- A network fails with the failure of the first stage that fails. -/
theorem compile_eq_error {failure : Failure} :
    network.compile element target widen = .error failure ↔
      ∃ before stage after, network.stages = before ++ stage :: after ∧
        (∀ earlier ∈ before, ∃ plan, earlier.compile element target widen = .ok plan) ∧
          stage.compile element target widen = .error failure := by
  -- The stages are compiled in order, and the first failure ends it.
  rw [compile, ← mapM_eq_error]
  cases network.stages.mapM fun stage => stage.compile element target widen with
  | error problem => simp [Except.map]
  | ok plans => simp [Except.map]

/-- A network compiles when all its stages do. -/
theorem exists_compile_iff :
    (∃ plan, network.compile element target widen = .ok plan) ↔
      ∀ stage ∈ network.stages, ∃ plan, stage.compile element target widen = .ok plan := by
  -- The size and the element type cannot keep a network from compiling.
  rw [← exists_mapM_eq_ok]
  simp only [compile_eq_ok]
  constructor
  · rintro ⟨_, plans, compiled, _⟩
    exact ⟨plans, compiled⟩
  · rintro ⟨plans, compiled⟩
    exact ⟨_, plans, compiled, rfl⟩

/-- On values it admits, the plan of a network ends with the values that the network ends with. -/
theorem Built.exists_run {plan : NetworkPlan} {values : List Int} (built : network.Built)
    (compiled : network.compile element target widen = .ok plan)
    (admits : Admits network.size element values) :
    ∃ results, plan.run (.narrow element) values = .ok results ∧
      network.exchange values = .ok results := by
  -- A built network has stages of its own size only.
  obtain ⟨plans, stagewise, rfl⟩ := compile_eq_ok.mp compiled
  obtain ⟨results, ran, exchanged⟩ := exists_foldlM_run built.suits stagewise admits
  exact ⟨results, (NetworkPlan.run_eq_foldlM admits.length_eq).trans ran, exchanged⟩

/--
A network's plan runs as the network itself does, up to every stage and to the end.

A network has a plan just when all its stages have one, and otherwise fails as its first failing
stage does.
-/
theorem run_of_compile (network : Network) (element : Element) (target : Target) (widen : Bool)
    (built : network.Built) :
    (∀ plan, network.compile element target widen = .ok plan →
      ∀ values : List Int, values.length = network.size →
        (∀ value ∈ values, (LaneType.narrow element).Holds value) →
          (∃ results, plan.run (.narrow element) values = .ok results ∧
            network.exchange values = .ok results) ∧
          ∀ count, ∃ between,
            NetworkPlan.run { plan with stages := plan.stages.take count } (.narrow element)
              values = .ok between ∧
            exchange { network with stages := network.stages.take count } values = .ok between) ∧
    ((∃ plan, network.compile element target widen = .ok plan) ↔
      ∀ stage ∈ network.stages, ∃ plan, stage.compile element target widen = .ok plan) ∧
    ∀ failure, network.compile element target widen = .error failure ↔
      ∃ before stage after, network.stages = before ++ stage :: after ∧
        (∀ earlier ∈ before, ∃ plan, earlier.compile element target widen = .ok plan) ∧
          stage.compile element target widen = .error failure := by
  -- Only the runs are left to show, as the two other parts are known.
  refine ⟨?_, exists_compile_iff, fun failure => compile_eq_error⟩
  intro plan compiled values count held
  have admits : Admits network.size element values := ⟨count, held⟩
  refine ⟨built.exists_run compiled admits, ?_⟩
  -- The first stages are a network of their own, and the first plans are theirs.
  intro first
  obtain ⟨plans, stagewise, rfl⟩ := compile_eq_ok.mp compiled
  have suits : ∀ stage ∈ network.stages.take first, stage.Suits network.size :=
    fun stage listed => built.suits stage (List.mem_of_mem_take listed)
  obtain ⟨between, ran, exchanged⟩ := exists_foldlM_run suits (mapM_take stagewise first) admits
  exact ⟨between, (NetworkPlan.run_eq_foldlM count).trans ran, exchanged⟩

/-- Two stages of different lane counts sort three bytes. -/
theorem run_of_compile_three_bytes :
    Network.Built ⟨3, [⟨[2, 1, 0, 0], 3⟩, ⟨[1, 0, 2], 3⟩]⟩ ∧
    ∃ plan, Network.compile ⟨3, [⟨[2, 1, 0, 0], 3⟩, ⟨[1, 0, 2], 3⟩]⟩ ⟨.b1, false⟩
        (.ofTier .sse4) false = .ok plan ∧
      (∀ value ∈ [255, 0, 9], (LaneType.narrow ⟨.b1, false⟩).Holds value) ∧
        plan.run (.narrow ⟨.b1, false⟩) [255, 0, 9] = .ok [0, 9, 255] ∧
          NetworkPlan.run { plan with stages := plan.stages.take 1 } (.narrow ⟨.b1, false⟩)
            [255, 0, 9] = .ok [9, 0, 255] := by
  -- Both results are computed by the network, and the plan is known to agree with it.
  have built : Network.Built ⟨3, [⟨[2, 1, 0, 0], 3⟩, ⟨[1, 0, 2], 3⟩]⟩ :=
    .fromStages (by decide) (by rfl : ofStages 3 [⟨[2, 1, 0, 0], 3⟩, ⟨[1, 0, 2], 3⟩] = _)
  refine ⟨built, _, rfl, by decide, ?_⟩
  obtain ⟨agrees, _⟩ := run_of_compile ⟨3, [⟨[2, 1, 0, 0], 3⟩, ⟨[1, 0, 2], 3⟩]⟩ ⟨.b1, false⟩
    (.ofTier .sse4) false built
  obtain ⟨⟨results, ran, exchanged⟩, earlier⟩ := agrees _ rfl [255, 0, 9] rfl (by decide)
  obtain rfl : [0, 9, 255] = results := Except.ok.inj exchanged
  obtain ⟨between, ranFirst, exchangedFirst⟩ := earlier 1
  obtain rfl : [9, 0, 255] = between := Except.ok.inj exchangedFirst
  exact ⟨ran, ranFirst⟩

end Network

end SimdNetwork
