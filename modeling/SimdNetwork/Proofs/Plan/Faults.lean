import SimdNetwork.Proofs.Plan.Run

/-! Running a plan only faults on a register of another shape, or on values that do not fit it. -/

namespace SimdNetwork

/-- A plan that runs on every register of its own shape, and stays in that shape. -/
def Plan.Runs (plan : Plan) : Prop :=
  ∀ register : Register, register.shape = plan.shape →
    ∃ result, plan.execute register = .ok result ∧ result.shape = plan.shape

/-- Every operand that serves a stage fits the register, so no instruction of the plan faults. -/
theorem Plan.Parts.Serve.runs {parts : Plan.Parts} {stage : Stage} {element : Element}
    {target : Target} {widen : Bool} {shape : Shape}
    (serve : parts.Serve stage element target widen shape) : parts.plan.Runs := by
  -- What the parts leave was computed on every register of the shape.
  intro register shaped
  rw [serve.shape_plan] at shaped ⊢
  exact ⟨_, serve.execute shaped, shaped⟩

namespace Plan.Runs

variable {plan : Plan} {type : LaneType} {values : List Int} {fill : Int}

theorem exists_execute_iff (runs : plan.Runs) (register : Register) :
    (∃ result, plan.execute register = .ok result) ↔ register.shape = plan.shape := by
  -- Registers of the right shape are covered by the plan itself.
  constructor
  · rintro ⟨result, ran⟩
    -- A register of another shape is turned away before the first instruction.
    by_cases shaped : register.shape = plan.shape
    · exact shaped
    · rw [Plan.execute, if_pos shaped] at ran
      cases ran
  · intro shaped
    obtain ⟨result, ran, _⟩ := runs register shaped
    exact ⟨result, ran⟩

/-- Values of the plan's type that its register has lanes for are run to the end. -/
theorem exists_runPadded (runs : plan.Runs) (same : type.element? = some plan.element)
    (room : values.length ≤ plan.lanes) :
    ∃ results, plan.runPadded type values fill = .ok results := by
  -- Packing fills a register of the plan's shape, on which the plan runs.
  obtain ⟨packed, made⟩ : ∃ packed, plan.pack values fill = .ok packed := exists_pack room
  obtain ⟨result, ran, shaped⟩ := runs packed (shape_pack made)
  -- As many lanes are read back as were packed, and the result still has them.
  have lanes : values.length ≤ result.lanes plan.element.width := by
    rw [Register.lanes, shaped]
    exact room
  rw [Plan.runPadded, if_neg (by simp [same]), made, ok_bind, ran, ok_bind, Register.unpack,
    if_pos lanes]
  exact ⟨_, rfl⟩

/-- Values of another type are turned away first, and then values that are too many. -/
theorem runPadded_eq_error (runs : plan.Runs) (fault : Fault) :
    plan.runPadded type values fill = .error fault ↔
      (type.element? ≠ some plan.element ∧ fault = .laneType) ∨
        (type.element? = some plan.element ∧ plan.lanes < values.length ∧
          fault = .tooManyValues) := by
  -- The type is tested first, the number of values next, and after that nothing faults.
  by_cases same : type.element? = some plan.element
  · by_cases room : values.length ≤ plan.lanes
    · -- Nothing is left that could fault.
      obtain ⟨results, ran⟩ : ∃ results, plan.runPadded type values fill = .ok results :=
        runs.exists_runPadded same room
      rw [ran]
      simp only [reduceCtorEq, same, ne_eq, not_true_eq_false, false_and, true_and, false_or,
        false_iff, not_and]
      omega
    · have many : plan.lanes < values.length := by omega
      rw [Plan.runPadded, if_neg (by simp [same]), Plan.pack, if_pos many, error_bind]
      simp [same, many, eq_comm]
  · rw [Plan.runPadded, if_pos same]
    simp [same, eq_comm]

/-- Running on values faults exactly on those of another type and those that are too many. -/
theorem exists_runPadded_error_iff (runs : plan.Runs) :
    (∃ fault, plan.runPadded type values fill = .error fault) ↔
      type.element? ≠ some plan.element ∨ plan.lanes < values.length := by
  -- The two faults exclude each other, which the disjunction does not say.
  simp only [runs.runPadded_eq_error]
  constructor
  · rintro ⟨_, ⟨differs, _⟩ | ⟨_, many, _⟩⟩
    · exact .inl differs
    · exact .inr many
  · intro unfit
    -- The type is looked at before the values are counted.
    by_cases same : type.element? = some plan.element
    · rcases unfit with differs | many
      · exact absurd same differs
      · exact ⟨_, .inr ⟨same, many, rfl⟩⟩
    · exact ⟨_, .inl ⟨same, rfl⟩⟩

end Plan.Runs

/--
A plan that was made does not fault.

It runs on the registers of its shape, and on values unless their type is another one or there are
more of them than lanes.
-/
theorem Stage.faults_of_compile (stage : Stage) (element : Element) (target : Target)
    (widen : Bool) (plan : Plan) (valid : stage.Valid)
    (compiled : stage.compile element target widen = .ok plan) :
    (∀ register : Register,
      (∃ result, plan.execute register = .ok result) ↔ register.shape = plan.shape) ∧
    ∀ (type : LaneType) (values : List Int) (fill : Int),
      (∃ fault, plan.runPadded type values fill = .error fault) ↔
        type.element? ≠ some plan.element ∨ plan.lanes < values.length := by
  -- The parts of the plan run, and this is all that the faults depend on.
  obtain ⟨shape, parts, _, serve, rfl⟩ := parts_of_compile valid compiled
  exact ⟨serve.runs.exists_execute_iff, fun _ _ _ => serve.runs.exists_runPadded_error_iff⟩

/-- Nine words are too many for eight lanes, wide values are of no type, and two words run. -/
theorem Stage.faults_of_compile_words :
    Stage.Valid ⟨[2, 1, 0, 0], 3⟩ ∧
    ∃ plan, Stage.compile ⟨[2, 1, 0, 0], 3⟩ ⟨.b2, true⟩ (.ofTier .avx512) true = .ok plan ∧
      (∃ result, plan.execute (.zero .xmm) = .ok result) ∧
        (∃ fault, plan.runPadded (.narrow ⟨.b2, true⟩) (List.replicate 9 1) 0 = .error fault) ∧
          (∃ fault, plan.runPadded (.wide true) [1] 0 = .error fault) ∧
            ¬ ∃ fault, plan.runPadded (.narrow ⟨.b2, true⟩) [5, -7] 0 = .error fault := by
  -- One plan is asked about a register and about three lists of values.
  refine ⟨by decide, _, rfl, ?_⟩
  obtain ⟨executes, faults⟩ := Stage.faults_of_compile ⟨[2, 1, 0, 0], 3⟩ ⟨.b2, true⟩
    (.ofTier .avx512) true _ (by decide) rfl
  refine ⟨(executes _).mpr rfl, (faults _ _ _).mpr (.inr (by decide)),
    (faults _ _ _).mpr (.inl (by decide)), ?_⟩
  rw [faults]
  decide

end SimdNetwork
