import SimdNetwork.Proofs.Plan.Cost

/-! Asking for permutes of wider lanes shows in the permute step alone, and never costs more. -/

namespace SimdNetwork

/-- The readings of a stage that are not widened are among those that are. -/
theorem Stage.mem_readings_widened {stage : Stage} {width : Width} {candidate : Candidate}
    (listed : candidate ∈ stage.readings width false) : candidate ∈ stage.readings width true := by
  -- Widening only adds readings behind the stage itself.
  obtain rfl : candidate = ⟨width, stage⟩ := by simpa [readings] using listed
  exact List.mem_cons_self

section OneTarget

variable {stage : Stage} {element : Element} {target : Target} {shape : Shape}

/-- How lanes are compared and blended does not depend on the permutes that are tried. -/
theorem Plan.Parts.Serve.compare_blend_eq {widen otherWiden : Bool} {parts other : Plan.Parts}
    (serve : parts.Serve stage element target widen shape)
    (otherServe : other.Serve stage element target otherWiden shape) :
    parts.lowering.compare = other.lowering.compare ∧ parts.blend = other.blend := by
  -- Neither search looks at the candidates.
  constructor
  · -- Both take the first usable row of one table.
    exact Option.some.inj
      (serve.resolved.compare_eq.symm.trans otherServe.resolved.compare_eq)
  · -- Both take the first blend that fits, and what it has to fit is the same padded stage.
    have first := serve.find?_blend
    have otherFirst := otherServe.find?_blend
    rw [serve.padded_eq otherServe] at first
    have row : parts.blend.row = other.blend.row :=
      Option.some.inj (first.symm.trans otherFirst)
    -- The row makes one choice for the padded stage, and both blends are that choice.
    obtain ⟨_, _, _, _, served⟩ := serve.blend
    obtain ⟨_, _, _, _, otherServed⟩ := otherServe.blend
    have made := served.made
    rw [row, serve.padded_eq otherServe, otherServed.made] at made
    exact (Option.some.inj (Except.ok.inj made)).symm

variable {plain widened : Plan.Parts}

/-- Without wider readings only rows of the element's own width are tried. -/
theorem Plan.Parts.Serve.unit_eq (serve : plain.Serve stage element target false shape) :
    plain.permute.row.unit = element.width := by
  -- The padded stage is its own only reading, and a table has rows of its unit alone.
  obtain ⟨candidate, listed, usable⟩ := serve.permute.offered
  obtain rfl : candidate = ⟨element.width, plain.padded⟩ := by
    simpa [Stage.readings] using listed
  have inTable : plain.permute.row ∈ permuteTable shape element.width :=
    (List.mem_filter.mp usable).1
  exact (offered_of_mem inTable).unit_eq

/-- Wider readings add permutes to choose from and take none away. -/
theorem permute_cost_widened (serve : plain.Serve stage element target false shape)
    (wideServe : widened.Serve stage element target true shape) :
    widened.permute.permute.cost ≤ plain.permute.permute.cost := by
  -- The widened plan has the cheapest of all permutes that are open to it.
  apply wideServe.permute_least
  rw [wideServe.padded_eq serve]
  -- The plain permute is still open, on the same row and the same route.
  obtain ⟨⟨candidate, listed, usable⟩, encoded⟩ := serve.permute
  exact ⟨⟨candidate, Stage.mem_readings_widened listed, usable⟩, encoded⟩

end OneTarget

/--
Wider permutes are invisible outside the permute step.

Whether a stage compiles does not depend on the request for them, and neither does the failure when
it does not. When it does, the two plans agree in all but the permute, the plain one moves lanes of
the element's own width, and the other one costs no more.
-/
theorem Stage.compile_widened (stage : Stage) (element : Element) (target : Target)
    (valid : stage.Valid) :
    ((∃ widened, stage.compile element target true = .ok widened) ↔
      ∃ plain, stage.compile element target false = .ok plain) ∧
    (∀ failure, stage.compile element target true = .error failure ↔
      stage.compile element target false = .error failure) ∧
    ∀ plain widened, stage.compile element target false = .ok plain →
      stage.compile element target true = .ok widened →
        widened.shape = plain.shape ∧ widened.element = plain.element ∧
          widened.steps.tail = plain.steps.tail ∧ widened.selector = plain.selector ∧
            widened.cost ≤ plain.cost ∧ plain.permuteUnit = element.width := by
  -- Success and failure are decided by the lanes, the element and the target.
  have outcome : (stage.compile element target true).map (fun _ => ()) =
      (stage.compile element target false).map fun _ => () :=
    map_compile_congr valid valid rfl
  obtain ⟨together, alike⟩ := exists_ok_and_error_of_map outcome
  refine ⟨together, alike, ?_⟩
  intro plain widened plainCompiled wideCompiled
  obtain ⟨shape, parts, found, serve, rfl⟩ := parts_of_compile valid plainCompiled
  obtain ⟨other, wideParts, foundAgain, wideServe, rfl⟩ := parts_of_compile valid wideCompiled
  -- One stage has one register, whatever permutes are tried in it.
  obtain rfl : shape = other := Except.ok.inj (found.symm.trans foundAgain)
  obtain ⟨compare, blend⟩ := wideServe.compare_blend_eq serve
  have cheaper := permute_cost_widened serve wideServe
  refine ⟨?_, ?_, ?_, ?_, ?_, serve.unit_eq⟩
  · rw [wideServe.shape_plan, serve.shape_plan]
  · exact wideServe.resolved.element_eq.trans serve.resolved.element_eq.symm
  · simp only [Plan.steps, Plan.Parts.plan, List.tail_cons, compare, blend]
  · simp only [Plan.Parts.plan, blend]
  · -- The other three steps are the same, so only the permutes are left to compare.
    rw [Plan.cost_eq, Plan.cost_eq]
    simp only [Plan.Parts.plan, compare, blend]
    omega

/-- Bytes that swap in pairs get a cheaper permute, and keep all other steps. -/
theorem Stage.compile_widened_byte_pairs :
    Stage.Valid ⟨[2, 3, 0, 1, 4], 5⟩ ∧
    ∃ plain widened, Stage.compile ⟨[2, 3, 0, 1, 4], 5⟩ ⟨.b1, true⟩ (.ofTier .avx2) false =
        .ok plain ∧
      Stage.compile ⟨[2, 3, 0, 1, 4], 5⟩ ⟨.b1, true⟩ (.ofTier .avx2) true = .ok widened ∧
        widened.permute ≠ plain.permute ∧ widened.steps.tail = plain.steps.tail ∧
          widened.selector = plain.selector ∧ widened.cost < plain.cost ∧
            plain.permuteUnit = .b1 := by
  -- Both plans are computed, and only their permutes are compared directly.
  have valid : Stage.Valid ⟨[2, 3, 0, 1, 4], 5⟩ := by decide
  obtain ⟨_, _, both⟩ :=
    Stage.compile_widened ⟨[2, 3, 0, 1, 4], 5⟩ ⟨.b1, true⟩ (.ofTier .avx2) valid
  obtain ⟨_, _, steps, selector, _, unit⟩ := both _ _ rfl rfl
  exact ⟨valid, _, _, rfl, rfl, by decide, steps, selector, by decide, unit⟩

end SimdNetwork
