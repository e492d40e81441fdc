import SimdNetwork.Proofs.Plan.Execute
import SimdNetwork.Proofs.Plan.Pack

/-! A compiled plan does to values what its stage does to them. -/

namespace SimdNetwork

section Serving

variable {parts : Plan.Parts} {stage : Stage} {element : Element} {target : Target} {widen : Bool}
variable {shape : Shape} {values : List Int} {fill : Int}

/-- A stage was padded to just the lanes that its plan has. -/
theorem Plan.Parts.Serve.lanes_plan (serve : parts.Serve stage element target widen shape) :
    parts.plan.lanes = parts.padded.lanes := by
  -- Both are the lanes of the register at the width of the elements.
  rw [Plan.lanes, serve.shape_plan, Stage.lanes_padTo serve.padded]
  exact congrArg (fun own => shape.lanes (Element.width own)) serve.resolved.element_eq

/-- A plan has at least the used lanes of its stage. -/
theorem Plan.Parts.Serve.used_le_lanes (serve : parts.Serve stage element target widen shape)
    (valid : stage.Valid) : stage.used ≤ parts.plan.lanes := by
  -- The used lanes are among those of the stage, and padding takes none of them away.
  rw [serve.lanes_plan, Stage.lanes_padTo serve.padded]
  exact Nat.le_trans valid.used_le (Stage.padTo_eq_ok.mp serve.padded).1

/-- Parts that serve a stage leave in each lane what the padded stage makes of the packed lanes. -/
theorem Plan.Parts.Serve.runPadded_outcome
    (serve : parts.Serve stage element target widen shape) {packed : Register}
    (room : values.length ≤ parts.plan.lanes) (made : parts.plan.pack values fill = .ok packed) :
    parts.plan.runPadded (.narrow element) values fill = .ok ((List.range values.length).map
      (parts.padded.outcome fun lane => element.value (packed.laneBits element.width lane))) := by
  -- The packed register is exchanged, and the lanes of the result are read one by one.
  have planElement : parts.plan.element = element := serve.resolved.element_eq
  have packedShape : packed.shape = shape := (Plan.shape_pack made).trans serve.shape_plan
  have full : parts.padded.lanes = shape.lanes element.width := Stage.lanes_padTo serve.padded
  rw [serve.lanes_plan] at room
  -- As many lanes are read back as were packed, and the result still has them.
  have unpacked : values.length ≤ (packed.exchanged parts.padded element).lanes element.width := by
    rw [Register.lanes, Register.shape_exchanged, packedShape]
    omega
  rw [Plan.runPadded, planElement, if_neg (by simp [LaneType.element?]), made, ok_bind,
    serve.execute packedShape, ok_bind, Register.unpack, if_pos unpacked]
  -- Each of them stands for what its side keeps of its own value and its partner's.
  refine congrArg Except.ok (List.map_congr_left ?_)
  intro lane member
  have inside : lane < parts.padded.lanes := by
    have below := List.mem_range.mp member
    omega
  rw [LaneType.ofBits_narrow (Register.laneBits_lt _ _ _),
    Register.value_exchanged (by rw [packedShape]; omega) (Stage.partners_mate inside),
    Stage.outcome]

/-- A lane that was packed with a value of the element type stands for that value. -/
theorem Plan.Parts.Serve.value_packed (serve : parts.Serve stage element target widen shape)
    {packed : Register} (made : parts.plan.pack values fill = .ok packed) {lane : Nat}
    (inside : lane < parts.padded.lanes)
    (fits : (LaneType.narrow element).Holds (values.getD lane fill)) :
    element.value (packed.laneBits element.width lane) = values.getD lane fill := by
  -- The plan packs lanes of the element type, which holds the value.
  have planElement : parts.plan.element = element := serve.resolved.element_eq
  rw [← planElement] at fits ⊢
  exact Plan.value_pack made (by rw [serve.lanes_plan]; exact inside) fits

/-- Parts that serve a stage run it on values, and on the fill in the lanes that are free. -/
theorem Plan.Parts.Serve.runPadded_filled
    (serve : parts.Serve stage element target widen shape) (room : values.length ≤ parts.plan.lanes)
    (held : ∀ value ∈ values, (LaneType.narrow element).Holds value)
    (fillHeld : (LaneType.narrow element).Holds fill) :
    parts.plan.runPadded (.narrow element) values fill = .ok (stage.outcomes values fill) := by
  -- Lane by lane the padded stage looks at the same partner as the stage does.
  obtain ⟨packed, made⟩ : ∃ packed, parts.plan.pack values fill = .ok packed :=
    Plan.exists_pack room
  -- Every lane holds one of the values or the fill.
  have fits := LaneType.holds_getD held fillHeld
  rw [serve.runPadded_outcome room made]
  rw [serve.lanes_plan] at room
  refine congrArg Except.ok (List.map_congr_left ?_)
  intro lane member
  have inside : lane < parts.padded.lanes := by
    have below := List.mem_range.mp member
    omega
  rw [Stage.outcome, serve.value_packed made inside (fits lane),
    serve.value_packed made (serve.valid.mate_lt_lanes inside) (fits _),
    Stage.mate_padTo serve.padded, Stage.outcome]

/-- Parts that serve a stage run it on values, whatever the free lanes are filled with. -/
theorem Plan.Parts.Serve.runPadded (serve : parts.Serve stage element target widen shape)
    (valid : stage.Valid) (count : values.length = stage.used)
    (held : ∀ value ∈ values, (LaneType.narrow element).Holds value) (fill : Int) :
    parts.plan.runPadded (.narrow element) values fill = stage.exchange values := by
  -- There are as many values as used lanes, and the plan has room for those.
  have room : values.length ≤ parts.plan.lanes := by
    rw [count]
    exact serve.used_le_lanes valid
  obtain ⟨packed, made⟩ : ∃ packed, parts.plan.pack values fill = .ok packed :=
    Plan.exists_pack room
  have packedValue : ∀ lane < stage.used,
      element.value (packed.laneBits element.width lane) = values.getD lane fill := by
    intro lane inside
    have given : lane < values.length := by omega
    apply serve.value_packed made (by rw [← serve.lanes_plan]; omega)
    rw [List.getD_eq_getElem?_getD, List.getElem?_eq_getElem given]
    exact held _ (List.getElem_mem given)
  rw [serve.runPadded_outcome room made, valid.exchange_eq fill count, count]
  -- A used lane has its partner from before the padding, and that is used as well.
  refine congrArg Except.ok (List.map_congr_left ?_)
  intro lane member
  have inside := List.mem_range.mp member
  rw [Stage.outcome, Stage.outcome, Stage.mate_padTo serve.padded, packedValue lane inside,
    packedValue _ (valid.mate_lt inside)]

end Serving

/--
A stage's plan runs as the stage itself does.

Neither the target nor the request for wider permutes shows in the result, and nor does the fill of
the lanes that the values leave free.
-/
theorem Stage.runPadded_of_compile (stage : Stage) (element : Element) (target : Target)
    (widen : Bool) (plan : Plan) (valid : stage.Valid)
    (compiled : stage.compile element target widen = .ok plan) (values : List Int)
    (count : values.length = stage.used)
    (held : ∀ value ∈ values, (LaneType.narrow element).Holds value) (fill : Int) :
    ∃ results, plan.runPadded (.narrow element) values fill = .ok results ∧
      stage.exchange values = .ok results := by
  -- The exchange of the stage has a result, and the parts of the plan come to it.
  obtain ⟨shape, parts, _, serve, rfl⟩ := parts_of_compile valid compiled
  obtain ⟨results, exchanged, _⟩ := valid.exists_exchange count
  exact ⟨results, (serve.runPadded valid count held fill).trans exchanged, exchanged⟩

/-- Three signed words and a padding lane, with the ends of the range among them. -/
theorem Stage.runPadded_of_compile_words :
    Stage.Valid ⟨[2, 1, 0, 0], 3⟩ ∧
    ∃ plan, Stage.compile ⟨[2, 1, 0, 0], 3⟩ ⟨.b2, true⟩ (.ofTier .avx2) true = .ok plan ∧
      (∀ value ∈ [32767, -1, -32768], (LaneType.narrow ⟨.b2, true⟩).Holds value) ∧
        plan.runPadded (.narrow ⟨.b2, true⟩) [32767, -1, -32768] 7 =
          .ok [-32768, -1, 32767] := by
  -- The exchange is computed on the values, and the plan is known to do the same.
  refine ⟨by decide, _, rfl, by decide, ?_⟩
  obtain ⟨results, ran, exchanged⟩ := Stage.runPadded_of_compile ⟨[2, 1, 0, 0], 3⟩ ⟨.b2, true⟩
    (.ofTier .avx2) true _ (by decide) rfl [32767, -1, -32768] rfl (by decide) 7
  obtain rfl : [-32768, -1, 32767] = results := Except.ok.inj exchanged
  exact ran

end SimdNetwork
