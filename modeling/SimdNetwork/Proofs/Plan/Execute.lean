import SimdNetwork.Plan.Execute
import SimdNetwork.Proofs.Permute.Sound
import SimdNetwork.Proofs.Plan.Compile
import SimdNetwork.Proofs.Register.Keep

/-! What a compiled plan does to a register: every lane is exchanged with its partner. -/

namespace SimdNetwork

/-- The register after a stage: low lanes keep the smaller value, all others the larger one. -/
def Register.exchanged (register : Register) (stage : Stage) (element : Element) : Register :=
  let partners := register.routed (Route.ofStage stage element.width)
  build register.shape fun position =>
    if stage.isLow (position / element.bytes) then
      (register.kept partners element .low).byte position
    else (register.kept partners element .high).byte position

/-- Exchanging stays in the same kind of register. -/
@[simp] theorem Register.shape_exchanged (register : Register) (stage : Stage) (element : Element) :
    (register.exchanged stage element).shape = register.shape := rfl

/-- Parts that serve a stage run it on every register of their shape. -/
theorem Plan.Parts.Serve.execute {parts : Plan.Parts} {stage : Stage} {element : Element}
    {target : Target} {widen : Bool} {shape : Shape}
    (serve : parts.Serve stage element target widen shape) {register : Register}
    (shaped : register.shape = shape) :
    parts.plan.execute register = .ok (register.exchanged parts.padded element) := by
  -- The steps of the plan are followed one after another, each by what its part promises.
  have full := Stage.lanes_padTo serve.padded
  have fits := Route.fits_ofStage serve.valid full
  subst shaped
  have moved := Permute.apply_of_encode fits serve.permute.encoded
  have suits := suits_of_mem (List.mem_of_find?_eq_some serve.resolved.compare_eq)
  obtain ⟨_, _, _, _, served⟩ := serve.blend
  -- The permute fetches the partners, and the two compares see them lane by lane.
  have kept : ∀ side, register.keep (register.routed (Route.ofStage parts.padded element.width))
      element parts.lowering.compare.compare side =
        .ok (register.kept (register.routed (Route.ofStage parts.padded element.width)) element
          side) :=
    fun side => keep_eq_ok suits (register.shape_routed _)
  rw [Plan.execute]
  simp only [Plan.Parts.plan, serve.resolved.shape_eq, serve.resolved.element_eq, ne_eq,
    not_true_eq_false, if_false, moved, ok_bind, kept]
  exact served.selects _ _ rfl rfl

section Lanes

variable {register : Register} {stage : Stage} {element : Element} {lane partner : Nat}

/-- The lane that a stage brings to another one is its partner. -/
theorem Register.laneBits_routed (inside : lane < register.shape.lanes element.width)
    (paired : stage.partners[lane]? = some partner) :
    (register.routed (Route.ofStage stage element.width)).laneBits element.width lane =
      register.laneBits element.width partner := by
  -- A byte of the lane is fetched from the same place in the partner.
  apply laneBits_congr
  intro offset within
  obtain ⟨ofLane, ofOffset⟩ := block_of_place lane within
  rw [byte_routed _ _ (byte_inside inside within),
    Route.source_ofStage (by rw [ofLane]; exact paired), ofOffset]

/-- All bytes of an exchanged lane come from the side that its pair says. -/
theorem Register.laneBits_exchanged (inside : lane < register.shape.lanes element.width)
    (paired : stage.partners[lane]? = some partner) :
    (register.exchanged stage element).laneBits element.width lane =
      (register.kept (register.routed (Route.ofStage stage element.width)) element
        (Side.ofPair lane partner)).laneBits element.width lane := by
  -- A lane is low just when its partner is a later lane.
  refine laneBits_congr fun offset within => ?_
  rw [exchanged, byte_build _ _ _ (byte_inside inside within), Element.bytes,
    (block_of_place lane within).1, Stage.isLow, paired, Side.ofPair]
  by_cases before : lane < partner
  · simp only [before, decide_true, if_true]
  · simp only [before, decide_false, if_false, Bool.false_eq_true]

/-- An exchanged lane holds the smaller or the larger of its own value and its partner's. -/
theorem Register.value_exchanged (inside : lane < register.shape.lanes element.width)
    (paired : stage.partners[lane]? = some partner) :
    element.value ((register.exchanged stage element).laneBits element.width lane) =
      (Side.ofPair lane partner).kept (element.value (register.laneBits element.width lane))
        (element.value (register.laneBits element.width partner)) := by
  -- What a side keeps is known, and the other lane it sees is the partner.
  rw [laneBits_exchanged inside paired, value_kept _ inside, laneBits_routed inside paired]

end Lanes

end SimdNetwork
