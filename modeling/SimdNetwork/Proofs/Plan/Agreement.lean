import SimdNetwork.Proofs.Plan.Execute

/-! What a plan leaves in a register depends on the stage and on the used lanes alone. -/

namespace SimdNetwork

/--
All plans of a stage are the same function on registers, in padding lanes as well.

Neither the target nor the request for wider permutes shows in any byte of the result.
-/
theorem Stage.execute_same_of_compile (stage : Stage) (element : Element)
    (target otherTarget : Target) (widen otherWiden : Bool) (plan other : Plan)
    (valid : stage.Valid) (compiled : stage.compile element target widen = .ok plan)
    (otherCompiled : stage.compile element otherTarget otherWiden = .ok other) :
    other.shape = plan.shape ∧
      ∀ register : Register, register.shape = plan.shape →
        ∃ result, plan.execute register = .ok result ∧ other.execute register = .ok result ∧
          result.shape = plan.shape := by
  -- Both plans come to one exchange, which does not mention what they were made for.
  obtain ⟨shape, parts, found, serve, rfl⟩ := parts_of_compile valid compiled
  obtain ⟨otherShape, otherParts, foundAgain, otherServe, rfl⟩ :=
    parts_of_compile valid otherCompiled
  -- The register depends on the lane count and the element type, which both plans share.
  obtain rfl : shape = otherShape := Except.ok.inj (found.symm.trans foundAgain)
  rw [serve.shape_plan, otherServe.shape_plan]
  refine ⟨rfl, ?_⟩
  intro register shaped
  -- Each plan exchanges the padded stage, and there is only one way to pad.
  refine ⟨register.exchanged parts.padded element, serve.execute shaped, ?_, shaped⟩
  rw [serve.padded_eq otherServe]
  exact otherServe.execute shaped

/-- Without a native compare the plan for two unsigned qwords differs, but not what it leaves. -/
theorem Stage.execute_same_of_compile_two_qwords :
    Stage.Valid ⟨[1, 0], 2⟩ ∧
    ∃ plan other, Stage.compile ⟨[1, 0], 2⟩ ⟨.b8, false⟩ (.ofTier .avx512) true = .ok plan ∧
      Stage.compile ⟨[1, 0], 2⟩ ⟨.b8, false⟩ (.ofTier .sse4) false = .ok other ∧
        plan.compare ≠ other.compare ∧
          ∃ result, plan.execute (.build .xmm fun position => 255 - UInt8.ofNat position) =
            .ok result ∧
              other.execute (.build .xmm fun position => 255 - UInt8.ofNat position) =
                .ok result := by
  -- Both plans are computed, and their compares differ already.
  refine ⟨by decide, _, _, rfl, rfl, by decide, ?_⟩
  obtain ⟨_, same⟩ := Stage.execute_same_of_compile ⟨[1, 0], 2⟩ ⟨.b8, false⟩ (.ofTier .avx512)
    (.ofTier .sse4) true false _ _ (by decide) rfl rfl
  obtain ⟨result, first, second, _⟩ :=
    same (.build .xmm fun position => 255 - UInt8.ofNat position) rfl
  exact ⟨result, first, second⟩

/-- Registers of one shape whose first lanes hold the same contents. -/
structure Register.AgreeBelow (left right : Register) (width : Width) (count : Nat) : Prop where
  shape_eq : right.shape = left.shape
  laneBits_eq : ∀ lane < count, right.laneBits width lane = left.laneBits width lane

/-- An exchange keeps registers in agreement on the used lanes, since these are paired up. -/
theorem Register.AgreeBelow.exchanged {left right : Register} {stage : Stage} {element : Element}
    (agree : left.AgreeBelow right element.width stage.used) (valid : stage.Valid)
    (room : stage.used ≤ left.shape.lanes element.width) :
    (left.exchanged stage element).AgreeBelow (right.exchanged stage element) element.width
      stage.used := by
  -- A used lane depends only on itself and on its partner.
  refine ⟨agree.shape_eq, ?_⟩
  intro lane used
  have inside : lane < left.shape.lanes element.width := by omega
  have rightInside : lane < right.shape.lanes element.width := by
    rw [agree.shape_eq]
    exact inside
  have paired := List.getElem?_eq_getElem (Nat.lt_of_lt_of_le used valid.used_le)
  -- The partner is used as well, so both registers compare the same two numbers.
  have own := agree.laneBits_eq lane used
  have other := agree.laneBits_eq _ (valid.partner_lt_used used paired)
  rw [laneBits_exchanged rightInside paired, laneBits_exchanged inside paired,
    laneBits_kept _ rightInside, laneBits_kept _ inside, laneBits_routed rightInside paired,
    laneBits_routed inside paired, own, other]

/-- Whatever padding lanes hold, a plan leaves the same contents in the used lanes. -/
theorem Stage.execute_ignores_padding (stage : Stage) (element : Element) (target : Target)
    (widen : Bool) (plan : Plan) (valid : stage.Valid)
    (compiled : stage.compile element target widen = .ok plan) (left right : Register)
    (leftShape : left.shape = plan.shape) (rightShape : right.shape = plan.shape)
    (agree : ∀ lane < stage.used, left.lane element.width lane = right.lane element.width lane) :
    ∃ leftResult rightResult,
      plan.execute left = .ok leftResult ∧ plan.execute right = .ok rightResult ∧
        ∀ lane < stage.used, ∃ bits, leftResult.lane element.width lane = .ok bits ∧
          rightResult.lane element.width lane = .ok bits := by
  -- The exchange that the plan comes to is followed on both registers.
  obtain ⟨shape, parts, found, serve, rfl⟩ := parts_of_compile valid compiled
  rw [serve.shape_plan] at leftShape rightShape
  -- The used lanes are among those of the stage, and these among the register's.
  have room : stage.used ≤ shape.lanes element.width :=
    Nat.le_trans valid.used_le (lanes_le_of_shapeFor found)
  have used : parts.padded.used = stage.used := used_padTo serve.padded
  have before : left.AgreeBelow right element.width parts.padded.used := by
    refine ⟨rightShape.trans leftShape.symm, ?_⟩
    intro lane below
    have same := agree lane (used ▸ below)
    rw [Register.lane_eq_ok (by rw [leftShape]; omega),
      Register.lane_eq_ok (by rw [rightShape]; omega)] at same
    exact (Except.ok.inj same).symm
  -- Padding the stage kept its used lanes, so what it exchanges still agrees on them.
  have after := before.exchanged serve.valid (by rw [leftShape]; omega)
  refine ⟨_, _, serve.execute leftShape, serve.execute rightShape, ?_⟩
  intro lane below
  refine ⟨(left.exchanged parts.padded element).laneBits element.width lane, ?_, ?_⟩
  · apply Register.lane_eq_ok
    rw [Register.shape_exchanged, leftShape]
    omega
  · rw [← after.laneBits_eq lane (by omega)]
    apply Register.lane_eq_ok
    rw [Register.shape_exchanged, rightShape]
    omega

/-- Padding that reads a used lane and holds junk leaves no trace in three words. -/
theorem Stage.execute_ignores_padding_three_words :
    Stage.Valid ⟨[2, 1, 0, 0], 3⟩ ∧
    ∃ plan, Stage.compile ⟨[2, 1, 0, 0], 3⟩ ⟨.b2, true⟩ (.ofTier .avx2) true = .ok plan ∧
      (∀ lane < 3, Register.lane (.build .xmm UInt8.ofNat) .b2 lane =
        Register.lane (.build .xmm fun position => UInt8.ofNat (position % 6)) .b2 lane) ∧
      ∃ leftResult rightResult, plan.execute (.build .xmm UInt8.ofNat) = .ok leftResult ∧
        plan.execute (.build .xmm fun position => UInt8.ofNat (position % 6)) = .ok rightResult ∧
          ∀ lane < 3, ∃ bits, leftResult.lane .b2 lane = .ok bits ∧
            rightResult.lane .b2 lane = .ok bits := by
  -- The bytes only start over after the third word.
  have agree : ∀ lane < 3, Register.lane (.build .xmm UInt8.ofNat) .b2 lane =
      Register.lane (.build .xmm fun position => UInt8.ofNat (position % 6)) .b2 lane := by
    intro lane below
    have inside : lane < Shape.lanes .xmm .b2 := Nat.lt_trans below (by decide)
    rw [Register.lane_eq_ok inside, Register.lane_eq_ok inside]
    refine congrArg Except.ok (Register.laneBits_congr fun offset within => ?_)
    have bound := Register.byte_inside inside within
    rw [Register.byte_build _ _ _ bound, Register.byte_build _ _ _ bound, Nat.mod_eq_of_lt]
    rw [Width.bytes] at within ⊢
    omega
  exact ⟨by decide, _, rfl, agree, Stage.execute_ignores_padding ⟨[2, 1, 0, 0], 3⟩ ⟨.b2, true⟩
    (.ofTier .avx2) true _ (by decide) rfl _ _ rfl rfl agree⟩

end SimdNetwork
