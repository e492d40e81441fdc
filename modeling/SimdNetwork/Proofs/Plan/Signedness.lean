import SimdNetwork.Proofs.Plan.Execute

/-! Whether elements are signed matters to the compare alone. -/

namespace SimdNetwork

namespace Register

/-- Flipping signs stays in the same kind of register. -/
@[simp] theorem shape_flipSigns (register : Register) (width : Width) :
    (register.flipSigns width).shape = register.shape := rfl

/-- Flipping the signs twice changes nothing. -/
theorem flipSigns_flipSigns (register : Register) (width : Width) :
    (register.flipSigns width).flipSigns width = register := by
  -- A sign bit that is flipped twice is what it was.
  apply ext_byte
  · rfl
  · intro position inside
    rw [(register.flipSigns width).byte_flipSigns width inside,
      register.byte_flipSigns width inside]
    split
    · rw [UInt8.xor_assoc, UInt8.xor_self, UInt8.xor_zero]
    · rfl

section Exchange

variable {register : Register} {width : Width} {stage : Stage}

/-- Partners are fetched by whole lanes, so they may be fetched before or after a flip. -/
theorem routed_flipSigns (valid : stage.Valid) (full : stage.lanes = register.shape.lanes width) :
    (register.flipSigns width).routed (Route.ofStage stage width) =
      (register.routed (Route.ofStage stage width)).flipSigns width := by
  -- Both registers are compared byte by byte.
  have fits := Route.fits_ofStage valid full
  apply ext_byte
  · rfl
  · intro position inside
    -- A byte comes from the same place in the lane of the partner.
    have place : (Route.ofStage stage width).source position % width.bytes =
        position % width.bytes := by
      have paired := List.getElem?_eq_getElem (l := stage.partners)
        (i := position / width.bytes) (by
          show _ < stage.lanes
          rw [full]
          exact lane_lt inside)
      rw [Route.source_ofStage paired, (block_of_place _ (Nat.mod_lt _ width.bytes_pos)).2]
    rw [(register.flipSigns width).byte_routed _ inside,
      register.byte_flipSigns width (fits.source_lt inside),
      (register.routed _).byte_flipSigns width inside, register.byte_routed _ inside, place]

/-- Choosing bytes from two registers may be done before or after both are flipped. -/
theorem flipSigns_choose {shape : Shape} {first second : Register}
    (firstShape : first.shape = shape) (secondShape : second.shape = shape)
    (takes : Nat → Bool) :
    (build shape fun position =>
        if takes position then (second.flipSigns width).byte position
        else (first.flipSigns width).byte position) =
      (build shape fun position =>
        if takes position then second.byte position else first.byte position).flipSigns width := by
  -- Whichever register a byte is taken from, it is flipped by its place alone.
  apply ext_byte
  · rfl
  · intro position (inside : position < shape.bytes)
    rw [byte_flipSigns (build shape _) width inside, byte_build shape _ _ inside,
      byte_build shape _ _ inside, first.byte_flipSigns width (by rw [firstShape]; exact inside),
      second.byte_flipSigns width (by rw [secondShape]; exact inside)]
    cases takes position with
    | true => rfl
    | false => rfl

/-- A side keeps the same lanes of flipped registers, in the signed order. -/
theorem kept_flipSigns {first second : Register} (side : Side)
    (shapes : second.shape = first.shape) :
    (first.flipSigns width).kept (second.flipSigns width) ⟨width, true⟩ side =
      (first.kept second ⟨width, false⟩ side).flipSigns width := by
  -- A lane is kept whole, so only the comparisons have to agree.
  rw [kept, kept, ← flipSigns_choose rfl shapes]
  apply build_congr
  intro position (inside : position < first.shape.bytes)
  -- The two tests compare the same lanes, each in its own order.
  have inLane : position / width.bytes < first.shape.lanes width := lane_lt inside
  exact congrArg (fun greater => if keepsSecond side greater
      then (second.flipSigns width).byte position else (first.flipSigns width).byte position)
    (decide_eq_decide.mpr (flipSigns_lt_iff shapes inLane))

/-- Exchanging flipped lanes in the signed order is exchanging them in the unsigned one. -/
theorem exchanged_flipSigns (valid : stage.Valid)
    (full : stage.lanes = register.shape.lanes width) :
    (register.flipSigns width).exchanged stage ⟨width, true⟩ =
      (register.exchanged stage ⟨width, false⟩).flipSigns width := by
  -- Fetching partners, keeping and choosing all go past the flip.
  have shapes := register.shape_routed (Route.ofStage stage width)
  rw [exchanged, exchanged]
  simp only [shape_flipSigns, Element.bytes, routed_flipSigns valid full, kept_flipSigns _ shapes]
  apply flipSigns_choose
  · rfl
  · rfl

end Exchange

end Register

section BothCompile

variable {stage : Stage} {width : Width} {target : Target} {widen : Bool}

/-- Both kinds of elements of one width need the same register. -/
theorem Stage.shapeFor_signed {shape other : Shape}
    (found : stage.shapeFor ⟨width, false⟩ = .ok shape)
    (otherFound : stage.shapeFor ⟨width, true⟩ = .ok other) : other = shape := by
  -- The register is found by counting bytes, and the width alone counts there.
  rw [shapeFor_eq_ok] at found otherFound
  exact Option.some.inj (otherFound.symm.trans found)

/-- Lowerings for elements of one width blend alike. -/
theorem Lowering.Resolved.chooseBlend_eq {lowering other : Lowering} {shape : Shape}
    {element otherElement : Element} (resolved : lowering.Resolved target shape element)
    (otherResolved : other.Resolved target shape otherElement)
    (same : otherElement.width = element.width) (stage : Stage) :
    other.chooseBlend stage = lowering.chooseBlend stage := by
  -- The search reads the width, the register and the usable blends.
  simp only [Lowering.chooseBlend, resolved.element_eq, resolved.blends_eq, resolved.shape_eq,
    otherResolved.element_eq, otherResolved.blends_eq, otherResolved.shape_eq, same]

/-- The plans for both kinds of elements of one width differ in how they compare, if at all. -/
theorem Stage.compile_signed {unsigned signed : Plan}
    (compiled : stage.compile ⟨width, false⟩ target widen = .ok unsigned)
    (signedCompiled : stage.compile ⟨width, true⟩ target widen = .ok signed) :
    signed = { unsigned with
      element := ⟨width, true⟩
      compare := signed.compare
      compareRequires := signed.compareRequires } := by
  -- Both plans are taken apart into the results of their steps.
  obtain ⟨shape, lowering, padded, permute, blend, found, lowered, made, moved, blended, rfl⟩ :=
    compile_eq_ok.mp compiled
  obtain ⟨_, other, _, _, _, otherFound, otherLowered, otherMade, otherMoved, otherBlended, rfl⟩ :=
    compile_eq_ok.mp signedCompiled
  obtain rfl := shapeFor_signed found otherFound
  -- The register is filled up to the same lanes, and the same permutes are tried on them.
  cases Except.ok.inj (made.symm.trans otherMade)
  cases Except.ok.inj (moved.symm.trans otherMoved)
  have resolved := Target.resolved_of_resolve lowered
  have otherResolved := Target.resolved_of_resolve otherLowered
  rw [resolved.chooseBlend_eq otherResolved rfl, blended] at otherBlended
  cases otherBlended
  simp only [Plan.Parts.plan, resolved.shape_eq, otherResolved.shape_eq, otherResolved.element_eq]

end BothCompile

/--
Signedness changes the compare and nothing else.

Where both the unsigned and the signed elements of a width compile, the two plans agree in the
register, in the permute with its unit, in the blend and in the selector. On every register of
theirs the signed plan is the unsigned one under a flip: flip the signs of all lanes, run the signed
plan, flip the signs back, and what is left is what the unsigned plan leaves.
-/
theorem Stage.execute_flipSigns_of_compile (stage : Stage) (width : Width) (target : Target)
    (widen : Bool) (unsigned signed : Plan) (valid : stage.Valid)
    (compiled : stage.compile ⟨width, false⟩ target widen = .ok unsigned)
    (signedCompiled : stage.compile ⟨width, true⟩ target widen = .ok signed) :
    signed.shape = unsigned.shape ∧ signed.permuteUnit = unsigned.permuteUnit ∧
    signed.steps.head? = unsigned.steps.head? ∧
    signed.steps.getLast? = unsigned.steps.getLast? ∧ signed.selector = unsigned.selector ∧
    ∀ register : Register, register.shape = unsigned.shape →
      ∃ result, unsigned.execute register = .ok result ∧
        (signed.execute (register.flipSigns width)).map (·.flipSigns width) = .ok result := by
  -- One equation between the plans settles all but how they run.
  have same := compile_signed compiled signedCompiled
  refine ⟨by rw [same], by rw [same], by rw [same]; rfl, by rw [same]; rfl, by rw [same], ?_⟩
  intro register shaped
  obtain ⟨shape, parts, found, serve, rfl⟩ := parts_of_compile valid compiled
  obtain ⟨otherShape, otherParts, otherFound, otherServe, rfl⟩ :=
    parts_of_compile valid signedCompiled
  obtain rfl := shapeFor_signed found otherFound
  rw [serve.shape_plan] at shaped
  -- Both plans exchange the same padded stage, which fills the register.
  have padded : otherParts.padded = parts.padded :=
    Except.ok.inj (otherServe.padded.symm.trans serve.padded)
  have full : parts.padded.lanes = register.shape.lanes width := by
    rw [shaped]
    exact lanes_padTo serve.padded
  refine ⟨_, serve.execute shaped, ?_⟩
  rw [otherServe.execute ((register.shape_flipSigns width).trans shaped), padded,
    Register.exchanged_flipSigns serve.valid full]
  exact congrArg Except.ok (Register.flipSigns_flipSigns _ width)

/--
Two qwords without a native compare are compared by two different plans.

The unsigned plan flips signs for its compare and the signed plan does not, and they differ in
nothing else that a register shows.
-/
theorem Stage.execute_flipSigns_of_compile_two_qwords :
    Stage.Valid ⟨[1, 0], 2⟩ ∧
    ∃ unsigned signed, Stage.compile ⟨[1, 0], 2⟩ ⟨.b8, false⟩ (.ofTier .sse4) true = .ok unsigned ∧
      Stage.compile ⟨[1, 0], 2⟩ ⟨.b8, true⟩ (.ofTier .sse4) true = .ok signed ∧
        unsigned.compare = .emulated true ∧ signed.compare = .emulated false ∧
          signed.steps.head? = unsigned.steps.head? ∧
            ∃ result, unsigned.execute (.build .xmm fun position => 255 - UInt8.ofNat position) =
              .ok result ∧
                (signed.execute (Register.flipSigns
                  (.build .xmm fun position => 255 - UInt8.ofNat position) .b8)).map
                    (·.flipSigns .b8) = .ok result := by
  -- Both plans are computed, and how they compare is read off them.
  refine ⟨by decide, _, _, rfl, rfl, rfl, rfl, ?_⟩
  obtain ⟨_, _, moved, _, _, flipped⟩ := Stage.execute_flipSigns_of_compile ⟨[1, 0], 2⟩ .b8
    (.ofTier .sse4) true _ _ (by decide) rfl rfl
  exact ⟨moved, flipped (.build .xmm fun position => 255 - UInt8.ofNat position) rfl⟩

end SimdNetwork
