import SimdNetwork.Proofs.Plan.Compile
import SimdNetwork.Proofs.Route.Coarsen

/-! A plan depends only on the pairing, not on self-paired lanes at the end or the used size. -/

namespace SimdNetwork

section Padding

variable {stage padded : Stage} {element : Element} {shape : Shape} {lanes : Nat}

/-- A register is the smallest for every count of bytes from one that needs it up to its own. -/
theorem Shape.fitting?_of_le {fewer more : Nat} (found : fitting? fewer = some shape)
    (grows : fewer ≤ more) (held : more ≤ shape.bytes) : fitting? more = some shape := by
  -- Every smaller register was already too small for fewer bytes.
  rw [fitting?, all, List.find?_eq_some_iff_append] at found ⊢
  obtain ⟨_, before, after, split, small⟩ := found
  refine ⟨by simpa using held, before, after, split, ?_⟩
  intro other listed
  have missed := small other listed
  simp only [Bool.not_eq_eq_eq_not, Bool.not_true, decide_eq_false_iff_not] at missed ⊢
  omega

/-- A padded stage that its register still holds is set up as the stage is. -/
theorem Stage.setting_padTo (target : Target) (widen : Bool)
    (found : stage.shapeFor element = .ok shape) (held : lanes ≤ shape.lanes element.width)
    (made : stage.padTo lanes = .ok padded) :
    padded.setting element target widen = stage.setting element target widen := by
  -- The new lanes still fit the register, and filling them up to it comes to the same stage.
  have bytes : lanes * element.bytes ≤ shape.bytes := by
    have room := Nat.mul_le_mul_right element.bytes held
    rw [Element.bytes] at room ⊢
    rwa [shape.lanes_mul_bytes] at room
  have grows := Nat.mul_le_mul_right element.bytes (padTo_eq_ok.mp made).1
  have register : padded.shapeFor element = .ok shape := by
    rw [shapeFor_eq_ok, lanes_padTo made]
    exact Shape.fitting?_of_le (shapeFor_eq_ok.mp found) grows bytes
  rw [setting, setting, found, register, ok_bind, ok_bind, padTo_padTo made held]

end Padding

/-- All that the choice of a permute reads of a candidate. -/
def Candidate.move (candidate : Candidate) : Width × Route :=
  (candidate.unit, Route.ofStage candidate.stage candidate.unit)

/-- Candidates that move the same bytes at the same widths leave the same choice. -/
theorem choosePermute_congr {target : Target} {shape : Shape} {left right : List Candidate}
    (same : left.map Candidate.move = right.map Candidate.move) :
    choosePermute target shape left = choosePermute target shape right := by
  -- The attempts are made from what the candidates move, and from nothing else of them.
  have outcomes : ∀ candidates : List Candidate,
      (trials target shape candidates).map (Trial.attempt shape) =
        (candidates.map Candidate.move).reverse.flatMap fun move =>
          (target.permutes shape move.1).map fun row =>
            (Permute.encode row.kind row.unit move.2 shape).map (⟨row, ·⟩) := by
    intro candidates
    rw [trials, List.map_flatMap, ← List.map_reverse, List.flatMap_map]
    simp only [List.map_map]
    rfl
  have attempts : permuteAttempts target shape left = permuteAttempts target shape right := by
    apply mapM_congr
    rw [outcomes, outcomes, same]
  rw [choosePermute, choosePermute, attempts]

section Relabelled

variable {left right : Stage}

/-- Valid stages with the same partners coarsen to stages with the same partners. -/
theorem Stage.Valid.partners_coarsen (leftValid : left.Valid) (rightValid : right.Valid)
    (same : left.partners = right.partners) (factor : Nat) :
    (left.coarsen factor).map Stage.partners = (right.coarsen factor).map Stage.partners := by
  -- A factor below two is refused for both stages.
  by_cases large : 2 ≤ factor
  · -- The used sizes only decide how many of the blocks count as used.
    rw [leftValid.coarsen_eq large, rightValid.coarsen_eq large, same, Option.map_map,
      Option.map_map]
    rfl
  · rw [coarsen, coarsen, if_pos (by omega), if_pos (by omega)]

/-- Valid stages with the same partners have readings that move the same bytes. -/
theorem Stage.Valid.move_readings (leftValid : left.Valid) (rightValid : right.Valid)
    (same : left.partners = right.partners) (width : Width) (widen : Bool) :
    (left.readings width widen).map Candidate.move =
      (right.readings width widen).map Candidate.move := by
  -- A reading is known by its width and by the partners it coarsens to.
  have wide : ∀ stage : Stage, ((stage.wideReadings width).map Coarsening.candidate).map
      Candidate.move = width.wider.filterMap fun wide => ((stage.coarsen (width.factorTo wide)).map
        Stage.partners).map fun partners => (wide, ⟨expand wide.bytes partners⟩) := by
    intro stage
    rw [wideReadings, List.map_map, List.map_filterMap]
    simp only [Option.map_map]
    rfl
  have own : Candidate.move ⟨width, left⟩ = Candidate.move ⟨width, right⟩ := by
    rw [Candidate.move, Candidate.move, Route.ofStage, Route.ofStage, same]
  rw [readings, readings, List.map_cons, List.map_cons, own]
  cases widen with
  | false => rfl
  | true =>
    simp only [if_true, wide, leftValid.partners_coarsen rightValid same]

/-- A blend is chosen by the partners alone. -/
theorem Lowering.chooseBlend_congr (lowering : Lowering) (same : left.partners = right.partners) :
    lowering.chooseBlend left = lowering.chooseBlend right := by
  obtain ⟨partners, leftUsed⟩ := left
  obtain ⟨_, rightUsed⟩ := right
  obtain rfl : partners = _ := same
  -- Which lanes blend is read off the partners, so no row tells the two stages apart.
  have first : ∀ rows, firstBlend? ⟨partners, leftUsed⟩ lowering.element.width rows =
      firstBlend? ⟨partners, rightUsed⟩ lowering.element.width rows := by
    intro rows
    induction rows with
    | nil => rfl
    | cons row rest ih =>
      rw [firstBlend?, firstBlend?, ih]
      rfl
  rw [chooseBlend, chooseBlend, first]

/-- Valid stages with the same partners compile to the same, plan or failure. -/
theorem Stage.Valid.compile_congr (leftValid : left.Valid) (rightValid : right.Valid)
    (same : left.partners = right.partners) (element : Element) (target : Target) (widen : Bool) :
    left.compile element target widen = right.compile element target widen := by
  -- Step by step both stages come to the same, though their padded stages may differ.
  have count : left.lanes = right.lanes := by rw [lanes, lanes, same]
  have register : left.shapeFor element = right.shapeFor element := by
    rw [shapeFor, shapeFor, count]
  cases found : right.shapeFor element with
  | error failure => rw [compile_of_shapeFor found, compile_of_shapeFor (register.trans found)]
  | ok shape =>
    cases lowered : target.resolve shape element with
    | error problem =>
      rw [compile_of_resolve found lowered, compile_of_resolve (register.trans found) lowered]
    | ok lowering =>
      have room := lanes_le_of_shapeFor found
      obtain ⟨leftPadded, leftMade⟩ :
          ∃ padded, left.padTo (shape.lanes element.width) = .ok padded :=
        ⟨_, padTo_eq_ok.mpr ⟨count ▸ room, rfl⟩⟩
      obtain ⟨rightPadded, rightMade⟩ :
          ∃ padded, right.padTo (shape.lanes element.width) = .ok padded :=
        ⟨_, padTo_eq_ok.mpr ⟨room, rfl⟩⟩
      -- Both stages get the same new lanes, so the padded stages are again paired alike.
      have padded : leftPadded.partners = rightPadded.partners := by
        rw [(padTo_eq_ok.mp leftMade).2, (padTo_eq_ok.mp rightMade).2, same, count]
      have moves := (valid_padTo leftValid leftMade).move_readings
        (valid_padTo rightValid rightMade) padded element.width widen
      -- Both settings offer permutes of the same bytes, and blends of the same lanes.
      have leftSet : left.setting element target widen = _ := setting_eq_ok.mpr
        ⟨shape, lowering, leftPadded, register.trans found, lowered, leftMade, rfl⟩
      have rightSet : right.setting element target widen = _ := setting_eq_ok.mpr
        ⟨shape, lowering, rightPadded, found, lowered, rightMade, rfl⟩
      rw [compile, compile, leftSet, rightSet, ok_bind, ok_bind]
      dsimp only
      rw [choosePermute_congr moves, lowering.chooseBlend_congr padded]

end Relabelled

/--
A plan depends only on how the lanes of the register are paired.

Padding a valid stage itself, up to the lanes of its register, changes nothing in what compiling it
comes to, and neither does counting more or fewer of its lanes as used.
-/
theorem Stage.compile_of_pairing (stage : Stage) (element : Element) (target : Target)
    (widen : Bool) (valid : stage.Valid) :
    (∀ shape, stage.shapeFor element = .ok shape →
      ∀ lanes, stage.lanes ≤ lanes → lanes ≤ shape.lanes element.width →
        ∃ padded, stage.padTo lanes = .ok padded ∧
          padded.compile element target widen = stage.compile element target widen) ∧
    ∀ used relabelled, ofWritten stage.written used = .ok relabelled →
      relabelled.compile element target widen = stage.compile element target widen := by
  constructor
  · -- The padded stage is given the same register and is filled up to the same lanes.
    intro shape found lanes grows held
    have made : stage.padTo lanes = .ok _ := padTo_eq_ok.mpr ⟨grows, rfl⟩
    refine ⟨_, made, ?_⟩
    rw [compile, compile, setting_padTo target widen found held made]
  · intro used relabelled made
    have relabelledValid := valid_of_ofWritten made
    -- Writing the partners down and reading them again keeps their order.
    have same : relabelled.partners = stage.partners := by
      obtain ⟨_, _, rfl⟩ := map_eq_ok.mp made
      exact List.reverse_reverse stage.partners
    exact relabelledValid.compile_congr valid same element target widen

/-- Five used bytes of eight, padded or counted as four, keep a plan that moves wider lanes. -/
theorem Stage.compile_of_pairing_five_bytes :
    Stage.Valid ⟨[2, 3, 0, 1, 4, 5, 0, 1], 5⟩ ∧
    Stage.shapeFor ⟨[2, 3, 0, 1, 4, 5, 0, 1], 5⟩ ⟨.b1, false⟩ = .ok .xmm ∧
    Stage.compile ⟨[2, 3, 0, 1, 4, 5, 0, 1, 8, 9], 5⟩ ⟨.b1, false⟩ (.ofTier .avx2) true =
      Stage.compile ⟨[2, 3, 0, 1, 4, 5, 0, 1], 5⟩ ⟨.b1, false⟩ (.ofTier .avx2) true ∧
    Stage.ofWritten [1, 0, 5, 4, 1, 0, 3, 2] 4 = .ok ⟨[2, 3, 0, 1, 4, 5, 0, 1], 4⟩ ∧
    Stage.compile ⟨[2, 3, 0, 1, 4, 5, 0, 1], 4⟩ ⟨.b1, false⟩ (.ofTier .avx2) true =
      Stage.compile ⟨[2, 3, 0, 1, 4, 5, 0, 1], 5⟩ ⟨.b1, false⟩ (.ofTier .avx2) true ∧
    ∃ plan, Stage.compile ⟨[2, 3, 0, 1, 4, 5, 0, 1], 5⟩ ⟨.b1, false⟩ (.ofTier .avx2) true =
      .ok plan ∧ plan.isCoarsened = true := by
  -- Padding and relabelling are run, and the theorem compares the plans.
  have valid : Stage.Valid ⟨[2, 3, 0, 1, 4, 5, 0, 1], 5⟩ := by decide
  obtain ⟨padding, relabelling⟩ := Stage.compile_of_pairing ⟨[2, 3, 0, 1, 4, 5, 0, 1], 5⟩
    ⟨.b1, false⟩ (.ofTier .avx2) true valid
  obtain ⟨padded, made, same⟩ := padding .xmm rfl 10 (by decide) (by decide)
  obtain rfl : ⟨[2, 3, 0, 1, 4, 5, 0, 1, 8, 9], 5⟩ = padded := Except.ok.inj made
  exact ⟨valid, rfl, same, rfl, relabelling 4 _ rfl, _, rfl, rfl⟩

end SimdNetwork
