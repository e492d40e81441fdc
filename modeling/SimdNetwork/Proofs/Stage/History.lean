import SimdNetwork.Proofs.Route
import SimdNetwork.Proofs.Selector
import SimdNetwork.Proofs.Stage.Validate

/-!
However a stage was made and revised it passes its check, and padding it changes nothing but the
number of its lanes.
-/

namespace SimdNetwork

namespace Stage

section Padding

variable {stage padded : Stage} {target : Nat}

/-- Padding leaves the low lanes alone, since the lanes it adds are their own partners. -/
theorem isLow_padTo (made : stage.padTo target = .ok padded) : padded.isLow = stage.isLow := by
  -- A lane is low because of its mate, and padding changes no mate.
  funext lane
  rw [isLow_eq, isLow_eq, mate_padTo made]

/-- Padding leaves the mask of the low lanes alone, and whether one word can hold it. -/
theorem lowLanes_padTo (made : stage.padTo target = .ok padded) :
    padded.lowLanes = stage.lowLanes := by
  -- The mask is made of the low lanes, which padding does not change.
  have bits : maskOf padded.lanes padded.isLow = maskOf stage.lanes stage.isLow := by
    apply Nat.eq_of_testBit_eq
    intro lane
    rw [testBit_lowMask, testBit_lowMask, isLow_padTo made]
  -- Only low lanes have to fit in the word, and no lane beyond the old ones is low.
  have small : (∀ lane < padded.lanes, padded.isLow lane → lane < 64) ↔
      ∀ lane < stage.lanes, stage.isLow lane → lane < 64 := by
    rw [isLow_padTo made]
    constructor
    · intro every lane inside low
      have room := (padTo_eq_ok.mp made).1
      exact every lane (by rw [lanes_padTo made]; omega) low
    · intro every lane _ low
      exact every lane (lt_of_isLow low) low
  rw [lowLanes, lowLanes, bits]
  exact if_congr small rfl rfl

/-- A valid stage is idle when its partners lead every used lane to itself. -/
theorem Valid.isIdle_iff (valid : stage.Valid) :
    stage.isIdle = true ↔ ∀ lane < stage.used, stage.mate lane = lane := by
  -- A used lane has a partner listed, so the check compares the two.
  rw [isIdle, List.all_eq_true]
  constructor
  · intro every lane inside
    have own := every lane (List.mem_range.mpr inside)
    rw [valid.partners_mate inside] at own
    simpa using own
  · intro every lane member
    have inside := List.mem_range.mp member
    rw [valid.partners_mate inside, every lane inside]
    exact beq_self_eq_true _

end Padding

/-- A stage with more lanes that does the same on the old lanes and leaves the new ones alone. -/
structure Extends (wide stage : Stage) (target : Nat) : Prop where
  /-- The wide stage has as many lanes as were asked for. -/
  lanes_eq : wide.lanes = target
  /-- The same lanes are used. -/
  used_eq : wide.used = stage.used
  /-- Every old lane has its old partner. -/
  partner_eq : ∀ lane < stage.lanes, wide.partner lane = stage.partner lane
  /-- Every old lane is on its old side. -/
  side_eq : ∀ lane < stage.lanes, wide.side lane = stage.side lane
  /-- Every new lane is its own partner. -/
  partner_new : ∀ lane, stage.lanes ≤ lane → lane < target → wide.partner lane = .ok lane
  /-- The low lanes have the same mask. -/
  lowLanes_eq : wide.lowLanes = stage.lowLanes
  /-- Lanes that fit in one word have a mask. -/
  lowLanes_ok : target ≤ 64 → ∃ low, stage.lowLanes = .ok low
  /-- Both are idle or neither is. -/
  isIdle_eq : wide.isIdle = stage.isIdle
  /-- Both are involutions or neither is. -/
  isInvolution_eq : wide.isInvolution = stage.isInvolution

/-- Padding a valid stage extends it. -/
theorem Valid.extends_padTo {stage padded : Stage} {target : Nat} (valid : stage.Valid)
    (made : stage.padTo target = .ok padded) : padded.Extends stage target := by
  -- The padded stage is valid as well, so both are read through their mates.
  have room := (padTo_eq_ok.mp made).1
  have count := lanes_padTo made
  have paddedValid := valid_padTo valid made
  have mates := mate_padTo made
  have used := used_padTo made
  -- All that a lane does depends on its mate, which padding keeps.
  refine ⟨count, used, ?_, ?_, ?_, lowLanes_padTo made, ?_, ?_, ?_⟩
  · intro lane inside
    rw [partner_eq_ok (by omega), partner_eq_ok inside, mates]
  · intro lane inside
    rw [side_eq_ok (by omega), side_eq_ok inside, mates]
  · intro lane beyond inside
    rw [partner_eq_ok (by omega), mates, mate_beyond beyond]
  · intro few
    exact ⟨_, lowLanes_eq_ok (by omega)⟩
  · rw [Bool.eq_iff_iff, paddedValid.isIdle_iff, valid.isIdle_iff, used]
    simp only [mates]
  · rw [Bool.eq_iff_iff, paddedValid.isInvolution_iff, valid.isInvolution_iff, used]
    simp only [mates]

/-- A way of making a stage from lists and sizes. -/
inductive Origin where
  /-- From partners written highest lane first, all lanes being used. -/
  | whole (indices : List Nat)
  /-- From partners written highest lane first, so many lanes being used. -/
  | sized (indices : List Nat) (used : Nat)
  /-- From partners listed lane zero first, so many lanes being used. -/
  | paired (mates : List Nat) (used : Nat)
  /-- The stage that leaves so many lanes alone. -/
  | resting (count : Nat)

/-- The stage that an origin makes, unless it has a flaw. -/
def Origin.make : Origin → Except Flaw Stage
  | .whole indices => ofWritten indices indices.length
  | .sized indices used => ofWritten indices used
  | .paired mates used => ofPartners mates used
  | .resting count => idle count

/-- A way of making a stage from another stage. -/
inductive Revision where
  /-- More lanes, the new ones left alone. -/
  | pad (target : Nat)
  /-- Fewer and wider lanes. -/
  | coarsen (factor : Nat)
  /-- The same partners with so many lanes used. -/
  | relabel (used : Nat)
  /-- The partners as they are written, listed lane zero first. -/
  | reverse (used : Nat)

/-- The stage that a revision makes of a stage, if it makes one. -/
def Revision.result? (stage : Stage) : Revision → Option Stage
  | .pad target => (stage.padTo target).toOption
  | .coarsen factor => (stage.coarsenWritten factor).toOption.join
  | .relabel used => (ofWritten stage.written used).toOption
  | .reverse used => (ofPartners stage.written used).toOption

/-- The stage that an origin and revisions, one after another, make, if each of them makes one. -/
def Origin.revised? (origin : Origin) (revisions : List Revision) : Option Stage :=
  origin.make.toOption.bind fun first => revisions.foldlM Revision.result? first

/-- Every origin makes valid stages. -/
theorem Origin.valid_make {origin : Origin} {stage : Stage} (made : origin.make = .ok stage) :
    stage.Valid := by
  -- All origins end in the same check of a written list.
  cases origin with
  | whole indices => exact valid_of_ofWritten made
  | sized indices used => exact valid_of_ofWritten made
  | paired mates used => exact valid_of_ofWritten made
  | resting count => exact valid_of_ofWritten made

/-- Every revision makes valid stages of valid stages. -/
theorem Revision.valid_result {revision : Revision} {stage result : Stage} (valid : stage.Valid)
    (made : revision.result? stage = some result) : result.Valid := by
  -- All revisions but padding check the stage they make.
  cases revision with
  | pad target =>
    -- The only revision that makes a stage without checking it.
    exact valid_padTo valid (toOption_eq_some.mp made)
  | coarsen factor =>
    rw [result?, coarsenWritten_eq] at made
    exact (coarsen_eq_some made).2.2.2
  | relabel used => exact valid_of_ofWritten (toOption_eq_some.mp made)
  | reverse used => exact valid_of_ofWritten (toOption_eq_some.mp made)

/-- Revisions, however many, make valid stages of valid stages. -/
theorem valid_of_revisions {revisions : List Revision} {first stage : Stage} (valid : first.Valid)
    (made : revisions.foldlM Revision.result? first = some stage) : stage.Valid := by
  -- Induction on the revisions left; that the stage reached so far is valid carries it.
  induction revisions generalizing first with
  | nil =>
    obtain rfl : first = stage := by simpa using made
    exact valid
  | cons revision rest ih =>
    rw [List.foldlM_cons] at made
    obtain ⟨next, applied, later⟩ := Option.bind_eq_some_iff.mp made
    exact ih (revision.valid_result valid applied) later

/-- Every stage that was made and revised is valid. -/
theorem Origin.valid_revised {origin : Origin} {revisions : List Revision} {stage : Stage}
    (made : origin.revised? revisions = some stage) : stage.Valid := by
  -- The stage that the origin makes is valid, and revisions keep it so.
  obtain ⟨first, begun, later⟩ := Option.bind_eq_some_iff.mp made
  exact valid_of_revisions (valid_make (toOption_eq_some.mp begun)) later

/-- A valid stage passes the guarded check. -/
theorem Valid.validate_eq_ok {stage : Stage} (valid : stage.Valid) :
    validate stage.written stage.used = .ok () := by
  -- The guarded check comes to the verdict that validity is.
  rw [validate_eq, orRefuse_eq_ok, mapError_eq_ok]
  exact valid

/--
Whatever made a stage and however often it was revised, it passes its check.

It can be padded to any larger number of lanes without being checked again: the padded stage passes
the check too and extends the stage, and padding it further is padding the stage itself.
-/
theorem sound_of_revised (origin : Origin) (revisions : List Revision) (stage : Stage)
    (made : origin.revised? revisions = some stage) :
    validate stage.written stage.used = .ok () ∧
      ∀ target, stage.lanes ≤ target → ∃ padded, stage.padTo target = .ok padded ∧
        validate padded.written padded.used = .ok () ∧ padded.Extends stage target ∧
          ∀ more, target ≤ more → padded.padTo more = stage.padTo more := by
  -- The history matters only in that it leaves a valid stage.
  have valid := Origin.valid_revised made
  refine ⟨valid.validate_eq_ok, ?_⟩
  intro target room
  have padding := padTo_eq_ok.mpr ⟨room, rfl⟩
  exact ⟨_, padding, (valid_padTo valid padding).validate_eq_ok, valid.extends_padTo padding,
    fun _ grows => padTo_padTo padding grows⟩

/-- Six lanes in swapped pairs, padded, coarsened, reversed into a cycle and padded again. -/
theorem sound_of_revised_cycle :
    (Origin.whole [1, 0, 3, 2, 5, 4]).revised?
      [.pad 8, .coarsen 2, .reverse 4, .relabel 4, .pad 6] = some ⟨[3, 0, 1, 2, 4, 5], 4⟩ ∧
    validate [5, 4, 2, 1, 0, 3] 4 = .ok () ∧
    ∃ padded, padTo ⟨[3, 0, 1, 2, 4, 5], 4⟩ 8 = .ok padded ∧
      validate padded.written padded.used = .ok () ∧
        padded.Extends ⟨[3, 0, 1, 2, 4, 5], 4⟩ 8 ∧
          padded.padTo 16 = padTo ⟨[3, 0, 1, 2, 4, 5], 4⟩ 16 := by
  -- The history is run through once, and the rest is what holds of every history.
  have made : (Origin.whole [1, 0, 3, 2, 5, 4]).revised?
      [.pad 8, .coarsen 2, .reverse 4, .relabel 4, .pad 6] = some ⟨[3, 0, 1, 2, 4, 5], 4⟩ := rfl
  obtain ⟨passed, pads⟩ := sound_of_revised _ _ _ made
  obtain ⟨padded, padding, alsoPassed, extended, onward⟩ := pads 8 (by decide)
  exact ⟨made, passed, padded, padding, alsoPassed, extended, onward 16 (by decide)⟩

end Stage

end SimdNetwork
