import SimdNetwork.Plan.Compile
import SimdNetwork.Proofs.Blend
import SimdNetwork.Proofs.Lowering
import SimdNetwork.Proofs.Permute.Complete

/-! What compiling a stage comes to: which parts a plan has, and exactly when there is one. -/

namespace SimdNetwork

/-- A register is found for just the byte counts up to the limit. -/
theorem Shape.fitting?_eq_none_iff {count : Nat} : fitting? count = none ↔ limit < count := by
  -- None of the three registers holds the bytes, and the last of them is the largest.
  rw [fitting?, List.find?_eq_none]
  simp only [all, List.mem_cons, List.not_mem_nil, or_false, forall_eq_or_imp, forall_eq,
    decide_eq_true_eq]
  simp only [bytes, limit]
  omega

/-- A register that was found holds the bytes it was asked for. -/
theorem Shape.le_of_fitting? {count : Nat} {shape : Shape} (found : fitting? count = some shape) :
    count ≤ shape.bytes := by
  -- It was found by just this test.
  simpa using List.find?_some found

section Register

variable {stage : Stage} {element : Element} {shape : Shape}

/-- The register of a stage is the smallest that holds its lanes. -/
theorem Stage.shapeFor_eq_ok :
    stage.shapeFor element = .ok shape ↔
      Shape.fitting? (stage.lanes * element.bytes) = some shape := by
  -- The count is measured first, and only a count that fits a word is looked up.
  unfold shapeFor word
  by_cases countable : stage.lanes * element.bytes < 1 <<< 64
  · rw [if_pos countable]
    cases found : Shape.fitting? (stage.lanes * element.bytes) with
    | none => simp [found]
    | some other => simp [found]
  · -- A count that leaves the word is far beyond every register.
    have large : Shape.limit < stage.lanes * element.bytes := by
      rw [Shape.limit]
      omega
    rw [if_neg countable, Shape.fitting?_eq_none_iff.mpr large]
    simp

/-- The register of a stage has at least the stage's lanes. -/
theorem Stage.lanes_le_of_shapeFor (found : stage.shapeFor element = .ok shape) :
    stage.lanes ≤ shape.lanes element.width := by
  -- The bytes of the stage fit in the register, so its lanes do.
  have held := Shape.le_of_fitting? (shapeFor_eq_ok.mp found)
  rw [Shape.lanes, Nat.le_div_iff_mul_le element.width.bytes_pos]
  exact held

/-- A stage that a word can measure but no register can hold is refused for its width. -/
theorem Stage.shapeFor_eq_error (countable : stage.lanes * element.bytes < 1 <<< 64)
    (large : Shape.limit < stage.lanes * element.bytes) :
    stage.shapeFor element = .error (.refused
      (.invalid (.tooWide stage.lanes element (stage.lanes * element.bytes)))) := by
  -- The count is measured, and no register is found for it.
  unfold shapeFor word
  rw [if_pos countable]
  simp [Shape.fitting?_eq_none_iff.mpr large]

/-- A stage that a register can hold has one. -/
theorem Stage.exists_shapeFor (small : stage.lanes * element.bytes ≤ Shape.limit) :
    ∃ shape, stage.shapeFor element = .ok shape := by
  -- Only counts above the limit are left without a register.
  cases found : Shape.fitting? (stage.lanes * element.bytes) with
  | none =>
    have large := Shape.fitting?_eq_none_iff.mp found
    omega
  | some shape => exact ⟨shape, shapeFor_eq_ok.mpr found⟩

end Register

/-- A permute among those tried: a usable row at a candidate's width that encodes its route. -/
def PermuteChoice.Among (choice : PermuteChoice) (target : Target) (shape : Shape)
    (candidates : List Candidate) : Prop :=
  ∃ candidate ∈ candidates, choice.row ∈ permuteTable shape candidate.unit ∧
    target.supports choice.row.requires = true ∧
      Permute.encode choice.row.kind choice.row.unit
        (Route.ofStage candidate.stage candidate.unit) shape = .ok (some choice.permute)

/-- A permute is open to a target when a candidate offers its row and the row encodes the route. -/
structure PermuteChoice.Open (choice : PermuteChoice) (target : Target) (shape : Shape)
    (candidates : List Candidate) (route : Route) : Prop where
  /-- The target can run the row on the lanes of some candidate. -/
  offered : ∃ candidate ∈ candidates, choice.row ∈ target.permutes shape candidate.unit
  /-- The row encodes the route as the permute that was chosen. -/
  encoded : Permute.encode choice.row.kind choice.row.unit route shape = .ok (some choice.permute)

section ChoosePermute

variable {target : Target} {shape : Shape} {candidates : List Candidate} {route : Route}

/-- The trials are the usable rows of the candidates. -/
theorem mem_trials {trial : Trial} : trial ∈ trials target shape candidates ↔
    trial.candidate ∈ candidates ∧ trial.row ∈ target.permutes shape trial.candidate.unit := by
  -- Trials pair each candidate with each of its usable rows, in whatever order.
  obtain ⟨candidate, row⟩ := trial
  simp only [trials, List.mem_flatMap, List.mem_reverse, List.mem_map, Trial.mk.injEq]
  constructor
  · rintro ⟨_, listed, _, usable, rfl, rfl⟩
    exact ⟨listed, usable⟩
  · rintro ⟨listed, usable⟩
    exact ⟨candidate, listed, row, usable, rfl, rfl⟩

/-- The choices that the attempts leave are those among the candidates. -/
theorem mem_choices_iff_among {attempts : List Attempt}
    (made : permuteAttempts target shape candidates = .ok attempts) {choice : PermuteChoice} :
    choice ∈ attempts.filterMap Attempt.choice? ↔ choice.Among target shape candidates := by
  -- A choice is an attempt that encoded something, and an attempt is made at every trial.
  rw [List.mem_filterMap]
  constructor
  · rintro ⟨attempt, attempted, chosen⟩
    obtain ⟨permute, encoding, rfl⟩ := Option.map_eq_some_iff.mp chosen
    obtain ⟨trial, listed, taken⟩ := (mapM_eq_ok_mem made).mp attempted
    obtain ⟨candidate, usable⟩ := mem_trials.mp listed
    rw [Target.permutes, List.mem_filter] at usable
    -- An attempt at a trial keeps the trial's row.
    obtain ⟨result, encoded, rfl⟩ := map_eq_ok.mp taken
    obtain rfl : result = some permute := encoding
    exact ⟨trial.candidate, candidate, usable.1, usable.2, encoded⟩
  · rintro ⟨candidate, listed, inTable, usable, encoded⟩
    refine ⟨⟨choice.row, some choice.permute⟩, (mapM_eq_ok_mem made).mpr ?_, rfl⟩
    refine ⟨⟨candidate, choice.row⟩, mem_trials.mpr ⟨listed, ?_⟩, map_eq_ok.mpr ?_⟩
    · rw [Target.permutes, List.mem_filter]
      exact ⟨inTable, usable⟩
    · exact ⟨some choice.permute, encoded, rfl⟩

variable (same : ∀ candidate ∈ candidates, Route.ofStage candidate.stage candidate.unit = route)
include same

/-- Where all candidates move the same bytes, a permute among them encodes that one route. -/
theorem among_iff_open {choice : PermuteChoice} :
    choice.Among target shape candidates ↔ choice.Open target shape candidates route := by
  -- The candidate that offers the row moves the bytes of the route itself.
  constructor
  · rintro ⟨candidate, listed, inTable, usable, encoded⟩
    rw [same candidate listed] at encoded
    refine ⟨⟨candidate, listed, ?_⟩, encoded⟩
    rw [Target.permutes, List.mem_filter]
    exact ⟨inTable, usable⟩
  · rintro ⟨⟨candidate, listed, usable⟩, encoded⟩
    rw [Target.permutes, List.mem_filter] at usable
    rw [← same candidate listed] at encoded
    exact ⟨candidate, listed, usable.1, usable.2, encoded⟩

/-- The choices that the attempts leave are those that are open. -/
theorem mem_choices {attempts : List Attempt}
    (made : permuteAttempts target shape candidates = .ok attempts) {choice : PermuteChoice} :
    choice ∈ attempts.filterMap Attempt.choice? ↔ choice.Open target shape candidates route :=
  -- All candidates move the same bytes, so which of them offered the row is not asked.
  (mem_choices_iff_among made).trans (among_iff_open same)

/-- The permute that is chosen is open, and no open one is cheaper. -/
theorem choosePermute_eq_ok {choice : PermuteChoice}
    (chosen : choosePermute target shape candidates = .ok choice) :
    choice.Open target shape candidates route ∧
      ∀ other : PermuteChoice, other.Open target shape candidates route →
        choice.permute.cost ≤ other.permute.cost := by
  -- The least of the choices is taken, and every open permute is one of them.
  obtain ⟨attempts, made, rest⟩ := bind_eq_ok.mp chosen
  rw [orFault_eq_ok] at made
  split at rest
  · rename_i least found
    cases rest
    refine ⟨(mem_choices same made).mp (mem_of_firstLeast? found), ?_⟩
    intro other isOpen
    exact firstLeast?_le found other ((mem_choices same made).mpr isOpen)
  · cases rest

/-- A permute is chosen as soon as one is open on a route that fits the register. -/
theorem exists_choosePermute (fits : route.Fits shape) {choice : PermuteChoice}
    (isOpen : choice.Open target shape candidates route) :
    ∃ least, choosePermute target shape candidates = .ok least := by
  -- No encoder faults on a fitting route, so every trial is attempted.
  obtain ⟨attempts, made⟩ : ∃ attempts, permuteAttempts target shape candidates = .ok attempts := by
    refine exists_mapM_eq_ok.mpr ?_
    intro trial listed
    have member := (mem_trials.mp listed).1
    obtain ⟨result, encoded⟩ := Permute.exists_encode_eq_ok trial.row.kind trial.row.unit fits
    exact ⟨⟨trial.row, result⟩, map_eq_ok.mpr ⟨result, by rw [same _ member]; exact encoded, rfl⟩⟩
  cases found : firstLeast? (fun choice => choice.permute.cost)
      (attempts.filterMap Attempt.choice?) with
  | some least =>
    refine ⟨least, ?_⟩
    rw [choosePermute, orFault_eq_ok.mpr made, ok_bind, found]
  | none =>
    -- Only an empty list has no least element, and the open choice is in it.
    have listed := (mem_choices same made).mpr isOpen
    simp [firstLeast?_eq_none_iff.mp found] at listed

end ChoosePermute

/-- The parts that a plan is put together from. -/
structure Plan.Parts where
  /-- What the target offers. -/
  lowering : Lowering
  /-- The stage on all lanes of the register. -/
  padded : Stage
  /-- The permute. -/
  permute : PermuteChoice
  /-- The blend. -/
  blend : BlendChoice

/-- The plan with the given parts. -/
def Plan.Parts.plan (parts : Parts) : Plan where
  shape := parts.lowering.shape
  element := parts.lowering.element
  permuteUnit := parts.permute.row.unit
  permute := parts.permute.permute
  permuteRequires := parts.permute.row.requires
  compare := parts.lowering.compare.compare
  compareRequires := parts.lowering.compare.requires
  blend := parts.blend.blend
  blendRequires := parts.blend.row.requires
  selector := parts.blend.selector

/-- What holds of the parts of a stage's plan. -/
structure Plan.Parts.Serve (parts : Plan.Parts) (stage : Stage) (element : Element)
    (target : Target) (widen : Bool) (shape : Shape) : Prop where
  /-- The lowering is what the target offers. -/
  resolved : parts.lowering.Resolved target shape element
  /-- The stage was padded to all lanes of the register. -/
  padded : stage.padTo (shape.lanes element.width) = .ok parts.padded
  /-- The padded stage is valid. -/
  valid : parts.padded.Valid
  /-- The permute moves the bytes of the padded stage. -/
  permute : parts.permute.Open target shape (parts.padded.readings element.width widen)
    (Route.ofStage parts.padded element.width)
  /-- No permute that is open is cheaper. -/
  permute_least : ∀ other : PermuteChoice,
    other.Open target shape (parts.padded.readings element.width widen)
      (Route.ofStage parts.padded element.width) → parts.permute.permute.cost ≤ other.permute.cost
  /-- The blend is the first usable one that expresses the stage, and it selects the stage. -/
  blend : ∃ before after, target.blends shape element.width = before ++ parts.blend.row :: after ∧
    (∀ earlier ∈ before, earlier.choice? parts.padded element.width = .ok none) ∧
      parts.blend.Serves parts.blend.row parts.padded element.width shape

section Serving

variable {stage : Stage} {element : Element} {target : Target} {widen : Bool} {shape : Shape}
variable {parts : Plan.Parts}

/-- A plan runs in the register that its parts serve. -/
theorem Plan.Parts.Serve.shape_plan (serve : parts.Serve stage element target widen shape) :
    parts.plan.shape = shape :=
  -- The plan takes its register from the lowering.
  serve.resolved.shape_eq

/-- Parts that serve one stage in one register are for the same padded stage. -/
theorem Plan.Parts.Serve.padded_eq {other : Target} {otherWiden : Bool} {otherParts : Plan.Parts}
    (serve : parts.Serve stage element target widen shape)
    (otherServe : otherParts.Serve stage element other otherWiden shape) :
    parts.padded = otherParts.padded :=
  -- Padding depends on the stage and the register alone.
  Except.ok.inj (serve.padded.symm.trans otherServe.padded)

end Serving

section ChooseBlend

variable {target : Target} {shape : Shape} {element : Element} {lowering : Lowering} {stage : Stage}

/-- All usable blends answer for a stage that fills the register. -/
theorem Target.blends_answer (full : stage.lanes = shape.lanes element.width) :
    ∀ row ∈ target.blends shape element.width, row.Answers stage element.width shape := by
  -- A usable blend is one that the table offers.
  intro row usable
  rw [Target.blends, List.mem_filter] at usable
  exact (offersBlend_of_mem usable.1).answers full

/-- A lowering has a blend for every stage that fills the register. -/
theorem Lowering.Resolved.exists_chooseBlend (resolved : lowering.Resolved target shape element)
    (full : stage.lanes = shape.lanes element.width) :
    ∃ choice, lowering.chooseBlend stage = .ok choice := by
  -- One usable blend is complete, so the search ends at it or before it.
  obtain ⟨complete, usable, promised⟩ := resolved.blend_complete
  obtain ⟨result, found⟩ := exists_firstBlend? (Target.blends_answer full)
  have some_found := firstBlend?_ne_none (Target.blends_answer full) usable promised
  cases result with
  | none => exact absurd found some_found
  | some choice =>
    refine ⟨choice, ?_⟩
    rw [chooseBlend, resolved.element_eq, resolved.blends_eq, found]
    rfl

/-- The blend of a lowering is the first usable one that expresses the stage. -/
theorem Lowering.Resolved.chooseBlend_eq_ok {choice : BlendChoice}
    (resolved : lowering.Resolved target shape element)
    (full : stage.lanes = shape.lanes element.width)
    (chosen : lowering.chooseBlend stage = .ok choice) :
    ∃ before after, target.blends shape element.width = before ++ choice.row :: after ∧
      (∀ earlier ∈ before, earlier.choice? stage element.width = .ok none) ∧
        choice.Serves choice.row stage element.width shape := by
  -- The choice is what the search for the first blend found.
  obtain ⟨result, found, rest⟩ := bind_eq_ok.mp chosen
  rw [orFault_eq_ok, resolved.element_eq, resolved.blends_eq] at found
  cases result with
  | none => cases rest
  | some first =>
    cases rest
    exact firstBlend?_eq_some (Target.blends_answer full) found

end ChooseBlend

section Compile

variable {stage : Stage} {element : Element} {target : Target} {widen : Bool} {shape : Shape}

/-- A stage is set up when it has a register and the target a lowering for it. -/
theorem Stage.setting_eq_ok {set : Setting} :
    stage.setting element target widen = .ok set ↔
      ∃ shape lowering padded, stage.shapeFor element = .ok shape ∧
        target.resolve shape element = .ok lowering ∧
          stage.padTo (shape.lanes element.width) = .ok padded ∧
            set = ⟨lowering, padded, padded.readings element.width widen⟩ := by
  -- The steps are made one after another, and listing the candidates never fails.
  simp only [Stage.setting, bind_eq_ok, orRefuse_eq_ok, mapError_eq_ok, candidates_eq]
  constructor
  · rintro ⟨shape, found, lowering, resolved, padded, made, _, listed, built⟩
    cases listed
    cases built
    exact ⟨shape, lowering, padded, found, resolved, made, rfl⟩
  · rintro ⟨shape, lowering, padded, found, resolved, made, rfl⟩
    exact ⟨shape, found, lowering, resolved, padded, made, _, rfl, rfl⟩

/-- A stage compiles when each part of a plan is found, and the plan has just those parts. -/
theorem Stage.compile_eq_ok {plan : Plan} :
    stage.compile element target widen = .ok plan ↔
      ∃ shape lowering padded permute blend, stage.shapeFor element = .ok shape ∧
        target.resolve shape element = .ok lowering ∧
          stage.padTo (shape.lanes element.width) = .ok padded ∧
            choosePermute target shape (padded.readings element.width widen) = .ok permute ∧
              lowering.chooseBlend padded = .ok blend ∧
                plan = (Plan.Parts.mk lowering padded permute blend).plan := by
  -- The lowering remembers the register and the element type that it was asked for.
  rw [compile]
  constructor
  · -- A plan that was made has passed through every step.
    intro compiled
    obtain ⟨set, settled, rest⟩ := bind_eq_ok.mp compiled
    obtain ⟨shape, lowering, padded, found, lowered, made, rfl⟩ := setting_eq_ok.mp settled
    obtain ⟨permute, moved, rest⟩ := bind_eq_ok.mp rest
    obtain ⟨blend, blended, rest⟩ := bind_eq_ok.mp rest
    have resolved := Target.resolved_of_resolve lowered
    rw [resolved.shape_eq] at moved
    refine ⟨shape, lowering, padded, permute, blend, found, lowered, made, moved, blended, ?_⟩
    cases rest
    rw [Plan.Parts.plan, resolved.element_eq]
  · rintro ⟨shape, lowering, padded, permute, blend, found, lowered, made, moved, blended, rfl⟩
    have resolved := Target.resolved_of_resolve lowered
    have settled : stage.setting element target widen = .ok _ :=
      setting_eq_ok.mpr ⟨shape, lowering, padded, found, lowered, made, rfl⟩
    simp only [settled, ok_bind, resolved.shape_eq, moved, blended, Plan.Parts.plan,
      resolved.element_eq]

/-- A plan is put together from parts that serve the stage. -/
theorem Stage.parts_of_compile {plan : Plan} (valid : stage.Valid)
    (compiled : stage.compile element target widen = .ok plan) :
    ∃ (shape : Shape) (parts : Plan.Parts), stage.shapeFor element = .ok shape ∧
      parts.Serve stage element target widen shape ∧ plan = parts.plan := by
  -- What each step found is what the parts have to satisfy.
  obtain ⟨shape, lowering, padded, permute, blend, found, lowered, made, moved, blended, rfl⟩ :=
    compile_eq_ok.mp compiled
  have resolved := Target.resolved_of_resolve lowered
  -- Every candidate moves the bytes of the padded stage itself.
  obtain ⟨isOpen, least⟩ := choosePermute_eq_ok (fun _ => ofStage_reading) moved
  exact ⟨shape, ⟨lowering, padded, permute, blend⟩, found, ⟨resolved, made,
    valid_padTo valid made, isOpen, least,
      resolved.chooseBlend_eq_ok (lanes_padTo made) blended⟩, rfl⟩

/-- A stage compiles as soon as it has a register and the target a lowering for it. -/
theorem Stage.exists_compile {lowering : Lowering} (valid : stage.Valid)
    (found : stage.shapeFor element = .ok shape)
    (lowered : target.resolve shape element = .ok lowering) :
    ∃ plan, stage.compile element target widen = .ok plan := by
  -- With a register and a lowering every later step succeeds.
  obtain ⟨padded, made⟩ : ∃ padded, stage.padTo (shape.lanes element.width) = .ok padded :=
    ⟨_, padTo_eq_ok.mpr ⟨lanes_le_of_shapeFor found, rfl⟩⟩
  have resolved := Target.resolved_of_resolve lowered
  have full := lanes_padTo made
  have fits := Route.fits_ofStage (valid_padTo valid made) full
  -- A complete row encodes every stage that fills the register, so a permute is open.
  obtain ⟨row, usable, complete⟩ := resolved.permute_complete
  have listed : row ∈ permuteTable shape element.width := (List.mem_filter.mp usable).1
  obtain ⟨permute, encoded⟩ := Permute.exists_encode_of_complete listed complete fits
  have isOpen : PermuteChoice.Open ⟨row, permute⟩ target shape
      (padded.readings element.width widen) (Route.ofStage padded element.width) :=
    ⟨⟨⟨element.width, padded⟩, List.mem_cons_self, usable⟩, encoded⟩
  obtain ⟨least, moved⟩ := exists_choosePermute (fun _ => ofStage_reading) fits isOpen
  obtain ⟨blend, blended⟩ := resolved.exists_chooseBlend full
  exact ⟨_, compile_eq_ok.mpr
    ⟨shape, lowering, padded, least, blend, found, lowered, made, moved, blended, rfl⟩⟩

/-- A stage with a register is refused for what the target lacks to be lowered to. -/
theorem Stage.compile_of_resolve {problem : CompileError}
    (found : stage.shapeFor element = .ok shape)
    (lacking : target.resolve shape element = .error problem) :
    stage.compile element target widen = .error (.refused problem) := by
  -- The setting stops at the lowering.
  rw [compile, Stage.setting, found, ok_bind, lacking]
  rfl

/-- Once a stage has a register, the lowering alone decides what compiling it comes to. -/
theorem Stage.map_compile (valid : stage.Valid) (found : stage.shapeFor element = .ok shape) :
    (stage.compile element target widen).map (fun _ => ()) =
      orRefuse ((target.resolve shape element).map fun _ => ()) := by
  -- Both fail with the same report, or neither does.
  cases lowered : target.resolve shape element with
  | error problem =>
    rw [compile_of_resolve found lowered]
    rfl
  | ok lowering =>
    obtain ⟨plan, compiled⟩ : ∃ plan, stage.compile element target widen = .ok plan :=
      exists_compile valid found lowered
    rw [compiled]
    rfl

/-- A stage without a register is refused for what keeps it from having one. -/
theorem Stage.compile_of_shapeFor {failure : Failure}
    (missing : stage.shapeFor element = .error failure) :
    stage.compile element target widen = .error failure := by
  -- The setting stops at the register.
  rw [compile, Stage.setting, missing]
  rfl

/-- A valid stage is too wide, or compiles, or meets a target that cannot be lowered to. -/
theorem Stage.compile_cases (valid : stage.Valid)
    (countable : stage.lanes * element.bytes < 1 <<< 64) :
    (64 < stage.lanes * element.bytes ∧ ∃ flaw,
      stage.compile element target widen = .error (.refused (.invalid flaw))) ∨
    (stage.lanes * element.bytes ≤ 64 ∧ ∃ shape, stage.shapeFor element = .ok shape ∧
      ((∃ lowering plan, target.resolve shape element = .ok lowering ∧
        stage.compile element target widen = .ok plan) ∨
      ∃ primitive missing, target.resolve shape element = .error (.unsupported primitive missing) ∧
        stage.compile element target widen =
          .error (.refused (.unsupported primitive missing)))) := by
  -- The stage is too wide for every register, or it has one and all is left to the target.
  by_cases large : 64 < stage.lanes * element.bytes
  · exact .inl ⟨large, _, compile_of_shapeFor (shapeFor_eq_error countable large)⟩
  · have small : stage.lanes * element.bytes ≤ 64 := by omega
    obtain ⟨shape, found⟩ : ∃ shape, stage.shapeFor element = .ok shape := exists_shapeFor small
    refine .inr ⟨small, shape, found, ?_⟩
    have outcome : (stage.compile element target widen).map (fun _ => ()) = _ :=
      map_compile valid found
    cases lowered : target.resolve shape element with
    | ok lowering =>
      obtain ⟨plan, compiled⟩ : ∃ plan, stage.compile element target widen = .ok plan :=
        exists_compile valid found lowered
      exact .inl ⟨lowering, plan, rfl, compiled⟩
    | error problem =>
      -- The lowering reports missing features, and the compiler hands its report on.
      obtain ⟨primitive, _, rfl⟩ := Target.resolve_eq_error lowered
      refine .inr ⟨primitive, _, rfl, ?_⟩
      rw [lowered] at outcome
      cases compiled : stage.compile element target widen with
      | ok plan => simp [compiled, Except.map] at outcome
      | error failure =>
        rw [compiled] at outcome
        cases outcome
        rfl

/-- Stages of equally many lanes meet the same outcome, however their lanes are paired. -/
theorem Stage.map_compile_congr {other : Stage} {otherWiden : Bool} (valid : stage.Valid)
    (otherValid : other.Valid) (same : other.lanes = stage.lanes) :
    (other.compile element target otherWiden).map (fun _ => ()) =
      (stage.compile element target widen).map fun _ => () := by
  -- Equally many lanes have the same register, and after that only the lowering decides.
  have register : other.shapeFor element = stage.shapeFor element := by
    simp only [shapeFor, same]
  cases found : stage.shapeFor element with
  | ok shape => rw [map_compile valid found, map_compile otherValid (register.trans found)]
  | error failure =>
    rw [compile_of_shapeFor found, compile_of_shapeFor (register.trans found)]

/--
Exactly what compiling a valid stage comes to.

Only stages too wide for every register are refused as invalid, all others compile just when the
target can be lowered to, and nothing but the number of lanes, the element type and the target has
a say in it.
-/
theorem Stage.compile_outcome (stage : Stage) (element : Element) (target : Target) (widen : Bool)
    (valid : stage.Valid) (countable : stage.lanes * element.bytes < 1 <<< 64) :
    (∀ fault, stage.compile element target widen ≠ .error (.fault fault)) ∧
    (∀ gap, stage.compile element target widen ≠ .error (.refused (.unencodable gap))) ∧
    ((∃ flaw, stage.compile element target widen = .error (.refused (.invalid flaw))) ↔
      64 < stage.lanes * element.bytes) ∧
    (stage.lanes * element.bytes ≤ 64 → ∃ shape, stage.shapeFor element = .ok shape ∧
      ((∃ plan, stage.compile element target widen = .ok plan) ↔
        ∃ lowering, target.resolve shape element = .ok lowering) ∧
      ∀ error, target.resolve shape element = .error error →
        (∃ primitive missing, error = .unsupported primitive missing) ∧
          stage.compile element target widen = .error (.refused error)) ∧
    ∀ (other : Stage) (otherWiden : Bool), other.Valid → other.lanes = stage.lanes →
      (other.compile element target otherWiden).map (fun _ => ()) =
        (stage.compile element target widen).map fun _ => () := by
  -- Each of the three things that can happen settles all five parts.
  have alike : ∀ (other : Stage) (otherWiden : Bool), other.Valid → other.lanes = stage.lanes →
      (other.compile element target otherWiden).map (fun _ => ()) =
        (stage.compile element target widen).map fun _ => () :=
    fun _ _ => map_compile_congr valid
  rcases compile_cases valid countable with
    ⟨large, flaw, compiled⟩ | ⟨small, shape, found, ⟨lowering, plan, lowered, compiled⟩ |
      ⟨primitive, missing, lowered, compiled⟩⟩
  · -- No register holds the stage.
    rw [compiled] at alike ⊢
    refine ⟨nofun, nofun, ⟨fun _ => large, fun _ => ⟨flaw, rfl⟩⟩, ?_, alike⟩
    intro small
    omega
  · -- A register holds the stage and the target can be lowered to.
    rw [compiled] at alike ⊢
    refine ⟨nofun, nofun, ⟨nofun, fun large => by omega⟩, fun _ => ?_, alike⟩
    refine ⟨shape, found, ⟨fun _ => ⟨lowering, lowered⟩, fun _ => ⟨plan, rfl⟩⟩, ?_⟩
    intro error failed
    rw [lowered] at failed
    cases failed
  · -- A register holds the stage but the target lacks features.
    rw [compiled] at alike ⊢
    refine ⟨nofun, nofun, ⟨nofun, fun large => by omega⟩, fun _ => ?_, alike⟩
    refine ⟨shape, found, ⟨?_, ?_⟩, ?_⟩
    · rintro ⟨plan, succeeded⟩
      cases succeeded
    · rintro ⟨lowering, resolved⟩
      rw [lowered] at resolved
      cases resolved
    · intro error failed
      rw [lowered] at failed
      cases failed
      exact ⟨⟨primitive, missing, rfl⟩, rfl⟩

/-- Five qword lanes need the largest register, which only one of two targets has. -/
theorem Stage.compile_outcome_five_qwords :
    Stage.Valid ⟨[1, 0, 3, 2, 0], 4⟩ ∧
    Stage.lanes ⟨[1, 0, 3, 2, 0], 4⟩ * Element.bytes ⟨.b8, true⟩ < 1 <<< 64 ∧
    Stage.compile ⟨[1, 0, 3, 2, 0], 4⟩ ⟨.b8, true⟩ (.ofTier .avx2) true =
      .error (.refused (.unsupported (.register .zmm) [.avx512f])) ∧
    ∃ plan, Stage.compile ⟨[1, 0, 3, 2, 0], 4⟩ ⟨.b8, true⟩ (.ofTier .avx512) true = .ok plan := by
  -- Both targets are asked about the same stage, which needs the same register.
  have valid : Stage.Valid ⟨[1, 0, 3, 2, 0], 4⟩ := by decide
  have found : Stage.shapeFor ⟨[1, 0, 3, 2, 0], 4⟩ ⟨.b8, true⟩ = .ok .zmm := rfl
  refine ⟨valid, by decide, ?_, ?_⟩
  · -- The smaller target lacks the register.
    obtain ⟨_, _, _, narrow, _⟩ :=
      Stage.compile_outcome ⟨[1, 0, 3, 2, 0], 4⟩ ⟨.b8, true⟩ (.ofTier .avx2) true valid (by decide)
    obtain ⟨shape, same, _, refused⟩ := narrow (by decide)
    obtain rfl : Shape.zmm = shape := Except.ok.inj (found.symm.trans same)
    exact (refused _ rfl).2
  · obtain ⟨_, _, _, narrow, _⟩ :=
      Stage.compile_outcome ⟨[1, 0, 3, 2, 0], 4⟩ ⟨.b8, true⟩ (.ofTier .avx512) true valid
        (by decide)
    obtain ⟨shape, same, compiles, _⟩ := narrow (by decide)
    obtain rfl : Shape.zmm = shape := Except.ok.inj (found.symm.trans same)
    exact compiles.mpr ⟨_, rfl⟩

end Compile

end SimdNetwork
