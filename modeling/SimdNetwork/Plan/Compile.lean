import SimdNetwork.Lowering
import SimdNetwork.Permute.Encode
import SimdNetwork.Plan
import SimdNetwork.Stage.Coarsen

/-! Compiling a stage: the cheapest permute, the way of comparing and the first blend that fits. -/

namespace SimdNetwork

/-- The smallest register that holds the stage on lanes of the element type. -/
def Stage.shapeFor (stage : Stage) (element : Element) : Except Failure Shape := do
  let bytes ← orFault (word (stage.lanes * element.bytes))
  match Shape.fitting? bytes with
  | some shape => .ok shape
  | none => .error (.refused (.invalid (.tooWide stage.lanes element bytes)))

/-- A stage to be realised on lanes of one width. -/
structure Candidate where
  /-- The width of the lanes. -/
  unit : Width
  /-- The stage on such lanes. -/
  stage : Stage
  deriving DecidableEq, Repr

/-- A wider reading as a candidate. -/
def Coarsening.candidate (coarse : Coarsening) : Candidate := ⟨coarse.width, coarse.stage⟩

/-- The stage on its own lanes, and if so asked on all wider lanes it moves in. -/
def Stage.candidates (stage : Stage) (width : Width) (widen : Bool) :
    Except Fault (List Candidate) :=
  if widen then
    (stage.coarsenings width).map fun wider => ⟨width, stage⟩ :: wider.map Coarsening.candidate
  else .ok [⟨width, stage⟩]

/-- A permute to be tried on a candidate. -/
structure Trial where
  /-- The candidate. -/
  candidate : Candidate
  /-- The row of the table. -/
  row : PermuteRow
  deriving DecidableEq

/-- The usable permutes of all candidates, the widest candidate first. -/
def trials (target : Target) (shape : Shape) (candidates : List Candidate) : List Trial :=
  candidates.reverse.flatMap fun candidate =>
    (target.permutes shape candidate.unit).map fun row => ⟨candidate, row⟩

/-- A permute that was tried, and its encoding if it has one. -/
structure Attempt where
  /-- The row of the table. -/
  row : PermuteRow
  /-- The permute with its operand. -/
  encoding : Option Permute
  deriving DecidableEq

/-- What comes of a trial in a register. -/
def Trial.attempt (shape : Shape) (trial : Trial) : Except Fault Attempt :=
  let route := Route.ofStage trial.candidate.stage trial.candidate.unit
  (Permute.encode trial.row.kind trial.row.unit route shape).map fun encoding =>
    ⟨trial.row, encoding⟩

/-- What comes of trying every usable permute on every candidate. -/
def permuteAttempts (target : Target) (shape : Shape) (candidates : List Candidate) :
    Except Fault (List Attempt) :=
  (trials target shape candidates).mapM (Trial.attempt shape)

/-- A permute together with the row it was encoded from. -/
structure PermuteChoice where
  /-- The row of the table. -/
  row : PermuteRow
  /-- The permute with its operand. -/
  permute : Permute
  deriving DecidableEq

/-- The choice an attempt leaves, if it succeeded. -/
def Attempt.choice? (attempt : Attempt) : Option PermuteChoice :=
  attempt.encoding.map (⟨attempt.row, ·⟩)

/-- The cheapest permute, the earliest attempt winning a tie. -/
def choosePermute (target : Target) (shape : Shape) (candidates : List Candidate) :
    Except Failure PermuteChoice := do
  let attempts ← orFault (permuteAttempts target shape candidates)
  match firstLeast? (fun choice => choice.permute.cost) (attempts.filterMap Attempt.choice?) with
  | some choice => .ok choice
  | none => .error (.refused (.unencodable (.permute shape)))

/-- A blend together with its row and the selector it expresses. -/
structure BlendChoice where
  /-- The row of the table. -/
  row : BlendRow
  /-- The selector of the stage. -/
  selector : Selector
  /-- The blend with its operand. -/
  blend : Blend
  deriving DecidableEq

/-- The first blend that expresses the stage's selector. -/
def firstBlend? (stage : Stage) (width : Width) :
    List BlendRow → Except Fault (Option BlendChoice)
  | [] => .ok none
  | row :: rest => do
    let selector ← Selector.ofStage stage width row.granularity
    match ← Blend.encode row.kind row.granularity selector width with
    | some blend => .ok (some ⟨row, selector, blend⟩)
    | none => firstBlend? stage width rest

/-- The first blend of a lowering that expresses the stage's selector. -/
def Lowering.chooseBlend (lowering : Lowering) (stage : Stage) : Except Failure BlendChoice := do
  match ← orFault (firstBlend? stage lowering.element.width lowering.blends) with
  | some choice => .ok choice
  | none => .error (.refused (.unencodable (.blend lowering.shape)))

/-- What is settled about a stage before its instructions are chosen. -/
structure Setting where
  /-- What the target offers. -/
  lowering : Lowering
  /-- The stage on all lanes of the register. -/
  padded : Stage
  /-- The readings of the stage whose permutes are tried. -/
  candidates : List Candidate
  deriving DecidableEq

/-- The register, the lowering and the candidates for a stage. -/
def Stage.setting (stage : Stage) (element : Element) (target : Target) (widen : Bool) :
    Except Failure Setting := do
  let shape ← stage.shapeFor element
  let lowering ← orRefuse (target.resolve shape element)
  let padded ← orRefuse ((stage.padTo (shape.lanes element.width)).mapError .invalid)
  let candidates ← orFault (padded.candidates element.width widen)
  .ok ⟨lowering, padded, candidates⟩

/-- The plan of a stage for a target, if so asked with permutes of wider lanes. -/
def Stage.compile (stage : Stage) (element : Element) (target : Target) (widen : Bool) :
    Except Failure Plan := do
  let setting ← stage.setting element target widen
  let lowering := setting.lowering
  let permute ← choosePermute target lowering.shape setting.candidates
  let blend ← lowering.chooseBlend setting.padded
  .ok {
    shape := lowering.shape
    element := element
    permuteUnit := permute.row.unit
    permute := permute.permute
    permuteRequires := permute.row.requires
    compare := lowering.compare.compare
    compareRequires := lowering.compare.requires
    blend := blend.blend
    blendRequires := blend.row.requires
    selector := blend.selector }

end SimdNetwork
