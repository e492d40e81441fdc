import SimdNetwork.Element
import SimdNetwork.Fault
import SimdNetwork.Feature
import SimdNetwork.Shape

/-! Causes of refusal, and the one place that words them. -/

namespace SimdNetwork

/-- Why a list of indices or of stages is not a legal stage or network. -/
inductive Flaw where
  /-- There is no lane at all. -/
  | noLanes
  /-- The used size is zero or more than the lanes. -/
  | usedOutside (used lanes : Nat)
  /-- An index names no lane. -/
  | indexOutside (index position lanes : Nat)
  /-- A used lane is paired with one that is only padding. -/
  | readsPadding (lane partner used : Nat)
  /-- Two used lanes have the same partner. -/
  | sharedPartner (partner : Nat)
  /-- Padding was asked to drop lanes. -/
  | shrinks (lanes target : Nat)
  /-- No register holds the lanes. -/
  | tooWide (lanes : Nat) (element : Element) (bytes : Nat)
  /-- A stage and its network disagree on the size. -/
  | mixedSizes (stage network : Nat)
  /-- A flat list does not divide into stages. -/
  | ragged (count lanes : Nat)
  /-- A cause in a caller's own words. -/
  | described (text : String)
  deriving DecidableEq, Repr

/-- The wording of a flaw. -/
def Flaw.text : Flaw → String
  | .noLanes => "permutation has no lanes"
  | .usedOutside used lanes => s!"logical size {used} is outside 1..={lanes}"
  | .indexOutside index position lanes =>
    s!"index {index} at position {position} is out of range for {lanes} lanes"
  | .readsPadding lane partner used =>
    s!"lane {lane} reads padding lane {partner} (logical size {used})"
  | .sharedPartner partner => s!"lane {partner} is the partner of more than one lane"
  | .shrinks lanes target => s!"cannot pad {lanes} lanes down to {target}"
  | .tooWide lanes element bytes =>
    s!"{lanes} lanes of {element.name} need {bytes} bytes, more than the {Shape.limit}-byte limit"
  | .mixedSizes stage network =>
    s!"stage has logical size {stage} in a network of size {network}"
  | .ragged count lanes => s!"{count} indices do not split into stages of {lanes} lanes"
  | .described text => text

/-- What a target has to provide before a stage can be lowered to it. -/
inductive Primitive where
  /-- The register itself. -/
  | register (shape : Shape)
  /-- Lane-wise minimum and maximum. -/
  | compare
  /-- A blend that expresses every selector. -/
  | blend
  /-- A permute that expresses every route between lane groups. -/
  | crossLane
  /-- A shuffle that expresses every route inside one lane group. -/
  | laneLocal
  /-- A requirement in a caller's own words. -/
  | named (text : String)
  deriving DecidableEq, Repr

/-- The name of a primitive. -/
def Primitive.name : Primitive → String
  | .register shape => shape.name
  | .compare => "min/max compare"
  | .blend => "masked blend"
  | .crossLane => "cross-lane permute"
  | .laneLocal => "lane-local shuffle"
  | .named text => text

/-- What no usable instruction could express. -/
inductive Gap where
  /-- No permute encodes the stage's route. -/
  | permute (shape : Shape)
  /-- No blend encodes the stage's selector. -/
  | blend (shape : Shape)
  /-- A gap in a caller's own words. -/
  | described (text : String)
  deriving DecidableEq, Repr

/-- The wording of a gap. -/
def Gap.text : Gap → String
  | .permute shape => s!"no permute primitive in {shape.name} encodes the stage"
  | .blend shape => s!"no blend primitive in {shape.name} encodes the selector"
  | .described text => text

/-- Why a stage was not compiled. -/
inductive CompileError where
  /-- The stage itself cannot be lowered to any register. -/
  | invalid (flaw : Flaw)
  /-- The target lacks features. -/
  | unsupported (primitive : Primitive) (missing : List Feature)
  /-- The tables and the encoders disagree. -/
  | unencodable (gap : Gap)
  deriving DecidableEq, Repr

namespace CompileError

/-- The wording of a compile error. -/
def message : CompileError → String
  | .invalid flaw => "Invalid permutation: " ++ flaw.text
  | .unsupported primitive missing =>
    "Unsupported target: " ++ primitive.name ++ " requires " ++
      " + ".intercalate (missing.map Feature.name)
  | .unencodable gap => "Internal error: stage not representable: " ++ gap.text

/-- Whether the error is the compiler's own mistake rather than the caller's. -/
def isInternal : CompileError → Bool
  | .unencodable _ => true
  | _ => false

end CompileError

/-- Why compiling stopped: a refusal with its reason, or a fault on the way. -/
inductive Failure where
  /-- The request was refused. -/
  | refused (error : CompileError)
  /-- An operation broke a precondition. -/
  | fault (fault : Fault)
  deriving DecidableEq, Repr

/-- A step that can only fault, as a step of compiling. -/
def orFault {α : Type} (result : Except Fault α) : Except Failure α :=
  result.mapError .fault

/-- A step that can only refuse, as a step of compiling. -/
def orRefuse {α : Type} (result : Except CompileError α) : Except Failure α :=
  result.mapError .refused

/-- Why a name or an override list could not be read. -/
inductive ConfigError where
  /-- No feature has the name. -/
  | unknownFeature (name : String)
  /-- No tier has the name. -/
  | unknownTier (name : String)
  /-- An override says neither to add nor to remove. -/
  | missingSign (entry : String)
  deriving DecidableEq, Repr

/-- The wording of a configuration error. -/
def ConfigError.message : ConfigError → String
  | .unknownFeature name => "Unknown ISA feature: " ++ name
  | .unknownTier name =>
    "Unknown capability tier: " ++ name ++ " (expected sse4, avx2 or avx512)"
  | .missingSign entry => "Target feature '" ++ entry ++ "' must start with '+' or '-'"

end SimdNetwork
