import SimdNetwork.Error
import SimdNetwork.Feature.Set
import SimdNetwork.Text.Blank

/-! Compilation targets: a declared tier, the features present, and texts that change them. -/

namespace SimdNetwork

/-- A name as it is compared: without blanks around it and in lower-case ASCII. -/
def plainName (text : List Char) : List Char := (trimBlanks text).map Char.toLower

/-- The feature a text names, with or without the dot of its name. -/
def Feature.read (text : List Char) : Except ConfigError Feature :=
  let wanted := plainName text
  match Feature.all.find? fun feature =>
      feature.name.toList = wanted ∨ feature.name.toList.filter (· ≠ '.') = wanted with
  | some feature => .ok feature
  | none => .error (.unknownFeature (String.ofList (trimBlanks text)))

/-- The tier a text names, by its instruction set or by its rank. -/
def Tier.read (text : List Char) : Except ConfigError Tier :=
  let wanted := plainName text
  match Tier.all.find? fun tier => tier.name.toList = wanted ∨ tier.byRank.toList = wanted with
  | some tier => .ok tier
  | none => .error (.unknownTier (String.ofList (trimBlanks text)))

/-- The features a list of texts names. -/
def FeatureSet.read (texts : List (List Char)) : Except ConfigError FeatureSet :=
  FeatureSet.ofList <$> texts.mapM Feature.read

/-- What a stage is compiled for. -/
structure Target where
  /-- The declared tier, above which no feature is used. -/
  tier : Tier
  /-- The features the hardware has. -/
  present : FeatureSet
  deriving DecidableEq

namespace Target

/-- The target that has all of a tier's features and no others. -/
def ofTier (tier : Tier) : Target := ⟨tier, tier.features⟩

/-- The same hardware under another declared tier. -/
def withTier (target : Target) (tier : Tier) : Target := { target with tier := tier }

/-- The same target with a feature added. -/
def insert (target : Target) (feature : Feature) : Target :=
  { target with present := target.present.insert feature }

/-- The same target with a feature removed. -/
def erase (target : Target) (feature : Feature) : Target :=
  { target with present := target.present.erase feature }

/-- The features that are present and not above the declared tier. -/
def usable (target : Target) : FeatureSet :=
  ⟨fun feature => target.present.contains feature && decide (feature.tier ≤ target.tier)⟩

/-- A feature is usable when it is present and the declared tier allows it. -/
theorem contains_usable (target : Target) (feature : Feature) :
    target.usable.contains feature = true ↔
      target.present.contains feature = true ∧ feature.tier ≤ target.tier := by
  -- A feature counts only where it is present and its tier is declared.
  rw [usable, Bool.and_eq_true, decide_eq_true_eq]

/-- Whether every needed feature is usable. -/
def supports (target : Target) (needed : FeatureSet) : Bool := target.usable.covers needed

/-- The texts between the commas of a text. -/
def entries : List Char → List (List Char)
  | [] => [[]]
  | c :: rest =>
    if c = ',' then [] :: entries rest
    else match entries rest with
      | [] => [[c]]
      | entry :: others => (c :: entry) :: others

/-- One override: blank changes nothing, a plus adds the named feature, a minus removes it. -/
def overrideEntry (target : Target) (entry : List Char) : Except ConfigError Target :=
  match trimBlanks entry with
  | [] => .ok target
  | '+' :: name => target.insert <$> Feature.read name
  | '-' :: name => target.erase <$> Feature.read name
  | other => .error (.missingSign (String.ofList other))

/-- A comma-separated list of overrides, applied in order until one cannot be read. -/
def override (target : Target) (text : List Char) : Except ConfigError Target :=
  (entries text).foldlM overrideEntry target

end Target

end SimdNetwork
