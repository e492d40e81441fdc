import SimdNetwork.Journal
import SimdNetwork.Target

/-! Compiler settings, and how the environment changes them. -/

namespace SimdNetwork

/-- The version of the compiler. -/
def version : String := "0.1.0"

/-- How stages are compiled. -/
structure Settings where
  /-- What they are compiled for. -/
  target : Target
  /-- Whether permutes of wider lanes are tried. -/
  widen : Bool
  /-- How many stages are compiled at once, if that was set. -/
  threads : Option Nat
  deriving DecidableEq

/-- The tier that is declared where nothing else says so. -/
def defaultTier : Tier := .avx512

/-- The values of the two environment variables, where they are set to a text. -/
structure Environment where
  /-- The tier to declare. -/
  tier : Option String
  /-- The features to add and remove. -/
  overrides : Option String
  deriving DecidableEq, Repr

namespace Settings

/-- The settings for a target. -/
def ofTarget (target : Target) : Settings := ⟨target, true, none⟩

/-- The settings for the target that has all of a tier's features. -/
def ofTier (tier : Tier) : Settings := ofTarget (.ofTier tier)

/-- The same settings without permutes of wider lanes. -/
def withoutWidening (settings : Settings) : Settings := { settings with widen := false }

/-- The same settings with so many stages at once, of which there is at least one. -/
def withThreads (settings : Settings) (count : Nat) : Settings :=
  { settings with threads := some (max 1 count) }

/-- The text of a variable's bytes; bytes that are no text count as unset. -/
def variableText (bytes : ByteArray) : Option String := String.fromUTF8? bytes

/-- The target with the tier that the environment declares. -/
def declareTier (environment : Environment) (target : Target) : Except ConfigError Target :=
  match environment.tier with
  | none => .ok target
  | some text => (Tier.read text.toList).map target.withTier

/-- The target with the features that the environment adds and removes. -/
def overrideFeatures (environment : Environment) (target : Target) : Except ConfigError Target :=
  match environment.overrides with
  | none => .ok target
  | some text => target.override text.toList

/-- The settings for hardware with the given features under an environment. -/
def ofEnvironment (detected : FeatureSet) (environment : Environment) :
    Except ConfigError Settings := do
  let declared ← declareTier environment ⟨defaultTier, detected⟩
  let overridden ← overrideFeatures environment declared
  .ok (ofTarget overridden)

/-- What the environment changed, up to the first value that could not be read. -/
def environmentJournal (detected : FeatureSet) (environment : Environment) : Journal :=
  match declareTier environment ⟨defaultTier, detected⟩ with
  | .error _ => []
  | .ok declared =>
    let tierEntry := environment.tier.map fun text =>
      ⟨.info, s!"LANESORT_TIER={text}: declaring capability tier {declared.tier.name}"⟩
    let featuresEntry := environment.overrides.bind fun text =>
      match declared.override text.toList with
      | .error _ => none
      | .ok overridden =>
        let usable := overridden.usable.render
        some ⟨.info, s!"LANESORT_TARGET_FEATURES={text}: usable features now {usable}"⟩
    tierEntry.toList ++ featuresEntry.toList

end Settings

end SimdNetwork
