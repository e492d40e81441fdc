import SimdNetwork.Feature

/-! Sets of instruction-set features. -/

namespace SimdNetwork

/-- A set of features, given by its membership test. -/
@[ext] structure FeatureSet where
  /-- Whether the feature is in the set. -/
  contains : Feature → Bool

namespace FeatureSet

/-- The set of no features. -/
def empty : FeatureSet := ⟨fun _ => false⟩

/-- The set of the listed features. -/
def ofList (features : List Feature) : FeatureSet := ⟨features.contains⟩

/-- The members in listing order. -/
def toList (set : FeatureSet) : List Feature := Feature.all.filter set.contains

/-- How many features the set has. -/
def size (set : FeatureSet) : Nat := set.toList.length

/-- The set with the feature added. -/
def insert (set : FeatureSet) (feature : Feature) : FeatureSet :=
  ⟨fun other => other == feature || set.contains other⟩

/-- The set with the feature taken out. -/
def erase (set : FeatureSet) (feature : Feature) : FeatureSet :=
  ⟨fun other => other != feature && set.contains other⟩

/-- The features of either set. -/
def union (left right : FeatureSet) : FeatureSet :=
  ⟨fun feature => left.contains feature || right.contains feature⟩

/-- The needed features that are not available. -/
def missing (needed available : FeatureSet) : FeatureSet :=
  ⟨fun feature => needed.contains feature && !available.contains feature⟩

/-- Whether every needed feature is available. -/
def covers (available needed : FeatureSet) : Bool :=
  Feature.all.all fun feature => !needed.contains feature || available.contains feature

/-- The lowest tier that provides every member. -/
def minimumTier (set : FeatureSet) : Tier :=
  (set.toList.map Feature.tier).foldl max .sse4

/-- The members' names between braces. -/
def render (set : FeatureSet) : String :=
  "\x7b" ++ ", ".intercalate (set.toList.map Feature.name) ++ "\x7d"

/-- The empty set has no members. -/
@[simp] theorem contains_empty (feature : Feature) : empty.contains feature = false := rfl

/-- The set of a list has the listed members. -/
@[simp] theorem contains_ofList (features : List Feature) (feature : Feature) :
    (ofList features).contains feature = features.contains feature := rfl

/-- Adding a feature adds that one member. -/
@[simp] theorem contains_insert (set : FeatureSet) (feature other : Feature) :
    (set.insert feature).contains other = (other == feature || set.contains other) := rfl

/-- Taking a feature out takes that one member out. -/
@[simp] theorem contains_erase (set : FeatureSet) (feature other : Feature) :
    (set.erase feature).contains other = (other != feature && set.contains other) := rfl

/-- A union has the members of both sets. -/
@[simp] theorem contains_union (left right : FeatureSet) (feature : Feature) :
    (left.union right).contains feature =
      (left.contains feature || right.contains feature) := rfl

/-- What is missing is needed and not available. -/
@[simp] theorem contains_missing (needed available : FeatureSet) (feature : Feature) :
    (needed.missing available).contains feature =
      (needed.contains feature && !available.contains feature) := rfl

/-- Membership of the listing is membership of the set. -/
@[simp] theorem mem_toList (set : FeatureSet) (feature : Feature) :
    feature ∈ set.toList ↔ set.contains feature = true := by
  -- The listing runs through all features and keeps the members.
  simp [toList]

/-- Covering is having every needed feature. -/
theorem covers_iff (available needed : FeatureSet) :
    available.covers needed = true ↔
      ∀ feature, needed.contains feature = true → available.contains feature = true := by
  -- Every feature is listed, so the check over the list is a check of all features.
  simp only [covers, List.all_eq_true, Feature.mem_all, forall_const, Bool.or_eq_true,
    Bool.not_eq_true']
  constructor
  · intro each feature held
    exact (each feature).resolve_left (by simp [held])
  · intro each feature
    cases held : needed.contains feature
    · exact .inl rfl
    · exact .inr (each feature held)

/-- Two sets are equal when they agree on every listed feature. -/
instance : DecidableEq FeatureSet := fun left right =>
  decidable_of_iff (∀ feature ∈ Feature.all, left.contains feature = right.contains feature)
    ⟨fun same => FeatureSet.ext (funext fun feature => same feature (Feature.mem_all feature)),
      fun same _ _ => by rw [same]⟩

end FeatureSet

/-- The features that a tier provides. -/
def Tier.features (tier : Tier) : FeatureSet := ⟨fun feature => decide (feature.tier ≤ tier)⟩

end SimdNetwork
