/-! Instruction-set features and the capability tiers they belong to. -/

namespace SimdNetwork

/-- A declared level of capability. -/
inductive Tier where
  | sse4
  | avx2
  | avx512
  deriving DecidableEq, Repr

namespace Tier

/-- All tiers, lowest first. -/
def all : List Tier := [.sse4, .avx2, .avx512]

/-- The tier's place in the order. -/
def rank : Tier → Nat
  | .sse4 => 0
  | .avx2 => 1
  | .avx512 => 2

/-- A tier includes every tier below it. -/
instance : LE Tier := ⟨fun low high => low.rank ≤ high.rank⟩

/-- Tiers are compared by rank. -/
instance (low high : Tier) : Decidable (low ≤ high) :=
  inferInstanceAs (Decidable (low.rank ≤ high.rank))

/-- The higher of two tiers. -/
instance : Max Tier := maxOfLe

/-- The tier's name. -/
def name : Tier → String
  | .sse4 => "sse4"
  | .avx2 => "avx2"
  | .avx512 => "avx512"

/-- The tier's name by rank alone. -/
def byRank : Tier → String
  | .sse4 => "minimum"
  | .avx2 => "standard"
  | .avx512 => "richest"

end Tier

/-- An instruction-set extension. -/
inductive Feature where
  | sse2
  | ssse3
  | sse41
  | sse42
  | avx
  | avx2
  | avx512f
  | avx512vl
  | avx512bw
  | avx512vbmi
  deriving DecidableEq, Repr

namespace Feature

/-- All features, in the order they are listed in. -/
def all : List Feature :=
  [.sse2, .ssse3, .sse41, .sse42, .avx, .avx2, .avx512f, .avx512vl, .avx512bw, .avx512vbmi]

/-- The feature's name. -/
def name : Feature → String
  | .sse2 => "sse2"
  | .ssse3 => "ssse3"
  | .sse41 => "sse4.1"
  | .sse42 => "sse4.2"
  | .avx => "avx"
  | .avx2 => "avx2"
  | .avx512f => "avx512f"
  | .avx512vl => "avx512vl"
  | .avx512bw => "avx512bw"
  | .avx512vbmi => "avx512vbmi"

/-- The lowest tier that provides the feature. -/
def tier : Feature → Tier
  | .sse2 | .ssse3 | .sse41 | .sse42 => .sse4
  | .avx | .avx2 => .avx2
  | .avx512f | .avx512vl | .avx512bw | .avx512vbmi => .avx512

/-- Every feature is listed. -/
@[simp] theorem mem_all (feature : Feature) : feature ∈ all := by
  -- The list names all ten constructors.
  cases feature <;> decide

end Feature

end SimdNetwork
