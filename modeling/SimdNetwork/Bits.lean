/-! Bit masks described by which of their bits are set. -/

namespace SimdNetwork

/-- The mask whose bits below the count are those the predicate accepts. -/
def maskOf : Nat → (Nat → Bool) → Nat
  | 0, _ => 0
  | count + 1, chosen => maskOf count chosen ||| if chosen count then 1 <<< count else 0

/-- A mask has exactly the chosen bits, and none at or above its count. -/
@[simp] theorem testBit_maskOf (count : Nat) (chosen : Nat → Bool) (i : Nat) :
    (maskOf count chosen).testBit i = (decide (i < count) && chosen i) := by
  -- The mask of one bit more is the mask so far with at most that bit added.
  induction count with
  | zero => simp [maskOf]
  | succ count ih =>
    rw [maskOf, Nat.one_shiftLeft, Nat.testBit_or, ih]
    -- The newest bit is the only one the last step can set.
    rcases Nat.lt_trichotomy i count with below | rfl | above
    · have apart : count ≠ i := by omega
      cases chosen count <;> simp [below, apart, Nat.lt_succ_of_lt below]
    · cases chosen i <;> simp
    · have apart : count ≠ i := by omega
      have outside : ¬ i < count + 1 := by omega
      cases chosen count <;> simp [apart, outside, Nat.not_lt.mpr (Nat.le_of_lt above)]

end SimdNetwork
