/-! The first of the least elements of a list. -/

namespace SimdNetwork

/-- The earliest element whose key no other element's key is below. -/
def firstLeast? {α : Type} (key : α → Nat) : List α → Option α
  | [] => none
  | first :: rest =>
    match firstLeast? key rest with
    | none => some first
    | some best => if key best < key first then some best else some first

/-- Only the empty list has no least element. -/
theorem firstLeast?_eq_none_iff {α : Type} {key : α → Nat} {list : List α} :
    firstLeast? key list = none ↔ list = [] := by
  -- With a first element there is always an answer: it, or the best of the rest.
  cases list with
  | nil => simp [firstLeast?]
  | cons first rest =>
    rw [firstLeast?]
    split
    · simp
    · split <;> simp

/-- Before the least element all keys are greater than its own, and after it none is smaller. -/
theorem firstLeast?_eq_some {α : Type} {key : α → Nat} {list : List α} {least : α}
    (found : firstLeast? key list = some least) :
    ∃ before after, list = before ++ least :: after ∧
      (∀ earlier ∈ before, key least < key earlier) ∧ ∀ later ∈ after, key least ≤ key later := by
  -- The best of the rest gives way to the first element unless its key is strictly smaller.
  induction list generalizing least with
  | nil => simp [firstLeast?] at found
  | cons first rest ih =>
    rw [firstLeast?] at found
    split at found
    · -- With nothing behind it the first element is the least.
      rename_i none_left
      obtain rfl := firstLeast?_eq_none_iff.mp none_left
      obtain rfl := Option.some.inj found
      exact ⟨[], [], rfl, by simp, by simp⟩
    · rename_i best tail
      obtain ⟨before, after, parts, greater, noSmaller⟩ := ih tail
      split at found
      · -- The best of the rest wins, and the first element joins those before it.
        rename_i smaller
        obtain rfl := Option.some.inj found
        refine ⟨first :: before, after, by rw [parts]; rfl, ?_, noSmaller⟩
        rw [List.forall_mem_cons]
        exact ⟨smaller, greater⟩
      · rename_i notSmaller
        obtain rfl := Option.some.inj found
        refine ⟨[], rest, rfl, by simp, ?_⟩
        -- Nothing in the rest is below its best, and the best is not below the first.
        intro later member
        rw [parts, List.mem_append, List.mem_cons] at member
        rcases member with earlier | rfl | last
        · have above := greater later earlier
          omega
        · omega
        · have above := noSmaller later last
          omega

/-- The least element is one of the list. -/
theorem mem_of_firstLeast? {α : Type} {key : α → Nat} {list : List α} {least : α}
    (found : firstLeast? key list = some least) : least ∈ list := by
  -- The list is taken apart around its least element.
  obtain ⟨before, after, rfl, _⟩ := firstLeast?_eq_some found
  simp

/-- No element of the list has a smaller key. -/
theorem firstLeast?_le {α : Type} {key : α → Nat} {list : List α} {least : α}
    (found : firstLeast? key list = some least) : ∀ other ∈ list, key least ≤ key other := by
  -- The others stand before the least element or after it, and neither are below it.
  obtain ⟨before, after, rfl, greater, noSmaller⟩ := firstLeast?_eq_some found
  intro other member
  rw [List.mem_append, List.mem_cons] at member
  rcases member with earlier | rfl | later
  · exact Nat.le_of_lt (greater other earlier)
  · exact Nat.le_refl _
  · exact noSmaller other later

end SimdNetwork
