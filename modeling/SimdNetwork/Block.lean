/-! Lists cut into consecutive blocks, and lists of positions read as whole aligned blocks. -/

namespace SimdNetwork

/-- So many blocks of the given size from the front of a list. -/
def cut {α : Type} (size : Nat) : Nat → List α → List (List α)
  | 0, _ => []
  | count + 1, list => list.take size :: cut size count (list.drop size)

/-- The list cut into blocks of the given size, the last of which may be shorter. -/
def chunks {α : Type} (size : Nat) (list : List α) : List (List α) :=
  cut size ((list.length + size - 1) / size) list

/-- Blocks that reach the end of the list join up to the list. -/
theorem flatten_cut {α : Type} (size : Nat) :
    ∀ (count : Nat) (list : List α), list.length ≤ count * size →
      (cut size count list).flatten = list := by
  -- Each block is the front of what the blocks before it leave.
  intro count
  induction count with
  | zero =>
    intro list short
    have empty : list = [] := List.eq_nil_of_length_eq_zero (by omega)
    simp [cut, empty]
  | succ count ih =>
    intro list short
    -- What the first block leaves is short enough for the other blocks.
    have rest : (list.drop size).length ≤ count * size := by
      rw [List.length_drop]
      rw [Nat.succ_mul] at short
      omega
    rw [cut, List.flatten_cons, ih _ rest, List.take_append_drop]

/-- The chunks of a list join up to the list. -/
theorem flatten_chunks {α : Type} (size : Nat) (positive : 0 < size) (list : List α) :
    (chunks size list).flatten = list := by
  -- There are enough chunks to reach the end, so cutting leaves nothing behind.
  apply flatten_cut
  -- Rounding the quotient up leaves nothing over.
  have covered := Nat.div_add_mod (list.length + size - 1) size
  have small := Nat.mod_lt (list.length + size - 1) positive
  rw [Nat.mul_comm] at covered
  omega

/-- A list that divides evenly has as many chunks as the quotient says. -/
theorem chunks_of_dvd {α : Type} (size count : Nat) (positive : 0 < size) (list : List α)
    (even : list.length = count * size) : chunks size list = cut size count list := by
  -- Rounding an exact quotient up does not change it.
  have quotient : (list.length + size - 1) / size = count := by
    rw [even, Nat.add_sub_assoc positive, Nat.mul_comm, Nat.mul_add_div positive]
    rw [Nat.div_eq_of_lt (by omega), Nat.add_zero]
  rw [chunks, quotient]

/-- Blocks of one size fill their join, and cutting the join gives them back. -/
theorem cut_flatten {α : Type} (size : Nat) (blocks : List (List α))
    (full : ∀ block ∈ blocks, block.length = size) :
    cut size blocks.length blocks.flatten = blocks ∧
      blocks.flatten.length = blocks.length * size := by
  -- The first block is just what one cut takes off the join, and the others are what it leaves.
  induction blocks with
  | nil => simp [cut]
  | cons block rest ih =>
    have front := full block List.mem_cons_self
    obtain ⟨cuts, length⟩ := ih fun other member => full other (List.mem_cons_of_mem _ member)
    constructor
    · rw [List.length_cons, cut, List.flatten_cons, List.take_left' front, List.drop_left' front,
        cuts]
    · rw [List.flatten_cons, List.length_append, front, length, List.length_cons, Nat.succ_mul,
        Nat.add_comm]

/-- A block of positions that counts up from a multiple of its size. -/
def IsAligned (size : Nat) (block : List Nat) : Prop :=
  block.headD 0 % size = 0 ∧ block = List.range' (block.headD 0) size

/-- Alignment is decided by comparing with the run it should be. -/
instance (size : Nat) (block : List Nat) : Decidable (IsAligned size block) :=
  inferInstanceAs (Decidable (_ ∧ _))

/--
A list of positions read as positions of larger units.

There is an answer only when the list divides into whole units, and each of them moves as one.
-/
def blocks? (size : Nat) (positions : List Nat) : Option (List Nat) :=
  if size = 0 ∨ positions.length % size ≠ 0 then none
  else if ∀ block ∈ chunks size positions, IsAligned size block then
    some ((chunks size positions).map fun block => block.headD 0 / size)
  else none

/-- The positions inside units of the given size, unit by unit. -/
def expand (size : Nat) (units : List Nat) : List Nat :=
  units.flatMap fun unit => List.range' (unit * size) size

/-- Every unit expands to as many positions as its size. -/
@[simp] theorem length_expand (size : Nat) (units : List Nat) :
    (expand size units).length = units.length * size := by
  -- The runs are laid end to end.
  rw [expand, List.flatMap_def, (cut_flatten size _ (by simp)).2, List.length_map]

/-- Cutting expanded units gives the units' runs back. -/
theorem cut_expand (size : Nat) (units : List Nat) :
    cut size units.length (expand size units) =
      units.map fun unit => List.range' (unit * size) size := by
  -- Every run is exactly as long as a block.
  have runs := (cut_flatten size (units.map fun unit => List.range' (unit * size) size) (by simp)).1
  rwa [List.length_map, ← List.flatMap_def] at runs

/-- A run begins at its start. -/
theorem headD_range' (start size : Nat) (positive : 0 < size) :
    (List.range' start size).headD 0 = start := by
  -- A positive size leaves the run a first position.
  obtain ⟨less, rfl⟩ := Nat.exists_eq_succ_of_ne_zero (by omega : size ≠ 0)
  simp [List.range'_succ]

/-- Reading as larger units undoes expanding, and nothing else has such a reading. -/
theorem blocks?_eq_some_iff {size : Nat} (positive : 0 < size) {positions units : List Nat} :
    blocks? size positions = some units ↔ positions = expand size units := by
  -- Both directions go through the chunks, which are the units' runs.
  constructor
  · intro found
    unfold blocks? at found
    split at found
    · simp at found
    split at found
    · rename_i aligned
      obtain rfl := Option.some.inj found
      -- Every chunk is the run of the unit it was read as, and the chunks join up to the list.
      have runs : (chunks size positions).map
          (fun block => List.range' (block.headD 0 / size * size) size) =
          chunks size positions := by
        conv => rhs; rw [← List.map_id (chunks size positions)]
        apply List.map_congr_left
        intro block member
        obtain ⟨multiple, run⟩ := aligned block member
        rw [Nat.div_mul_cancel (Nat.dvd_of_mod_eq_zero multiple), ← run]
        rfl
      rw [expand, List.flatMap_map, List.flatMap_def, runs, flatten_chunks size positive]
    · simp at found
  · rintro rfl
    -- The runs of the units are blocks of the right size, each of which starts at a multiple of it.
    have even : (expand size units).length = units.length * size := length_expand size units
    have cuts := chunks_of_dvd size units.length positive (expand size units) even
    rw [cut_expand] at cuts
    have aligned : ∀ block ∈ chunks size (expand size units), IsAligned size block := by
      intro block member
      rw [cuts] at member
      obtain ⟨unit, _, rfl⟩ := List.mem_map.mp member
      rw [IsAligned, headD_range' _ _ positive]
      exact ⟨Nat.mul_mod_left unit size, rfl⟩
    -- What is read off a run is its start, and so the run's own unit.
    rw [blocks?, if_neg (by rw [even]; simp; omega), if_pos aligned, cuts, List.map_map]
    congr 1
    conv => rhs; rw [← List.map_id units]
    apply List.map_congr_left
    intro unit _
    show (List.range' (unit * size) size).headD 0 / size = unit
    rw [headD_range' _ _ positive, Nat.mul_div_cancel unit positive]

end SimdNetwork
