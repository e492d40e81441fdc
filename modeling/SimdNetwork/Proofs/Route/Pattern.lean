import SimdNetwork.Proofs.Route

/-! Routes that make the same selection in every lane group. -/

namespace SimdNetwork

/-- A list of units in which every so many make the same selection among their own places. -/
structure Repeats (slots : Nat) (pattern units : List Nat) : Prop where
  /-- The selection has one entry for each place. -/
  length_eq : pattern.length = slots
  /-- It selects among the places of one group. -/
  entry_lt : ∀ entry ∈ pattern, entry < slots
  /-- Every unit is the one its own group's selection names. -/
  unit_eq : ∀ slot < units.length,
    units[slot]? = some (slot / slots * slots + pattern.getD (slot % slots) 0)

/-- Units that fill a single group are their own selection. -/
theorem repeats_self {slots : Nat} {units : List Nat} (single : units.length = slots)
    (inside : ∀ unit ∈ units, unit < slots) : Repeats slots units units := by
  -- Every place lies in the first group, where it is its own place.
  refine ⟨single, inside, ?_⟩
  intro slot bound
  rw [single] at bound
  rw [Nat.div_eq_of_lt bound, Nat.mod_eq_of_lt bound, List.getD_eq_getElem?_getD,
    List.getElem?_eq_getElem (by omega)]
  simp

section Chunks

variable {slots count : Nat} {units : List Nat}

/-- A place in a list is the same place in the chunk it belongs to. -/
theorem getElem?_chunks (positive : 0 < slots) (even : units.length = count * slots) {slot : Nat}
    (inside : slot < units.length) :
    ∃ chunk, (chunks slots units)[slot / slots]? = some chunk ∧
      chunk[slot % slots]? = units[slot]? := by
  -- The place lies in the chunk of its quotient, at the place of its remainder.
  have group : slot / slots < count := by
    rw [Nat.div_lt_iff_lt_mul positive]
    omega
  refine ⟨(units.drop (slot / slots * slots)).take slots, ?_, ?_⟩
  · rw [chunks_of_dvd slots count positive units even]
    exact getElem?_cut slots units group
  · rw [List.getElem?_take_of_lt (Nat.mod_lt slot positive), List.getElem?_drop, Nat.mul_comm,
      Nat.div_add_mod]

/-- A repeated selection makes every chunk the selection inside its own group. -/
theorem Repeats.chunks_eq {pattern : List Nat} (repeated : Repeats slots pattern units)
    (positive : 0 < slots) (even : units.length = count * slots) :
    chunks slots units = (List.range count).map fun group => pattern.map (group * slots + ·) := by
  -- Both sides have as many chunks as there are groups, and are compared place by place.
  rw [chunks_of_dvd slots count positive units even]
  apply List.ext_getElem?
  intro group
  rcases Nat.lt_or_ge group count with inside | outside
  · rw [getElem?_cut slots units inside, List.getElem?_map, List.getElem?_range inside,
      Option.map_some, Option.some.injEq]
    apply List.ext_getElem?
    intro place
    rw [List.getElem?_map]
    rcases Nat.lt_or_ge place slots with within | beyond
    · -- The place in the group is that place after all groups before it.
      have room : (group + 1) * slots ≤ count * slots := Nat.mul_le_mul_right _ inside
      rw [Nat.succ_mul] at room
      obtain ⟨quotient, remainder⟩ := block_of_place group within
      have listed := List.getElem?_eq_getElem (l := pattern) (i := place)
        (by rw [repeated.length_eq]; exact within)
      rw [List.getElem?_take_of_lt within, List.getElem?_drop, repeated.unit_eq _ (by omega),
        quotient, remainder, List.getD_eq_getElem?_getD, listed]
      rfl
    · -- Beyond the group both the chunk and the selection have ended.
      have none_left := List.getElem?_eq_none (l := pattern) (i := place)
        (by rw [repeated.length_eq]; exact beyond)
      rw [List.getElem?_take_eq_none beyond, none_left]
      rfl
  · -- Beyond the last group both lists have ended.
    rw [List.getElem?_eq_none (by simpa using outside),
      List.getElem?_eq_none (by simpa using outside)]

/-- Reduced to places of one group, every chunk of a repeated selection is the selection. -/
theorem Repeats.reduced_eq {pattern : List Nat} (repeated : Repeats slots pattern units)
    (positive : 0 < slots) (even : units.length = count * slots) :
    (chunks slots units).map (List.map (· % slots)) = List.replicate count pattern := by
  -- Every chunk is the selection moved by whole groups, which reducing takes away again.
  rw [repeated.chunks_eq positive even, List.map_map]
  apply List.ext_getElem?
  intro group
  rw [List.getElem?_map, List.getElem?_replicate]
  rcases Nat.lt_or_ge group count with inside | outside
  · rw [List.getElem?_range inside, if_pos inside, Option.map_some, Option.some.injEq,
      Function.comp_apply, List.map_map]
    conv => rhs; rw [← List.map_id pattern]
    apply List.map_congr_left
    intro entry member
    exact (block_of_place group (repeated.entry_lt entry member)).2
  · rw [if_neg (by omega), List.getElem?_eq_none (by simpa using outside)]
    rfl

/-- Whether every unit of every chunk stays in the chunk's own group. -/
def staysInGroups (slots : Nat) (units : List Nat) : Bool :=
  (chunks slots units).zipIdx.all fun entry =>
    entry.1.all fun source => source / slots = entry.2

/-- Staying in the groups is having the group of one's own place. -/
theorem staysInGroups_iff (positive : 0 < slots) (even : units.length = count * slots) :
    staysInGroups slots units = true ↔
      ∀ slot < units.length, ∀ unit, units[slot]? = some unit → unit / slots = slot / slots := by
  -- A unit of a chunk is a unit of the list, and the number of its chunk is its quotient.
  rw [staysInGroups, List.all_eq_true]
  constructor
  · -- The unit is one of the chunk that its quotient numbers.
    intro every slot inside unit named
    obtain ⟨chunk, located, placed⟩ := getElem?_chunks positive even inside
    have entry : (chunk, slot / slots) ∈ (chunks slots units).zipIdx := by
      rw [List.mk_mem_zipIdx_iff_getElem?]
      exact located
    have member := List.mem_of_getElem? (placed.trans named)
    exact of_decide_eq_true (List.all_eq_true.mp (every _ entry) unit member)
  · rintro every ⟨chunk, group⟩ entry
    rw [List.mk_mem_zipIdx_iff_getElem?, chunks_of_dvd slots count positive units even] at entry
    have inside : group < count := by
      obtain ⟨bound, _⟩ := List.getElem?_eq_some_iff.mp entry
      simpa using bound
    rw [getElem?_cut slots units inside, Option.some.injEq] at entry
    rw [List.all_eq_true]
    intro unit member
    -- The unit stands at some place of its chunk, which is a place of the whole list.
    obtain ⟨place, found⟩ := List.mem_iff_getElem?.mp member
    rw [← entry, List.getElem?_take] at found
    split at found
    · rename_i within
      rw [List.getElem?_drop] at found
      obtain ⟨bound, _⟩ := List.getElem?_eq_some_iff.mp found
      have grouped := every _ bound unit found
      rw [(block_of_place group within).1] at grouped
      simpa using grouped
    · simp at found

/-- Chunks that stay in their groups and reduce to one selection repeat it. -/
theorem repeats_of_reduced {pattern : List Nat} (positive : 0 < slots) (some_group : 0 < count)
    (even : units.length = count * slots) (stays : staysInGroups slots units = true)
    (alike : ∀ chunk ∈ chunks slots units, chunk.map (· % slots) = pattern) :
    Repeats slots pattern units := by
  -- The first chunk shows how long the selection is and what it selects among.
  have head := getElem?_cut slots units some_group
  rw [← chunks_of_dvd slots count positive units even] at head
  have sample := alike _ (List.mem_of_getElem? head)
  have whole : 1 * slots ≤ count * slots := Nat.mul_le_mul_right _ some_group
  refine ⟨?_, ?_, ?_⟩
  · -- The first chunk is whole, so the selection has an entry for every slot.
    rw [← sample, List.length_map, List.length_take, List.length_drop]
    omega
  · intro entry member
    rw [← sample] at member
    obtain ⟨source, _, rfl⟩ := List.mem_map.mp member
    exact Nat.mod_lt source positive
  · intro slot inside
    obtain ⟨chunk, located, placed⟩ := getElem?_chunks positive even inside
    have own := List.getElem?_eq_getElem inside
    -- The unit's quotient is its group and its remainder is the selection's entry.
    have grouped := (staysInGroups_iff positive even).mp stays slot inside _ own
    have selected : pattern[slot % slots]? = some (units[slot] % slots) := by
      rw [← alike chunk (List.mem_of_getElem? located), List.getElem?_map, placed, own]
      rfl
    rw [List.getD_eq_getElem?_getD, selected, own, Option.getD_some, ← grouped, Nat.mul_comm,
      Nat.div_add_mod]

/-- A unit of a repeated selection is one of its own group. -/
theorem Repeats.unit_div {pattern : List Nat} (repeated : Repeats slots pattern units)
    (positive : 0 < slots) {slot unit : Nat} (named : units[slot]? = some unit) :
    unit / slots = slot / slots := by
  -- The unit lies less than a group beyond the start of its own group.
  obtain ⟨inside, _⟩ := List.getElem?_eq_some_iff.mp named
  rw [repeated.unit_eq slot inside, Option.some.injEq, List.getD_eq_getElem?_getD] at named
  have place := Nat.mod_lt slot positive
  have listed := List.getElem?_eq_getElem (l := pattern) (i := slot % slots)
    (by rw [repeated.length_eq]; exact place)
  have small := repeated.entry_lt _ (List.mem_of_getElem? listed)
  rw [← named, listed, Option.getD_some]
  exact (block_of_place _ small).1

/-- A repeated selection stays in the groups. -/
theorem Repeats.staysInGroups {pattern : List Nat} (repeated : Repeats slots pattern units)
    (positive : 0 < slots) (even : units.length = count * slots) :
    SimdNetwork.staysInGroups slots units = true := by
  -- What holds of each unit by itself holds of all chunks.
  rw [staysInGroups_iff positive even]
  intro slot _ unit named
  exact repeated.unit_div positive named

end Chunks

namespace Route

/-- A lane group has at least one lane of every width. -/
theorem slots_pos (unit : Width) : 0 < groupBytes / unit.bytes := by
  -- No lane is wider than a lane group.
  cases unit <;> decide

/-- A register's lanes of a width are those of its lane groups. -/
theorem lanes_eq_groups_mul (shape : Shape) (unit : Width) :
    shape.bytes / unit.bytes = shape.groups * (groupBytes / unit.bytes) := by
  -- Registers are whole lane groups, and these are whole lanes.
  cases shape <;> cases unit <;> decide

/-- Every register has a lane group. -/
theorem groups_pos (shape : Shape) : 0 < shape.groups := by
  -- The smallest register is one lane group.
  cases shape <;> decide

section Shared

variable {route : Route} {shape : Shape} {unit : Width}

/-- A fitting route's units fill whole lane groups. -/
theorem Fits.length_units_groups (fits : route.Fits shape) {units : List Nat}
    (found : route.units? unit.bytes = some units) :
    units.length = shape.groups * (groupBytes / unit.bytes) := by
  -- The units are as many as the lanes of the register.
  rw [fits.length_units unit.bytes_pos found, lanes_eq_groups_mul]

/-- A shared selection is found exactly when the route's units repeat it. -/
theorem sharedPattern?_eq_some_iff (fits : route.Fits shape) {pattern : List Nat} :
    route.sharedPattern? unit = some pattern ↔
      ∃ units, route.units? unit.bytes = some units ∧
        Repeats (groupBytes / unit.bytes) pattern units := by
  -- The units are found first, and then their chunks are reduced and compared with the first one.
  have positive := slots_pos unit
  have some_group := groups_pos shape
  rw [sharedPattern?, Option.bind_eq_some_iff]
  apply exists_congr
  intro units
  apply and_congr_right
  intro found
  have even := fits.length_units_groups found
  generalize groupBytes / unit.bytes = slots at positive even ⊢
  obtain ⟨fewer, more⟩ := Nat.exists_eq_succ_of_ne_zero (Nat.ne_of_gt some_group)
  cases reduced : (chunks slots units).map (List.map (· % slots)) with
  | nil =>
    -- A register has a lane group, so a repeated pattern leaves at least one selection.
    constructor
    · intro shared
      cases shared
    · intro repeated
      rw [repeated.reduced_eq positive even, more, List.replicate_succ] at reduced
      cases reduced
  | cons front others =>
    -- The first selection is the pattern, if no unit leaves its group and the others are the same.
    show (if staysInGroups slots units && others.all (· == front) then some front else none) =
      some pattern ↔ _
    constructor
    · intro shared
      split at shared
      · rename_i passed
        obtain rfl := Option.some.inj shared
        rw [Bool.and_eq_true, List.all_eq_true] at passed
        refine repeats_of_reduced positive some_group even passed.1 ?_
        -- Every chunk reduces to the first selection or to one that was compared with it.
        intro chunk member
        have mapped : chunk.map (· % slots) ∈ front :: others := by
          rw [← reduced]
          exact List.mem_map_of_mem member
        rcases List.mem_cons.mp mapped with first | later
        · exact first
        · simpa using passed.2 _ later
      · simp at shared
    · -- A pattern that is repeated is left by every chunk, so the tests pass.
      intro repeated
      rw [repeated.reduced_eq positive even, more, List.replicate_succ, List.cons.injEq] at reduced
      obtain ⟨rfl, rfl⟩ := reduced
      rw [repeated.staysInGroups positive even]
      simp

/-- Units that stay in their groups keep every byte in the bytes of its group. -/
theorem source_div_of_units (fits : route.Fits shape) {size slots : Nat} (positive : 0 < size)
    {units : List Nat} (found : route.units? size = some units)
    (stays : ∀ slot unit, units[slot]? = some unit → unit / slots = slot / slots) {position : Nat}
    (inside : position < shape.bytes) :
    route.source position / (size * slots) = position / (size * slots) := by
  -- The unit of the byte decides its group, both where it goes and where it comes from.
  have block : position / size < units.length := by
    rw [Nat.div_lt_iff_lt_mul positive, ← bytes_of_units positive found, fits.bytes_eq]
    exact inside
  have named := List.getElem?_eq_getElem block
  -- A byte lies in the group of its unit, and the units stay in their groups.
  rw [← Nat.div_div_eq_div_mul, ← Nat.div_div_eq_div_mul, source_of_units positive found named,
    (block_of_place _ (Nat.mod_lt position positive)).1]
  exact stays _ _ named

/-- A selection that all lane groups share keeps every byte in its lane group. -/
theorem isLaneLocal_of_shared (fits : route.Fits shape) {pattern : List Nat}
    (shared : route.sharedPattern? unit = some pattern) : route.isLaneLocal = true := by
  -- A shared selection is one that the units repeat, and these stay in their groups.
  obtain ⟨units, found, repeated⟩ := (sharedPattern?_eq_some_iff fits).mp shared
  have group : groupBytes = unit.bytes * (groupBytes / unit.bytes) := by cases unit <;> decide
  rw [isLaneLocal_iff fits]
  intro position inside
  rw [group]
  exact source_div_of_units fits unit.bytes_pos found
    (fun _ _ => repeated.unit_div (slots_pos unit)) inside

end Shared

end Route

end SimdNetwork
