import SimdNetwork.Plan.Compile
import SimdNetwork.Proofs.Outcome

/-! Reading a stage in blocks from the highest lane down never faults, and finds the same blocks. -/

namespace SimdNetwork

/--
The stage on lanes that are wider by the factor, if its lanes move in such blocks.

The blocks are read in lane order, lane zero first.
-/
def Stage.coarsen (stage : Stage) (factor : Nat) : Option Stage :=
  if factor < 2 then none
  else (blocks? factor stage.partners).bind fun partners =>
    (Stage.ofPartners partners ((stage.used + factor - 1) / factor)).toOption

/-- A unit's positions written last first. -/
def countdown (size unit : Nat) : List Nat := (List.range' (unit * size) size).reverse

theorem length_countdown (size unit : Nat) : (countdown size unit).length = size := by
  -- Turning a run round leaves its length.
  simp [countdown]

theorem countdown_eq_map {size : Nat} (positive : 0 < size) (unit : Nat) :
    countdown size unit = (List.range' 0 size).map (unit * size + (size - 1) - ·) := by
  -- A countdown starts at the last position of its unit and falls by one at every place.
  rw [countdown, List.reverse_range', ← List.range_eq_range', Nat.add_sub_assoc positive]

/-- The first entry of a countdown tells which unit is counted down. -/
theorem head_countdown {size unit last : Nat} {rest : List Nat} (positive : 0 < size)
    (counted : last :: rest = countdown size unit) :
    last / size = unit ∧ last % size = size - 1 := by
  -- Only a unit of at least one position has a first entry.
  obtain ⟨less, rfl⟩ := Nat.exists_eq_succ_of_ne_zero (Nat.ne_of_gt positive)
  rw [countdown_eq_map positive, List.range'_succ, List.map_cons, List.cons.injEq] at counted
  have small : less.succ - 1 < less.succ := by omega
  -- The entry is the last offset inside its unit, so dividing by the size gives the unit.
  rw [counted.1, Nat.sub_zero, Nat.mul_comm, Nat.mul_add_div positive, Nat.mul_add_mod,
    Nat.div_eq_of_lt small, Nat.mod_eq_of_lt small]
  exact ⟨rfl, rfl⟩

/-- While no entry can pass zero, a list is compared with the whole countdown. -/
theorem countsDown_eq_ok {start offset : Nat} {positions : List Nat}
    (room : offset + positions.length ≤ start + 1) :
    countsDown start offset positions =
      .ok (positions == (List.range' offset positions.length).map (start - ·)) := by
  -- Each further entry is compared one place lower.
  induction positions generalizing offset with
  | nil => rfl
  | cons position rest ih =>
    rw [List.length_cons] at room
    rw [countsDown, below, if_pos (by omega), ok_bind, ih (by omega), List.length_cons,
      List.range'_succ, List.map_cons]
    by_cases same : position = start - offset <;> simp [same]

/-- A block of the right length is read without a fault, as the unit whose countdown it is. -/
theorem exists_writtenUnit {size : Nat} (positive : 0 < size) {block : List Nat}
    (full : block.length = size) :
    ∃ result, writtenUnit size block = .ok result ∧
      ∀ unit, result = some unit ↔ block = countdown size unit := by
  -- The last position written first tells the only unit that the block can be.
  cases block with
  | nil =>
    rw [List.length_nil] at full
    omega
  | cons last rest =>
    rw [writtenUnit]
    by_cases ends : last % size = size - 1
    · -- An entry that ends a unit has the whole unit below it, so no difference passes zero.
      have room : 0 + (last :: rest).length ≤ last + 1 := by
        have low := Nat.mod_le last size
        omega
      have start : last / size * size + (size - 1) = last := by
        rw [← ends, Nat.mul_comm, Nat.div_add_mod]
      have whole : (List.range' 0 size).map (last - ·) = countdown size (last / size) := by
        rw [countdown_eq_map positive, start]
      rw [if_neg (by simpa using ends), countsDown_eq_ok room, full, whole, ok_bind]
      -- The block is then that unit's countdown or no countdown at all.
      by_cases counted : last :: rest = countdown size (last / size)
      · refine ⟨some (last / size), by simp [counted], ?_⟩
        intro unit
        rw [Option.some.injEq]
        constructor
        · intro same
          rw [← same]
          exact counted
        · intro same
          exact (head_countdown positive same).1
      · refine ⟨none, by simp [counted], ?_⟩
        intro unit
        simp only [reduceCtorEq, false_iff]
        intro same
        rw [(head_countdown positive same).1] at counted
        exact counted same
    · -- No countdown starts at an entry that ends no unit.
      refine ⟨none, if_pos ends, ?_⟩
      intro unit
      simp only [reduceCtorEq, false_iff]
      intro same
      exact ends (head_countdown positive same).2

/-- Blocks of the right length are read without a fault, as the units whose countdowns they are. -/
theorem exists_writtenUnits {size : Nat} (positive : 0 < size) {blocks : List (List Nat)}
    (full : ∀ block ∈ blocks, block.length = size) :
    ∃ result, writtenUnits size blocks = .ok result ∧
      ∀ units, result = some units ↔ blocks = units.map (countdown size) := by
  -- Every block adds its own unit in front of those of the blocks behind it.
  induction blocks with
  | nil =>
    refine ⟨some [], rfl, ?_⟩
    intro units
    cases units <;> simp
  | cons block rest ih =>
    obtain ⟨first, read, isFirst⟩ := exists_writtenUnit positive (full block List.mem_cons_self)
    obtain ⟨others, later, areOthers⟩ :=
      ih fun other member => full other (List.mem_cons_of_mem _ member)
    rw [writtenUnits, read, ok_bind]
    cases first with
    | none =>
      -- A block that is no unit ends the reading, and no list of units has its countdown.
      refine ⟨none, rfl, ?_⟩
      intro units
      simp only [reduceCtorEq, false_iff]
      intro same
      cases units with
      | nil => cases same
      | cons unit _ =>
        rw [List.map_cons, List.cons.injEq] at same
        cases (isFirst unit).mpr same.1
    | some unit =>
      -- The block is the countdown of its unit, and the rest is read as it stands.
      refine ⟨others.map (unit :: ·), by rw [later]; rfl, ?_⟩
      intro units
      rw [(isFirst unit).mp rfl]
      cases units with
      | nil => simp
      | cons head tail =>
        rw [List.map_cons, List.cons.injEq, ← areOthers tail, Option.map_eq_some_iff]
        constructor
        · rintro ⟨_, found, same⟩
          obtain ⟨rfl, rfl⟩ := List.cons.inj same
          exact ⟨rfl, found⟩
        · rintro ⟨same, found⟩
          -- Countdowns of different units differ.
          obtain rfl : unit = head :=
            Option.some.inj ((isFirst head).mpr (((isFirst unit).mp rfl).trans same))
          exact ⟨tail, found, rfl⟩

theorem length_of_mem_chunks {size count : Nat} (positive : 0 < size) {list : List Nat}
    (even : list.length = count * size) : ∀ block ∈ chunks size list, block.length = size := by
  -- The list divides evenly, so its chunks are cut off whole.
  rw [chunks_of_dvd size count positive list even]
  -- A list that divides evenly leaves one block fewer behind every block.
  induction count generalizing list with
  | zero => simp [cut]
  | succ count ih =>
    rw [Nat.succ_mul] at even
    rw [cut, List.forall_mem_cons]
    refine ⟨by rw [List.length_take]; omega, ih ?_⟩
    rw [List.length_drop]
    omega

/-- Countdowns laid end to end are the units' positions, written last first. -/
theorem flatten_countdowns (size : Nat) (units : List Nat) :
    (units.map (countdown size)).flatten = (expand size units.reverse).reverse := by
  -- Turning the whole list round turns both the units and the positions in each of them.
  rw [expand, List.flatMap_def, List.map_reverse, List.reverse_flatten, List.map_reverse,
    List.reverse_reverse, List.map_map]
  rfl

section Written

variable {stage : Stage} {factor : Nat}

/-- A stage is written as countdowns just when its lanes move in those blocks. -/
theorem chunks_written_eq_iff (positive : 0 < factor) {units : List Nat} :
    chunks factor stage.written = units.map (countdown factor) ↔
      stage.partners = expand factor units.reverse := by
  -- Joining chunks and cutting what is joined undo each other, on blocks of one size.
  constructor
  · intro cuts
    have joined := flatten_chunks factor positive stage.written
    rw [cuts, flatten_countdowns, Stage.written, List.reverse_inj] at joined
    exact joined.symm
  · intro expanded
    obtain ⟨cuts, even⟩ := cut_flatten factor (units.map (countdown factor)) (by
      simp [length_countdown])
    rw [Stage.written, expanded, ← flatten_countdowns, chunks_of_dvd _ _ positive _ even, cuts]

/-- Blocks read from the highest lane down are those read from the lowest lane up, reversed. -/
theorem writtenUnits_written (large : 2 ≤ factor) (whole : stage.lanes % factor = 0) :
    writtenUnits factor (chunks factor stage.written) =
      .ok ((blocks? factor stage.partners).map List.reverse) := by
  -- The blocks are whole, so reading them does not fault.
  have positive : 0 < factor := by omega
  have even : stage.written.length = stage.lanes / factor * factor := by
    rw [Stage.written, List.length_reverse, Nat.div_mul_cancel (Nat.dvd_of_mod_eq_zero whole)]
    rfl
  obtain ⟨result, read, found⟩ := exists_writtenUnits positive (length_of_mem_chunks positive even)
  rw [read]
  refine congrArg Except.ok (Option.ext fun units => ?_)
  -- Both readings find the units exactly when the partners are these units expanded.
  rw [found, chunks_written_eq_iff positive, ← blocks?_eq_some_iff positive, Option.map_eq_some_iff]
  constructor
  · intro blocks
    exact ⟨_, blocks, List.reverse_reverse units⟩
  · rintro ⟨partners, blocks, rfl⟩
    rw [blocks, List.reverse_reverse]

/-- Read from the highest lane down or from the lowest lane up, a stage coarsens to the same. -/
theorem Stage.coarsenWritten_eq (stage : Stage) (factor : Nat) :
    stage.coarsenWritten factor = .ok (stage.coarsen factor) := by
  -- Both readings make the same tests, and then read the same blocks.
  rw [coarsenWritten, coarsen]
  by_cases small : factor < 2
  · rw [if_pos (.inl small), if_pos small]
  rw [if_neg small]
  by_cases whole : stage.lanes % factor = 0
  · rw [if_neg (by omega), writtenUnits_written (by omega) whole]
    refine congrArg Except.ok ?_
    -- The units are checked as they are written, whichever way they were read.
    cases blocks? factor stage.partners with
    | none => rfl
    | some partners => rfl
  · -- Lanes that do not divide evenly have no blocks in either order.
    rw [if_pos (.inr whole), blocks?, if_pos (.inr whole)]
    rfl

end Written

/-- All wider readings of a stage, its blocks being read in lane order. -/
def Stage.wideReadings (stage : Stage) (width : Width) : List Coarsening :=
  width.wider.filterMap fun wide =>
    (stage.coarsen (width.factorTo wide)).map (Coarsening.mk wide (width.factorTo wide))

/-- The wider readings are found without a fault, and are those in lane order. -/
theorem Stage.coarsenings_eq (stage : Stage) (width : Width) :
    stage.coarsenings width = .ok (stage.wideReadings width) := by
  -- Every wider width is tried from the highest lane down, with the outcome in lane order.
  have each : width.wider.mapM (stage.coarsening? width) = .ok (width.wider.map fun wide =>
      (stage.coarsen (width.factorTo wide)).map (Coarsening.mk wide (width.factorTo wide))) := by
    rw [mapM_eq_ok, List.map_map]
    apply List.map_congr_left
    intro wide _
    rw [coarsening?, coarsenWritten_eq]
    rfl
  rw [coarsenings, each, wideReadings]
  refine congrArg Except.ok ?_
  rw [List.filterMap_map]
  rfl

/-- The stage on its own lanes, and if so asked on all wider lanes it coarsens to. -/
def Stage.readings (stage : Stage) (width : Width) (widen : Bool) : List Candidate :=
  ⟨width, stage⟩ :: if widen then (stage.wideReadings width).map Coarsening.candidate else []

/-- The candidates are found without a fault, and are the readings of the stage. -/
theorem Stage.candidates_eq (stage : Stage) (width : Width) (widen : Bool) :
    stage.candidates width widen = .ok (stage.readings width widen) := by
  -- Only the wider readings are searched for, and they are found without a fault.
  cases widen with
  | false => rfl
  | true =>
    rw [candidates, if_pos rfl, coarsenings_eq]
    rfl

end SimdNetwork
