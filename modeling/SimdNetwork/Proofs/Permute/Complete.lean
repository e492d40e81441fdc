import SimdNetwork.Proofs.Permute.Sound
import SimdNetwork.Table

/-! Encoding a fitting route never faults, and the complete permutes encode every route. -/

namespace SimdNetwork

/-- What the table promises about a permute on lanes of a unit. -/
structure PermuteRow.Offered (row : PermuteRow) (unit : Width) : Prop where
  /-- It moves lanes of that unit. -/
  unit_eq : row.unit = unit
  /-- A dword pattern is offered for lanes of whole dwords. -/
  dwords : row.kind = .dwordImmediate → 4 ∣ unit.bytes
  /-- A qword pattern is offered for qword lanes. -/
  qwords : row.kind = .qwordImmediate → unit = .b8

/-- Every row of the permute table is what the table promises. -/
theorem offered_of_mem {row : PermuteRow} {shape : Shape} {unit : Width}
    (listed : row ∈ permuteTable shape unit) : row.Offered unit := by
  -- A table lists rows inside lane groups and then, if there are several, rows between them.
  rcases List.mem_append.mp listed with inside | across
  · -- Inside a lane group the rows differ by how wide the lanes are.
    simp only [laneLocalTable, List.mem_append, List.mem_singleton] at inside
    rcases inside with (dwords | words) | rfl
    · split at dwords
      · rename_i wide
        obtain rfl := List.mem_singleton.mp dwords
        refine ⟨rfl, fun _ => ?_, nofun⟩
        cases unit <;> revert wide <;> decide
      · simp at dwords
    · split at words
      · obtain rfl := List.mem_singleton.mp words
        exact ⟨rfl, nofun, nofun⟩
      · simp at words
    · exact ⟨rfl, nofun, nofun⟩
  · -- Between lane groups only the qword pattern asks for a width of its own.
    split at across
    · simp only [crossLaneTable, List.mem_append, List.mem_cons, List.not_mem_nil,
        or_false] at across
      rcases across with qwords | rfl | rfl
      · split at qwords
        · rename_i wide
          obtain rfl := List.mem_singleton.mp qwords
          exact ⟨rfl, nofun, fun _ => wide⟩
        · simp at qwords
      · exact ⟨rfl, nofun, nofun⟩
      · exact ⟨rfl, nofun, nofun⟩
    · simp at across

namespace Route

/-- The route of a stage moves in every unit that its lanes are made of. -/
theorem units?_ofStage (stage : Stage) {unit : Width} {size : Nat} (positive : 0 < size)
    (whole : size ∣ unit.bytes) :
    (ofStage stage unit).units? size = some (expand (unit.bytes / size) stage.partners) := by
  -- The lanes of a stage are expanded to bytes, and so to any units in between.
  have room : 0 < unit.bytes / size := Nat.div_pos (Nat.le_of_dvd unit.bytes_pos whole) positive
  rw [units?_eq_some_iff positive, expand_expand positive room, Nat.div_mul_cancel whole]
  rfl

variable {route : Route} {shape : Shape}

/-- Looking for word selections in a fitting route never faults. -/
theorem exists_wordImmediates (fits : route.Fits shape) :
    ∃ found, route.wordImmediates = .ok found := by
  -- The only fault would be a pattern of fewer than four words.
  unfold wordImmediates
  cases shared : route.sharedPattern? .b2 with
  | none => exact ⟨none, rfl⟩
  | some pattern =>
    -- A shared pattern has an entry for each of the eight words.
    obtain ⟨_, _, repeated⟩ := (sharedPattern?_eq_some_iff fits).mp shared
    have eight : pattern.length = 8 := repeated.length_eq
    simp only [eight]
    split
    · contradiction
    · split
      · exact ⟨_, rfl⟩
      · exact ⟨_, rfl⟩

/-- Looking for a qword selection in a fitting route never faults. -/
theorem exists_qwordImmediate (fits : route.Fits shape) :
    ∃ found, route.qwordImmediate shape = .ok found := by
  -- The only faults would be too many qwords for one immediate or too few for two halves.
  unfold qwordImmediate
  cases found : route.units? 8 with
  | none => exact ⟨none, rfl⟩
  | some qwords =>
    have count := fits.length_units (by decide) found
    cases shape with
    | xmm => exact ⟨none, rfl⟩
    | ymm =>
      -- Four qwords fit the four fields of the immediate.
      have four : qwords.length = 4 := count
      exact ⟨_, if_neg (by omega)⟩
    | zmm =>
      -- Eight qwords have both halves that are compared.
      have eight : qwords.length = 8 := count
      simp only [eight]
      split
      · contradiction
      · split
        · exact ⟨_, rfl⟩
        · exact ⟨_, rfl⟩

end Route

namespace Permute

/-- Encoding a fitting route never faults. -/
theorem exists_encode_eq_ok (kind : PermuteKind) (unit : Width) {route : Route} {shape : Shape}
    (fits : route.Fits shape) : ∃ result, encode kind unit route shape = .ok result := by
  -- Only the word and the qword patterns are looked for with reads that could fault.
  cases kind with
  | dwordImmediate | byteTable | indexed | maskedUnion => exact ⟨_, rfl⟩
  | wordImmediate =>
    obtain ⟨found, looked⟩ := Route.exists_wordImmediates fits
    exact ⟨_, by rw [encode, looked]; rfl⟩
  | qwordImmediate =>
    obtain ⟨found, looked⟩ := Route.exists_qwordImmediate fits
    exact ⟨_, by rw [encode, looked]; rfl⟩

/-- In a single lane group every route on whole dwords has a dword selection. -/
theorem exists_dwordImmediate {stage : Stage} {unit : Width} {shape : Shape}
    (fits : (Route.ofStage stage unit).Fits shape) (whole : 4 ∣ unit.bytes)
    (single : shape.groups = 1) :
    ∃ immediate, (Route.ofStage stage unit).dwordImmediate? = some immediate := by
  -- With one lane group there is nothing that its pattern has to be shared with.
  have found := Route.units?_ofStage stage (by decide : 0 < 4) whole
  have count : _ = shape.groups * (groupBytes / Width.bytes .b4) :=
    fits.length_units_groups found
  rw [single, Nat.one_mul] at count
  -- The dwords of the only lane group select among themselves.
  have own := repeats_self count fun dword member =>
    count ▸ fits.unit_lt (by decide) found member
  have shared : (Route.ofStage stage unit).sharedPattern? .b4 = some _ :=
    (Route.sharedPattern?_eq_some_iff fits).mpr ⟨_, found, own⟩
  exact ⟨_, by rw [Route.dwordImmediate?, shared]; rfl⟩

/-- In a single lane group every route stays in its lane group. -/
theorem isLaneLocal_of_single {route : Route} {shape : Shape} (fits : route.Fits shape)
    (single : shape.groups = 1) : route.isLaneLocal = true := by
  -- The register is the lane group.
  have small : shape.bytes = groupBytes := by
    revert single
    cases shape <;> decide
  rw [Route.isLaneLocal_iff fits]
  intro position inside
  -- Source and position both lie in the only lane group.
  have near := fits.source_lt inside
  rw [small] at near inside
  rw [Nat.div_eq_of_lt near, Nat.div_eq_of_lt inside]

/-- A complete permute of the table encodes the route of every stage on lanes of its unit. -/
theorem exists_encode_of_complete {row : PermuteRow} {stage : Stage} {unit : Width} {shape : Shape}
    (listed : row ∈ permuteTable shape unit) (complete : row.isComplete shape = true)
    (fits : (Route.ofStage stage unit).Fits shape) :
    ∃ permute, encode row.kind row.unit (Route.ofStage stage unit) shape = .ok (some permute) := by
  -- Each kind is complete for its own reason, and word patterns never are.
  obtain ⟨sameUnit, dwords, qwords⟩ := offered_of_mem listed
  unfold PermuteRow.isComplete at complete
  cases kind : row.kind with
  | dwordImmediate =>
    -- Complete only where there is one lane group, whose dwords are a pattern.
    simp only [kind, beq_iff_eq] at complete
    obtain ⟨immediate, found⟩ := exists_dwordImmediate fits (dwords kind) complete
    exact ⟨_, by rw [encode, found]; rfl⟩
  | wordImmediate => simp [kind] at complete
  | byteTable =>
    -- Complete only where there is one lane group, which no byte can leave.
    simp only [kind, beq_iff_eq] at complete
    have inGroup := isLaneLocal_of_single fits complete
    exact ⟨_, by rw [encode, Route.byteTable?, if_pos inGroup]; rfl⟩
  | qwordImmediate =>
    -- Four qwords across two lane groups always have a selection.
    simp only [kind, beq_iff_eq] at complete
    subst complete
    have wide := qwords kind
    subst wide
    have found := Route.units?_ofStage stage (by decide : 0 < 8) (by decide : 8 ∣ Width.bytes .b8)
    have four := fits.length_units (by decide) found
    have few : ¬ 4 < (expand (Width.bytes .b8 / 8) stage.partners).length := by
      rw [four]
      decide
    exact ⟨_, by simp only [encode, Route.qwordImmediate, found, if_neg few]; rfl⟩
  | indexed =>
    -- The lanes of the stage are the units that the indices name.
    have found := Route.units?_ofStage stage unit.bytes_pos (Nat.dvd_refl unit.bytes)
    exact ⟨_, by rw [encode, sameUnit, Route.permuteIndices?, found]; rfl⟩
  | maskedUnion => exact ⟨_, rfl⟩

end Permute

end SimdNetwork
