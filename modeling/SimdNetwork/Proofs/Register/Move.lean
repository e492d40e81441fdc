import SimdNetwork.Proofs.Route.Pattern
import SimdNetwork.Register.Move

/-! Moving blocks of bytes is following a route that moves in such blocks. -/

namespace SimdNetwork

namespace Register

/-- Registers built from contents that agree inside are equal. -/
theorem build_congr {shape : Shape} {left right : Nat → UInt8}
    (agree : ∀ position < shape.bytes, left position = right position) :
    build shape left = build shape right := by
  -- The two have one shape, and only the bytes inside it can differ.
  apply ext_byte
  · rfl
  · intro position inside
    rw [shape_build] at inside
    rw [byte_build _ _ _ inside, byte_build _ _ _ inside]
    exact agree position inside

/-- The register whose bytes come from where a route says. -/
def routed (register : Register) (route : Route) : Register :=
  build register.shape fun position => register.byte (route.source position)

/-- Following a route stays in the same kind of register. -/
@[simp] theorem shape_routed (register : Register) (route : Route) :
    (register.routed route).shape = register.shape := rfl

/-- Every byte of a routed register is the byte that the route names. -/
theorem byte_routed (register : Register) (route : Route) {position : Nat}
    (inside : position < register.shape.bytes) :
    (register.routed route).byte position = register.byte (route.source position) :=
  -- The register is built with these bytes.
  byte_build _ _ _ inside

section Blocks

variable {register : Register} {size : Nat}

/-- Moving blocks succeeds when every named block is one of the register. -/
theorem moveBlocks_eq_ok {shape : Shape} {source : Nat → Nat} (shaped : register.shape = shape)
    (inside : ∀ block < shape.bytes / size, source block < shape.bytes / size) :
    register.moveBlocks size source = .ok (build shape fun position =>
      register.byte (source (position / size) * size + position % size)) := by
  -- No block that is named lies beyond the register.
  subst shaped
  rw [moveBlocks, if_pos inside]

/-- Moving blocks as the units of a route say is following the route. -/
theorem moveBlocks_eq_routed {route : Route} {units : List Nat} {source : Nat → Nat}
    (fits : route.Fits register.shape) (positive : 0 < size)
    (found : route.units? size = some units)
    (named : ∀ block < units.length, units[block]? = some (source block)) :
    register.moveBlocks size source = .ok (register.routed route) := by
  -- There is a unit for every block, and the units name blocks of the register.
  have count := fits.length_units positive found
  rw [moveBlocks_eq_ok rfl]
  · -- Every byte is read from its own place in the unit that the route names.
    refine congrArg Except.ok (build_congr ?_)
    intro position inside
    have total := Route.bytes_of_units positive found
    have block : position / size < units.length := by
      rw [Nat.div_lt_iff_lt_mul positive, ← total, fits.bytes_eq]
      exact inside
    rw [Route.source_of_units positive found (named _ block)]
  · intro block inside
    rw [← count] at inside ⊢
    exact fits.unit_lt positive found (List.mem_of_getElem? (named block inside))

/-- Moving blocks twice is moving them once by the composed choice. -/
theorem moveBlocks_bind {first second : Nat → Nat} (positive : 0 < size)
    (whole : size ∣ register.shape.bytes)
    (firstInside : ∀ block < register.shape.bytes / size,
      first block < register.shape.bytes / size)
    (secondInside : ∀ block < register.shape.bytes / size,
      second block < register.shape.bytes / size) :
    (register.moveBlocks size first >>= fun moved => moved.moveBlocks size second) =
      register.moveBlocks size fun block => first (second block) := by
  -- All three moves stay inside the register, so only the bytes are left to compare.
  rw [moveBlocks_eq_ok rfl firstInside, ok_bind, moveBlocks_eq_ok (shape_build _ _) secondInside,
    moveBlocks_eq_ok rfl fun block inside => firstInside _ (secondInside block inside)]
  refine congrArg Except.ok (build_congr ?_)
  intro position inside
  have block : position / size < register.shape.bytes / size :=
    Nat.div_lt_div_of_lt_of_dvd whole inside
  have offset := Nat.mod_lt position positive
  -- The byte read in between lies in the block that the second choice names.
  have room : (second (position / size) + 1) * size ≤ register.shape.bytes / size * size :=
    Nat.mul_le_mul_right _ (secondInside _ block)
  rw [Nat.div_mul_cancel whole, Nat.succ_mul] at room
  obtain ⟨quotient, remainder⟩ := block_of_place (second (position / size)) offset
  rw [byte_build _ _ _ (by omega), quotient, remainder]

/-- A packed selection that the units of a route repeat moves the route's bytes. -/
theorem moveBlocks_packSelections {route : Route} {pattern units : List Nat}
    (fits : route.Fits register.shape) (positive : 0 < size)
    (found : route.units? size = some units) (repeated : Repeats 4 pattern units) :
    (register.moveBlocks size fun slot =>
      slot / 4 * 4 + selection (packSelections pattern) (slot % 4)) =
        .ok (register.routed route) := by
  -- The units name the blocks, and each is read back from the field it was packed into.
  apply moveBlocks_eq_routed fits positive found
  intro slot inside
  have place : slot % 4 < pattern.length := by
    rw [repeated.length_eq]
    omega
  have read := selection_packSelections pattern (Nat.le_of_eq repeated.length_eq)
    repeated.entry_lt _ place
  rw [repeated.unit_eq slot inside, read, List.getD_eq_getElem?_getD,
    List.getElem?_eq_getElem place]
  rfl

end Blocks

end Register

end SimdNetwork
