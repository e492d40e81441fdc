import SimdNetwork.Permute.Encode
import SimdNetwork.Proofs.Register.Move

/-! Masked unions: every byte is supplied by the part that reads its lane group, and by no other. -/

namespace SimdNetwork

namespace Register

/-- A register is built from its own bytes. -/
@[simp] theorem build_byte (register : Register) :
    build register.shape register.byte = register := by
  -- Reading back what a register was built from gives the same bytes.
  apply ext_byte
  · rfl
  · intro position inside
    exact byte_build _ _ _ inside

/-- The register with its lane groups rotated so far that each reads a later one. -/
def rotated (register : Register) (rotation : Nat) : Register :=
  build register.shape fun position =>
    register.byte ((position / groupBytes + rotation) % register.shape.groups * groupBytes +
      position % groupBytes)

/-- Rotating by no lane group changes nothing. -/
theorem rotated_zero (register : Register) : register.rotated 0 = register := by
  -- Every byte is read from its own place in its own lane group.
  conv => rhs; rw [← build_byte register]
  apply build_congr
  intro position inside
  -- Every byte of the register lies in one of its lane groups.
  have group : position / groupBytes < register.shape.groups := by
    rw [Shape.groups]
    exact Nat.div_lt_div_of_lt_of_dvd (by cases register.shape <;> decide) inside
  rw [Nat.add_zero, Nat.mod_eq_of_lt group, Nat.mul_comm, Nat.div_add_mod]

/-- Swapping the halves of four qwords rotates two lane groups by one. -/
theorem permuteQwords_swap {register : Register} (shaped : register.shape = .ymm) :
    register.permuteQwords swapImmediate = .ok (register.rotated 1) := by
  -- The immediate sends each of the four qwords to the other half, as the rotation does.
  rw [permuteQwords, moveBlocks_eq_ok shaped (by decide), rotated, shaped]
  refine congrArg Except.ok (build_congr ?_)
  have places : ∀ place < Shape.bytes .ymm,
      (place / 8 / 4 * 4 + selection swapImmediate (place / 8 % 4)) * 8 + place % 8 =
        (place / groupBytes + 1) % Shape.groups .ymm * groupBytes + place % groupBytes := by
    decide
  intro position inside
  rw [places position inside]

/-- The immediate whose fields count round four groups from a rotation. -/
def rotationImmediate (rotation : Nat) : UInt8 :=
  packSelections ((List.range 4).map fun group => (group + rotation) % 4)

/-- Every field of a rotation's immediate names the group so many further on. -/
theorem selection_rotationImmediate (rotation : Nat) {group : Nat} (inside : group < 4) :
    selection (rotationImmediate rotation) group = (group + rotation) % 4 := by
  -- Each of the four fields was packed with its own group moved on.
  have small : ∀ chosen ∈ (List.range 4).map fun group => (group + rotation) % 4, chosen < 4 := by
    intro chosen member
    obtain ⟨other, _, rfl⟩ := List.mem_map.mp member
    exact Nat.mod_lt _ (by decide)
  rw [rotationImmediate, selection_packSelections _ (by simp) small _ (by simpa using inside)]
  simp

/-- Selecting among four lane groups by a rotation's immediate rotates them. -/
theorem permuteGroups_rotate {register : Register} (shaped : register.shape = .zmm)
    (rotation : Nat) :
    register.permuteGroups (rotationImmediate rotation) = .ok (register.rotated rotation) := by
  -- The groups that the immediate selects are those that the rotation reads.
  have count : Shape.bytes .zmm / groupBytes = 4 := rfl
  have fields : ¬ 4 < register.shape.groups := by
    rw [shaped]
    decide
  rw [permuteGroups, if_neg fields, moveBlocks_eq_ok shaped, rotated, shaped]
  · refine congrArg Except.ok (build_congr ?_)
    intro position inside
    have group : position / groupBytes < 4 := Nat.div_lt_div_of_lt_of_dvd (by decide) inside
    rw [selection_rotationImmediate rotation group]
    rfl
  · intro group inside
    rw [count] at inside ⊢
    rw [selection_rotationImmediate rotation inside]
    exact Nat.mod_lt _ (by decide)

/-- A rotation of the lane groups succeeds for every rotation that the register has. -/
theorem rotateGroups_eq_ok (register : Register) (part : UnionPart)
    (bound : part.rotation < register.shape.groups) :
    register.rotateGroups part = .ok (register.rotated part.rotation) := by
  -- Each shape has its own instruction for turning its lane groups, and needs none for no turn.
  by_cases still : part.rotation = 0
  · -- Without a rotation there is no immediate, so the register is taken as it is.
    rw [still, rotated_zero]
    cases shaped : register.shape <;> simp [rotateGroups, UnionPart.immediate, still]
  cases shaped : register.shape with
  | xmm =>
    -- One lane group leaves nothing to rotate.
    rw [shaped] at bound
    have single : Shape.groups .xmm = 1 := rfl
    omega
  | ymm =>
    rw [shaped] at bound
    have double : Shape.groups .ymm = 2 := rfl
    have once : part.rotation = 1 := by omega
    rw [once, ← permuteQwords_swap shaped]
    simp [rotateGroups, UnionPart.immediate, shaped, still]
  | zmm =>
    rw [shaped] at bound
    have four : Shape.groups .zmm = 4 := rfl
    have counted : word (part.rotation + 3) = .ok (part.rotation + 3) := by
      rw [word, if_pos (by omega)]
    rw [← permuteGroups_rotate shaped]
    simp [rotateGroups, UnionPart.immediate, shaped, still, counted, rotationImmediate]

end Register

namespace Route

/-- Whether the part that reads so many lane groups further on supplies a byte. -/
def supplies (route : Route) (rotation position : Nat) : Bool :=
  route.isFurther rotation position (route.source position)

/-- A fitting route fills the lane groups of the register. -/
theorem Fits.groups_eq {route : Route} {shape : Shape} (fits : route.Fits shape) :
    route.groups = shape.groups := by
  -- Both count the bytes in lane groups, and the register has only whole ones.
  rw [groups, fits.bytes_eq]
  cases shape <;> decide

/-- A control byte is the place in the lane group where its part supplies it, else the zero mark. -/
theorem getElem?_unionControl {route : Route} {rotation position : Nat}
    (inside : position < route.bytes) :
    (route.unionControl rotation)[position]? =
      some (if route.supplies rotation position
        then UInt8.ofNat (route.source position % groupBytes) else zeroByte) := by
  -- The control byte is made from the destination and the source that is listed for it.
  rw [unionControl, List.getElem?_mapIdx, getElem?_sources inside]
  rfl

/-- There is a control byte for every byte of the route. -/
@[simp] theorem length_unionControl (route : Route) (rotation : Nat) :
    (route.unionControl rotation).length = route.bytes :=
  -- Every source gives one control byte.
  List.length_mapIdx

/-- A place in a lane group fits in a control byte. -/
theorem toNat_place (source : Nat) :
    (UInt8.ofNat (source % groupBytes)).toNat = source % groupBytes := by
  -- Such a place is below sixteen, and a byte holds more than that.
  have small := Nat.mod_lt source (by decide : 0 < groupBytes)
  rw [UInt8.toNat_ofNat', groupBytes] at *
  omega

/-- A place in a lane group is below the zero mark. -/
theorem place_lt_zeroByte (source : Nat) : ¬ zeroByte ≤ UInt8.ofNat (source % groupBytes) := by
  -- A place is below sixteen, and the mark is one hundred and twenty-eight.
  have small := Nat.mod_lt source (by decide : 0 < groupBytes)
  have mark : zeroByte.toNat = 128 := rfl
  rw [UInt8.le_iff_toNat_le, toNat_place, mark]
  rw [groupBytes] at *
  omega

/-- A place in a lane group is not the zero mark. -/
theorem place_ne_zeroByte (source : Nat) : UInt8.ofNat (source % groupBytes) ≠ zeroByte := by
  -- The mark is not below itself.
  intro marked
  exact place_lt_zeroByte source (by rw [marked]; exact UInt8.le_refl _)

/-- How many lane groups further on a byte's source lies, counted round the route. -/
def distance (route : Route) (position : Nat) : Nat :=
  (route.source position / groupBytes + (route.groups - position / groupBytes)) % route.groups

/-- Counting on from one place of a round leads to another only by the way between them. -/
theorem add_mod_eq_iff {own other count steps : Nat} (ownInside : own < count)
    (otherInside : other < count) (few : steps < count) :
    (own + steps) % count = other ↔ steps = (other + (count - own)) % count := by
  -- The way there and the way on from there make one whole round.
  constructor
  · rintro rfl
    rw [Nat.mod_add_mod, show own + steps + (count - own) = steps + count by omega,
      Nat.add_mod_right, Nat.mod_eq_of_lt few]
  · rintro rfl
    rw [Nat.add_mod_mod, show own + (other + (count - own)) = other + count by omega,
      Nat.add_mod_right, Nat.mod_eq_of_lt otherInside]

/-- A byte of a route lies in one of its lane groups, the last of which need not be full. -/
theorem group_lt {route : Route} {position : Nat} (inside : position < route.bytes) :
    position / groupBytes < route.groups := by
  -- A group that is only begun is counted as well.
  rw [groups, groupBytes]
  omega

/-- The distance to a source is less than a whole round. -/
theorem distance_lt {route : Route} {position : Nat} (inside : position < route.bytes) :
    route.distance position < route.groups :=
  -- It is counted round the groups, of which there is one for the byte.
  Nat.mod_lt _ (Nat.lt_of_le_of_lt (Nat.zero_le _) (group_lt inside))

/-- Every byte is supplied at the distance to its source, and at no other rotation. -/
theorem Closed.supplies_iff {route : Route} (closed : route.Closed) {rotation position : Nat}
    (inside : position < route.bytes) (bound : rotation < route.groups) :
    route.supplies rotation position = true ↔ rotation = route.distance position := by
  -- Both the byte and its source lie in a group of the route.
  rw [supplies, isFurther, decide_eq_true_eq, eq_comm, distance]
  exact add_mod_eq_iff (group_lt inside) (group_lt (closed.source_lt inside)) bound

/-- The rotations that supply any byte, in order. -/
def rotations (route : Route) : List Nat := (List.range route.groups).filter route.usesRotation

/-- A rotation is used when it supplies some byte of the route. -/
theorem usesRotation_iff {route : Route} {rotation : Nat} :
    route.usesRotation rotation = true ↔
      ∃ position < route.bytes, route.supplies rotation position = true := by
  -- Every source is looked at together with the position that reads it.
  rw [usesRotation, List.any_eq_true]
  constructor
  · rintro ⟨⟨source, position⟩, member, further⟩
    have listed := List.mem_zipIdx_iff_getElem?.mp member
    obtain ⟨inside, _⟩ := List.getElem?_eq_some_iff.mp listed
    rw [getElem?_sources inside, Option.some.injEq] at listed
    obtain rfl : route.source position = source := listed
    exact ⟨position, inside, further⟩
  · rintro ⟨position, inside, supplied⟩
    exact ⟨(route.source position, position),
      List.mem_zipIdx_iff_getElem?.mpr (getElem?_sources inside), supplied⟩

/-- A part of a union is known by its rotation, which gives it its control. -/
theorem mem_unionParts {route : Route} {part : UnionPart} :
    part ∈ route.unionParts ↔
      part.rotation ∈ route.rotations ∧ part.control = route.unionControl part.rotation := by
  -- A part is made from its rotation alone.
  rw [unionParts, List.mem_map]
  constructor
  · rintro ⟨rotation, used, rfl⟩
    exact ⟨used, rfl⟩
  · rintro ⟨used, control⟩
    refine ⟨part.rotation, used, ?_⟩
    rw [← control]

/-- The rotations of the parts are those that supply any byte. -/
@[simp] theorem map_rotation_unionParts (route : Route) :
    route.unionParts.map UnionPart.rotation = route.rotations := by
  -- The rotation that a part is made from is the one it keeps.
  rw [unionParts, List.map_map]
  exact List.map_id _

/-- The rotations are tried in order, and some of them are left out. -/
theorem pairwise_rotations (route : Route) : route.rotations.Pairwise (· < ·) :=
  -- They are filtered from numbers that count up.
  List.pairwise_lt_range.filter _

/-- Every rotation that is used is less than a whole round. -/
theorem rotation_lt {route : Route} {rotation : Nat} (used : rotation ∈ route.rotations) :
    rotation < route.groups :=
  -- Only rotations below the number of groups are tried.
  List.mem_range.mp (List.mem_filter.mp used).1

/-- The rotations that a closed route uses are the distances to its sources. -/
theorem Closed.mem_rotations {route : Route} (closed : route.Closed) {rotation : Nat} :
    rotation ∈ route.rotations ↔
      ∃ position < route.bytes, route.distance position = rotation := by
  -- A rotation is used for a byte when it is the distance to its source.
  constructor
  · intro used
    obtain ⟨position, inside, supplied⟩ := usesRotation_iff.mp (List.mem_filter.mp used).2
    exact ⟨position, inside, ((closed.supplies_iff inside (rotation_lt used)).mp supplied).symm⟩
  · rintro ⟨position, inside, rfl⟩
    have bound := distance_lt inside
    have supplied := (closed.supplies_iff inside bound).mpr rfl
    exact List.mem_filter.mpr
      ⟨List.mem_range.mpr bound, usesRotation_iff.mpr ⟨position, inside, supplied⟩⟩

/-- Every byte of a closed route has a part at the distance to its source. -/
theorem Closed.part_mem {route : Route} (closed : route.Closed) {position : Nat}
    (inside : position < route.bytes) :
    ⟨route.distance position, route.unionControl (route.distance position)⟩ ∈ route.unionParts :=
  -- The distance is a rotation that is used, namely for this byte.
  mem_unionParts.mpr ⟨closed.mem_rotations.mpr ⟨position, inside, rfl⟩, rfl⟩

end Route

namespace Register

variable {register : Register} {route : Route}

/-- A part of a union contributes the bytes it supplies, and zero elsewhere. -/
theorem unionPart_eq_ok (fits : route.Fits register.shape) {rotation : Nat}
    (bound : rotation < route.groups) :
    register.unionPart ⟨rotation, route.unionControl rotation⟩ =
      .ok (build register.shape fun position =>
        if route.supplies rotation position then register.byte (route.source position) else 0) := by
  -- The rotation is one that the register has, so only the look-up is left to follow.
  rw [fits.groups_eq] at bound
  rw [unionPart, rotateGroups_eq_ok _ _ bound]
  refine congrArg Except.ok (build_congr ?_)
  intro position inside
  have inside : position < register.shape.bytes := inside
  have listed : (route.unionControl rotation)[position]? = _ :=
    Route.getElem?_unionControl (by rw [fits.bytes_eq]; exact inside)
  dsimp only
  rw [listed]
  cases supplied : route.supplies rotation position with
  -- A byte that the part does not supply has the mark in its control, which reads as zero.
  | false => simp
  | true =>
    -- The part reads the source's lane group, and the control byte is its place there.
    have group : route.source position / groupBytes =
        (position / groupBytes + rotation) % register.shape.groups := by
      rw [← fits.groups_eq]
      exact of_decide_eq_true supplied
    simp only [if_true, if_neg (Route.place_lt_zeroByte _)]
    have small := Nat.mod_lt (route.source position) (by decide : 0 < groupBytes)
    have place : (UInt8.ofNat (route.source position % groupBytes)).toNat % groupBytes =
        route.source position % groupBytes := by
      rw [Route.toNat_place, Nat.mod_mod]
    have whole : groupBytes ∣ register.shape.bytes := by cases register.shape <;> decide
    -- The same place in the byte's own lane group is looked up, after the groups were rotated.
    have room : position / groupBytes * groupBytes + route.source position % groupBytes <
        register.shape.bytes := by
      obtain ⟨count, total⟩ := whole
      simp only [total, groupBytes] at *
      omega
    obtain ⟨quotient, remainder⟩ := block_of_place (position / groupBytes) small
    rw [place, rotated, byte_build _ _ _ room, quotient, remainder, ← group, Nat.mul_comm,
      Nat.div_add_mod]

/-- Joining the parts of some rotations leaves the bytes that any of them supplies. -/
theorem foldlM_unionParts (fits : route.Fits register.shape) (rotations : List Nat)
    (bound : ∀ rotation ∈ rotations, rotation < route.groups) (held : Nat → Bool) :
    (rotations.map fun rotation => (⟨rotation, route.unionControl rotation⟩ : UnionPart)).foldlM
        (fun joined part => (register.unionPart part).map joined.join)
        (build register.shape fun position =>
          if held position then register.byte (route.source position) else 0) =
      .ok (build register.shape fun position =>
        if held position || rotations.any (route.supplies · position) then
          register.byte (route.source position) else 0) := by
  -- What is held so far grows by what the next part supplies.
  induction rotations generalizing held with
  | nil =>
    simp [pure, Except.pure]
  | cons rotation rest ih =>
    rw [List.forall_mem_cons] at bound
    rw [List.map_cons, List.foldlM_cons, unionPart_eq_ok fits bound.1]
    -- Joining the next part adds the bytes that it supplies.
    have joined : (build register.shape fun position =>
          if held position then register.byte (route.source position) else 0).join
        (build register.shape fun position =>
          if route.supplies rotation position then register.byte (route.source position) else 0) =
        build register.shape fun position =>
          if held position || route.supplies rotation position then
            register.byte (route.source position) else 0 := by
      rw [join]
      apply build_congr
      intro position inside
      have inside : position < register.shape.bytes := inside
      rw [byte_build _ _ _ inside, byte_build _ _ _ inside]
      -- A byte that is held and supplied again is joined with itself.
      cases held position <;> cases route.supplies rotation position <;> simp
    show (_ >>= _) = _
    rw [Except.map, ok_bind, joined, ih bound.2]
    refine congrArg Except.ok (build_congr ?_)
    intro position _
    rw [List.any_cons, Bool.or_assoc]

/-- The parts of a route's union, joined, move every byte to where the route wants it. -/
theorem apply_unionParts (fits : route.Fits register.shape) :
    (Permute.union route.unionParts).apply register = .ok (register.routed route) := by
  -- Every byte is supplied at the distance to its source, and one part reads there.
  have start : Register.zero register.shape = build register.shape fun position =>
      if (fun _ => false : Nat → Bool) position then register.byte (route.source position)
      else 0 := by
    simp [Register.zero]
  -- The parts are those of the rotations that supply any byte at all.
  rw [Permute.apply, Route.unionParts, start, foldlM_unionParts fits]
  · refine congrArg Except.ok (build_congr ?_)
    intro position inside
    have covered : position < route.bytes := by
      rw [fits.bytes_eq]
      exact inside
    have supplied := (fits.closed.supplies_iff covered (Route.distance_lt covered)).mpr rfl
    rw [if_pos]
    rw [Bool.false_or, List.any_eq_true]
    exact ⟨_, fits.closed.mem_rotations.mpr ⟨position, covered, rfl⟩, supplied⟩
  · intro rotation used
    exact Route.rotation_lt used

end Register

end SimdNetwork
