import Mathlib.Data.Finset.Card
import Mathlib.Data.Finset.Dedup
import Mathlib.Data.Finset.Image
import Mathlib.Data.Finset.Range
import SimdNetwork.Proofs.Permute.Union

/-! The parts of a masked union share out the bytes of a route, one part for each byte. -/

namespace SimdNetwork

namespace Route

/-- Parts of which exactly one supplies each byte of a route, and each supplies some byte. -/
structure Partitions (route : Route) (parts : List UnionPart) : Prop where
  /-- The rotations count up. -/
  rotations_increase : (parts.map UnionPart.rotation).Pairwise (· < ·)
  /-- No part reads a whole round further on. -/
  rotation_lt : ∀ part ∈ parts, part.rotation < route.groups
  /-- Every part has a control byte for every destination. -/
  control_length : ∀ part ∈ parts, part.control.length = route.bytes
  /-- No part zeroes every byte. -/
  supplies_some : ∀ part ∈ parts, ∃ control ∈ part.control, control ≠ zeroByte
  /--
  Every byte has one part that does not zero it.

  It is the one that turns the byte's lane group to its source's, and its control byte is the place
  of the source there.
  -/
  supplied_once : ∀ destination source, route.sources[destination]? = some source →
    ∃ part ∈ parts,
      (∀ rotation < route.groups,
        (destination / groupBytes + rotation) % route.groups = source / groupBytes ↔
          rotation = part.rotation) ∧
      (∃ control, part.control[destination]? = some control ∧
        control.toNat = source % groupBytes) ∧
      ∀ other ∈ parts, other.control[destination]? ≠ some zeroByte ↔ other = part

/-- The distances between lane groups that the bytes of a route cross. -/
def distances (route : Route) : Finset Nat := (Finset.range route.bytes).image route.distance

variable {route : Route}

/-- A closed route uses as many rotations as it crosses distances. -/
theorem Closed.length_rotations (closed : route.Closed) :
    route.rotations.length = route.distances.card := by
  -- The rotations are the distances, each of them listed once.
  have distinct : route.rotations.Nodup := route.pairwise_rotations.imp Nat.ne_of_lt
  have same : route.rotations.toFinset = route.distances := by
    ext rotation
    simp only [List.mem_toFinset, closed.mem_rotations, distances, Finset.mem_image,
      Finset.mem_range]
  rw [← same, List.toFinset_card_of_nodup distinct]

/-- A rotation zeroes every byte but those that it is the distance of. -/
theorem Closed.getElem?_unionControl_ne (closed : route.Closed) {rotation position : Nat}
    (inside : position < route.bytes) (bound : rotation < route.groups) :
    (route.unionControl rotation)[position]? ≠ some zeroByte ↔
      rotation = route.distance position := by
  -- A byte is zeroed just when its rotation does not supply it.
  rw [← closed.supplies_iff inside bound, getElem?_unionControl inside, Ne, Option.some.injEq]
  cases supplied : route.supplies rotation position with
  | false => simp
  | true =>
    -- A place in a lane group is never the mark.
    simp only [if_true, iff_true]
    exact place_ne_zeroByte _

/-- The part of a rotation is the only part that has the rotation. -/
theorem eq_part_iff {part : UnionPart} (member : part ∈ route.unionParts) {rotation : Nat} :
    part = ⟨rotation, route.unionControl rotation⟩ ↔ part.rotation = rotation := by
  -- The rotation of a part gives its control.
  obtain ⟨_, control⟩ := mem_unionParts.mp member
  constructor
  · intro same
    rw [same]
  · rintro rfl
    rw [← control]

/-- The part at the distance to its source supplies a byte, and every other part zeroes it. -/
theorem Closed.exists_supplier (closed : route.Closed) {destination : Nat}
    (inside : destination < route.bytes) :
    ∃ part ∈ route.unionParts,
      (∀ rotation < route.groups,
        (destination / groupBytes + rotation) % route.groups =
            route.source destination / groupBytes ↔ rotation = part.rotation) ∧
      (∃ control, part.control[destination]? = some control ∧
        control.toNat = route.source destination % groupBytes) ∧
      ∀ other ∈ route.unionParts,
        other.control[destination]? ≠ some zeroByte ↔ other = part := by
  -- The part is the one at the distance to the source, where the byte is supplied.
  have supplied := (closed.supplies_iff inside (distance_lt inside)).mpr rfl
  refine ⟨_, closed.part_mem inside, ?_, ?_, ?_⟩
  · intro rotation below
    rw [← closed.supplies_iff inside below, supplies, isFurther, decide_eq_true_eq, eq_comm]
  · refine ⟨_, getElem?_unionControl inside, ?_⟩
    rw [if_pos supplied, toNat_place]
  · intro other member
    obtain ⟨used, control⟩ := mem_unionParts.mp member
    rw [control, closed.getElem?_unionControl_ne inside (rotation_lt used), eq_part_iff member]

/-- The parts of a closed route share out its bytes. -/
theorem Closed.partitions (closed : route.Closed) : route.Partitions route.unionParts := by
  -- The rotations are the distances to sources, and a control tells which bytes are so far off.
  refine ⟨?_, ?_, ?_, ?_, ?_⟩
  · rw [map_rotation_unionParts]
    exact route.pairwise_rotations
  · intro part member
    exact Route.rotation_lt (mem_unionParts.mp member).1
  · intro part member
    rw [(mem_unionParts.mp member).2, length_unionControl]
  · intro part member
    -- A rotation is used for some byte, and the control of a byte that is supplied is no mark.
    obtain ⟨used, control⟩ := mem_unionParts.mp member
    obtain ⟨position, inside, supplied⟩ := usesRotation_iff.mp (List.mem_filter.mp used).2
    have listed : (route.unionControl part.rotation)[position]? = _ := getElem?_unionControl inside
    rw [if_pos supplied] at listed
    rw [control]
    exact ⟨_, List.mem_of_getElem? listed, place_ne_zeroByte _⟩
  · intro destination source named
    obtain ⟨inside, _⟩ := List.getElem?_eq_some_iff.mp named
    have inside : destination < route.bytes := inside
    rw [getElem?_sources inside, Option.some.injEq] at named
    rw [← named]
    exact closed.exists_supplier inside

/--
A masked union shares out the bytes of every stage's route.

Its rotations count up below the number of lane groups, each part supplies some byte, and each byte
is supplied by the one part that turns its lane group to its source's. So there are as many parts as
there are distances between the lane groups of bytes and their sources. All this is said of the
controls, since joining the parts would not show a byte that two of them supply. The route may have
any length, and its last lane group may be begun without being filled.
-/
theorem unionParts_partition (stage : Stage) (unit : Width) (valid : stage.Valid) :
    (ofStage stage unit).Partitions (ofStage stage unit).unionParts ∧
      (ofStage stage unit).unionParts.length = (ofStage stage unit).distances.card := by
  -- The route of a valid stage reads only its own bytes, whatever its length.
  have closed := closed_ofStage valid unit
  refine ⟨closed.partitions, ?_⟩
  rw [← closed.length_rotations, ← map_rotation_unionParts, List.length_map]

/--
Five qwords begin a third lane group without filling it.

All but the first read the next group on, the last one round the end, so one rotation is left out.
-/
theorem unionParts_partition_five_qwords :
    Stage.Valid ⟨[0, 2, 4, 4, 0], 1⟩ ∧
    (ofStage ⟨[0, 2, 4, 4, 0], 1⟩ .b8).groups = 3 ∧
    (ofStage ⟨[0, 2, 4, 4, 0], 1⟩ .b8).unionParts.map UnionPart.rotation = [0, 1] ∧
    (ofStage ⟨[0, 2, 4, 4, 0], 1⟩ .b8).distances.card = 2 ∧
    (ofStage ⟨[0, 2, 4, 4, 0], 1⟩ .b8).Partitions
      (ofStage ⟨[0, 2, 4, 4, 0], 1⟩ .b8).unionParts := by
  -- The rotations are found by running the encoder, and their count is that of the distances.
  have valid : Stage.Valid ⟨[0, 2, 4, 4, 0], 1⟩ := by decide
  obtain ⟨shared, count⟩ := unionParts_partition ⟨[0, 2, 4, 4, 0], 1⟩ .b8 valid
  exact ⟨valid, by decide, by decide, count.symm.trans (by decide), shared⟩

end Route

end SimdNetwork
