import Mathlib.Algebra.BigOperators.Group.Finset.Basic
import Mathlib.Algebra.Ring.Nat
import SimdNetwork.Proofs.Register.Lane

/-! The lanes of every width are views of the same bytes. -/

namespace SimdNetwork

/-- Bytes spell what the blocks they are cut into spell, each block counting for those before it. -/
theorem littleEndian_blocks (content : Nat → UInt8) (size count : Nat) :
    littleEndian ((List.range (count * size)).map content) =
      ∑ block ∈ Finset.range count,
        littleEndian ((List.range size).map fun offset => content (block * size + offset)) *
          2 ^ (8 * size * block) := by
  -- The induction is on the blocks, of which the last one counts most.
  induction count with
  | zero => simp [littleEndian]
  | succ count ih =>
    -- The last block stands behind all the bytes of the others.
    have behind : (List.range ((count + 1) * size)).map content =
        (List.range (count * size)).map content ++
          (List.range size).map fun offset => content (count * size + offset) := by
      rw [Nat.succ_mul, List.range_add, List.map_append, List.map_map]
      rfl
    rw [behind, littleEndian_append, ih, Finset.sum_range_succ, List.length_map,
      List.length_range, Nat.shiftLeft_eq, Nat.mul_comm count size, Nat.mul_assoc]

/-- The choice among narrow lanes that moves the wide lanes they make by a choice of their own. -/
def inBlocks (factor : Nat) (source : Nat → Nat) (lane : Nat) : Nat :=
  source (lane / factor) * factor + lane % factor

/-- Narrow lanes are chosen among those there are when the wide ones are. -/
theorem inBlocks_lt_iff {factor count : Nat} (positive : 0 < factor) {source : Nat → Nat} :
    (∀ lane < count, source lane < count) ↔
      ∀ lane < count * factor, inBlocks factor source lane < count * factor := by
  -- A wide lane that there is has all its narrow lanes, and one that there is not has none.
  constructor
  · intro chosen lane below
    have named := chosen _ ((Nat.div_lt_iff_lt_mul positive).mpr below)
    have room : (source (lane / factor) + 1) * factor ≤ count * factor :=
      Nat.mul_le_mul_right _ named
    have offset := Nat.mod_lt lane positive
    rw [Nat.succ_mul] at room
    rw [inBlocks]
    omega
  · intro chosen lane below
    -- The first narrow lane of a wide one is taken from the first of its source.
    have first := chosen (lane * factor) (Nat.mul_lt_mul_of_pos_right below positive)
    rw [inBlocks, Nat.mul_div_cancel _ positive, Nat.mul_mod_left, Nat.add_zero] at first
    exact Nat.lt_of_mul_lt_mul_right first

/-- The widths that are listed as wider are those of more bytes. -/
theorem Width.mem_wider_iff {narrow wide : Width} :
    wide ∈ narrow.wider ↔ narrow.bytes < wide.bytes := by
  -- The list of every width is looked through.
  cases narrow <;> cases wide <;> decide

/-- A register has so many narrow lanes for each wide one. -/
theorem Shape.lanes_mul_factorTo (shape : Shape) {narrow wide : Width}
    (wider : wide ∈ narrow.wider) :
    shape.lanes wide * narrow.factorTo wide = shape.lanes narrow := by
  -- Both sides are the bytes of the register, counted in narrow lanes.
  apply Nat.eq_of_mul_eq_mul_right narrow.bytes_pos
  rw [Nat.mul_assoc, Stage.factorTo_mul_bytes wider, shape.lanes_mul_bytes, shape.lanes_mul_bytes]

namespace Register

section Store

variable {register stored : Register} {width : Width} {lane value : Nat}

/-- A lane that the register has can be stored, which replaces its bytes and no others. -/
theorem setLane_eq_ok (register : Register) (value : Nat) (inside : lane < register.lanes width) :
    register.setLane width lane value = .ok (build register.shape fun position =>
      if position / width.bytes = lane then byteOf value (position % width.bytes)
      else register.byte position) := by
  -- The store asks only whether the register has the lane.
  rw [setLane, if_pos inside]

/-- Storing a lane changes the bytes of the lane in the same kind of register. -/
theorem byte_setLane (made : register.setLane width lane value = .ok stored) :
    stored.shape = register.shape ∧ ∀ position < register.shape.bytes, stored.byte position =
      if position / width.bytes = lane then byteOf value (position % width.bytes)
      else register.byte position := by
  -- A store that succeeded was into a lane of the register.
  rw [setLane] at made
  split at made
  · cases made
    exact ⟨rfl, fun position inside => byte_build _ _ _ inside⟩
  · cases made

/-- A stored lane is read back as far as it reaches. -/
theorem lane_setLane (inside : lane < register.lanes width)
    (made : register.setLane width lane value = .ok stored) :
    stored.lane width lane = .ok (value % (1 <<< width.bits)) := by
  -- The bytes of the lane are now those of the number.
  obtain ⟨shaped, bytes⟩ := byte_setLane made
  rw [lane_eq_ok (by rw [shaped]; exact inside)]
  refine congrArg Except.ok (laneBits_of_byteOf ?_)
  intro offset within
  obtain ⟨ofLane, ofOffset⟩ := block_of_place lane within
  rw [bytes _ (byte_inside inside within), ofLane, ofOffset, if_pos rfl]

/-- Storing a lane does not show in a lane of any width that lies apart from it. -/
theorem lane_setLane_of_apart (made : register.setLane width lane value = .ok stored)
    {unit : Width} {other : Nat}
    (apart : (other + 1) * unit.bytes ≤ lane * width.bytes ∨
      (lane + 1) * width.bytes ≤ other * unit.bytes) :
    stored.lane unit other = register.lane unit other := by
  -- The two registers have the same lanes, so both reads fail or neither does.
  obtain ⟨shaped, bytes⟩ := byte_setLane made
  rw [Register.lane, Register.lane, lanes, lanes, shaped]
  split
  · rename_i inside
    refine congrArg Except.ok (laneBits_congr ?_)
    intro offset within
    -- Every byte of the other lane lies before the stored one or behind it.
    have outside : (other * unit.bytes + offset) / width.bytes ≠ lane := by
      intro same
      have low := Nat.div_mul_le_self (other * unit.bytes + offset) width.bytes
      have high := Nat.lt_div_mul_add (a := other * unit.bytes + offset) width.bytes_pos
      rw [same] at low high
      rw [Nat.succ_mul, Nat.succ_mul] at apart
      omega
    rw [bytes _ (byte_inside inside within), if_neg outside]
  · rfl

/-- Reading a lane can only fail when the register does not have it. -/
theorem fault_of_lane {fault : Fault} (failed : register.lane width lane = .error fault) :
    fault = .outOfRange := by
  -- There is one test, and one fault for failing it.
  rw [Register.lane] at failed
  split at failed
  · cases failed
  · exact (Except.error.inj failed).symm

/-- Storing a lane can only fail when the register does not have it. -/
theorem fault_of_setLane {fault : Fault}
    (failed : register.setLane width lane value = .error fault) : fault = .outOfRange := by
  -- The store makes the same test as the read.
  rw [setLane] at failed
  split at failed
  · cases failed
  · exact (Except.error.inj failed).symm

end Store

section Move

/-- The register with its lanes chosen among its own, stored one after another into an empty one. -/
def moveLanes (register : Register) (width : Width) (source : Nat → Nat) :
    Except Fault Register :=
  (List.range (register.lanes width)).foldlM
    (fun moved lane => do moved.setLane width lane (← register.lane width (source lane)))
    (zero register.shape)

/-- The register whose low lanes hold the given numbers, and whose other lanes are empty. -/
def ofLanes (shape : Shape) (width : Width) (count : Nat) (value : Nat → Nat) : Register :=
  build shape fun position =>
    if position / width.bytes < count then
      byteOf (value (position / width.bytes)) (position % width.bytes)
    else 0

/-- Storing the next lane adds it to the low lanes. -/
theorem setLane_ofLanes {shape : Shape} {width : Width} {count : Nat} (value : Nat → Nat)
    (inside : count < shape.lanes width) :
    (ofLanes shape width count value).setLane width count (value count) =
      .ok (ofLanes shape width (count + 1) value) := by
  -- Both registers are compared byte by byte.
  rw [setLane_eq_ok _ _ inside]
  refine congrArg Except.ok (build_congr ?_)
  intro position within
  have within : position < shape.bytes := within
  rw [ofLanes, byte_build _ _ _ within]
  -- Only the bytes of the next lane are replaced.
  rcases Nat.lt_trichotomy (position / width.bytes) count with below | here | above
  · rw [if_neg (Nat.ne_of_lt below), if_pos below, if_pos (Nat.lt_succ_of_lt below)]
  · rw [if_pos here, if_pos (by omega), here]
  · rw [if_neg (by omega), if_neg (by omega), if_neg (by omega)]

/-- Storing lanes from the lowest on fills the low lanes with what was read for them. -/
theorem foldlM_setLane {shape : Shape} {width : Width} {read : Nat → Except Fault Nat}
    {value : Nat → Nat} {count : Nat} (room : count ≤ shape.lanes width)
    (readable : ∀ lane < count, read lane = .ok (value lane)) :
    (List.range count).foldlM
        (fun moved lane => do moved.setLane width lane (← read lane)) (zero shape) =
      .ok (ofLanes shape width count value) := by
  -- The register built so far has its low lanes filled, which is what each store preserves.
  induction count with
  | zero => simp [ofLanes, zero, pure, Except.pure]
  | succ count ih =>
    have before := ih (by omega) fun lane below => readable lane (by omega)
    rw [List.range_succ, List.foldlM_append, before, ok_bind, List.foldlM_cons,
      readable count (by omega), ok_bind, setLane_ofLanes value (by omega)]
    rfl

/-- Moving lanes one after another moves their bytes in blocks. -/
theorem moveLanes_eq_moveBlocks (register : Register) (width : Width) (source : Nat → Nat) :
    register.moveLanes width source = register.moveBlocks width.bytes source := by
  -- Both succeed when every lane is taken from one that the register has.
  by_cases inside : ∀ lane < register.shape.lanes width, source lane < register.shape.lanes width
  · have readable : ∀ lane < register.shape.lanes width,
        register.lane width (source lane) = .ok (register.laneBits width (source lane)) :=
      fun lane below => lane_eq_ok (inside lane below)
    rw [moveLanes, lanes, foldlM_setLane (Nat.le_refl _) readable, moveBlocks_eq_ok rfl inside]
    -- Each byte of a lane is a byte of the number that the lane holds.
    refine congrArg Except.ok (build_congr ?_)
    intro position within
    rw [if_pos (lane_lt within), byteOf_laneBits _ _ _ (Nat.mod_lt position width.bytes_pos)]
  · -- A lane that the register does not have is the only thing that can go wrong.
    refine (foldlM_eq_error ?_ ?_).trans (if_neg inside).symm
    · intro moved lane fault failed
      rcases bind_eq_error.mp failed with unread | ⟨_, _, unstored⟩
      · exact fault_of_lane unread
      · exact fault_of_setLane unstored
    · rw [not_forall] at inside
      obtain ⟨lane, outside⟩ := inside
      rw [Classical.not_imp] at outside
      have unread : register.lane width (source lane) = .error .outOfRange := if_neg outside.2
      refine ⟨lane, List.mem_range.mpr outside.1, ?_⟩
      intro moved
      rw [unread, error_bind]

/-- Moving wide blocks moves the narrow ones that they are made of, in or out of the register. -/
theorem moveBlocks_inBlocks (register : Register) {factor size : Nat} (factorPositive : 0 < factor)
    (sizePositive : 0 < size) (whole : factor * size ∣ register.shape.bytes)
    (source : Nat → Nat) :
    register.moveBlocks (factor * size) source =
      register.moveBlocks size (inBlocks factor source) := by
  -- The register has so many narrow blocks for each wide one.
  obtain ⟨count, total⟩ := whole
  have wide : register.shape.bytes / (factor * size) = count := by
    rw [total, Nat.mul_div_cancel_left _ (Nat.mul_pos factorPositive sizePositive)]
  have narrow : register.shape.bytes / size = count * factor := by
    rw [total, Nat.mul_comm factor size, Nat.mul_assoc, Nat.mul_div_cancel_left _ sizePositive,
      Nat.mul_comm]
  simp only [moveBlocks, wide, narrow, ← inBlocks_lt_iff factorPositive]
  -- A byte keeps its place in its narrow block, and so in its wide one.
  split
  · refine congrArg Except.ok (build_congr ?_)
    intro position _
    rw [inBlocks, place_in_unit, Nat.div_div_eq_div_mul, Nat.mul_comm size factor]
  · rfl

end Move

section Widths

variable {narrow wide : Width}

/-- A wide lane holds what its narrow lanes spell. -/
theorem laneBits_eq_sum (register : Register) (wider : wide ∈ narrow.wider) (lane : Nat) :
    register.laneBits wide lane = ∑ place ∈ Finset.range (narrow.factorTo wide),
      register.laneBits narrow (lane * narrow.factorTo wide + place) *
        2 ^ (8 * narrow.bytes * place) := by
  -- The bytes of the wide lane are cut into blocks, one for each narrow lane.
  rw [laneBits, ← Stage.factorTo_mul_bytes wider, littleEndian_blocks]
  apply Finset.sum_congr rfl
  intro place _
  -- Both readings start at the same byte.
  have start : ∀ offset, lane * (narrow.factorTo wide * narrow.bytes) +
      (place * narrow.bytes + offset) =
        (lane * narrow.factorTo wide + place) * narrow.bytes + offset := by
    intro offset
    rw [Nat.add_mul, Nat.mul_assoc, Nat.add_assoc]
  simp only [laneBits, start]

/-- The narrow lanes of a wide lane that the register has can be read, and spell it. -/
theorem lane_eq_sum {register : Register} (wider : wide ∈ narrow.wider) {lane : Nat}
    (inside : lane < register.lanes wide) :
    ∃ part : Nat → Nat,
      (∀ place < narrow.factorTo wide,
        register.lane narrow (lane * narrow.factorTo wide + place) = .ok (part place)) ∧
      register.lane wide lane = .ok (∑ place ∈ Finset.range (narrow.factorTo wide),
        part place * 2 ^ (8 * narrow.bytes * place)) := by
  -- The register has every narrow lane of a wide lane that it has.
  refine ⟨fun place => register.laneBits narrow (lane * narrow.factorTo wide + place), ?_, ?_⟩
  · intro place within
    have room : (lane + 1) * narrow.factorTo wide ≤ register.shape.lanes narrow := by
      rw [← register.shape.lanes_mul_factorTo wider]
      exact Nat.mul_le_mul_right _ inside
    rw [Nat.succ_mul] at room
    exact lane_eq_ok (by omega)
  · rw [lane_eq_ok inside, laneBits_eq_sum register wider]

/-- Wide lanes are moved by moving their narrow lanes in blocks. -/
theorem moveBlocks_wide (register : Register) (wider : wide ∈ narrow.wider)
    (source : Nat → Nat) :
    register.moveBlocks wide.bytes source =
      register.moveBlocks narrow.bytes (inBlocks (narrow.factorTo wide) source) := by
  -- The register has whole wide lanes, and these are whole numbers of narrow ones.
  have count := Stage.factorTo_mul_bytes wider
  have some_narrow : 0 < narrow.factorTo wide :=
    Nat.div_pos (Nat.le_of_lt (Width.mem_wider_iff.mp wider)) narrow.bytes_pos
  have whole : wide.bytes ∣ register.shape.bytes :=
    Dvd.intro_left _ (register.shape.lanes_mul_bytes wide)
  rw [← count] at whole ⊢
  exact register.moveBlocks_inBlocks some_narrow narrow.bytes_pos whole source

end Widths

/--
The lanes of all widths are coherent views of a register's bytes.

A stored lane is read back at its width and leaves lanes of any width alone that lie apart from it.
Moving blocks of bytes is reading and storing lanes. A wide lane is the sum of its narrow lanes at
their places, and moving wide lanes is moving their narrow lanes in blocks.
-/
theorem lane_views_coherent (register : Register) :
    (∀ (width : Width) (lane value : Nat), lane < register.lanes width →
      ∃ stored, register.setLane width lane value = .ok stored ∧
        stored.lane width lane = .ok (value % 2 ^ (8 * width.bytes)) ∧
        ∀ (unit : Width) (other : Nat),
          (other + 1) * unit.bytes ≤ lane * width.bytes ∨
            (lane + 1) * width.bytes ≤ other * unit.bytes →
          stored.lane unit other = register.lane unit other) ∧
    (∀ (width : Width) (source : Nat → Nat),
      register.moveBlocks width.bytes source = register.moveLanes width source) ∧
    ∀ narrow wide : Width, narrow.bytes < wide.bytes →
      (∀ lane < register.lanes wide, ∃ part : Nat → Nat,
        (∀ place < narrow.factorTo wide,
          register.lane narrow (lane * narrow.factorTo wide + place) = .ok (part place)) ∧
        register.lane wide lane = .ok (∑ place ∈ Finset.range (narrow.factorTo wide),
          part place * 2 ^ (8 * narrow.bytes * place))) ∧
      ∀ source : Nat → Nat, register.moveBlocks wide.bytes source =
        register.moveBlocks narrow.bytes (inBlocks (narrow.factorTo wide) source) := by
  -- Storing, moving and widening are taken one after another.
  refine ⟨?_, ?_, ?_⟩
  · intro width lane value inside
    have made := setLane_eq_ok register value inside
    refine ⟨_, made, ?_, fun unit other apart => lane_setLane_of_apart made apart⟩
    rw [lane_setLane inside made, Nat.one_shiftLeft, Width.bits]
  · intro width source
    exact (register.moveLanes_eq_moveBlocks width source).symm
  · -- Widths of more bytes are those that a lane can be made wider to.
    intro narrow wide narrower
    have wider := Width.mem_wider_iff.mpr narrower
    exact ⟨fun lane inside => lane_eq_sum wider inside, register.moveBlocks_wide wider⟩

/-- The high half of a qword is stored, and the qword shows it above the half that is left alone. -/
theorem lane_views_coherent_high_dword :
    3 < (zero .ymm).lanes .b4 ∧
    ∃ stored, (zero .ymm).setLane .b4 3 0x100000007 = .ok stored ∧
      stored.lane .b4 3 = .ok 7 ∧
      stored.lane .b4 2 = .ok 0 ∧
      stored.lane .b8 1 = .ok (7 * 2 ^ 32) ∧
      stored.moveBlocks 8 (fun _ => 1) = stored.moveBlocks 4 fun lane => 2 + lane % 2 := by
  -- The two dwords of the qword are read first, one as stored and one as left alone.
  have inside : 3 < (zero .ymm).lanes .b4 := by decide
  -- The dword below is empty, since its bytes are those of zero.
  have empty : (zero .ymm).lane .b4 2 = .ok 0 := by
    have spelled : ∀ offset < Width.bytes .b4,
        (zero .ymm).byte (2 * Width.bytes .b4 + offset) = byteOf 0 offset := by
      intro offset within
      rw [zero, byte_build _ _ _ (byte_inside (by decide) within), byteOf, Nat.zero_shiftRight]
      rfl
    rw [lane_eq_ok (by decide), laneBits_of_byteOf spelled]
    rfl
  obtain ⟨stored, made, high, frame⟩ := (lane_views_coherent (zero .ymm)).1 .b4 3 0x100000007 inside
  have low : stored.lane .b4 2 = .ok 0 := (frame .b4 2 (by decide)).trans empty
  -- Every register has a second qword, and its dwords are the two just read.
  have second : 1 < stored.lanes .b8 := by
    rw [lanes]
    cases stored.shape <;> decide
  obtain ⟨sums, moves⟩ := (lane_views_coherent stored).2.2 .b4 .b8 (by decide)
  obtain ⟨part, parts, whole⟩ := sums 1 second
  have lowPart : part 0 = 0 := Except.ok.inj ((parts 0 (by decide)).symm.trans low)
  have highPart : part 1 = 7 := Except.ok.inj ((parts 1 (by decide)).symm.trans high)
  refine ⟨inside, stored, made, high, low, ?_, moves _⟩
  rw [whole, show Width.factorTo .b4 .b8 = 2 from rfl, Finset.sum_range_succ, Finset.sum_range_one,
    lowPart, highPart]
  rfl

end Register

end SimdNetwork
