import SimdNetwork.Proofs.Plan.Requires
import SimdNetwork.Proofs.Plan.Selector

/-! The operands of a plan are what its instructions are made for. -/

namespace SimdNetwork

/--
An operand that a permute of the unit can be given in a register.

Immediates have no shape of their own, since any byte is four selections among four slots.
-/
def Permute.Operable (permute : Permute) (shape : Shape) (unit : Width) : Prop :=
  match permute with
  | .dwords _ | .words .. | .qwords _ => True
  | .bytes control =>
    control.length = shape.bytes ∧ ∀ place ∈ control, place.toNat < groupBytes
  | .indexed own indices =>
    own = unit ∧ indices.length = shape.lanes own ∧
      ∀ index ∈ indices, index.toNat < shape.lanes own
  | .union parts =>
    parts ≠ [] ∧ (parts.map UnionPart.rotation).Pairwise (· < ·) ∧
      ∀ part ∈ parts, part.rotation < shape.groups ∧ part.control.length = shape.bytes ∧
        ∀ place ∈ part.control, place.toNat < groupBytes ∨ place = zeroByte

/-- An operand that a blend of lanes of the width can be given in a register. -/
def Blend.Operable (blend : Blend) (shape : Shape) (width : Width) : Prop :=
  match blend with
  | .maskMove unit mask =>
    unit = width ∧ ∀ bit, shape.lanes width ≤ bit → mask.testBit bit = false
  | .words _ => True
  | .dwords immediate => ∀ bit, shape.lanes .b4 ≤ bit → immediate.toNat.testBit bit = false
  | .bytes selector =>
    selector.length = shape.bytes ∧ ∀ mark ∈ selector, mark = 0 ∨ mark = takeByte

/-- The control byte of a place in a lane group stays below the size of the group. -/
theorem toNat_place_lt (source : Nat) :
    (UInt8.ofNat (source % groupBytes)).toNat < groupBytes := by
  -- The byte is the place itself.
  rw [Route.toNat_place]
  exact Nat.mod_lt source (by decide)

section Permutes

variable {route : Route} {shape : Shape}

/-- The parts of a union have a control byte for every byte, and their rotations count up. -/
theorem unionParts_operable (fits : route.Fits shape) (unit : Width) :
    (Permute.union route.unionParts).Operable shape unit := by
  -- The parts are known by their rotations, which are some of those below the group count.
  refine ⟨?_, ?_, ?_⟩
  · -- Whatever rotation supplies the first byte has a part.
    have positive : 0 < route.bytes := by
      rw [fits.bytes_eq]
      cases shape <;> decide
    exact List.ne_nil_of_mem (fits.closed.part_mem positive)
  · rw [route.map_rotation_unionParts]
    exact route.pairwise_rotations
  · intro part listed
    obtain ⟨used, control⟩ := Route.mem_unionParts.mp listed
    rw [control]
    refine ⟨?_, ?_, ?_⟩
    · rw [← fits.groups_eq]
      exact Route.rotation_lt used
    · rw [Route.length_unionControl, fits.bytes_eq]
    · -- A control byte is the place of a supplied byte, or the mark of one that is not.
      intro place member
      obtain ⟨destination, inside, rfl⟩ := List.mem_mapIdx.mp member
      split
      · exact .inl (toNat_place_lt _)
      · exact .inr rfl

/-- What a fitting route is encoded to is an operand for the kind and the unit asked for. -/
theorem Permute.operable_of_encode (fits : route.Fits shape) {kind : PermuteKind} {unit : Width}
    {permute : Permute} (encoded : encode kind unit route shape = .ok (some permute)) :
    permute.Operable shape unit := by
  -- The lengths are known from the kind, so only the entries are left to bound.
  obtain ⟨own, sized⟩ := kind_of_encode fits encoded
  cases kind with
  | dwordImmediate | wordImmediate | qwordImmediate =>
    cases permute <;> trivial
  | byteTable =>
    obtain ⟨control, table, rfl⟩ := Option.map_eq_some_iff.mp (Except.ok.inj encoded)
    rw [Route.byteTable?] at table
    split at table
    · cases table
      refine ⟨sized, ?_⟩
      -- Every control byte is the place of a source in its lane group.
      intro place member
      obtain ⟨source, _, rfl⟩ := List.mem_map.mp member
      exact toNat_place_lt source
    · cases table
  | indexed =>
    obtain ⟨indices, table, rfl⟩ := Option.map_eq_some_iff.mp (Except.ok.inj encoded)
    obtain ⟨units, found, rfl⟩ := Option.map_eq_some_iff.mp table
    refine ⟨sized.1, sized.2, ?_⟩
    -- An index is a unit of the register, and making a byte of it makes it no larger.
    intro index member
    obtain ⟨moved, listed, rfl⟩ := List.mem_map.mp member
    have inside := fits.unit_lt unit.bytes_pos found listed
    have count : units.length = shape.lanes unit := fits.length_units unit.bytes_pos found
    have cut := Nat.mod_le moved (2 ^ 8)
    rw [UInt8.toNat_ofNat']
    omega
  | maskedUnion =>
    cases encoded
    exact unionParts_operable fits unit

/-- Permutes between lane groups are not offered where there is only one. -/
theorem wide_of_crossesGroups {unit : Width} {row : PermuteRow}
    (listed : row ∈ permuteTable shape unit) (crosses : row.kind.crossesGroups = true) :
    shape ≠ .xmm := by
  -- The whole table of the smallest register is looked through.
  revert row
  cases shape <;> cases unit <;> decide

end Permutes

section Blends

variable {shape : Shape} {width : Width} {kind : BlendKind} {granularity : Granularity}

/-- Only mask moves are offered in the largest register. -/
theorem OffersBlend.narrow (offers : OffersBlend shape width kind granularity)
    (immediate : kind ≠ .maskMove) : shape ≠ .zmm := by
  -- Every other kind is offered for two of the registers at most.
  cases offers with
  | maskMove => contradiction
  | wordPairs size single =>
    rw [single]
    decide
  | words size narrow | dwords size narrow | dwordPairs size narrow | bytes narrow => exact narrow

/-- A byte made from a mask has no bit that the mask does not have. -/
theorem testBit_ofNat_of_not {bits bit : Nat} (clear : bits.testBit bit = false) :
    (UInt8.ofNat bits).toNat.testBit bit = false := by
  -- Making a byte of a mask only drops bits.
  rw [UInt8.toNat_ofNat', Nat.testBit_mod_two_pow, clear, Bool.and_false]

/-- What the selector of a stage is encoded to is an operand for lanes of its width. -/
theorem OffersBlend.operable (offers : OffersBlend shape width kind granularity) {stage : Stage}
    (full : stage.lanes = shape.lanes width) {blend : Blend}
    (encoded : Blend.encode kind granularity (Selector.ofLow stage width granularity) width =
      .ok (some blend)) : blend.Operable shape width := by
  -- The selector has no bit beyond the lanes, and encoding it adds none.
  have clear : ∀ bit, stage.lanes * granularity.stride width ≤ bit →
      (Selector.ofLow stage width granularity).bits.testBit bit = false :=
    fun _ => Selector.testBit_ofLow_beyond
  rw [full] at clear
  cases offers with
  | maskMove =>
    cases encoded
    exact ⟨rfl, by simpa [Granularity.stride] using clear⟩
  | words size narrow =>
    obtain ⟨found, _, mapped⟩ := map_eq_ok.mp encoded
    obtain ⟨immediate, _, rfl⟩ := Option.map_eq_some_iff.mp mapped
    trivial
  | wordPairs size narrow =>
    cases encoded
    trivial
  | dwords size narrow =>
    -- A dword has one bit, and the lanes are the dwords.
    subst size
    cases encoded
    intro bit beyond
    exact testBit_ofNat_of_not (clear bit (by simpa [Granularity.stride] using beyond))
  | dwordPairs size narrow =>
    -- A qword has two bits, one for each of its dwords.
    subst size
    cases encoded
    have halves : shape.lanes .b8 * 2 = shape.lanes .b4 := by cases shape <;> decide
    intro bit beyond
    exact testBit_ofNat_of_not (clear bit (by rw [Granularity.stride, halves]; exact beyond))
  | bytes narrow =>
    -- A vector has a mark for every byte of the lanes, which fill the register.
    obtain ⟨selector, built, same⟩ := map_eq_ok.mp encoded
    cases same
    have count : stage.lanes * width.bytes = shape.bytes := by
      rw [full, shape.lanes_mul_bytes]
    rw [Blend.selectorBytes, count] at built
    split at built
    · cases built
      refine ⟨by rw [List.length_map, List.length_range], ?_⟩
      intro mark member
      obtain ⟨byte, _, rfl⟩ := List.mem_map.mp member
      split
      · exact .inr rfl
      · exact .inl rfl
    · cases built

end Blends

section Serving

variable {stage : Stage} {element : Element} {target : Target} {widen : Bool} {shape : Shape}
variable {parts : Plan.Parts}

/-- The permute of a plan is given an operand for the plan's unit and register. -/
theorem Plan.Parts.Serve.permute_operable (serve : parts.Serve stage element target widen shape) :
    parts.permute.permute.Operable shape parts.permute.row.unit :=
  -- The permute was encoded from a route that fits the register.
  Permute.operable_of_encode
    (Route.fits_ofStage serve.valid (Stage.lanes_padTo serve.padded)) serve.permute.encoded

/-- The blend of a plan is given an operand for the element's lanes and the plan's register. -/
theorem Plan.Parts.Serve.blend_operable (serve : parts.Serve stage element target widen shape) :
    parts.blend.blend.Operable shape element.width ∧
      (parts.blend.blend.kind ≠ .maskMove → shape ≠ .zmm) := by
  -- The row is one of the table, which tells what it offers.
  obtain ⟨few, _⟩ := serve.selector_eq
  obtain ⟨_, _, _, _, serves⟩ := serve.blend
  have offers := offersBlend_of_mem (List.mem_of_find?_eq_some serve.find?_blend)
  -- The blend was encoded from the selector that the padded stage has.
  obtain ⟨selector, result, selected, encoded, chosen⟩ := BlendRow.choice?_eq_ok serves.made
  obtain ⟨blend, rfl, same⟩ := Option.map_eq_some_iff.mp chosen
  rw [Selector.ofStage_eq_ok few, Except.ok.injEq] at selected
  subst selected
  have operable := offers.operable (Stage.lanes_padTo serve.padded) encoded
  rw [serves.kind_eq]
  rw [← same]
  exact ⟨operable, offers.narrow⟩

end Serving

/--
Every operand in a plan is one that its instruction is made for.

Control vectors and selectors have a byte for every byte of the register, and indices one for every
lane of the permute's unit. Each entry is a place or a lane that exists, or a mark, the parts of a
union count up their rotations, and no mask or immediate has a bit beyond the lanes it selects
among. Permutes between lane groups are only used where there are several, and blends other than
mask moves only in registers that have them. Running a plan would not show a bad operand, since
indices are counted round the register, selections are cut to their bits and lists that are too long
are not read to the end.
-/
theorem Stage.operable_of_compile (stage : Stage) (element : Element) (target : Target)
    (widen : Bool) (plan : Plan) (valid : stage.Valid)
    (compiled : stage.compile element target widen = .ok plan) :
    plan.permute.Operable plan.shape plan.permuteUnit ∧
    (plan.permute.kind.crossesGroups = true → plan.shape ≠ .xmm) ∧
    plan.blend.Operable plan.shape plan.element.width ∧
    (plan.blend.kind ≠ .maskMove → plan.shape ≠ .zmm) := by
  -- The parts of the plan are operable in their register, which is the register of the plan.
  obtain ⟨shape, parts, _, serve, rfl⟩ := parts_of_compile valid compiled
  obtain ⟨permuteKind, permuteListed⟩ := serve.permute_row
  obtain ⟨blendOperable, blendNarrow⟩ := serve.blend_operable
  have ownElement : parts.plan.element = element := serve.resolved.element_eq
  rw [serve.shape_plan, ownElement]
  refine ⟨serve.permute_operable, ?_, blendOperable, blendNarrow⟩
  -- The permute is of the kind of its row, which the table offers in this register.
  intro crosses
  refine wide_of_crossesGroups permuteListed ?_
  rw [← permuteKind]
  exact crosses

/-- Seventeen bytes are moved by a union of two parts and blended by a selector vector. -/
theorem Stage.operable_of_compile_seventeen_bytes :
    Stage.Valid ⟨[16, 1, 2, 3, 4, 5, 6, 7, 8, 9, 10, 11, 12, 13, 14, 15, 0], 17⟩ ∧
    ∃ plan parts selector,
      Stage.compile ⟨[16, 1, 2, 3, 4, 5, 6, 7, 8, 9, 10, 11, 12, 13, 14, 15, 0], 17⟩ ⟨.b1, true⟩
        (.ofTier .avx2) true = .ok plan ∧
      plan.permute = .union parts ∧ plan.blend = .bytes selector ∧ parts.length = 2 ∧
      (parts.map UnionPart.rotation).Pairwise (· < ·) ∧
      (∀ part ∈ parts, part.rotation < 2 ∧ part.control.length = 32 ∧
        ∀ place ∈ part.control, place.toNat < 16 ∨ place = zeroByte) ∧
      selector.length = 32 ∧ ∀ mark ∈ selector, mark = 0 ∨ mark = Blend.takeByte := by
  -- The plan is computed, and what its operands are like is read off the theorem.
  have valid : Stage.Valid ⟨[16, 1, 2, 3, 4, 5, 6, 7, 8, 9, 10, 11, 12, 13, 14, 15, 0], 17⟩ := by
    decide
  obtain ⟨⟨_, rotations, parts⟩, _, ⟨length, marks⟩, _⟩ := Stage.operable_of_compile
    ⟨[16, 1, 2, 3, 4, 5, 6, 7, 8, 9, 10, 11, 12, 13, 14, 15, 0], 17⟩ ⟨.b1, true⟩ (.ofTier .avx2)
    true _ valid rfl
  exact ⟨valid, _, _, _, rfl, rfl, rfl, rfl, rotations, parts, length, marks⟩

end SimdNetwork
