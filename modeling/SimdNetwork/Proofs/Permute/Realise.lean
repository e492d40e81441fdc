import SimdNetwork.Proofs.Permute.Complete

/-!
Encoding is exact: what it gives moves every byte along the route, and where it gives nothing no
operand of the instruction would have done so.
-/

namespace SimdNetwork

/-- A permute realises a route when it moves every register of the shape as the route says. -/
def Permute.Realises (permute : Permute) (shape : Shape) (route : Route) : Prop :=
  ∀ register : Register, register.shape = shape →
    ∃ moved, permute.apply register = .ok moved ∧ moved.shape = shape ∧
      ∀ position source, route.sources[position]? = some source →
        moved.byte position = register.byte source

/-- Whether a permute's operand is made for the unit and is as long as the register asks for. -/
def Permute.IsSized (permute : Permute) (shape : Shape) (unit : Width) : Prop :=
  match permute with
  | .bytes control => control.length = shape.bytes
  | .indexed own indices => own = unit ∧ indices.length = shape.lanes unit
  | .dwords _ | .words .. | .qwords _ | .union _ => True

section Routed

variable {permute : Permute} {shape : Shape} {route : Route}

/-- Realising a fitting route is leaving the routed register. -/
theorem Permute.realises_iff (fits : route.Fits shape) :
    permute.Realises shape route ↔ ∀ register : Register, register.shape = shape →
      permute.apply register = .ok (register.routed route) := by
  -- The two say of the same bytes where they come from.
  constructor
  · intro realises register shaped
    obtain ⟨moved, applied, same, moves⟩ := realises register shaped
    rw [applied]
    -- The route has a source for every byte, so no byte of the result is left open.
    refine congrArg Except.ok (Register.ext_byte (same.trans shaped.symm) ?_)
    intro position inside
    rw [same] at inside
    have listed : route.sources[position]? = _ :=
      Route.getElem?_sources (by rw [fits.bytes_eq]; exact inside)
    rw [moves position _ listed, Register.byte_routed _ _ (by rw [shaped]; exact inside)]
  · -- The routed register has at each byte what the route takes for it.
    intro follows register shaped
    refine ⟨register.routed route, follows register shaped, shaped, ?_⟩
    intro position source listed
    obtain ⟨inside, _⟩ := List.getElem?_eq_some_iff.mp listed
    have covered : position < register.shape.bytes := by
      rw [shaped, ← fits.bytes_eq]
      exact inside
    rw [Route.getElem?_sources inside, Option.some.injEq] at listed
    rw [Register.byte_routed _ _ covered, listed]

/-- What encodes a fitting route realises it. -/
theorem Permute.realises_encoded (fits : route.Fits shape) {kind : PermuteKind} {unit : Width}
    (encoded : encode kind unit route shape = .ok (some permute)) :
    permute.Realises shape route := by
  -- It leaves the routed register, whatever the register held.
  rw [realises_iff fits]
  rintro register rfl
  exact apply_of_encode fits encoded

end Routed

namespace Register

/-- The register whose bytes number themselves from one, so that none is zero and no two agree. -/
def probe (shape : Shape) : Register := build shape fun position => UInt8.ofNat (position + 1)

@[simp] theorem shape_probe (shape : Shape) : (probe shape).shape = shape := rfl

theorem toNat_probe {shape : Shape} {position : Nat} (inside : position < shape.bytes) :
    ((probe shape).byte position).toNat = position + 1 := by
  -- No register has so many bytes that their numbers would wrap.
  have few : shape.bytes ≤ 64 := by cases shape <;> decide
  rw [probe, byte_build _ _ _ inside, UInt8.toNat_ofNat']
  omega

/-- A byte of the probe shows the position that it came from. -/
theorem eq_of_probe {shape : Shape} {left right : Nat} (leftInside : left < shape.bytes)
    (rightInside : right < shape.bytes)
    (same : (probe shape).byte left = (probe shape).byte right) : left = right := by
  -- Every byte of the probe is its own number.
  have numbers := congrArg UInt8.toNat same
  rw [toNat_probe leftInside, toNat_probe rightInside] at numbers
  omega

/-- Moving the probe's blocks along a route shows which unit the route takes for each of them. -/
theorem units?_of_moveBlocks {shape : Shape} {route : Route} {size : Nat} {source : Nat → Nat}
    (fits : route.Fits shape) (positive : 0 < size) (whole : size ∣ shape.bytes)
    (follows : (probe shape).moveBlocks size source = .ok ((probe shape).routed route)) :
    route.units? size = some ((List.range (shape.bytes / size)).map source) := by
  -- The probe tells its bytes apart, so what arrives shows where it came from.
  rw [moveBlocks] at follows
  split at follows
  · rename_i inside
    rw [shape_probe] at inside
    rw [shape_probe, Except.ok.injEq] at follows
    apply Route.units?_of_source fits positive whole
    intro position covered
    have block := inside _ (Nat.div_lt_div_of_lt_of_dvd whole covered)
    have offset := Nat.mod_lt position positive
    have room := Nat.mul_le_mul_right size (Nat.succ_le_of_lt block)
    rw [Nat.succ_mul, Nat.div_mul_cancel whole] at room
    -- The byte that arrives tells where the blocks took it from and where the route did.
    have arrived := congrArg (Register.byte · position) follows
    rw [byte_build _ _ _ covered, byte_routed (probe shape) route covered] at arrived
    exact (eq_of_probe (by omega) (fits.source_lt covered) arrived).symm
  · cases follows

end Register

section Missed

variable {shape : Shape} {route : Route}

theorem selection_lt (immediate : UInt8) (slot : Nat) : selection immediate slot < 4 :=
  -- A field has two bits.
  Nat.mod_lt _ (by decide)

/-- Units that select alike in every group repeat the selection. -/
theorem repeats_of_select {slots : Nat} {select : Nat → Nat} (count : Nat) (positive : 0 < slots)
    (small : ∀ place < slots, select place < slots) :
    Repeats slots ((List.range slots).map select) ((List.range (count * slots)).map fun slot =>
      slot / slots * slots + select (slot % slots)) := by
  -- Every unit is chosen by its place in its group, in the same way for each group.
  refine ⟨by simp, ?_, ?_⟩
  · intro entry member
    obtain ⟨place, listed, rfl⟩ := List.mem_map.mp member
    exact small place (List.mem_range.mp listed)
  · intro slot inside
    rw [List.length_map, List.length_range] at inside
    rw [List.getElem?_map, List.getElem?_range inside, List.getD_eq_getElem?_getD,
      List.getElem?_map, List.getElem?_range (Nat.mod_lt slot positive)]
    rfl

theorem dwordImmediate?_ne_none (fits : route.Fits shape) {immediate : UInt8}
    (follows : (Register.probe shape).shuffleDwords immediate =
      .ok ((Register.probe shape).routed route)) : route.dwordImmediate? ≠ none := by
  -- The dwords of the route are those that the immediate selects, alike in every lane group.
  have whole : 4 ∣ shape.bytes := by cases shape <;> decide
  have found := Register.units?_of_moveBlocks fits (by decide) whole follows
  have groups : shape.bytes / 4 = shape.groups * 4 := by cases shape <;> decide
  rw [groups] at found
  have repeated := repeats_of_select shape.groups (by decide) fun place (_ : place < 4) =>
    selection_lt immediate place
  have shared : route.sharedPattern? .b4 = some _ :=
    (Route.sharedPattern?_eq_some_iff fits).mpr ⟨_, found, repeated⟩
  rw [Route.dwordImmediate?, shared]
  simp

/-- The place in its lane group that a word is taken from by the low and the high selection. -/
def wordSelection (low high : UInt8) (place : Nat) : Nat :=
  if place < 4 then selection low place else 4 + selection high (place - 4)

theorem wordSelection_bounds (low high : UInt8) (place : Nat) :
    wordSelection low high place < 8 ∧ (place < 4 ↔ wordSelection low high place < 4) := by
  -- The low words select among the low words, and the high words among the high ones.
  have lowSmall := selection_lt low place
  have highSmall := selection_lt high (place - 4)
  rw [wordSelection]
  split <;> omega

/-- Selecting the low words and then the high words is one selection in every lane group. -/
theorem lowWord_highWord (low high : UInt8) (slot : Nat) :
    let moved := if slot % 8 < 4 then slot else slot / 8 * 8 + 4 + selection high (slot % 8 - 4)
    (if moved % 8 < 4 then moved / 8 * 8 + selection low (moved % 8) else moved) =
      slot / 8 * 8 + wordSelection low high (slot % 8) := by
  -- The high selection is looked up first, as the second shuffle reads what the first one left.
  have small := selection_lt high (slot % 8 - 4)
  dsimp only
  rw [wordSelection]
  by_cases lower : slot % 8 < 4
  · simp only [if_pos lower]
  · -- A high word is taken from the high words, which the low selection does not touch.
    simp only [if_neg lower]
    rw [if_neg (by omega)]
    omega

theorem wordImmediates_ne_none (fits : route.Fits shape) {low high : UInt8}
    (follows : (Permute.words low high).apply (Register.probe shape) =
      .ok ((Register.probe shape).routed route)) : route.wordImmediates ≠ .ok none := by
  -- Both selections together move the words once, alike in every lane group.
  have whole : 2 ∣ shape.bytes := by cases shape <;> decide
  have moved := (Register.moveBlocks_bind (by decide) whole (lowWord_lt low)
    (highWord_lt high)).symm.trans follows
  simp only [lowWord_highWord] at moved
  have found := Register.units?_of_moveBlocks fits (by decide) whole moved
  have groups : shape.bytes / 2 = shape.groups * 8 := by cases shape <;> decide
  rw [groups] at found
  -- So the words of every lane group repeat one selection.
  have shared : route.sharedPattern? .b2 = some ((List.range 8).map (wordSelection low high)) :=
    (Route.sharedPattern?_eq_some_iff fits).mpr ⟨_, found, repeats_of_select shape.groups
      (by decide) fun place _ => (wordSelection_bounds low high place).1⟩
  -- Neither half of the pattern selects words of the other, so both immediates are made.
  have apart : (((List.range 8).map (wordSelection low high)).take 4).all (· < 4) = true ∧
      (((List.range 8).map (wordSelection low high)).drop 4).all (4 ≤ ·) = true := by
    rw [← List.map_take, ← List.map_drop, List.all_map, List.all_map, List.all_eq_true,
      List.all_eq_true]
    constructor
    · intro place listed
      have near : place < 4 := by revert listed place; decide
      exact decide_eq_true ((wordSelection_bounds low high place).2.mp near)
    · intro place listed
      have far : 4 ≤ place := by revert listed place; decide
      have stays := (wordSelection_bounds low high place).2
      exact decide_eq_true (by omega)
  rw [Route.wordImmediates, shared]
  dsimp only
  rw [if_neg (by simp), if_pos (by rw [apart.1, apart.2]; rfl)]
  simp

theorem qwordImmediate_ne_none (fits : route.Fits shape) (several : shape ≠ .xmm)
    {immediate : UInt8}
    (follows : (Register.probe shape).permuteQwords immediate =
      .ok ((Register.probe shape).routed route)) : route.qwordImmediate shape ≠ .ok none := by
  -- The qwords of the route are those that the immediate selects.
  have whole : 8 ∣ shape.bytes := by cases shape <;> decide
  have found := Register.units?_of_moveBlocks fits (by decide) whole follows
  have small := selection_lt immediate
  cases shape with
  | xmm => exact absurd rfl several
  | ymm => simp [Route.qwordImmediate, found, Shape.bytes]
  | zmm =>
    -- The instruction makes the same selection in both halves, which is what is looked for.
    simp [Route.qwordImmediate, found, Shape.bytes, List.range_succ, small, Nat.add_comm 4]

theorem byteTable?_ne_none (fits : route.Fits shape) {control : List UInt8}
    (follows : (Register.probe shape).shuffleBytes control = (Register.probe shape).routed route) :
    route.byteTable? ≠ none := by
  -- A table is given for every route that stays in its lane groups, so that is what is shown.
  obtain ⟨count, total⟩ : groupBytes ∣ shape.bytes := by cases shape <;> decide
  have inGroup : route.isLaneLocal = true := by
    rw [Route.isLaneLocal_iff fits]
    intro position inside
    have arrived := congrArg (fun register => (Register.byte register position).toNat) follows
    rw [Register.byte_routed (Register.probe shape) route inside,
      Register.toNat_probe (fits.source_lt inside), Register.shuffleBytes, Register.shape_probe,
      Register.byte_build _ _ _ inside] at arrived
    -- A zero never arrives from the probe, so the table names a place in the lane group.
    split at arrived
    · split at arrived
      · simp at arrived
      · rename_i place _ _
        have named := Nat.mod_lt place.toNat (by decide : 0 < groupBytes)
        -- The place lies in the register, as the whole lane group does.
        have room : position / groupBytes * groupBytes + place.toNat % groupBytes <
            shape.bytes := by
          simp only [total, groupBytes] at *
          omega
        rw [Register.toNat_probe room, Nat.add_right_cancel_iff] at arrived
        rw [← arrived]
        exact (block_of_place _ named).1
    · simp at arrived
  simp [Route.byteTable?, inGroup]

/-- A permute that realises a route is of a kind that encodes the route. -/
theorem Permute.encode_ne_none_of_realises (fits : route.Fits shape) {permute : Permute}
    {unit : Width} (sized : permute.IsSized shape unit)
    (offered : permute.kind = .qwordImmediate → shape ≠ .xmm)
    (realises : permute.Realises shape route) :
    encode permute.kind unit route shape ≠ .ok none := by
  -- One register is enough: the probe shows all that each encoder looks for.
  have follows := (realises_iff fits).mp realises (Register.probe shape) rfl
  intro missing
  cases permute with
  | dwords immediate =>
    rw [kind, encode, Except.ok.injEq, Option.map_eq_none_iff] at missing
    exact dwordImmediate?_ne_none fits follows missing
  | words low high =>
    obtain ⟨result, looked, mapped⟩ := map_eq_ok.mp missing
    rw [Option.map_eq_none_iff] at mapped
    exact wordImmediates_ne_none fits follows (mapped ▸ looked)
  | bytes control =>
    rw [kind, encode, Except.ok.injEq, Option.map_eq_none_iff] at missing
    exact byteTable?_ne_none fits (Except.ok.inj follows) missing
  | qwords immediate =>
    obtain ⟨result, looked, mapped⟩ := map_eq_ok.mp missing
    rw [Option.map_eq_none_iff] at mapped
    exact qwordImmediate_ne_none fits (offered rfl) follows (mapped ▸ looked)
  | indexed own indices =>
    -- The indices name the units of the route, which is all that the encoder looks for.
    obtain ⟨rfl, length⟩ := sized
    have whole : own.bytes ∣ shape.bytes := ⟨shape.lanes own, by
      rw [Nat.mul_comm, Shape.lanes_mul_bytes]⟩
    rw [apply, Register.permuteIndexed,
      if_neg (by rw [Register.lanes, Register.shape_probe]; omega)] at follows
    have found := Register.units?_of_moveBlocks fits own.bytes_pos whole follows
    simp [kind, encode, Route.permuteIndices?, found] at missing
  -- A union is encoded for every route.
  | union parts => cases missing

/-- A permute that encodes a fitting route is of the kind and the length that were asked for. -/
theorem Permute.kind_of_encode (fits : route.Fits shape) {kind : PermuteKind} {unit : Width}
    {permute : Permute} (encoded : encode kind unit route shape = .ok (some permute)) :
    permute.kind = kind ∧ permute.IsSized shape unit := by
  -- Every kind is encoded into a permute of that kind, with an entry for each byte or lane.
  cases kind with
  | dwordImmediate =>
    obtain ⟨immediate, _, rfl⟩ := Option.map_eq_some_iff.mp (Except.ok.inj encoded)
    exact ⟨rfl, trivial⟩
  | wordImmediate =>
    obtain ⟨result, _, mapped⟩ := map_eq_ok.mp encoded
    obtain ⟨immediates, _, rfl⟩ := Option.map_eq_some_iff.mp mapped
    exact ⟨rfl, trivial⟩
  | byteTable =>
    -- The table has a control byte for every source, and so for every byte of the register.
    obtain ⟨control, table, rfl⟩ := Option.map_eq_some_iff.mp (Except.ok.inj encoded)
    rw [Route.byteTable?] at table
    split at table
    · cases table
      exact ⟨rfl, by rw [IsSized, List.length_map, ← fits.bytes_eq, Route.bytes]⟩
    · cases table
  | qwordImmediate =>
    obtain ⟨result, _, mapped⟩ := map_eq_ok.mp encoded
    obtain ⟨immediate, _, rfl⟩ := Option.map_eq_some_iff.mp mapped
    exact ⟨rfl, trivial⟩
  | indexed =>
    -- There is an index for every unit, and the units are the lanes of the register.
    obtain ⟨indices, table, rfl⟩ := Option.map_eq_some_iff.mp (Except.ok.inj encoded)
    obtain ⟨units, found, rfl⟩ := Option.map_eq_some_iff.mp table
    exact ⟨rfl, rfl, by rw [List.length_map, fits.length_units unit.bytes_pos found]; rfl⟩
  | maskedUnion =>
    cases encoded
    exact ⟨rfl, trivial⟩

/-- Only a route that stays in its lane groups is encoded by a permute that does. -/
theorem Permute.isLaneLocal_of_encode (fits : route.Fits shape) {kind : PermuteKind} {unit : Width}
    {permute : Permute} (encoded : encode kind unit route shape = .ok (some permute))
    (inGroup : permute.isLaneLocal = true) : route.isLaneLocal = true := by
  -- The permute is of the kind that was asked for, which decides whether it stays.
  have same := (kind_of_encode fits encoded).1
  rw [isLaneLocal, same] at inGroup
  -- Three kinds stay in the lane group, and each is made only after the route was seen to.
  cases kind with
  | dwordImmediate =>
    obtain ⟨immediate, found, _⟩ := Option.map_eq_some_iff.mp (Except.ok.inj encoded)
    obtain ⟨pattern, shared, _⟩ := Option.map_eq_some_iff.mp found
    exact Route.isLaneLocal_of_shared fits shared
  | wordImmediate =>
    obtain ⟨result, found, mapped⟩ := map_eq_ok.mp encoded
    obtain ⟨immediates, rfl, _⟩ := Option.map_eq_some_iff.mp mapped
    rw [Route.wordImmediates] at found
    split at found
    · cases found
    · rename_i pattern shared
      exact Route.isLaneLocal_of_shared fits shared
  | byteTable =>
    obtain ⟨control, table, _⟩ := Option.map_eq_some_iff.mp (Except.ok.inj encoded)
    rw [Route.byteTable?] at table
    split at table
    · assumption
    · cases table
  | qwordImmediate | indexed | maskedUnion => cases inGroup

end Missed

namespace Permute

/--
Every encoding is sound.

Whatever kind and unit was asked for, a permute that encodes the route of a valid stage moves each
byte of every register as the route says, and stays in its lane groups only if the route does.
-/
theorem realises_of_encode (shape : Shape) (unit : Width) (stage : Stage) (valid : stage.Valid)
    (full : stage.lanes = shape.lanes unit) (kind : PermuteKind) (own : Width) (permute : Permute)
    (encoded : encode kind own (Route.ofStage stage unit) shape = .ok (some permute)) :
    (Route.ofStage stage unit).Fits shape ∧ permute.Realises shape (Route.ofStage stage unit) ∧
      (permute.isLaneLocal = true → (Route.ofStage stage unit).isLaneLocal = true) := by
  -- A valid stage that fills the register has a route that fits it.
  have fits := Route.fits_ofStage valid full
  exact ⟨fits, realises_encoded fits encoded, isLaneLocal_of_encode fits encoded⟩

/-- Padding lanes that share a partner still have a dword selection, which two lane groups share. -/
theorem realises_of_encode_shared_padding :
    Stage.Valid ⟨[0, 0, 2, 2], 1⟩ ∧ Stage.lanes ⟨[0, 0, 2, 2], 1⟩ = Shape.lanes .ymm .b8 ∧
    encode .dwordImmediate .b1 (Route.ofStage ⟨[0, 0, 2, 2], 1⟩ .b8) .ymm =
      .ok (some (.dwords 0x44)) ∧
    Realises (.dwords 0x44) .ymm (Route.ofStage ⟨[0, 0, 2, 2], 1⟩ .b8) ∧
    (Route.ofStage ⟨[0, 0, 2, 2], 1⟩ .b8).isLaneLocal = true := by
  -- The encoder is run once, for units that are not even those of the stage.
  have valid : Stage.Valid ⟨[0, 0, 2, 2], 1⟩ := by decide
  obtain ⟨_, realises, inGroup⟩ := realises_of_encode .ymm .b8 ⟨[0, 0, 2, 2], 1⟩ valid rfl
    .dwordImmediate .b1 (.dwords 0x44) rfl
  exact ⟨valid, rfl, rfl, realises, inGroup rfl⟩

/--
No encoding is missed.

A kind and unit give nothing for the route of a valid stage exactly when none of their operands
moves every register as the route says. Qword selections are only asked for across lane groups.
-/
theorem encode_eq_none_iff (shape : Shape) (unit : Width) (stage : Stage) (valid : stage.Valid)
    (full : stage.lanes = shape.lanes unit) (kind : PermuteKind) (own : Width)
    (offered : kind = .qwordImmediate → shape ≠ .xmm) :
    encode kind own (Route.ofStage stage unit) shape = .ok none ↔
      ∀ permute : Permute, permute.kind = kind → permute.IsSized shape own →
        ¬ permute.Realises shape (Route.ofStage stage unit) := by
  -- Encoding never faults, so it gives nothing or a permute.
  have fits := Route.fits_ofStage valid full
  constructor
  · rintro missing permute rfl sized realises
    exact encode_ne_none_of_realises fits sized offered realises missing
  · intro unrealised
    obtain ⟨result, encoded⟩ := exists_encode_eq_ok kind own fits
    cases result with
    | none => exact encoded
    | some permute =>
      -- An encoding would itself be an operand that realises the route.
      obtain ⟨same, sized⟩ := kind_of_encode fits encoded
      exact absurd (realises_encoded fits encoded) (unrealised permute same sized)

/-- Two lane groups that select differently have no dword selection, and no immediate is one. -/
theorem encode_eq_none_iff_unlike_groups :
    Stage.Valid ⟨[1, 0, 3, 2, 4, 5, 6, 7], 8⟩ ∧
    Stage.lanes ⟨[1, 0, 3, 2, 4, 5, 6, 7], 8⟩ = Shape.lanes .ymm .b4 ∧
    ∀ immediate : UInt8, ¬ Realises (.dwords immediate) .ymm
      (Route.ofStage ⟨[1, 0, 3, 2, 4, 5, 6, 7], 8⟩ .b4) := by
  -- The encoder gives nothing, so none of the immediates can do it.
  have valid : Stage.Valid ⟨[1, 0, 3, 2, 4, 5, 6, 7], 8⟩ := by decide
  refine ⟨valid, rfl, fun immediate => ?_⟩
  exact (encode_eq_none_iff .ymm .b4 ⟨[1, 0, 3, 2, 4, 5, 6, 7], 8⟩ valid rfl .dwordImmediate .b4
    nofun).mp rfl (.dwords immediate) rfl trivial

end Permute

end SimdNetwork
