import SimdNetwork.Proofs.Permute.Union

/-! Every encoding of a route moves the bytes of a register along the route. -/

namespace SimdNetwork

section Words

variable {register : Register}

/-- The low words of every lane group stay in the register. -/
theorem lowWord_lt {shape : Shape} (immediate : UInt8) :
    ∀ slot < shape.bytes / 2,
      (if slot % 8 < 4 then slot / 8 * 8 + selection immediate (slot % 8) else slot) <
        shape.bytes / 2 := by
  -- A word of the low half is taken from the low half of its own lane group.
  intro slot inside
  -- Two bits name one of four words, and the register has whole groups of eight.
  have small : selection immediate (slot % 8) < 4 := Nat.mod_lt _ (by decide)
  have whole : shape.bytes / 2 = shape.groups * 8 := by cases shape <;> decide
  split <;> omega

/-- The high words of every lane group stay in the register. -/
theorem highWord_lt {shape : Shape} (immediate : UInt8) :
    ∀ slot < shape.bytes / 2,
      (if slot % 8 < 4 then slot else slot / 8 * 8 + 4 + selection immediate (slot % 8 - 4)) <
        shape.bytes / 2 := by
  -- A word of the high half is taken from the high half of its own lane group.
  intro slot inside
  have small : selection immediate (slot % 8 - 4) < 4 := Nat.mod_lt _ (by decide)
  have whole : shape.bytes / 2 = shape.groups * 8 := by cases shape <;> decide
  split <;> omega

/-- Word selections whose halves keep apart move the words that the pattern names. -/
theorem apply_words {route : Route} {pattern units : List Nat} (fits : route.Fits register.shape)
    (found : route.units? 2 = some units) (repeated : Repeats 8 pattern units)
    (low : ∀ entry ∈ pattern.take 4, entry < 4) (high : ∀ entry ∈ pattern.drop 4, 4 ≤ entry) :
    (Permute.words (packSelections (pattern.take 4))
        (packSelections ((pattern.drop 4).map (· - 4)))).apply register =
      .ok (register.routed route) := by
  -- The pattern is split into halves, and each half is packed into an immediate of its own.
  have even : 2 ∣ register.shape.bytes := by cases register.shape <;> decide
  rw [Permute.apply]
  -- The two shuffles are one move of words by the composed selection.
  refine (Register.moveBlocks_bind (by decide) even (lowWord_lt _) (highWord_lt _)).trans ?_
  apply Register.moveBlocks_eq_routed fits (by decide) found
  intro slot inside
  have length := repeated.length_eq
  rw [repeated.unit_eq slot inside, Option.some.injEq, List.getD_eq_getElem?_getD,
    List.getElem?_eq_getElem (by omega : slot % 8 < pattern.length), Option.getD_some]
  by_cases lower : slot % 8 < 4
  · -- A low word is left where it is by the second shuffle and selected by the first.
    have place : slot % 8 < (pattern.take 4).length := by
      rw [List.length_take]
      omega
    have read := selection_packSelections _ (List.length_take_le 4 pattern) low _ place
    rw [List.getElem_take] at read
    simp only [if_pos lower, read]
  · -- A high word is selected by the second shuffle among words that the first left alone.
    have place : slot % 8 - 4 < ((pattern.drop 4).map (· - 4)).length := by
      rw [List.length_map, List.length_drop]
      omega
    have reduced : ∀ entry ∈ (pattern.drop 4).map (· - 4), entry < 4 := by
      intro entry member
      obtain ⟨larger, listed, rfl⟩ := List.mem_map.mp member
      have bound := repeated.entry_lt larger (List.mem_of_mem_drop listed)
      omega
    have read := selection_packSelections ((pattern.drop 4).map (· - 4))
      (by rw [List.length_map, List.length_drop]; omega) reduced _ place
    have entry : pattern[slot % 8] = pattern[4 + (slot % 8 - 4)] := by
      congr 1
      omega
    rw [List.getElem_map, List.getElem_drop, ← entry] at read
    have above : 4 ≤ pattern[slot % 8] := by
      rw [entry]
      exact high _ (List.mem_drop_iff_getElem.mpr ⟨slot % 8 - 4, by omega, rfl⟩)
    have below := repeated.entry_lt _ (List.getElem_mem (by omega : slot % 8 < pattern.length))
    simp only [if_neg lower, read]
    rw [if_neg (by omega)]
    omega

end Words

section Encodings

variable {register : Register} {route : Route}

/-- Looking every byte up in its lane group follows a route that stays in the lane groups. -/
theorem shuffleBytes_table (fits : route.Fits register.shape) (inGroup : route.isLaneLocal = true) :
    register.shuffleBytes (route.sources.map fun source => UInt8.ofNat (source % groupBytes)) =
      register.routed route := by
  -- Every byte looks up the place of its source in its own lane group.
  apply Register.build_congr
  intro position inside
  have covered : position < route.bytes := by
    rw [fits.bytes_eq]
    exact inside
  have named := Route.getElem?_sources covered
  rw [List.getElem?_map, named, Option.map_some]
  dsimp only
  rw [if_neg (Route.place_lt_zeroByte _)]
  -- The source is in the same lane group, so its place there finds it.
  have group := (Route.isLaneLocal_iff fits).mp inGroup position inside
  rw [UInt8.toNat_ofNat', ← group, groupBytes]
  congr 1
  omega

/-- Eight qwords whose high half selects as the low half does repeat the low half. -/
theorem repeats_of_mirrored {qwords : List Nat} (eight : qwords.length = 8)
    (mirrored : ((qwords.take 4).zip (qwords.drop 4)).all
      (fun pair => pair.1 < 4 && pair.2 = pair.1 + 4) = true) :
    Repeats 4 (qwords.take 4) qwords := by
  -- Every place of the low half is compared with the place four further on.
  have pairs : ∀ place < 4, ∃ entry < 4, qwords[place]? = some entry ∧
      qwords[place + 4]? = some (entry + 4) := by
    intro place bound
    have lower := List.getElem?_eq_getElem (by omega : place < qwords.length)
    have upper := List.getElem?_eq_getElem (by omega : place + 4 < qwords.length)
    have pair : (qwords[place], qwords[place + 4]) ∈ (qwords.take 4).zip (qwords.drop 4) := by
      rw [List.mem_iff_getElem?]
      refine ⟨place, ?_⟩
      rw [List.getElem?_zip_eq_some, List.getElem?_take_of_lt bound, List.getElem?_drop,
        Nat.add_comm 4 place]
      exact ⟨lower, upper⟩
    have both := List.all_eq_true.mp mirrored _ pair
    simp only [Bool.and_eq_true, decide_eq_true_eq] at both
    exact ⟨qwords[place], both.1, lower, by rw [upper, both.2]⟩
  refine ⟨by rw [List.length_take]; omega, ?_, ?_⟩
  · -- The entries of the low half stay among the low qwords.
    intro entry member
    obtain ⟨place, listed⟩ := List.mem_iff_getElem?.mp member
    rw [List.getElem?_take] at listed
    split at listed
    · rename_i bound
      obtain ⟨same, small, lower, _⟩ := pairs place bound
      rw [listed, Option.some.injEq] at lower
      omega
    · simp at listed
  · -- A slot reads its entry in its own half, and the high half lies four further on.
    intro slot bound
    obtain ⟨entry, small, lower, upper⟩ := pairs (slot % 4) (by omega)
    rw [List.getD_eq_getElem?_getD, List.getElem?_take_of_lt (by omega), lower, Option.getD_some]
    rcases Nat.lt_or_ge slot 4 with first | second
    · rw [Nat.mod_eq_of_lt first] at lower
      rw [lower, Nat.div_eq_of_lt first]
      simp
    · rw [show slot % 4 + 4 = slot by omega] at upper
      rw [upper, Option.some.injEq]
      omega

/-- A selection that was found for qwords is one that the qwords of the route repeat. -/
theorem repeats_of_qwordImmediate {shape : Shape} {immediate : UInt8} (fits : route.Fits shape)
    (encoded : route.qwordImmediate shape = .ok (some immediate)) :
    ∃ pattern qwords, route.units? 8 = some qwords ∧ Repeats 4 pattern qwords ∧
      immediate = packSelections pattern := by
  -- An immediate is made for two shapes only, from their qwords or from the low half of them.
  unfold Route.qwordImmediate at encoded
  cases found : route.units? 8 with
  | none => simp [found] at encoded
  | some qwords =>
    have count := fits.length_units (by decide) found
    have inside : ∀ qword ∈ qwords, qword < qwords.length :=
      fun _ member => fits.unit_lt (by decide) found member
    cases shape with
    | xmm => simp [found] at encoded
    | ymm =>
      -- Four qwords are their own selection.
      have four : qwords.length = 4 := count
      simp only [found, four, Nat.lt_irrefl, if_false, Except.ok.injEq,
        Option.some.injEq] at encoded
      exact ⟨qwords, qwords, rfl, repeats_self four (four ▸ inside), encoded.symm⟩
    | zmm =>
      -- Eight qwords only have a selection when the high half mirrors the low half.
      simp only [found] at encoded
      split at encoded
      · simp at encoded
      · split at encoded
        · rename_i _ mirrored
          exact ⟨qwords.take 4, qwords, rfl, repeats_of_mirrored count mirrored,
            by simpa using encoded.symm⟩
        · simp at encoded

/-- Lane indices that were found for units move the units that the route moves. -/
theorem permuteIndexed_indices (fits : route.Fits register.shape) {unit : Width} {units : List Nat}
    (found : route.units? unit.bytes = some units) :
    register.permuteIndexed unit (units.map UInt8.ofNat) = .ok (register.routed route) := by
  -- There is an index for every lane, so the units are read off the indices.
  have count : units.length = register.lanes unit := fits.length_units unit.bytes_pos found
  have few : register.lanes unit ≤ 64 := by
    rw [Register.lanes]
    cases register.shape <;> cases unit <;> decide
  rw [Register.permuteIndexed, if_neg (by rw [List.length_map]; omega)]
  apply Register.moveBlocks_eq_routed fits unit.bytes_pos found
  intro slot inside
  have listed := List.getElem?_eq_getElem inside
  have bound := fits.unit_lt unit.bytes_pos found (List.getElem_mem inside)
  -- An index is below the lane count, so neither the byte nor the count round changes it.
  rw [List.getD_eq_getElem?_getD, List.getElem?_map, listed, Option.map_some, Option.getD_some,
    UInt8.toNat_ofNat', Nat.mod_eq_of_lt (by omega : units[slot] < 2 ^ 8),
    Nat.mod_eq_of_lt (by omega)]

/-- Selections that were found for words are one pattern whose halves keep apart. -/
theorem repeats_of_wordImmediates {shape : Shape} {low high : UInt8} (fits : route.Fits shape)
    (found : route.wordImmediates = .ok (some (low, high))) :
    ∃ pattern words, route.units? 2 = some words ∧ Repeats 8 pattern words ∧
      (∀ entry ∈ pattern.take 4, entry < 4) ∧ (∀ entry ∈ pattern.drop 4, 4 ≤ entry) ∧
        low = packSelections (pattern.take 4) ∧
          high = packSelections ((pattern.drop 4).map (· - 4)) := by
  -- The pattern was found to be shared before its halves were looked at.
  unfold Route.wordImmediates at found
  split at found
  · simp at found
  · rename_i pattern shared
    obtain ⟨words, units, repeated⟩ := (Route.sharedPattern?_eq_some_iff fits).mp shared
    -- Immediates were only made because each half of the pattern keeps to itself.
    dsimp only at found
    split at found
    · simp at found
    · split at found
      · rename_i _ apart
        simp only [Bool.and_eq_true, List.all_eq_true, decide_eq_true_eq] at apart
        simp only [Except.ok.injEq, Option.some.injEq, Prod.mk.injEq] at found
        exact ⟨pattern, words, units, repeated, apart.1, apart.2, found.1.symm, found.2.symm⟩
      · simp at found

/-- Word selections that were found for a route move every register along the route. -/
theorem apply_wordImmediates (fits : route.Fits register.shape) {low high : UInt8}
    (found : route.wordImmediates = .ok (some (low, high))) :
    (Permute.words low high).apply register = .ok (register.routed route) := by
  -- The immediates are the packed halves of one pattern.
  obtain ⟨pattern, words, units, repeated, lower, upper, rfl, rfl⟩ :=
    repeats_of_wordImmediates fits found
  exact apply_words fits units repeated lower upper

/-- A permute that encodes a fitting route moves every register along the route. -/
theorem Permute.apply_of_encode {kind : PermuteKind} {unit : Width} {permute : Permute}
    (fits : route.Fits register.shape)
    (encoded : Permute.encode kind unit route register.shape = .ok (some permute)) :
    permute.apply register = .ok (register.routed route) := by
  -- Each kind of permute was encoded from what its own instruction moves.
  cases kind with
  | dwordImmediate =>
    -- The immediate packs the pattern that the dwords of all lane groups share.
    simp only [encode, Except.ok.injEq, Option.map_eq_some_iff, Route.dwordImmediate?] at encoded
    obtain ⟨_, ⟨pattern, shared, rfl⟩, rfl⟩ := encoded
    obtain ⟨units, found, repeated⟩ := (Route.sharedPattern?_eq_some_iff fits).mp shared
    exact Register.moveBlocks_packSelections fits (by decide) found repeated
  | wordImmediate =>
    obtain ⟨immediates, found, mapped⟩ := map_eq_ok.mp encoded
    obtain ⟨⟨low, high⟩, rfl, rfl⟩ := Option.map_eq_some_iff.mp mapped
    exact apply_wordImmediates fits found
  | byteTable =>
    -- A table was only made because no byte leaves its lane group.
    simp only [encode, Except.ok.injEq, Option.map_eq_some_iff, Route.byteTable?] at encoded
    obtain ⟨control, table, rfl⟩ := encoded
    split at table
    · rename_i inGroup
      obtain rfl := Option.some.inj table
      exact congrArg Except.ok (shuffleBytes_table fits inGroup)
    · simp at table
  | qwordImmediate =>
    -- The immediate packs the pattern that the qwords repeat.
    obtain ⟨immediate?, found, mapped⟩ := map_eq_ok.mp encoded
    obtain ⟨immediate, rfl, rfl⟩ := Option.map_eq_some_iff.mp mapped
    obtain ⟨pattern, qwords, units, repeated, rfl⟩ := repeats_of_qwordImmediate fits found
    exact Register.moveBlocks_packSelections fits (by decide) units repeated
  | indexed =>
    simp only [encode, Except.ok.injEq, Option.map_eq_some_iff, Route.permuteIndices?] at encoded
    obtain ⟨_, ⟨units, found, rfl⟩, rfl⟩ := encoded
    exact permuteIndexed_indices fits found
  | maskedUnion =>
    simp only [encode, Except.ok.injEq, Option.some.injEq] at encoded
    subst encoded
    exact Register.apply_unionParts fits

end Encodings

end SimdNetwork
