import SimdNetwork.Proofs.Network
import SimdNetwork.Proofs.Route
import SimdNetwork.Proofs.Stage.Validate

/-! Flat lists decode to the networks they were written from, or fail at the first bad stage. -/

namespace SimdNetwork

/-- The entries of a flat list that one of its stages is written with. -/
def stretch (lanes : Nat) (flat : List Nat) (index : Nat) : List Nat :=
  (flat.drop (index * lanes)).take lanes

/-- The chunks of a list that divides evenly are its stretches in order. -/
theorem getElem?_chunks_eq_stretch {lanes : Nat} (positive : 0 < lanes) {flat : List Nat}
    (whole : lanes ∣ flat.length) (index : Nat) :
    (chunks lanes flat)[index]? =
      if index < flat.length / lanes then some (stretch lanes flat index) else none := by
  -- There are as many chunks as the quotient says, and each is cut off at its own place.
  rw [chunks_of_dvd lanes (flat.length / lanes) positive flat (Nat.div_mul_cancel whole).symm]
  split
  · rename_i inside
    exact getElem?_cut lanes flat inside
  · rename_i beyond
    rw [List.getElem?_eq_none]
    rw [length_cut]
    omega

namespace Stage

/-- Written partners make a stage just when they pass the guarded check. -/
theorem exists_ofWritten_iff {written : List Nat} {used : Nat} :
    (∃ stage, ofWritten written used = .ok stage) ↔ validate written used = .ok () := by
  -- A stage is made just when the check passes, and the guarded check passes with it.
  rw [validate_eq, orRefuse_eq_ok, mapError_eq_ok, ofWritten]
  cases check written used <;> simp [Except.map]

/-- Written partners that make no stage are refused for what the guarded check finds. -/
theorem ofWritten_eq_error_iff {written : List Nat} {used : Nat} {flaw : Flaw} :
    ofWritten written used = .error flaw ↔ validate written used = refuseFlaw flaw := by
  -- Both pass on the flaw that the check finds, and the guarded one adds no fault.
  rw [validate_eq, ofWritten, map_eq_error]
  cases check written used with
  | error other => simp [orRefuse_flaw, refuseFlaw]
  | ok _ => exact ⟨nofun, nofun⟩

/-- A stage that was made is written as it was given, and uses the lanes it was given. -/
theorem written_of_ofWritten {written : List Nat} {used : Nat} {stage : Stage}
    (made : ofWritten written used = .ok stage) : stage.written = written ∧ stage.used = used := by
  -- The list is turned round to make the stage, and again to write it.
  obtain ⟨_, _, rfl⟩ := map_eq_ok.mp made
  exact ⟨List.reverse_reverse written, rfl⟩

/-- A valid stage can be made from what is written for it. -/
theorem Valid.ofWritten_eq {stage : Stage} (valid : stage.Valid) :
    ofWritten stage.written stage.used = .ok stage :=
  -- Written partners are those of the stage turned round, which is how they are checked.
  valid.ofPartners_eq

end Stage

namespace Network

section Divided

variable {size lanes : Nat} {flat : List Nat}

/-- Where a list divides into stages, the check of the whole network refuses nothing. -/
theorem ofFlat_eq (positive : 0 < lanes) (whole : lanes ∣ flat.length) :
    ofFlat size lanes flat =
      ((chunks lanes flat).mapM (Stage.ofWritten · size)).map (Network.mk size) := by
  -- Only the comparison of sizes comes after the stages are made.
  have divided : ¬ (lanes = 0 ∨ flat.length % lanes ≠ 0) := by
    have even := Nat.mod_eq_zero_of_dvd whole
    omega
  rw [ofFlat, if_neg divided]
  cases taken : (chunks lanes flat).mapM (Stage.ofWritten · size) with
  | error flaw => rfl
  | ok stages =>
    -- Every stage was made with the size of the network.
    refine ofStages_eq_ok.mpr ⟨?_, rfl⟩
    intro stage listed
    obtain ⟨_, _, made⟩ := (mapM_eq_ok_mem taken).mp listed
    exact (Stage.written_of_ofWritten made).2

/-- A list that does not divide into stages is refused. -/
theorem divided_of_ofFlat {network : Network} (made : ofFlat size lanes flat = .ok network) :
    0 < lanes ∧ lanes ∣ flat.length := by
  -- The first test of all is whether the list divides.
  rw [ofFlat] at made
  split at made
  · cases made
  · rename_i divided
    exact ⟨by omega, Nat.dvd_of_mod_eq_zero (by omega)⟩

/-- A divided list decodes just when each of its stretches passes the check. -/
theorem exists_ofFlat_iff (positive : 0 < lanes) (whole : lanes ∣ flat.length) :
    (∃ network, ofFlat size lanes flat = .ok network) ↔
      ∀ index < flat.length / lanes, Stage.validate (stretch lanes flat index) size = .ok () := by
  -- The chunks go through the check as a whole when each of them does.
  have decodes : (∃ network, ofFlat size lanes flat = .ok network) ↔
      ∃ stages, (chunks lanes flat).mapM (Stage.ofWritten · size) = .ok stages := by
    rw [ofFlat_eq positive whole]
    cases (chunks lanes flat).mapM (Stage.ofWritten · size) <;> simp [Except.map]
  -- Every member of the list of chunks is one of the stretches, and the other way round.
  rw [decodes, exists_mapM_eq_ok]
  simp only [Stage.exists_ofWritten_iff, List.mem_iff_getElem?,
    getElem?_chunks_eq_stretch positive whole]
  constructor
  · intro each index inside
    exact each _ ⟨index, if_pos inside⟩
  · rintro each chunk ⟨index, named⟩
    split at named
    · rename_i inside
      rw [← Option.some.inj named]
      exact each index inside
    · cases named

/-- A divided list fails with the first of its stretches that fails the check. -/
theorem ofFlat_eq_error_iff (positive : 0 < lanes) (whole : lanes ∣ flat.length) {flaw : Flaw} :
    ofFlat size lanes flat = .error flaw ↔
      ∃ index < flat.length / lanes,
        (∀ earlier < index, Stage.validate (stretch lanes flat earlier) size = .ok ()) ∧
          Stage.validate (stretch lanes flat index) size = refuseFlaw flaw := by
  -- The chunks are checked in order, and the first that fails gives its flaw.
  rw [ofFlat_eq positive whole, map_eq_error, mapM_eq_error_getElem?]
  simp only [Stage.exists_ofWritten_iff, Stage.ofWritten_eq_error_iff,
    getElem?_chunks_eq_stretch positive whole]
  constructor
  · rintro ⟨index, chunk, named, passed, failed⟩
    -- The chunk that fails is the stretch at its place, and all places before it are stretches.
    split at named
    · rename_i inside
      rw [← Option.some.inj named] at failed
      refine ⟨index, inside, ?_, failed⟩
      intro earlier first
      exact passed earlier first _ (if_pos (Nat.lt_trans first inside))
    · cases named
  · -- A stretch is the chunk at its place, so the stretches before it are chunks that passed.
    rintro ⟨index, inside, passed, failed⟩
    refine ⟨index, _, if_pos inside, ?_, failed⟩
    intro earlier first chunk named
    rw [if_pos (Nat.lt_trans first inside), Option.some.injEq] at named
    rw [← named]
    exact passed earlier first

/-- The stages of a decoded network are written as the chunks of the list. -/
theorem written_of_ofFlat {network : Network} (made : ofFlat size lanes flat = .ok network) :
    network.size = size ∧ network.stages.map Stage.written = chunks lanes flat ∧
      ∀ stage ∈ network.stages, stage.used = size := by
  -- Every stage was made from its chunk, and keeps it as what is written for it.
  obtain ⟨positive, whole⟩ := divided_of_ofFlat made
  rw [ofFlat_eq positive whole, map_eq_ok] at made
  obtain ⟨stages, taken, rfl⟩ := made
  refine ⟨rfl, ?_, ?_⟩
  · have kept : stages.map Stage.written = (chunks lanes flat).map id :=
      map_of_mapM taken fun _ _ made => (Stage.written_of_ofWritten made).1
    rw [kept, List.map_id]
  · intro stage listed
    obtain ⟨_, _, made⟩ := (mapM_eq_ok_mem taken).mp listed
    exact (Stage.written_of_ofWritten made).2

/-- A network whose stages have equally many lanes is decoded from its stages, written in order. -/
theorem Built.ofFlat_eq {network : Network} (built : network.Built) (positive : 0 < lanes)
    (equal : ∀ stage ∈ network.stages, stage.lanes = lanes) :
    ofFlat network.size lanes (network.stages.flatMap Stage.written) = .ok network := by
  -- Each stage is written with as many entries as the lanes that the list is cut by.
  have full : ∀ block ∈ network.stages.map Stage.written, block.length = lanes := by
    intro block member
    obtain ⟨stage, listed, rfl⟩ := List.mem_map.mp member
    rw [Stage.written, List.length_reverse]
    exact equal stage listed
  -- Cutting what is written gives back what is written for each stage.
  obtain ⟨cuts, length⟩ := cut_flatten lanes _ full
  have whole : lanes ∣ (network.stages.flatMap Stage.written).length := by
    rw [List.flatMap_def, length]
    exact Nat.dvd_mul_left ..
  rw [Network.ofFlat_eq positive whole, List.flatMap_def,
    chunks_of_dvd _ _ positive _ length, cuts]
  -- Each stage of the network is valid and of its size, so it is made again.
  have remade : (network.stages.map Stage.written).mapM (Stage.ofWritten · network.size) =
      .ok network.stages := by
    rw [mapM_eq_ok, List.map_map]
    apply List.map_congr_left
    intro stage listed
    obtain ⟨valid, used⟩ := built.suits stage listed
    rw [Function.comp_apply, ← used]
    exact valid.ofWritten_eq
  rw [remade]
  rfl

end Divided

/--
Decoding flat lists is exact.

A list decodes just when it divides into stretches of a positive number of lanes, each of which
passes the check for the size. The network then has one stage for each stretch, all with these lanes
and this size, and writing its stages one after another gives the list back. A network whose stages
all have the same positive number of lanes is decoded from its stages written one after another.
A list that divides and does not decode fails with the error of the first stretch that fails the
check.
-/
theorem ofFlat_exact (size lanes : Nat) (flat : List Nat) :
    ((∃ network, ofFlat size lanes flat = .ok network) ↔
      0 < lanes ∧ lanes ∣ flat.length ∧
        ∀ index < flat.length / lanes,
          Stage.validate (stretch lanes flat index) size = .ok ()) ∧
    (∀ network, ofFlat size lanes flat = .ok network →
      network.size = size ∧ network.depth = flat.length / lanes ∧
        (∀ stage ∈ network.stages, stage.lanes = lanes ∧ stage.used = size) ∧
          network.stages.flatMap Stage.written = flat) ∧
    (∀ network : Network, network.Built → 0 < lanes →
      (∀ stage ∈ network.stages, stage.lanes = lanes) →
        ofFlat network.size lanes (network.stages.flatMap Stage.written) = .ok network) ∧
    (0 < lanes → lanes ∣ flat.length → ∀ flaw, ofFlat size lanes flat = .error flaw ↔
      ∃ index < flat.length / lanes,
        (∀ earlier < index, Stage.validate (stretch lanes flat earlier) size = .ok ()) ∧
          Stage.validate (stretch lanes flat index) size = refuseFlaw flaw) := by
  -- Each of the four parts is a law of decoding, once the list is known to divide.
  refine ⟨?_, ?_, ?_, ?_⟩
  · constructor
    · rintro ⟨network, made⟩
      obtain ⟨positive, whole⟩ := divided_of_ofFlat made
      exact ⟨positive, whole, (exists_ofFlat_iff positive whole).mp ⟨network, made⟩⟩
    · rintro ⟨positive, whole, passed⟩
      exact (exists_ofFlat_iff positive whole).mpr passed
  · intro network made
    obtain ⟨positive, whole⟩ := divided_of_ofFlat made
    obtain ⟨sized, written, used⟩ := written_of_ofFlat made
    have even := (Nat.div_mul_cancel whole).symm
    refine ⟨sized, ?_, ?_, ?_⟩
    · -- There are as many stages as chunks.
      rw [depth, ← List.length_map Stage.written, written, chunks_of_dvd _ _ positive _ even,
        length_cut]
    · intro stage listed
      refine ⟨?_, used stage listed⟩
      -- A stage has as many lanes as its chunk has entries.
      have chunk : stage.written ∈ chunks lanes flat := written ▸ List.mem_map_of_mem listed
      rw [Stage.lanes, ← List.length_reverse]
      exact length_of_mem_chunks positive even _ chunk
    · -- The chunks joined are the list.
      rw [List.flatMap_def, written, flatten_chunks lanes positive]
  · intro network built positive equal
    exact built.ofFlat_eq positive equal
  · intro positive whole flaw
    exact ofFlat_eq_error_iff positive whole

/--
A network of two padded stages is decoded from what is written for it.

With two bad stages behind the first one, the error is that of the earlier, whose lane zero reads
padding, although the later has no lane that exists.
-/
theorem ofFlat_exact_three_of_four_lanes :
    Built ⟨3, [⟨[2, 1, 0, 2], 3⟩, ⟨[0, 2, 1, 0], 3⟩]⟩ ∧
    ofFlat 3 4 [2, 0, 1, 2, 0, 1, 2, 0] = .ok ⟨3, [⟨[2, 1, 0, 2], 3⟩, ⟨[0, 2, 1, 0], 3⟩]⟩ ∧
    Stage.validate (stretch 4 [2, 0, 1, 2, 0, 1, 2, 3, 9, 9, 9, 9] 1) 3 =
      refuseFlaw (.readsPadding 0 3 3) ∧
    ofFlat 3 4 [2, 0, 1, 2, 0, 1, 2, 3, 9, 9, 9, 9] = .error (.readsPadding 0 3 3) := by
  -- The first stretch passes and the second does not, so the third is never looked at.
  have valid : ∀ stage ∈ ([⟨[2, 1, 0, 2], 3⟩, ⟨[0, 2, 1, 0], 3⟩] : List Stage), stage.Valid := by
    decide
  have built : Built ⟨3, [⟨[2, 1, 0, 2], 3⟩, ⟨[0, 2, 1, 0], 3⟩]⟩ :=
    .fromStages valid (rfl : ofStages 3 _ = _)
  obtain ⟨_, _, decodes, _⟩ := ofFlat_exact 3 4 [2, 0, 1, 2, 0, 1, 2, 0]
  obtain ⟨_, _, _, fails⟩ := ofFlat_exact 3 4 [2, 0, 1, 2, 0, 1, 2, 3, 9, 9, 9, 9]
  refine ⟨built, decodes _ built (by decide) (by decide), rfl, ?_⟩
  refine (fails (by decide) (by decide) _).mpr ⟨1, by decide, ?_, rfl⟩
  intro earlier first
  obtain rfl : earlier = 0 := by omega
  rfl

end Network

end SimdNetwork
