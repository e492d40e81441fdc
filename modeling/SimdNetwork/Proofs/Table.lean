import SimdNetwork.Proofs.Blend.Exact
import SimdNetwork.Proofs.Permute.Realise

/-!
The tables are honest about reach: a row is marked complete just when it encodes every stage that
fills the register.
-/

namespace SimdNetwork

namespace Stage

/-- The stage that pairs the first lane with the last, the second with the last but one, and on. -/
def mirror (lanes : Nat) : Stage := ⟨(List.range lanes).reverse, lanes⟩

@[simp] theorem lanes_mirror (lanes : Nat) : (mirror lanes).lanes = lanes := by
  -- As many lanes are mirrored as are listed.
  simp [mirror, Stage.lanes]

/-- A mirrored lane is as far from the end as the lane is from the start. -/
theorem partners_mirror {lanes lane : Nat} (inside : lane < lanes) :
    (mirror lanes).partners[lane]? = some (lanes - 1 - lane) := by
  -- The lanes are listed from the last to the first.
  rw [mirror, List.getElem?_reverse (by simpa using inside), List.length_range,
    List.getElem?_range (by omega)]

theorem mate_mirror {lanes lane : Nat} (inside : lane < lanes) :
    (mirror lanes).mate lane = lanes - 1 - lane := by
  -- A lane that there is has its listed partner as its mate.
  rw [mate, List.getD_eq_getElem?_getD, partners_mirror inside, Option.getD_some]

/-- Mirroring at least one lane is a valid stage. -/
theorem valid_mirror {lanes : Nat} (positive : 0 < lanes) : (mirror lanes).Valid := by
  -- All lanes are used, so their partners only have to be lanes, and different ones.
  have closed : ∀ lane < lanes, (mirror lanes).mate lane < lanes := by
    intro lane inside
    rw [mate_mirror inside]
    omega
  refine valid_of_mates positive (by simp [mirror, Stage.lanes]) (by simpa using closed) closed ?_
  -- The distance from the end tells the lane.
  intro left leftInside right rightInside same
  rw [mirror] at leftInside rightInside
  rw [mate_mirror leftInside, mate_mirror rightInside] at same
  omega

end Stage

/-- A register has at least one lane of every width. -/
theorem Shape.lanes_pos (shape : Shape) (width : Width) : 0 < shape.lanes width := by
  -- The smallest register still has two of the widest lanes.
  cases shape <;> cases width <;> decide

/-- The bytes of the blocks that a kind of permute moves no data out of. -/
def PermuteKind.span (kind : PermuteKind) (shape : Shape) : Nat :=
  match kind with
  -- An immediate selects among four words, dwords or qwords.
  | .wordImmediate => 8
  | .dwordImmediate => 16
  | .qwordImmediate => 32
  | .byteTable => groupBytes
  | .indexed | .maskedUnion => shape.bytes

theorem PermuteKind.span_pos (kind : PermuteKind) (shape : Shape) : 0 < kind.span shape := by
  -- The span of every kind is looked at.
  cases kind <;> cases shape <;> decide

section Spans

variable {shape : Shape} {route : Route}

/-- Selections that were found for words keep every byte in its half of a lane group. -/
theorem source_of_wordImmediates (fits : route.Fits shape) {low high : UInt8}
    (found : route.wordImmediates = .ok (some (low, high))) {position : Nat}
    (inside : position < shape.bytes) : route.source position / 8 = position / 8 := by
  -- A half of a lane group is four words, and the pattern selects inside each half.
  obtain ⟨pattern, words, units, repeated, lower, upper, _, _⟩ :=
    repeats_of_wordImmediates fits found
  have stays : ∀ slot word, words[slot]? = some word → word / 4 = slot / 4 := by
    intro slot word named
    obtain ⟨bound, _⟩ := List.getElem?_eq_some_iff.mp named
    have place : slot % 8 < pattern.length := by
      rw [repeated.length_eq]
      omega
    have listed := List.getElem?_eq_getElem place
    have small := repeated.entry_lt _ (List.getElem_mem place)
    rw [repeated.unit_eq slot bound, Option.some.injEq, List.getD_eq_getElem?_getD, listed,
      Option.getD_some] at named
    -- The low half of the pattern selects low words, and the high half high ones.
    by_cases near : slot % 8 < 4
    · have below := lower _ (List.mem_take_iff_getElem.mpr ⟨slot % 8, by omega, rfl⟩)
      omega
    · have member : pattern[slot % 8] ∈ pattern.drop 4 :=
        List.mem_drop_iff_getElem.mpr ⟨slot % 8 - 4, by omega, by congr 1; omega⟩
      have above := upper _ member
      omega
  have spans : route.source position / (2 * 4) = position / (2 * 4) :=
    Route.source_div_of_units fits (by decide) units stays inside
  exact spans

/-- A permute that encodes a route keeps every byte in its span. -/
theorem Permute.source_in_span (fits : route.Fits shape) {kind : PermuteKind} {unit : Width}
    {permute : Permute} (encoded : encode kind unit route shape = .ok (some permute))
    {position : Nat} (inside : position < shape.bytes) :
    route.source position / kind.span shape = position / kind.span shape := by
  -- Each kind keeps to its span for its own reason.
  have sameKind := (kind_of_encode fits encoded).1
  cases kind with
  -- Their spans are the lane groups.
  | dwordImmediate | byteTable =>
    have inGroup := isLaneLocal_of_encode fits encoded (by rw [isLaneLocal, sameKind]; rfl)
    exact (Route.isLaneLocal_iff fits).mp inGroup position inside
  | wordImmediate =>
    obtain ⟨found, looked, mapped⟩ := map_eq_ok.mp encoded
    obtain ⟨⟨low, high⟩, rfl, _⟩ := Option.map_eq_some_iff.mp mapped
    exact source_of_wordImmediates fits looked inside
  -- Four qwords are selected among, and these fill the span.
  | qwordImmediate =>
    obtain ⟨found, looked, mapped⟩ := map_eq_ok.mp encoded
    obtain ⟨immediate, rfl, _⟩ := Option.map_eq_some_iff.mp mapped
    obtain ⟨pattern, qwords, units, repeated, _⟩ := repeats_of_qwordImmediate fits looked
    exact Route.source_div_of_units fits (by decide) units
      (fun _ _ => repeated.unit_div (by decide)) inside
  -- Nothing leaves the register.
  | indexed | maskedUnion =>
    rw [PermuteKind.span, Nat.div_eq_of_lt (fits.source_lt inside), Nat.div_eq_of_lt inside]

end Spans

namespace PermuteRow

/-- A row is marked complete when its span is the whole register. -/
theorem isComplete_iff_span (row : PermuteRow) (shape : Shape) :
    row.isComplete shape = true ↔ row.kind.span shape = shape.bytes := by
  -- Both sides are looked up for every kind and every register.
  rw [isComplete]
  cases row.kind <;> cases shape <;> decide

/-- A span short of the whole register leaves the last lane outside the span of the first. -/
theorem span_le_of_narrow {shape : Shape} {unit : Width} {row : PermuteRow}
    (listed : row ∈ permuteTable shape unit) (narrow : row.kind.span shape ≠ shape.bytes) :
    row.kind.span shape ≤ (shape.lanes unit - 1) * unit.bytes := by
  -- A qword selection is not offered in a single lane group, which is smaller than its span.
  revert row
  cases shape <;> cases unit <;> decide

/-- An incomplete permute does not encode the mirrored lanes, whose first comes from the last. -/
theorem encode_mirror {shape : Shape} {unit : Width} {row : PermuteRow}
    (listed : row ∈ permuteTable shape unit) (incomplete : row.isComplete shape = false) :
    Permute.encode row.kind row.unit (Route.ofStage (.mirror (shape.lanes unit)) unit) shape =
      .ok none := by
  -- The encoder does not fault, so it gives nothing or a permute that keeps to its span.
  have some_lane := shape.lanes_pos unit
  have fits := Route.fits_ofStage (Stage.valid_mirror some_lane) (Stage.lanes_mirror _)
  obtain ⟨result, encoded⟩ := Permute.exists_encode_eq_ok row.kind row.unit fits
  cases result with
  | none => exact encoded
  | some permute =>
    -- Byte zero would have to stay in the span that it starts.
    have positive : 0 < shape.bytes := by cases shape <;> decide
    have stays := Permute.source_in_span fits encoded positive
    have paired : (Stage.mirror (shape.lanes unit)).partners[0 / unit.bytes]? =
        some (shape.lanes unit - 1) := by
      rw [Nat.zero_div]
      exact Stage.partners_mirror some_lane
    rw [Route.source_ofStage paired, Nat.zero_mod, Nat.add_zero, Nat.zero_div] at stays
    have narrow : row.kind.span shape ≠ shape.bytes := by
      rw [Ne, ← isComplete_iff_span, incomplete]
      decide
    have outside := Nat.div_pos (span_le_of_narrow listed narrow) (row.kind.span_pos shape)
    omega

end PermuteRow

/-- Over two lane groups or more the mirrored words have no immediate that all groups share. -/
theorem sharedImmediate_mirror {lanes : Nat} (whole : 8 ∣ lanes) (several : 16 ≤ lanes)
    (immediate : UInt8) :
    Blend.sharedImmediate (Selector.lowBits (.mirror lanes) 1) lanes ≠ .ok (some immediate) := by
  -- Lanes at the same place in their groups would be low together.
  intro shared
  -- The first lane is low and the first lane of the last group is not, but they share a bit.
  have bit : ∀ lane < lanes,
      immediate.toNat.testBit (lane % 8) = decide (lane < lanes - 1 - lane) := by
    intro lane inside
    rw [testBit_sharedImmediate whole shared inside, Selector.testBit_lowBits _ Nat.one_pos,
      Nat.div_one, Stage.isLow_eq, Stage.mate_mirror inside]
  have first := bit 0 (by omega)
  have last := bit (lanes - 8) (by omega)
  have aligned : (lanes - 8) % 8 = 0 % 8 := by omega
  rw [aligned, first] at last
  simp only [decide_eq_decide] at last
  omega

/-- An incomplete blend of the table does not encode the selector of the mirrored lanes. -/
theorem BlendRow.encode_mirror {shape : Shape} {width : Width} {row : BlendRow}
    (listed : row ∈ blendTable shape width) (incomplete : row.isComplete shape = false) :
    ∃ selector, Selector.ofStage (.mirror (shape.lanes width)) width row.granularity =
      .ok selector ∧ Blend.encode row.kind row.granularity selector width = .ok none := by
  -- The mirrored lanes have a selector like any other stage.
  have offers := offersBlend_of_mem listed
  have few := offers.stride_le
  -- Only word immediates over several lane groups are incomplete.
  obtain ⟨⟨words, perLane⟩, several⟩ : (row.kind = .wordImmediate ∧ row.granularity = .lane) ∧
      1 < shape.groups := by simpa [isComplete] using incomplete
  rw [words, perLane] at offers ⊢
  rw [perLane] at few
  cases offers with
  | words size narrow =>
    subst size
    have groups : shape.lanes .b2 = shape.groups * 8 := by cases shape <;> decide
    obtain ⟨found, looked, _⟩ := exists_sharedImmediate
      (Selector.lowBits (.mirror (shape.lanes .b2)) 1) (by simpa [Granularity.stride] using few)
    cases found with
    | some immediate =>
      exact absurd looked (sharedImmediate_mirror ⟨shape.groups, by omega⟩ (by omega) immediate)
    | none =>
      refine ⟨_, Selector.ofStage_eq_ok (by simpa using few), ?_⟩
      simp [Blend.encode, Selector.ofLow, Selector.granularity, looked, Except.map]

/-- A complete blend of the table encodes the selector of every stage that fills the register. -/
theorem BlendRow.exists_encode_of_complete {shape : Shape} {width : Width} {row : BlendRow}
    (listed : row ∈ blendTable shape width) (complete : row.isComplete shape = true) {stage : Stage}
    (full : stage.lanes = shape.lanes width) :
    ∃ selector blend, Selector.ofStage stage width row.granularity = .ok selector ∧
      Blend.encode row.kind row.granularity selector width = .ok (some blend) := by
  -- Every row answers for such a stage, and a complete row does not answer with nothing.
  obtain ⟨choice, made, _, whole⟩ := (offersBlend_of_mem listed).answers full
  obtain ⟨selector, result, selected, encoded, rfl⟩ := choice?_eq_ok made
  cases result with
  | none => exact absurd rfl (whole complete)
  | some blend => exact ⟨selector, blend, selected, encoded⟩

/--
The marks of completeness are exact.

A permute of the table is marked complete just when it encodes the route of every valid stage that
fills the register, and a blend just when it encodes the selector of every such stage. An incomplete
row gives nothing for the mirrored lanes, without a fault.
-/
theorem Shape.isComplete_exact (shape : Shape) :
    (∀ (unit : Width), ∀ row ∈ permuteTable shape unit,
      (row.isComplete shape = true ↔
        ∀ stage : Stage, stage.Valid → stage.lanes = shape.lanes unit → ∃ permute,
          Permute.encode row.kind row.unit (Route.ofStage stage unit) shape =
            .ok (some permute)) ∧
      (row.isComplete shape = false →
        Permute.encode row.kind row.unit (Route.ofStage (.mirror (shape.lanes unit)) unit) shape =
          .ok none)) ∧
    ∀ (width : Width), ∀ row ∈ blendTable shape width,
      (row.isComplete shape = true ↔
        ∀ stage : Stage, stage.Valid → stage.lanes = shape.lanes width → ∃ selector blend,
          Selector.ofStage stage width row.granularity = .ok selector ∧
            Blend.encode row.kind row.granularity selector width = .ok (some blend)) ∧
      (row.isComplete shape = false → ∃ selector,
        Selector.ofStage (.mirror (shape.lanes width)) width row.granularity = .ok selector ∧
          Blend.encode row.kind row.granularity selector width = .ok none) := by
  -- Permutes and blends are treated alike: the mirrored lanes tell which rows are incomplete.
  constructor
  · intro unit row listed
    refine ⟨⟨?_, ?_⟩, row.encode_mirror listed⟩
    · intro complete stage valid full
      exact Permute.exists_encode_of_complete listed complete (Route.fits_ofStage valid full)
    · intro encodes
      -- What encodes every stage encodes the mirrored lanes.
      obtain ⟨permute, encoded⟩ := encodes (.mirror (shape.lanes unit))
        (Stage.valid_mirror (shape.lanes_pos unit)) (Stage.lanes_mirror _)
      rw [← Bool.not_eq_false]
      intro incomplete
      rw [PermuteRow.encode_mirror listed incomplete] at encoded
      cases encoded
  · intro width row listed
    refine ⟨⟨?_, ?_⟩, row.encode_mirror listed⟩
    · intro complete stage _ full
      exact row.exists_encode_of_complete listed complete full
    · intro encodes
      -- The mirrored lanes have one selector, which cannot be both encoded and missed.
      obtain ⟨selector, blend, selected, encoded⟩ := encodes (.mirror (shape.lanes width))
        (Stage.valid_mirror (shape.lanes_pos width)) (Stage.lanes_mirror _)
      rw [← Bool.not_eq_false]
      intro incomplete
      obtain ⟨other, alsoSelected, missing⟩ := row.encode_mirror listed incomplete
      rw [selected, Except.ok.injEq] at alsoSelected
      rw [← alsoSelected, encoded] at missing
      cases missing

/-- Four qwords are always selected, but no selection mirrors eight of them or sixteen words. -/
theorem Shape.isComplete_exact_qwords_words :
    ⟨.qwordImmediate, .b8, .ofList [.avx2]⟩ ∈ permuteTable .ymm .b8 ∧
    (∀ stage : Stage, stage.Valid → stage.lanes = 4 → ∃ permute,
      Permute.encode .qwordImmediate .b8 (Route.ofStage stage .b8) .ymm = .ok (some permute)) ∧
    ⟨.qwordImmediate, .b8, .ofList [.avx512f]⟩ ∈ permuteTable .zmm .b8 ∧
    Permute.encode .qwordImmediate .b8 (Route.ofStage (.mirror 8) .b8) .zmm = .ok none ∧
    wordBlend .ymm .lane ∈ blendTable .ymm .b2 ∧
    ∃ selector, Selector.ofStage (.mirror 16) .b2 .lane = .ok selector ∧
      Blend.encode .wordImmediate .lane selector .b2 = .ok none := by
  -- The rows are found in their tables, and their marks are computed.
  have four : ⟨.qwordImmediate, .b8, .ofList [.avx2]⟩ ∈ permuteTable .ymm .b8 := by decide
  have eight : ⟨.qwordImmediate, .b8, .ofList [.avx512f]⟩ ∈ permuteTable .zmm .b8 := by decide
  have words : wordBlend .ymm .lane ∈ blendTable .ymm .b2 := by decide
  exact ⟨four, ((Shape.isComplete_exact .ymm).1 .b8 _ four).1.mp rfl, eight,
    ((Shape.isComplete_exact .zmm).1 .b8 _ eight).2 rfl, words,
    ((Shape.isComplete_exact .ymm).2 .b2 _ words).2 rfl⟩

end SimdNetwork
