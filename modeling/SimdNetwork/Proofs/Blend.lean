import SimdNetwork.Plan.Compile
import SimdNetwork.Proofs.Register.Move
import SimdNetwork.Proofs.Selector
import SimdNetwork.Register.Choose

/-! Blends take exactly the low lanes of a stage, and the complete ones encode every stage. -/

namespace SimdNetwork

/-- The kinds of blend that the table offers, with the lanes and registers it offers them for. -/
inductive OffersBlend (shape : Shape) (width : Width) : BlendKind → Granularity → Prop where
  /-- A mask of lanes suits every register. -/
  | maskMove : OffersBlend shape width .maskMove .lane
  /-- One immediate for the words of every lane group. -/
  | words (size : width = .b2) (narrow : shape ≠ .zmm) :
      OffersBlend shape width .wordImmediate .lane
  /-- Two words for each dword of the only lane group. -/
  | wordPairs (size : width = .b4) (narrow : shape = .xmm) :
      OffersBlend shape width .wordImmediate .pair
  /-- One bit for each of at most eight dwords. -/
  | dwords (size : width = .b4) (narrow : shape ≠ .zmm) :
      OffersBlend shape width .dwordImmediate .lane
  /-- Two dwords for each of at most four qwords. -/
  | dwordPairs (size : width = .b8) (narrow : shape ≠ .zmm) :
      OffersBlend shape width .dwordImmediate .pair
  /-- A selector vector for all bytes. -/
  | bytes (narrow : shape ≠ .zmm) : OffersBlend shape width .byteVariable .byte

/-- Every row of the blend table is of a kind that the table offers. -/
theorem offersBlend_of_mem {row : BlendRow} {shape : Shape} {width : Width}
    (listed : row ∈ blendTable shape width) : OffersBlend shape width row.kind row.granularity := by
  -- The tables are short, and are gone through for each width and shape.
  cases width <;> cases shape <;>
    simp only [blendTable, List.mem_cons, List.not_mem_nil, or_false] at listed
  case b1.xmm | b1.ymm =>
    rcases listed with rfl | rfl
    · exact .maskMove
    · exact .bytes nofun
  case b2.xmm | b2.ymm =>
    rcases listed with rfl | rfl | rfl
    · exact .words rfl nofun
    · exact .maskMove
    · exact .bytes nofun
  -- Dwords are blended as pairs of words only where there is one lane group.
  case b4.xmm =>
    rcases listed with rfl | rfl | rfl
    · exact .dwords rfl nofun
    · exact .wordPairs rfl rfl
    · exact .maskMove
  case b4.ymm =>
    rcases listed with rfl | rfl
    · exact .dwords rfl nofun
    · exact .maskMove
  case b8.xmm =>
    rcases listed with rfl | rfl | rfl
    · exact .maskMove
    · exact .dwordPairs rfl nofun
    · exact .bytes nofun
  case b8.ymm =>
    rcases listed with rfl | rfl
    · exact .maskMove
    · exact .dwordPairs rfl nofun
  case b1.zmm | b2.zmm | b4.zmm | b8.zmm =>
    subst listed
    exact .maskMove

/-- A blend that takes the low lanes of a stage from the register of smaller values. -/
def Blend.Selects (blend : Blend) (stage : Stage) (width : Width) (shape : Shape) : Prop :=
  ∀ larger smaller : Register, larger.shape = shape → smaller.shape = shape →
    blend.apply larger smaller = .ok (Register.build shape fun position =>
      if stage.isLow (position / width.bytes) then smaller.byte position else larger.byte position)

/-- Taking lanes between registers of one shape never runs out of lanes. -/
theorem Register.takeLanes_eq_ok {larger smaller : Register} {shape : Shape} {unit : Width}
    (largerShape : larger.shape = shape) (smallerShape : smaller.shape = shape)
    (chosen : Nat → Bool) :
    larger.takeLanes smaller unit chosen = .ok (build shape fun position =>
      if chosen (position / unit.bytes) then smaller.byte position else larger.byte position) := by
  -- A lane of the larger values is a lane of the smaller ones as well.
  have inside : ∀ lane < larger.lanes unit, chosen lane → lane < smaller.lanes unit := by
    intro lane bound _
    rw [lanes, smallerShape, ← largerShape]
    exact bound
  rw [takeLanes, if_pos inside, largerShape]

/-- Lanes chosen where the stage's lanes are low make a blend that selects the stage. -/
theorem takeLanes_selects {stage : Stage} {shape : Shape} {unit width : Width} {chosen : Nat → Bool}
    (agree : ∀ position < shape.bytes,
      chosen (position / unit.bytes) = stage.isLow (position / width.bytes))
    {larger smaller : Register} (largerShape : larger.shape = shape)
    (smallerShape : smaller.shape = shape) :
    larger.takeLanes smaller unit chosen = .ok (Register.build shape fun position =>
      if stage.isLow (position / width.bytes) then smaller.byte position
      else larger.byte position) := by
  -- The lane of the unit that a byte lies in is chosen just when the byte belongs to a low lane.
  rw [Register.takeLanes_eq_ok largerShape smallerShape]
  refine congrArg Except.ok (Register.build_congr ?_)
  intro position inside
  rw [agree position inside]

/-- The low eight bits of a mask are those of the byte made from it. -/
theorem testBit_ofNat (bits : Nat) {bit : Nat} (inside : bit < 8) :
    (UInt8.ofNat bits).toNat.testBit bit = bits.testBit bit := by
  -- Making a byte drops only bits from the eighth on.
  rw [UInt8.toNat_ofNat', Nat.testBit_mod_two_pow]
  simp [inside]

/-- A group of eight bits is the first group when every bit of it is. -/
theorem group_eq_first_iff (bits group : Nat) :
    bits >>> (8 * group) % 256 = bits % 256 ↔
      ∀ bit < 8, bits.testBit (8 * group + bit) = bits.testBit bit := by
  -- Two numbers below two hundred and fifty-six are equal when their eight bits are.
  have byteSize : 256 = 2 ^ 8 := rfl
  constructor
  · intro same bit inside
    have agree := congrArg (fun number => number.testBit bit) same
    simpa only [byteSize, Nat.testBit_mod_two_pow, Nat.testBit_shiftRight, inside, decide_true,
      Bool.true_and] using agree
  · intro agree
    apply Nat.eq_of_testBit_eq
    intro bit
    simp only [byteSize, Nat.testBit_mod_two_pow, Nat.testBit_shiftRight]
    -- Beyond the eight bits of the group both numbers have none.
    by_cases inside : bit < 8
    · rw [agree bit inside]
    · simp [inside]

/-- An immediate that all groups of eight lanes share has the bit of every lane. -/
theorem testBit_sharedImmediate {bits lanes : Nat} {immediate : UInt8} (whole : 8 ∣ lanes)
    (shared : Blend.sharedImmediate bits lanes = .ok (some immediate)) {lane : Nat}
    (inside : lane < lanes) : immediate.toNat.testBit (lane % 8) = bits.testBit lane := by
  -- The immediate is the first group of bits, and all other groups were compared with it.
  unfold Blend.sharedImmediate at shared
  dsimp only at shared
  split at shared
  · rename_i same
    split at shared
    · rename_i few
      simp only [Except.ok.injEq, Option.some.injEq] at shared
      subst shared
      -- The lane's own group has the same eight bits as the first one.
      have group : lane / 8 < min (lanes / 8) 8 := by
        have bound := Nat.div_lt_div_of_lt_of_dvd whole inside
        omega
      have place := Nat.mod_lt lane (by decide : 0 < 8)
      have bit := (group_eq_first_iff bits (lane / 8)).mp (same _ group) (lane % 8) place
      rw [Nat.div_add_mod] at bit
      rw [testBit_ofNat bits place, bit]
    · simp at shared
  · simp at shared

/-- A vector of selector bytes blends the bytes whose bits are set. -/
theorem blendBytes_selectorBytes {larger smaller : Register} {shape : Shape}
    (largerShape : larger.shape = shape) (smallerShape : smaller.shape = shape) (bits : Nat) :
    larger.blendBytes smaller
        ((List.range shape.bytes).map fun byte => if bits.testBit byte then Blend.takeByte else 0) =
      Register.build shape fun position =>
        if bits.testBit position then smaller.byte position else larger.byte position := by
  -- Every byte looks at its own selector byte, which was made from its own bit.
  rw [Register.blendBytes, largerShape]
  apply Register.build_congr
  intro position inside
  rw [smallerShape, List.getD_eq_getElem?_getD, List.getElem?_map, List.getElem?_range inside,
    Option.map_some, Option.getD_some]
  -- A set bit gives the byte with the top bit, and a clear bit the zero byte without it.
  cases bits.testBit position with
  | true => simp [inside]
  | false => simp [Blend.takeByte]

section Selecting

variable {stage : Stage} {shape : Shape} {width : Width}

/-- A mask of the low lanes selects the stage. -/
theorem maskMove_selects (stage : Stage) (shape : Shape) (width : Width) :
    (Blend.maskMove width (Selector.lowBits stage 1)).Selects stage width shape := by
  -- Every lane has its own bit in the mask.
  intro larger smaller largerShape smallerShape
  -- No register has more lanes than the mask has bits.
  have few : ¬ 64 < larger.lanes width := by
    rw [Register.lanes]
    cases larger.shape <;> cases width <;> decide
  rw [Blend.apply, if_neg few]
  refine takeLanes_selects ?_ largerShape smallerShape
  intro position _
  rw [Selector.testBit_lowBits stage Nat.one_pos, Nat.div_one]

/-- An immediate of at most eight units selects the stage whose lanes the units make up. -/
theorem immediate_selects {unit : Width} {stride : Nat} (positive : 0 < stride)
    (parts : unit.bytes * stride = width.bytes) (few : shape.bytes ≤ 8 * unit.bytes)
    {larger smaller : Register} (largerShape : larger.shape = shape)
    (smallerShape : smaller.shape = shape) :
    (larger.takeLanes smaller unit fun lane =>
        (UInt8.ofNat (Selector.lowBits stage stride)).toNat.testBit (lane % 8)) =
      .ok (Register.build shape fun position =>
        if stage.isLow (position / width.bytes) then smaller.byte position
        else larger.byte position) := by
  -- So few units have their bits in the immediate, without wrapping round.
  refine takeLanes_selects ?_ largerShape smallerShape
  intro position inside
  -- Every unit has a bit of its own, which is that of the lane it is part of.
  have place : position / unit.bytes < 8 := by
    rw [Nat.div_lt_iff_lt_mul unit.bytes_pos]
    omega
  rw [Nat.mod_eq_of_lt place, testBit_ofNat _ place, Selector.testBit_lowBits stage positive,
    Nat.div_div_eq_div_mul, parts]

/-- An immediate that all lane groups share selects a stage on words. -/
theorem words_selects {immediate : UInt8} (full : stage.lanes = shape.lanes .b2)
    (shared : Blend.sharedImmediate (Selector.lowBits stage 1) stage.lanes = .ok (some immediate)) :
    (Blend.words immediate).Selects stage .b2 shape := by
  -- The words fill whole groups of eight, so the shared immediate has the bit of each of them.
  intro larger smaller largerShape smallerShape
  have whole : 8 ∣ stage.lanes := by
    rw [full]
    cases shape <;> decide
  refine takeLanes_selects ?_ largerShape smallerShape
  intro position inside
  have lane : position / Width.bytes .b2 < stage.lanes := by
    rw [full]
    exact Nat.div_lt_div_of_lt_of_dvd (by cases shape <;> decide) inside
  rw [testBit_sharedImmediate whole shared lane, Selector.testBit_lowBits stage Nat.one_pos,
    Nat.div_one]

/-- A selector vector of the low lanes' bytes selects the stage. -/
theorem bytes_selects {selected : List UInt8} (full : stage.lanes = shape.lanes width)
    (built : Blend.selectorBytes (Selector.lowBits stage width.bytes) (stage.lanes * width.bytes) =
      .ok selected) : (Blend.bytes selected).Selects stage width shape := by
  -- The vector has a byte for every byte of the register, made from the bit of its lane.
  intro larger smaller largerShape smallerShape
  have count : stage.lanes * width.bytes = shape.bytes := by
    rw [full]
    exact shape.lanes_mul_bytes width
  rw [Blend.selectorBytes, count] at built
  split at built
  · simp only [Except.ok.injEq] at built
    rw [Blend.apply, ← built, blendBytes_selectorBytes largerShape smallerShape]
    simp only [Selector.testBit_lowBits stage width.bytes_pos]
  · simp at built

end Selecting

/-- What one row makes of a stage: the blend it encodes, if it can express the stage. -/
def BlendRow.choice? (row : BlendRow) (stage : Stage) (width : Width) :
    Except Fault (Option BlendChoice) := do
  let selector ← Selector.ofStage stage width row.granularity
  (Blend.encode row.kind row.granularity selector width).map
    (Option.map fun blend => ⟨row, selector, blend⟩)

/-- A choice made from a row, whose blend selects the stage. -/
structure BlendChoice.Serves (choice : BlendChoice) (row : BlendRow) (stage : Stage) (width : Width)
    (shape : Shape) : Prop where
  /-- The choice remembers its row. -/
  row_eq : choice.row = row
  /-- The blend is of the row's kind. -/
  kind_eq : choice.blend.kind = row.kind
  /-- The choice is the one that the row makes for the stage. -/
  made : row.choice? stage width = .ok (some choice)
  /-- The blend takes the low lanes. -/
  selects : choice.blend.Selects stage width shape

/-- The selectors of a register's own granularities fit in one word. -/
theorem OffersBlend.stride_le {shape : Shape} {width : Width} {kind : BlendKind}
    {granularity : Granularity} (offers : OffersBlend shape width kind granularity) :
    shape.lanes width * granularity.stride width ≤ 64 := by
  -- The most bits are one for each byte of the largest register, and pairs need smaller ones.
  cases offers with
  | maskMove => cases shape <;> cases width <;> decide
  | words size narrow => subst size; cases shape <;> decide
  | wordPairs size narrow => subst size narrow; decide
  | dwords size narrow => subst size; cases shape <;> decide
  | dwordPairs size narrow => subst size; cases shape <;> decide
  | bytes narrow => cases shape <;> cases width <;> decide

/-- What a row does with a stage of a register: it never faults, and what it chooses serves. -/
def BlendRow.Answers (row : BlendRow) (stage : Stage) (width : Width) (shape : Shape) : Prop :=
  ∃ result, row.choice? stage width = .ok result ∧
    (∀ choice, result = some choice → choice.Serves row stage width shape) ∧
      (row.isComplete shape = true → result ≠ none)

/-- A row that encodes the stage's selector into a blend that selects the stage answers. -/
theorem answers_of_encode {row : BlendRow} {stage : Stage} {width : Width} {shape : Shape}
    {selector : Selector} {blend : Blend}
    (selected : Selector.ofStage stage width row.granularity = .ok selector)
    (encoded : Blend.encode row.kind row.granularity selector width = .ok (some blend))
    (kind : blend.kind = row.kind) (selects : blend.Selects stage width shape) :
    row.Answers stage width shape := by
  -- The row makes this one choice, and it serves.
  have made : row.choice? stage width = .ok (some ⟨row, selector, blend⟩) := by
    rw [BlendRow.choice?, selected, ok_bind, encoded]
    rfl
  refine ⟨some ⟨row, selector, blend⟩, made, ?_, fun _ => nofun⟩
  intro choice chosen
  cases chosen
  exact ⟨rfl, kind, made, selects⟩

/-- A shared immediate is looked for without a fault in the lanes of any register. -/
theorem exists_sharedImmediate (bits : Nat) {lanes : Nat} (few : lanes ≤ 64) :
    ∃ found, Blend.sharedImmediate bits lanes = .ok found ∧ (lanes / 8 = 1 → found ≠ none) := by
  -- At most eight groups are compared, so the search ends before it could leave the word.
  have groups : lanes / 8 ≤ 8 := by omega
  by_cases shared : ∀ group < min (lanes / 8) 8, bits >>> (8 * group) % 256 = bits % 256
  · refine ⟨some (UInt8.ofNat bits), ?_, fun _ => nofun⟩
    simp only [Blend.sharedImmediate, if_pos shared, if_pos groups]
  · refine ⟨none, ?_, ?_⟩
    · simp only [Blend.sharedImmediate, if_neg shared]
    · -- A single group agrees with itself.
      intro single
      refine absurd ?_ shared
      intro group bound
      obtain rfl : group = 0 := by omega
      rfl

/-- All registers but the largest have at most thirty-two bytes. -/
theorem bytes_le_of_narrow {shape : Shape} (narrow : shape ≠ .zmm) : shape.bytes ≤ 32 := by
  -- These are the two smaller shapes.
  cases shape with
  | xmm => decide
  | ymm => decide
  | zmm => contradiction

/-- Every row of the table answers for every stage that fills the register. -/
theorem OffersBlend.answers {row : BlendRow} {stage : Stage} {width : Width} {shape : Shape}
    (offers : OffersBlend shape width row.kind row.granularity)
    (full : stage.lanes = shape.lanes width) : row.Answers stage width shape := by
  -- The selector fits in a word for every kind that is offered, so each kind encodes it as it can.
  have few : stage.lanes * row.granularity.stride width ≤ 64 := full ▸ offers.stride_le
  have selected := Selector.ofStage_eq_ok few
  obtain ⟨kind, granularity, requires⟩ := row
  dsimp only at offers few selected
  cases offers with
  | maskMove => exact answers_of_encode selected rfl rfl (maskMove_selects stage shape width)
  | words size narrow =>
    subst size
    -- Words are the only kind that may fail to express a stage.
    obtain ⟨found, looked, complete⟩ := exists_sharedImmediate (Selector.lowBits stage 1)
      (by simpa [Granularity.stride] using few : stage.lanes ≤ 64)
    have encoded : Blend.encode .wordImmediate .lane (Selector.ofLow stage .b2 .lane) .b2 =
        .ok (found.map .words) := by
      simp [Blend.encode, Selector.ofLow, Selector.granularity, looked, Except.map]
    cases found with
    | none =>
      -- Only in several lane groups is the immediate left out, and there the row is not complete.
      refine ⟨none, ?_, ?_, ?_⟩
      · rw [BlendRow.choice?, selected, ok_bind, encoded]
        rfl
      · intro choice chosen
        cases chosen
      · intro promised
        refine absurd rfl (complete ?_)
        rw [full]
        revert promised
        cases shape <;> simp [BlendRow.isComplete] <;> decide
    | some immediate => exact answers_of_encode selected encoded rfl (words_selects full looked)
  -- The other immediates have a bit for every unit of the register.
  | wordPairs size narrow =>
    subst size narrow
    exact answers_of_encode selected rfl rfl fun _ _ =>
      immediate_selects Nat.two_pos (by decide) (by decide)
  | dwords size narrow =>
    subst size
    exact answers_of_encode selected rfl rfl fun _ _ =>
      immediate_selects Nat.one_pos (by decide) (bytes_le_of_narrow narrow)
  | dwordPairs size narrow =>
    subst size
    exact answers_of_encode selected rfl rfl fun _ _ =>
      immediate_selects Nat.two_pos (by decide) (bytes_le_of_narrow narrow)
  | bytes narrow =>
    -- The vector of selector bytes is built for every register, and expresses every stage.
    obtain ⟨vector, built⟩ : ∃ vector, Blend.selectorBytes (Selector.lowBits stage width.bytes)
        (stage.lanes * width.bytes) = .ok vector := ⟨_, if_pos few⟩
    have encoded : Blend.encode .byteVariable .byte (Selector.ofLow stage width .byte) width =
        .ok (some (.bytes vector)) := by
      simp [Blend.encode, Selector.ofLow, Selector.granularity, built, Except.map]
    exact answers_of_encode selected encoded rfl (bytes_selects full built)

section FirstBlend

variable {stage : Stage} {width : Width} {shape : Shape} {rows : List BlendRow}

/-- The first blend of a list is its first row's choice, or else that of the other rows. -/
theorem firstBlend?_cons (stage : Stage) (width : Width) (row : BlendRow) (rest : List BlendRow) :
    firstBlend? stage width (row :: rest) = (row.choice? stage width >>= fun result =>
      match result with
      | some choice => .ok (some choice)
      | none => firstBlend? stage width rest) := by
  -- Looking at a row is making its selector and encoding it, and either step can fault.
  rw [firstBlend?, BlendRow.choice?]
  cases Selector.ofStage stage width row.granularity with
  | error fault => rfl
  | ok selector =>
    cases encoded : Blend.encode row.kind row.granularity selector width with
    | error fault => simp [encoded, Except.map]
    | ok blend? => cases blend? <;> simp [encoded, Except.map]

/-- Rows that answer are looked through without a fault. -/
theorem exists_firstBlend? (answers : ∀ row ∈ rows, row.Answers stage width shape) :
    ∃ result, firstBlend? stage width rows = .ok result := by
  -- A row that does not choose passes the search on to the rows behind it.
  induction rows with
  | nil => exact ⟨none, rfl⟩
  | cons row rest ih =>
    rw [List.forall_mem_cons] at answers
    obtain ⟨result, made, _⟩ := answers.1
    rw [firstBlend?_cons, made, ok_bind]
    cases result with
    | some choice => exact ⟨some choice, rfl⟩
    | none => exact ih answers.2

/-- The rows before the one that was chosen cannot express the stage. -/
theorem firstBlend?_eq_some {choice : BlendChoice}
    (answers : ∀ row ∈ rows, row.Answers stage width shape)
    (found : firstBlend? stage width rows = .ok (some choice)) :
    ∃ before after, rows = before ++ choice.row :: after ∧
      (∀ earlier ∈ before, earlier.choice? stage width = .ok none) ∧
        choice.Serves choice.row stage width shape := by
  -- The search takes the first row that chooses, so the rows passed over chose nothing.
  induction rows with
  | nil => simp [firstBlend?] at found
  | cons row rest ih =>
    rw [List.forall_mem_cons] at answers
    obtain ⟨result, made, serves, _⟩ := answers.1
    rw [firstBlend?_cons, made, ok_bind] at found
    cases result with
    | some chosen =>
      -- The first row that chooses is taken, with nothing before it.
      obtain rfl : chosen = choice := by simpa using found
      have served := serves chosen rfl
      rw [← served.row_eq] at served
      exact ⟨[], rest, by rw [(serves chosen rfl).row_eq]; rfl, by simp, served⟩
    | none =>
      obtain ⟨before, after, split, rejected, served⟩ := ih answers.2 found
      refine ⟨row :: before, after, by rw [split]; rfl, ?_, served⟩
      rw [List.forall_mem_cons]
      exact ⟨made, rejected⟩

/-- One complete row is enough for a blend to be found. -/
theorem firstBlend?_ne_none (answers : ∀ row ∈ rows, row.Answers stage width shape)
    {complete : BlendRow} (listed : complete ∈ rows) (promised : complete.isComplete shape = true) :
    firstBlend? stage width rows ≠ .ok none := by
  -- The search could only come to nothing by passing the complete row.
  induction rows with
  | nil => simp at listed
  | cons row rest ih =>
    rw [List.forall_mem_cons] at answers
    obtain ⟨result, made, _, whole⟩ := answers.1
    rw [firstBlend?_cons, made, ok_bind]
    cases result with
    | some choice => simp
    | none =>
      -- The complete row is not the one that just failed to choose.
      rcases List.mem_cons.mp listed with rfl | later
      · exact absurd rfl (whole promised)
      · exact ih answers.2 later

end FirstBlend

end SimdNetwork
