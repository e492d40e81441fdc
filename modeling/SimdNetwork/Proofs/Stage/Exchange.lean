import SimdNetwork.Proofs.Stage.Valid
import SimdNetwork.Stage.Exchange

/-! What an exchange gives: as many values as it was given, each of them one of those. -/

namespace SimdNetwork

/-- The value that a side keeps of a lane's own and its partner's. -/
def Side.kept {α : Type} [Min α] [Max α] (side : Side) (own other : α) : α :=
  match side with
  | .low => min own other
  | .high => max own other

/-- A side keeps one of the two values. -/
theorem Side.kept_eq (side : Side) (own other : Int) :
    side.kept own other = own ∨ side.kept own other = other := by
  -- The smaller of two values is one of them, and so is the larger.
  cases side with
  | low =>
    rw [Side.kept]
    omega
  | high =>
    rw [Side.kept]
    omega

namespace Stage

variable {α : Type} [Min α] [Max α] {stage : Stage} {values : List Int}

/-- A lane that has a value and whose partner has one keeps what its side says. -/
theorem exchangeLane_eq_ok {values : List α} {lane partner : Nat} {own other : α}
    (paired : stage.partners[lane]? = some partner) (ownValue : values[lane]? = some own)
    (otherValue : values[partner]? = some other) :
    stage.exchangeLane values lane = .ok ((Side.ofPair lane partner).kept own other) := by
  -- Both values are there to be read, and the side picks between them.
  simp only [exchangeLane, Stage.partner, partnerAmong, paired, ok_bind, ownValue, otherValue]
  cases Side.ofPair lane partner with
  | low => rfl
  | high => rfl

/-- In a valid stage every used lane has a value of its own and one of its partner. -/
theorem Valid.exists_pair (valid : stage.Valid) (count : values.length = stage.used) {lane : Nat}
    (inside : lane < stage.used) :
    ∃ partner own other, stage.partners[lane]? = some partner ∧ values[lane]? = some own ∧
      values[partner]? = some other := by
  -- There is a value for every used lane, and the partner of a used lane is used.
  have inLanes : lane < stage.partners.length := Nat.lt_of_lt_of_le inside valid.used_le
  have paired := List.getElem?_eq_getElem inLanes
  have partnerUsed := valid.partner_lt_used inside paired
  exact ⟨_, _, _, paired, List.getElem?_eq_getElem (by omega),
    List.getElem?_eq_getElem (by omega)⟩

/-- The partner of a lane, a lane beyond the last being its own. -/
def mate (stage : Stage) (lane : Nat) : Nat := stage.partners.getD lane lane

/-- Every lane of a stage has the partner that is listed for it. -/
theorem partners_mate {lane : Nat} (inside : lane < stage.lanes) :
    stage.partners[lane]? = some (stage.mate lane) := by
  -- The list reaches as far as the lanes, so nothing is read beyond its end.
  rw [mate, List.getD_eq_getElem?_getD, List.getElem?_eq_getElem inside, Option.getD_some]

theorem partner_eq_ok_iff {lane partner : Nat} :
    stage.partner lane = .ok partner ↔ stage.partners[lane]? = some partner := by
  -- A partner is looked up in the list, and fails only beyond its end.
  rw [Stage.partner, partnerAmong]
  cases stage.partners[lane]? with
  | none => simp
  | some own => simp

theorem partner_eq_ok {lane : Nat} (inside : lane < stage.lanes) :
    stage.partner lane = .ok (stage.mate lane) := partner_eq_ok_iff.mpr (partners_mate inside)

/-- The side of a lane is told by whether its partner is a later lane. -/
theorem side_eq_ok {lane : Nat} (inside : lane < stage.lanes) :
    stage.side lane = .ok (Side.ofPair lane (stage.mate lane)) := by
  -- The side is read off the lane and the partner that is listed for it.
  rw [side, Side.among, partnerAmong, partners_mate inside]
  rfl

/-- A lane beyond the last is its own partner. -/
theorem mate_beyond {lane : Nat} (outside : stage.lanes ≤ lane) : stage.mate lane = lane := by
  -- Nothing is listed there, and a lane without an entry is taken as its own partner.
  rw [mate, List.getD_eq_getElem?_getD, List.getElem?_eq_none outside, Option.getD_none]

/-- A lane is low when its partner is a later lane. -/
theorem isLow_eq (stage : Stage) (lane : Nat) :
    stage.isLow lane = decide (lane < stage.mate lane) := by
  -- A lane beyond the last is not low, and is not below itself either.
  rw [isLow, mate, List.getD_eq_getElem?_getD]
  cases stage.partners[lane]? with
  | none => simp
  | some partner => rfl

/-- Padding changes the partner of no lane, since the lanes it adds are their own partners. -/
theorem mate_padTo {padded : Stage} {target : Nat} (made : stage.padTo target = .ok padded)
    (lane : Nat) : padded.mate lane = stage.mate lane := by
  -- An old lane keeps its entry, and a new one had none and now names itself.
  by_cases inside : lane < stage.lanes
  · rw [mate, mate, List.getD_eq_getElem?_getD, List.getD_eq_getElem?_getD,
      partners_padTo made inside]
  · rw [mate_beyond (Nat.le_of_not_lt inside)]
    obtain ⟨_, rfl⟩ := padTo_eq_ok.mp made
    rw [mate, List.getD_eq_getElem?_getD, List.getElem?_append_right (Nat.le_of_not_lt inside)]
    rw [lanes] at inside ⊢
    -- The lanes that were added are listed in order, and none follow them.
    by_cases added : lane < target
    · rw [List.getElem?_range' (by omega), Option.getD_some]
      omega
    · rw [List.getElem?_eq_none (by rw [List.length_range']; omega), Option.getD_none]

theorem Valid.mate_lt_lanes (valid : stage.Valid) {lane : Nat} (inside : lane < stage.lanes) :
    stage.mate lane < stage.lanes :=
  valid.partner_lt (List.mem_of_getElem? (partners_mate inside))

section Mates

variable {lane : Nat} (valid : stage.Valid) (inside : lane < stage.used)
include valid inside

theorem Valid.partners_mate : stage.partners[lane]? = some (stage.mate lane) :=
  -- A used lane is one of the stage, so it has a partner of its own.
  Stage.partners_mate (Nat.lt_of_lt_of_le inside valid.used_le)

theorem Valid.mate_lt : stage.mate lane < stage.used :=
  valid.partner_lt_used inside (valid.partners_mate inside)

end Mates

/-- Used lanes with the same partner are the same lane. -/
theorem Valid.mate_inj (valid : stage.Valid) {left right : Nat} (leftInside : left < stage.used)
    (rightInside : right < stage.used) (same : stage.mate left = stage.mate right) :
    left = right := by
  -- Two used lanes that name one partner are the same in a valid stage.
  have leftPaired := valid.partners_mate leftInside
  rw [same] at leftPaired
  exact valid.eq_of_same_partner leftInside rightInside leftPaired
    (valid.partners_mate rightInside)

/-- The partners of a stage are those of its lanes, one after another. -/
theorem partners_eq_map_mate (stage : Stage) :
    stage.partners = (List.range stage.lanes).map stage.mate := by
  -- The two lists agree lane by lane, and end together.
  apply List.ext_getElem?
  intro lane
  by_cases inside : lane < stage.lanes
  · rw [partners_mate inside, List.getElem?_map, List.getElem?_range inside, Option.map_some]
  · rw [List.getElem?_eq_none (Nat.le_of_not_lt inside),
      List.getElem?_eq_none (by simpa using inside)]

/-- A stage is valid when every partner is a lane, and no used lanes share one or have padding. -/
theorem valid_of_mates (positive : 0 < stage.used) (fits : stage.used ≤ stage.lanes)
    (listed : ∀ lane < stage.lanes, stage.mate lane < stage.lanes)
    (closed : ∀ lane < stage.used, stage.mate lane < stage.used)
    (distinct : ∀ left < stage.used, ∀ right < stage.used,
      stage.mate left = stage.mate right → left = right) : stage.Valid := by
  -- The used lanes are the first ones, so their partners are those that are checked for pairs.
  have front : stage.partners.take stage.used = (List.range stage.used).map stage.mate := by
    rw [partners_eq_map_mate, ← List.map_take, List.take_range, Nat.min_eq_left fits]
  refine (valid_iff stage).mpr ⟨positive, fits, ?_, ?_, ?_⟩
  · rw [partners_eq_map_mate]
    intro partner member
    obtain ⟨lane, inside, rfl⟩ := List.mem_map.mp member
    exact listed lane (List.mem_range.mp inside)
  · rw [front]
    intro partner member
    obtain ⟨lane, inside, rfl⟩ := List.mem_map.mp member
    exact closed lane (List.mem_range.mp inside)
  · -- Used lanes with one partner are one lane.
    rw [front, List.Nodup, List.pairwise_map]
    refine List.nodup_range.imp_of_mem ?_
    intro left right leftMember rightMember apart same
    exact apart (distinct left (List.mem_range.mp leftMember) right
      (List.mem_range.mp rightMember) same)

/-- A stage is an involution when going to the partner twice leads back to every used lane. -/
theorem Valid.isInvolution_iff (valid : stage.Valid) :
    stage.isInvolution = true ↔ ∀ lane < stage.used, stage.mate (stage.mate lane) = lane := by
  -- The check looks up the partner of the partner, which a used lane always has.
  have twice : ∀ lane < stage.used,
      (stage.partners[lane]?.bind fun partner => stage.partners[partner]?) =
        some (stage.mate (stage.mate lane)) := by
    intro lane inside
    rw [valid.partners_mate inside, Option.bind_some, valid.partners_mate (valid.mate_lt inside)]
  rw [isInvolution, List.all_eq_true]
  constructor
  · intro every lane inside
    have back := every lane (List.mem_range.mpr inside)
    rw [twice lane inside] at back
    simpa using back
  · intro every lane member
    have inside := List.mem_range.mp member
    rw [twice lane inside, every lane inside]
    simp

/-- A lane whose partner has it as partner comes back to itself, and so does one beyond the last. -/
theorem Valid.mate_mate_of_answered (valid : stage.Valid) {lane : Nat}
    (answered : ∀ partner, stage.partner lane = .ok partner → stage.partner partner = .ok lane) :
    stage.mate (stage.mate lane) = lane := by
  -- A lane of the stage has a partner that is listed, and a lane beyond has itself.
  by_cases inside : lane < stage.lanes
  · have back := answered _ (partner_eq_ok inside)
    rwa [partner_eq_ok (valid.mate_lt_lanes inside), Except.ok.injEq] at back
  · have alone : stage.mate lane = lane := mate_beyond (Nat.le_of_not_lt inside)
    rw [alone, alone]

/-- In an involution all lanes below a count lead back once the padding lanes among them do. -/
theorem Valid.mate_mate_below (valid : stage.Valid) (involution : stage.isInvolution = true)
    {count : Nat} (answered : ∀ lane partner, stage.used ≤ lane → lane < count →
      stage.partner lane = .ok partner → stage.partner partner = .ok lane) :
    ∀ lane < count, stage.mate (stage.mate lane) = lane := by
  -- The used lanes are those that an involution is checked on.
  intro lane below
  by_cases used : lane < stage.used
  · exact valid.isInvolution_iff.mp involution lane used
  · exact valid.mate_mate_of_answered fun partner =>
      answered lane partner (Nat.le_of_not_lt used) below

/-- What a lane holds after the exchange when every lane held the given value. -/
def outcome (stage : Stage) (value : Nat → α) (lane : Nat) : α :=
  (Side.ofPair lane (stage.mate lane)).kept (value lane) (value (stage.mate lane))

/-- A lane that is its own partner keeps its value. -/
theorem outcome_alone (idempotent : ∀ value : α, max value value = value) {value : Nat → α}
    {lane : Nat} (alone : stage.mate lane = lane) : stage.outcome value lane = value lane := by
  -- Such a lane is on the high side, and keeps the larger of its value and itself.
  rw [outcome, alone, Side.ofPair, if_neg (Nat.lt_irrefl lane), Side.kept, idempotent]

/-- What the lanes of given values hold after the exchange when all lanes beyond held the fill. -/
def outcomes (stage : Stage) (values : List α) (fill : α) : List α :=
  (List.range values.length).map (stage.outcome (values.getD · fill))

section Outcomes

variable {values : List α} {fill : α}

@[simp] theorem length_outcomes : (stage.outcomes values fill).length = values.length := by
  -- There is one outcome for every value.
  simp [outcomes]

theorem getElem?_outcomes {lane : Nat} (inside : lane < values.length) :
    (stage.outcomes values fill)[lane]? = some (stage.outcome (values.getD · fill) lane) := by
  -- The outcomes are listed lane by lane.
  rw [outcomes, List.getElem?_map, List.getElem?_range inside, Option.map_some]

theorem getElem?_outcomes_beyond {lane : Nat} (outside : ¬ lane < values.length) :
    (stage.outcomes values fill)[lane]? = none :=
  List.getElem?_eq_none (by rw [length_outcomes]; omega)

/-- Beyond the outcomes, as beyond the values, the fill is read. -/
theorem getD_outcomes (lane : Nat) : (stage.outcomes values fill).getD lane fill =
    if lane < values.length then stage.outcome (values.getD · fill) lane else fill := by
  -- Outcomes and values end at the same lane.
  rw [List.getD_eq_getElem?_getD]
  split
  · rename_i inside
    rw [getElem?_outcomes inside, Option.getD_some]
  · rename_i outside
    rw [getElem?_outcomes_beyond outside, Option.getD_none]

end Outcomes

/-- A valid stage exchanges values listed lane by lane, and gives the outcome of every lane. -/
theorem Valid.exchange_range (valid : stage.Valid) (value : Nat → α) :
    stage.exchange ((List.range stage.used).map value) =
      .ok ((List.range stage.used).map (stage.outcome value)) := by
  -- Every used lane finds its own value and its partner's in the list.
  have given : ∀ lane < stage.used,
      ((List.range stage.used).map value)[lane]? = some (value lane) := by
    intro lane inside
    rw [List.getElem?_map, List.getElem?_range inside, Option.map_some]
  rw [exchange, if_neg (by simp), List.length_map, List.length_range, mapM_eq_ok, List.map_map]
  apply List.map_congr_left
  intro lane member
  have inside := List.mem_range.mp member
  exact exchangeLane_eq_ok (valid.partners_mate inside) (given lane inside)
    (given _ (valid.mate_lt inside))

/-- The places of a list, read one after another to its end and beyond. -/
theorem map_getD_range {β : Type} (values : List β) (fill : β) {count : Nat}
    (room : values.length ≤ count) : (List.range count).map (values.getD · fill) =
      values ++ List.replicate (count - values.length) fill := by
  -- Up to the end of the list its own values are read, and the fill from there on.
  apply List.ext_getElem
  · simp only [List.length_map, List.length_range, List.length_append, List.length_replicate]
    omega
  · intro place _ _
    rw [List.getElem_map, List.getElem_range, List.getElem_append]
    split
    · rename_i given
      simp [given]
    · rename_i beyond
      simp [Nat.le_of_not_lt beyond]

theorem map_getD_range_length {β : Type} (values : List β) (fill : β) {count : Nat}
    (whole : values.length = count) : (List.range count).map (values.getD · fill) = values := by
  -- A list that is read just to its end is followed by no fill.
  rw [map_getD_range values fill (Nat.le_of_eq whole), whole, Nat.sub_self, List.replicate_zero,
    List.append_nil]

/-- A valid stage exchanges every input of its size, and gives the outcome of every lane. -/
theorem Valid.exchange_eq (valid : stage.Valid) {values : List α} (fill : α)
    (count : values.length = stage.used) :
    stage.exchange values =
      .ok ((List.range stage.used).map (stage.outcome (values.getD · fill))) := by
  -- The values are those that the lanes read, one lane after another.
  rw [← valid.exchange_range, map_getD_range_length values fill count]

/-- A valid stage exchanges every input of its size, and only moves the values around. -/
theorem Valid.exists_exchange (valid : stage.Valid) (count : values.length = stage.used) :
    ∃ results, stage.exchange values = .ok results ∧ results.length = values.length ∧
      ∀ result ∈ results, result ∈ values := by
  -- What a lane holds afterwards is the outcome for it, taken from two used lanes.
  refine ⟨_, valid.exchange_eq 0 count, by simp [count], ?_⟩
  intro result member
  obtain ⟨lane, listed, rfl⟩ := List.mem_map.mp member
  have inside := List.mem_range.mp listed
  have held : ∀ place < stage.used, values.getD place 0 ∈ values := by
    intro place below
    rw [List.getD_eq_getElem?_getD, List.getElem?_eq_getElem (by omega), Option.getD_some]
    exact List.getElem_mem _
  -- A lane keeps its own value or that of its partner, and both are used.
  rw [outcome]
  rcases (Side.ofPair lane (stage.mate lane)).kept_eq (values.getD lane 0)
    (values.getD (stage.mate lane) 0) with same | same
  · rw [same]
    exact held lane inside
  · rw [same]
    exact held _ (valid.mate_lt inside)

end Stage

end SimdNetwork
