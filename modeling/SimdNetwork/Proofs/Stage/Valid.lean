import SimdNetwork.Proofs.Outcome
import SimdNetwork.Stage

/-! What a stage that passes its check guarantees, and that padding keeps it. -/

namespace SimdNetwork

namespace Stage

/-- The pairs pass when no partner is padding, none was seen before, and none is repeated. -/
theorem checkPairs_eq_ok {used lane : Nat} {seen partners : List Nat} :
    checkPairs used lane seen partners = .ok () ↔
      (∀ partner ∈ partners, partner < used ∧ partner ∉ seen) ∧ partners.Nodup := by
  -- The list of seen partners grows by exactly those that passed.
  induction partners generalizing lane seen with
  | nil => simp [checkPairs]
  | cons partner rest ih =>
    rw [checkPairs]
    split
    · -- A partner beyond the used lanes is refused at once.
      rename_i outside
      simp only [reduceCtorEq, List.forall_mem_cons, false_iff]
      intro passed
      exact absurd passed.1.1.1 (Nat.not_lt.mpr outside)
    · rename_i inside
      split
      · -- So is a partner that an earlier lane already has.
        rename_i again
        simp only [reduceCtorEq, List.forall_mem_cons, false_iff]
        intro passed
        exact passed.1.1.2 again
      · -- A fresh partner passes, and the lanes behind must avoid it as well.
        rename_i fresh
        rw [ih, List.forall_mem_cons, List.nodup_cons]
        constructor
        · rintro ⟨others, distinct⟩
          refine ⟨⟨⟨by omega, fresh⟩, ?_⟩, ?_, distinct⟩
          · intro other member
            obtain ⟨small, unseen⟩ := others other member
            exact ⟨small, fun earlier => unseen (List.mem_cons_of_mem _ earlier)⟩
          · intro repeated
            exact (others partner repeated).2 List.mem_cons_self
        · rintro ⟨⟨_, others⟩, unrepeated, distinct⟩
          refine ⟨?_, distinct⟩
          intro other member
          obtain ⟨small, unseen⟩ := others other member
          refine ⟨small, ?_⟩
          rw [List.mem_cons, not_or]
          exact ⟨fun same => unrepeated (same ▸ member), unseen⟩

/-- A list passes the check exactly when its used lanes are paired among themselves. -/
theorem check_eq_ok {written : List Nat} {used : Nat} :
    check written used = .ok () ↔
      0 < used ∧ used ≤ written.length ∧ (∀ index ∈ written, index < written.length) ∧
        (∀ partner ∈ written.reverse.take used, partner < used) ∧
          (written.reverse.take used).Nodup := by
  -- The tests come in a fixed order, and each is passed before the next one is made.
  simp only [check]
  by_cases empty : written.length = 0
  · -- No lane leaves no room for a used one.
    simp only [if_pos empty, reduceCtorEq, false_iff]
    omega
  rw [if_neg empty]
  by_cases outside : used = 0 ∨ written.length < used
  · simp only [if_pos outside, reduceCtorEq, false_iff]
    omega
  rw [if_neg outside]
  split
  · -- The index that was found is one that names no lane.
    rename_i index position found
    have named := List.find?_some found
    have member := List.mem_zipIdx (List.mem_of_find?_eq_some found)
    simp only [reduceCtorEq, false_iff]
    rintro ⟨_, _, inside, _⟩
    have listed : index ∈ written := by
      rw [member.2.2]
      exact List.getElem_mem _
    exact absurd (inside index listed) (by simpa using named)
  · -- Since none was found, every index names a lane, and only the pairs are left to check.
    rename_i none_found
    have inside : ∀ index ∈ written, index < written.length := by
      intro index member
      obtain ⟨position, bound, rfl⟩ := List.getElem_of_mem member
      have entry : (written[position], position) ∈ written.zipIdx := by
        rw [List.mk_mem_zipIdx_iff_getElem?]
        exact List.getElem?_eq_getElem bound
      simpa using List.find?_eq_none.mp none_found _ entry
    rw [checkPairs_eq_ok]
    simp only [List.not_mem_nil, not_false_eq_true, and_true]
    constructor
    · rintro ⟨closed, distinct⟩
      exact ⟨by omega, by omega, inside, closed, distinct⟩
    · rintro ⟨_, _, _, closed, distinct⟩
      exact ⟨closed, distinct⟩

/-- A stage whose partners pass the check for its used lanes. -/
def Valid (stage : Stage) : Prop := check stage.written stage.used = .ok ()

/-- A stage is valid when its used lanes are paired among themselves and no partner is missing. -/
theorem valid_iff (stage : Stage) :
    stage.Valid ↔ 0 < stage.used ∧ stage.used ≤ stage.lanes ∧
      (∀ partner ∈ stage.partners, partner < stage.lanes) ∧
        (∀ partner ∈ stage.partners.take stage.used, partner < stage.used) ∧
          (stage.partners.take stage.used).Nodup := by
  -- The check reads the written list, which is the partners from the last lane down.
  simp only [Valid, check_eq_ok, written, lanes, List.length_reverse, List.mem_reverse,
    List.reverse_reverse]

/-- Validity is decided by looking at the partners. -/
instance (stage : Stage) : Decidable stage.Valid := decidable_of_iff' _ (valid_iff stage)

/-- Every stage that was made from a written list is valid. -/
theorem valid_of_ofWritten {written : List Nat} {used : Nat} {stage : Stage}
    (made : ofWritten written used = .ok stage) : stage.Valid := by
  -- The written list passed its check before it became the partners.
  obtain ⟨_, passed, rfl⟩ := map_eq_ok.mp made
  simpa [Valid, Stage.written] using passed

namespace Valid

variable {stage : Stage}

/-- A valid stage has at least the lanes that it uses. -/
theorem used_le (valid : stage.Valid) : stage.used ≤ stage.lanes :=
  ((valid_iff stage).mp valid).2.1

/-- A valid stage uses at least one lane. -/
theorem used_pos (valid : stage.Valid) : 0 < stage.used := ((valid_iff stage).mp valid).1

/-- Every partner in a valid stage is one of its lanes. -/
theorem partner_lt (valid : stage.Valid) {partner : Nat} (member : partner ∈ stage.partners) :
    partner < stage.lanes :=
  ((valid_iff stage).mp valid).2.2.1 partner member

/-- The partner of a used lane is used. -/
theorem partner_lt_used (valid : stage.Valid) {lane partner : Nat} (inside : lane < stage.used)
    (paired : stage.partners[lane]? = some partner) : partner < stage.used := by
  -- The used lanes are the front of the list, so their partners are among those checked.
  have front : (stage.partners.take stage.used)[lane]? = some partner := by
    rw [List.getElem?_take_of_lt inside]
    exact paired
  exact ((valid_iff stage).mp valid).2.2.2.1 partner (List.mem_of_getElem? front)

end Valid

/-- Two used lanes with one partner are the same lane. -/
theorem Valid.eq_of_same_partner {stage : Stage} (valid : stage.Valid) {left right partner : Nat}
    (leftUsed : left < stage.used) (rightUsed : right < stage.used)
    (leftPaired : stage.partners[left]? = some partner)
    (rightPaired : stage.partners[right]? = some partner) : left = right := by
  -- The used lanes are the front of the list, where no partner stands twice.
  have distinct := ((valid_iff stage).mp valid).2.2.2.2
  rw [← List.getElem?_take_of_lt leftUsed] at leftPaired
  rw [← List.getElem?_take_of_lt rightUsed] at rightPaired
  obtain ⟨leftInside, leftEntry⟩ := List.getElem?_eq_some_iff.mp leftPaired
  obtain ⟨rightInside, rightEntry⟩ := List.getElem?_eq_some_iff.mp rightPaired
  exact (List.getElem_inj distinct).mp (leftEntry.trans rightEntry.symm)

/-- A valid stage can be made from its own partners. -/
theorem Valid.ofPartners_eq {stage : Stage} (valid : stage.Valid) :
    ofPartners stage.partners stage.used = .ok stage := by
  -- The check of the partners is the one that the stage has passed.
  refine map_eq_ok.mpr ⟨(), valid, ?_⟩
  rw [List.reverse_reverse]

/-- Padding adds lanes at the end that are their own partners. -/
theorem padTo_eq_ok {stage padded : Stage} {target : Nat} :
    stage.padTo target = .ok padded ↔ stage.lanes ≤ target ∧
      padded = ⟨stage.partners ++ List.range' stage.lanes (target - stage.lanes), stage.used⟩ := by
  -- Padding is refused only where it would take lanes away.
  rw [padTo]
  split
  · rename_i shrinks
    simp only [reduceCtorEq, false_iff]
    omega
  · rename_i grows
    simp only [Except.ok.injEq]
    constructor
    · rintro rfl
      exact ⟨by omega, rfl⟩
    · rintro ⟨_, rfl⟩
      rfl

section Padding

variable {stage padded : Stage} {target : Nat}

/-- A padded stage has as many lanes as it was padded to. -/
theorem lanes_padTo (made : stage.padTo target = .ok padded) : padded.lanes = target := by
  -- As many lanes are added as are missing.
  obtain ⟨grows, rfl⟩ := padTo_eq_ok.mp made
  rw [lanes] at grows ⊢
  rw [List.length_append, List.length_range', lanes]
  omega

/-- A padded stage uses the lanes that were used before. -/
theorem used_padTo (made : stage.padTo target = .ok padded) : padded.used = stage.used := by
  -- Padding changes the partners only.
  obtain ⟨_, rfl⟩ := padTo_eq_ok.mp made
  rfl

/-- Padding leaves the partner of every old lane alone. -/
theorem partners_padTo (made : stage.padTo target = .ok padded) {lane : Nat}
    (inside : lane < stage.lanes) : padded.partners[lane]? = stage.partners[lane]? := by
  -- The new lanes are listed behind the old ones.
  obtain ⟨_, rfl⟩ := padTo_eq_ok.mp made
  exact List.getElem?_append_left inside

/-- Padding a valid stage gives a valid stage. -/
theorem valid_padTo (valid : stage.Valid) (made : stage.padTo target = .ok padded) :
    padded.Valid := by
  -- The used lanes are a front of the list that stays, and new lanes name themselves.
  have count := lanes_padTo made
  obtain ⟨grows, rfl⟩ := padTo_eq_ok.mp made
  obtain ⟨positive, fits, inside, closed, distinct⟩ := (valid_iff stage).mp valid
  rw [valid_iff, count]
  -- The used lanes lie before the padding, so the check reads the same front of the list.
  have front : (stage.partners ++ List.range' stage.lanes (target - stage.lanes)).take stage.used =
      stage.partners.take stage.used := List.take_append_of_le_length fits
  refine ⟨positive, Nat.le_trans fits grows, ?_, by rwa [front], by rwa [front]⟩
  intro partner member
  rcases List.mem_append.mp member with old | new
  · exact Nat.lt_of_lt_of_le (inside partner old) grows
  · have range := List.mem_range'_1.mp new
    omega

/-- Padding a padded stage further is padding the stage itself. -/
theorem padTo_padTo {more : Nat} (made : stage.padTo target = .ok padded) (grows : target ≤ more) :
    padded.padTo more = stage.padTo more := by
  -- Both lists start with the old partners, so only the added lanes are compared.
  obtain ⟨fewer, rfl⟩ := padTo_eq_ok.mp made
  have count := lanes_padTo made
  rw [padTo, padTo, count, if_neg (by omega), if_neg (by omega), List.append_assoc]
  -- The lanes added second go on counting where those added first stop.
  have onward := List.range'_append_1 (s := stage.lanes) (m := target - stage.lanes)
    (n := more - target)
  rw [Nat.add_sub_cancel' fewer] at onward
  rw [onward]
  congr 4
  omega

end Padding

end Stage

end SimdNetwork
