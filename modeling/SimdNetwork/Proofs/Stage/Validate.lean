import Mathlib.Data.Finset.Card
import SimdNetwork.Proofs.Stage.Exchange
import SimdNetwork.Stage.Validate

/-! The guarded check never faults, and accepts just the partners that permute the used lanes. -/

namespace SimdNetwork

/-- A place that a list has is read. -/
theorem readAt_eq_ok {α : Type} {list : List α} {place : Nat} {entry : α}
    (listed : list[place]? = some entry) : readAt list place = .ok entry := by
  -- Reading faults only where nothing is listed.
  rw [readAt, listed]

/-- A flaw that the check finds is what the partners are refused for. -/
theorem orRefuse_flaw {α : Type} (flaw : Flaw) :
    orRefuse ((.error flaw : Except Flaw α).mapError .invalid) = refuseFlaw flaw := rfl

namespace Stage

/-- A lane of the list finds its partner as far from the end as the lane is from the start. -/
theorem writtenPartner_eq_ok {written : List Nat} {lane : Nat} (inside : lane < written.length) :
    writtenPartner written lane = .ok (written.getD (written.length - 1 - lane) 0) := by
  -- Neither difference passes zero for a lane of the list, and the place they lead to is in it.
  have place : written.length - 1 - lane < written.length := by omega
  have listed := List.getElem?_eq_getElem place
  rw [writtenPartner, below, if_pos (by omega), ok_bind, below, if_pos (by omega), ok_bind,
    readAt_eq_ok listed, List.getD_eq_getElem?_getD, listed, Option.getD_some]

/-- Read from the end of the list, a lane has the partner that is written for it. -/
theorem getElem?_reverse_written {written : List Nat} {lane : Nat}
    (inside : lane < written.length) :
    written.reverse[lane]? = some (written.getD (written.length - 1 - lane) 0) := by
  -- The list is turned round, so the places are counted from its other end.
  rw [List.getElem?_reverse inside, List.getD_eq_getElem?_getD,
    List.getElem?_eq_getElem (by omega), Option.getD_some]

/-- A table that marks just the partners seen so far. -/
def Marks (used : Nat) (seen : List Nat) (marks : List Bool) : Prop :=
  ∀ partner < used, marks[partner]? = some (decide (partner ∈ seen))

/-- A new table marks nothing. -/
theorem marks_replicate (used : Nat) : Marks used [] (List.replicate used false) := by
  -- No partner was seen, and no place of the table is marked.
  intro partner inside
  simp [inside]

/-- Marking a partner adds it to those seen. -/
theorem Marks.set {used partner : Nat} {seen : List Nat} {marks : List Bool}
    (noted : Marks used seen marks) (inside : partner < used) :
    Marks used (partner :: seen) (marks.set partner true) := by
  -- The table has a place for every used lane, so the mark is made.
  intro other small
  obtain ⟨room, _⟩ := List.getElem?_eq_some_iff.mp (noted partner inside)
  rw [List.getElem?_set]
  by_cases same : partner = other
  · subst same
    simp [room]
  · -- The marks of all other partners stay as they were.
    have apart : other ≠ partner := fun equal => same equal.symm
    rw [if_neg same, noted other small]
    simp [apart]

/-- Marking partners in a table finds the same flaw as remembering them in a list. -/
theorem checkMarks_eq {written : List Nat} {used lane count : Nat} {seen : List Nat}
    {marks : List Bool} (room : lane + count ≤ written.length) (noted : Marks used seen marks) :
    checkMarks written used (List.range' lane count) marks = orRefuse
      ((checkPairs used lane seen ((written.reverse.drop lane).take count)).mapError .invalid) := by
  -- One lane at a time; the table keeps marking just the partners of the lanes already passed.
  induction count generalizing lane seen marks with
  | zero => rfl
  | succ count ih =>
    have inside : lane < written.reverse.length := by
      rw [List.length_reverse]
      omega
    have entry : written.reverse[lane] = written.getD (written.length - 1 - lane) 0 := by
      have listed := getElem?_reverse_written (by omega : lane < written.length)
      rwa [List.getElem?_eq_getElem inside, Option.some.injEq] at listed
    rw [List.range'_succ, checkMarks, writtenPartner_eq_ok (by omega), orFault_ok, ok_bind,
      List.drop_eq_getElem_cons inside, List.take_succ_cons, checkPairs, entry]
    -- Both checks look at the same partner, first for padding and then for an earlier lane.
    generalize written.getD (written.length - 1 - lane) 0 = partner
    by_cases outside : used ≤ partner
    · rw [if_pos outside, if_pos outside, orRefuse_flaw]
    · rw [if_neg outside, if_neg outside, readAt_eq_ok (noted partner (by omega)), orFault_ok,
        ok_bind]
      by_cases again : partner ∈ seen
      · rw [if_pos (decide_eq_true again), if_pos again, orRefuse_flaw]
      · rw [if_neg (by simpa using again), if_neg again]
        -- The table marks the partner for the lanes behind, and the list remembers it.
        exact ih (by omega) (noted.set (by omega))

/-- The place of the first entry of a sort is found together with the entry. -/
theorem find?_zipIdx_of_findIdx? {written : List Nat} {sort : Nat → Bool} {position : Nat}
    (found : written.findIdx? sort = some position) :
    ∃ index, written[position]? = some index ∧
      (written.zipIdx.find? fun entry => sort entry.1) = some (index, position) := by
  -- Entries are paired with their places in order, so the first of a sort has the first place.
  obtain ⟨inside, named, earlier⟩ := List.findIdx?_eq_some_iff_getElem.mp found
  refine ⟨_, List.getElem?_eq_getElem inside, ?_⟩
  rw [List.find?_eq_some_iff_getElem]
  refine ⟨named, position, by simpa using inside, by simp, ?_⟩
  -- No entry before the place is of the sort.
  intro place before
  simpa using earlier place before

/-- Where no place is found there is no entry to find. -/
theorem find?_zipIdx_eq_none {written : List Nat} {sort : Nat → Bool}
    (missing : written.findIdx? sort = none) :
    (written.zipIdx.find? fun entry => sort entry.1) = none := by
  -- An entry that is paired with its place is one of the list, and none of these is of the sort.
  rw [List.find?_eq_none]
  rintro ⟨index, position⟩ member
  have listed := List.fst_mem_of_mem_zipIdx member
  simpa using List.findIdx?_eq_none_iff.mp missing index listed

/-- The guarded check comes to the same verdict, flaw by flaw, and never to a fault. -/
theorem validate_eq (written : List Nat) (used : Nat) :
    validate written used = orRefuse ((check written used).mapError .invalid) := by
  -- Both checks make the same tests in the same order, so they are compared one test at a time.
  rw [validate, check]
  by_cases empty : written.length = 0
  · rw [if_pos empty, if_pos empty, orRefuse_flaw]
  rw [if_neg empty, if_neg empty]
  by_cases outside : used = 0 ∨ written.length < used
  · rw [if_pos outside, if_pos outside, orRefuse_flaw]
  rw [if_neg outside, if_neg outside]
  cases found : written.findIdx? (written.length ≤ ·) with
  | some position =>
    -- The entry is read back at the place where it was found.
    obtain ⟨index, listed, first⟩ := find?_zipIdx_of_findIdx? found
    rw [first]
    dsimp only
    rw [readAt_eq_ok listed, orFault_ok, ok_bind, orRefuse_flaw]
  | none =>
    -- All entries name lanes, and then the pairs are checked with an empty table.
    rw [find?_zipIdx_eq_none found]
    dsimp only
    rw [List.range_eq_range', checkMarks_eq (by omega) (marks_replicate used), List.drop_zero]

/-- A valid stage permutes its used lanes. -/
theorem Valid.bijOn_mate {stage : Stage} (valid : stage.Valid) :
    Set.BijOn stage.mate {lane | lane < stage.used} {lane | lane < stage.used} := by
  -- Partners of used lanes are used and differ, and there are finitely many of them.
  have closed : Set.MapsTo stage.mate {lane | lane < stage.used} {lane | lane < stage.used} :=
    fun _ inside => valid.mate_lt inside
  have distinct : Set.InjOn stage.mate {lane | lane < stage.used} :=
    fun _ left _ right same => valid.mate_inj left right same
  refine ⟨closed, distinct, ?_⟩
  -- Distinct partners among as many lanes leave no lane without one.
  have front : {lane | lane < stage.used} = (Finset.range stage.used : Set Nat) := by
    ext lane
    simp
  rw [front] at closed distinct ⊢
  exact Finset.surjOn_of_injOn_of_card_le stage.mate closed distinct (Nat.le_refl _)

/-- A stage is valid when all partners are lanes and the used lanes, at least one, are permuted. -/
theorem valid_iff_bijOn (stage : Stage) :
    stage.Valid ↔ 0 < stage.used ∧ stage.used ≤ stage.lanes ∧
      (∀ partner ∈ stage.partners, partner < stage.lanes) ∧
        Set.BijOn stage.mate {lane | lane < stage.used} {lane | lane < stage.used} := by
  -- What validity says of the used lanes is that their partners are used and differ.
  constructor
  · intro valid
    exact ⟨valid.used_pos, valid.used_le, fun _ => valid.partner_lt, valid.bijOn_mate⟩
  · -- Of the bijection the check sees only that partners are used lanes and differ.
    rintro ⟨positive, fits, listed, permutes⟩
    refine valid_of_mates positive fits ?_ permutes.mapsTo ?_
    · intro lane inside
      exact listed _ (List.mem_of_getElem? (partners_mate inside))
    · intro left leftUsed right rightUsed same
      exact permutes.injOn leftUsed rightUsed same

theorem mate_reverse {written : List Nat} {used lane : Nat} (inside : lane < written.length) :
    mate ⟨written.reverse, used⟩ lane = written.getD (written.length - 1 - lane) 0 := by
  -- The stage lists its partners in lane order, and the list has them in the opposite order.
  rw [mate, List.getD_eq_getElem?_getD, getElem?_reverse_written inside, Option.getD_some]

/--
The guarded check is exact.

It faults on no list and no used size. It accepts just the lists with a lane whose entries all name
lanes, with a used size from one up to the number of lanes, and whose used lanes are mapped one to
one onto the used lanes. What the entries of the other lanes name is left open.
-/
theorem validate_ok_iff_bijOn (written : List Nat) (used : Nat) :
    (∀ fault, validate written used ≠ .error (.fault fault)) ∧
      (validate written used = .ok () ↔
        written ≠ [] ∧ 1 ≤ used ∧ used ≤ written.length ∧
          (∀ entry ∈ written, entry < written.length) ∧
            Set.BijOn (fun lane => written.getD (written.length - 1 - lane) 0)
              {lane | lane < used} {lane | lane < used}) := by
  -- The verdict is that of the check that remembers partners in a list, which cannot fault.
  rw [validate_eq]
  constructor
  · intro fault
    cases check written used with
    | error flaw =>
      rw [orRefuse_flaw]
      nofun
    | ok _ => nofun
  · -- Passing it is being valid, once the list is turned into partners in lane order.
    have valid : check written used = .ok () ↔ Valid ⟨written.reverse, used⟩ := by
      rw [Valid, Stage.written, List.reverse_reverse]
    rw [orRefuse_eq_ok, mapError_eq_ok, valid, valid_iff_bijOn]
    simp only [lanes, List.length_reverse, List.mem_reverse]
    -- Written from the highest lane down, the partners are those of the lanes in order.
    have same (fits : used ≤ written.length) : Set.EqOn (mate ⟨written.reverse, used⟩)
        (fun lane => written.getD (written.length - 1 - lane) 0) {lane | lane < used} :=
      fun lane inside => mate_reverse (Nat.lt_of_lt_of_le inside fits)
    constructor
    · rintro ⟨positive, fits, listed, permutes⟩
      refine ⟨?_, positive, fits, listed, (same fits).bijOn_iff.mp permutes⟩
      rintro rfl
      rw [List.length_nil] at fits
      omega
    · rintro ⟨_, positive, fits, listed, permutes⟩
      exact ⟨positive, fits, listed, (same fits).bijOn_iff.mpr permutes⟩

/-- Padding may name any lane, but no used lane may name padding. -/
example : validate [0, 0, 0, 1, 2, 3] 4 = .ok () ∧
    validate [5, 4, 0, 1, 2, 5] 4 = refuseFlaw (.readsPadding 0 5 4) := ⟨rfl, rfl⟩

end Stage

end SimdNetwork
