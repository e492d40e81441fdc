import SimdNetwork.Error

/-! Steps that can fail, taken apart: where a success came from, and which step a failure is of. -/

namespace SimdNetwork

section Steps

variable {ε α β : Type}

/-- A chain succeeds when its first step does and the rest succeeds on what that step gave. -/
theorem bind_eq_ok {first : Except ε α} {next : α → Except ε β} {result : β} :
    (first >>= next) = .ok result ↔ ∃ value, first = .ok value ∧ next value = .ok result := by
  -- A failed first step would have ended the chain.
  constructor
  · intro succeeded
    cases first with
    | error problem => cases succeeded
    | ok value => exact ⟨value, rfl, succeeded⟩
  · rintro ⟨value, rfl, rest⟩
    exact rest

/-- A step that did succeed hands its value to the rest of the chain. -/
@[simp] theorem ok_bind (value : α) (next : α → Except ε β) :
    ((.ok value : Except ε α) >>= next) = next value := rfl

/-- Nothing after a failed step is taken. -/
@[simp] theorem error_bind (problem : ε) (next : α → Except ε β) :
    ((.error problem : Except ε α) >>= next) = .error problem := rfl

/-- A chain fails with its first step, or past it with the rest. -/
theorem bind_eq_error {first : Except ε α} {next : α → Except ε β} {problem : ε} :
    (first >>= next) = .error problem ↔
      first = .error problem ∨ ∃ value, first = .ok value ∧ next value = .error problem := by
  -- Whether the first step succeeded decides which of the two it is.
  cases first with
  | error other => simp
  | ok value => simp

/-- A mapped result succeeds when the result does. -/
theorem map_eq_ok {result : Except ε α} {change : α → β} {mapped : β} :
    result.map change = .ok mapped ↔ ∃ value, result = .ok value ∧ change value = mapped := by
  -- A change applies to the value of a success, and a failure has none.
  cases result with
  | error problem => simp [Except.map]
  | ok value => simp [Except.map]

/-- A mapped result fails as the result does. -/
theorem map_eq_error {result : Except ε α} {change : α → β} {problem : ε} :
    result.map change = .error problem ↔ result = .error problem := by
  -- A change of values leaves no failure out and adds none.
  cases result with
  | error other => simp [Except.map]
  | ok value => simp [Except.map]

/-- A step fails when it does not succeed. -/
theorem exists_error_iff {result : Except ε α} :
    (∃ problem, result = .error problem) ↔ ¬ ∃ value, result = .ok value := by
  -- A result is one or the other.
  cases result with
  | error problem => simp
  | ok value => simp

/-- A result leaves a value when it is a success with that value. -/
theorem toOption_eq_some {result : Except ε α} {value : α} :
    result.toOption = some value ↔ result = .ok value := by
  -- A failure leaves nothing.
  cases result with
  | error problem => simp [Except.toOption]
  | ok other => simp [Except.toOption]

/-- Results that agree without their values succeed together, and fail in the same way. -/
theorem exists_ok_and_error_of_map {first : Except ε α} {second : Except ε β}
    (same : first.map (fun _ => ()) = second.map fun _ => ()) :
    ((∃ value, first = .ok value) ↔ ∃ value, second = .ok value) ∧
      ∀ problem, first = .error problem ↔ second = .error problem := by
  -- A success and a failure differ even without the value of the success.
  cases first with
  | error problem =>
    cases second with
    | error other =>
      obtain rfl : problem = other := Except.error.inj same
      simp
    | ok value => cases same
  | ok value =>
    cases second with
    | error problem => cases same
    | ok other => simp

/-- Rewording the failures of a step leaves its successes alone. -/
@[simp] theorem mapError_eq_ok {ε' : Type} {result : Except ε α} {reword : ε → ε'} {value : α} :
    result.mapError reword = .ok value ↔ result = .ok value := by
  -- Only the case of a failure is touched, and that is never a success.
  cases result with
  | error problem => exact ⟨nofun, nofun⟩
  | ok other => exact ⟨fun same => congrArg _ (Except.ok.inj same),
      fun same => congrArg _ (Except.ok.inj same)⟩

/-- A list goes through a step as a whole when every member goes through it. -/
theorem mapM_eq_ok {step : α → Except ε β} {list : List α} {results : List β} :
    list.mapM step = .ok results ↔ list.map step = results.map .ok := by
  -- The results are built in the order of the list, one for each member.
  induction list generalizing results with
  | nil => cases results <;> simp [pure, Except.pure]
  | cons first rest ih =>
    rw [List.mapM_cons, bind_eq_ok]
    constructor
    · -- What the whole list gave is taken apart into the first result and the others.
      rintro ⟨value, taken, later⟩
      obtain ⟨values, others, built⟩ := bind_eq_ok.mp later
      cases built
      rw [List.map_cons, List.map_cons, taken, ih.mp others]
    · -- One result for every member leaves none over on either side.
      intro same
      cases results with
      | nil => simp at same
      | cons value values =>
        rw [List.map_cons, List.map_cons, List.cons.injEq] at same
        exact ⟨value, same.1, bind_eq_ok.mpr ⟨values, ih.mpr same.2, rfl⟩⟩

/-- What comes of a list is decided by what comes of its members. -/
theorem mapM_congr {γ : Type} {step : α → Except ε γ} {otherStep : β → Except ε γ} {list : List α}
    {other : List β} (same : list.map step = other.map otherStep) :
    list.mapM step = other.mapM otherStep := by
  -- The first members come to the same, and after a success so do the others.
  induction list generalizing other with
  | nil =>
    rw [List.map_nil, eq_comm, List.map_eq_nil_iff] at same
    rw [same, List.mapM_nil, List.mapM_nil]
  | cons first rest ih =>
    cases other with
    | nil => simp at same
    | cons otherFirst otherRest =>
      rw [List.map_cons, List.map_cons, List.cons.injEq] at same
      rw [List.mapM_cons, List.mapM_cons, same.1, ih same.2]

/-- Every member of a list that went through a step gave one of the results. -/
theorem mapM_eq_ok_mem {step : α → Except ε β} {list : List α} {results : List β}
    (taken : list.mapM step = .ok results) {result : β} :
    result ∈ results ↔ ∃ member ∈ list, step member = .ok result := by
  -- Both lists are the same list of outcomes.
  have same := mapM_eq_ok.mp taken
  have listed : result ∈ results ↔ (.ok result : Except ε β) ∈ results.map .ok := by simp
  rw [listed, ← same, List.mem_map]

/-- What a step keeps of every member is kept in the order of the list. -/
theorem map_of_mapM {γ : Type} {step : α → Except ε β} {list : List α} {results : List β}
    {ofResult : β → γ} {ofMember : α → γ} (taken : list.mapM step = .ok results)
    (kept : ∀ member result, step member = .ok result → ofResult result = ofMember member) :
    results.map ofResult = list.map ofMember := by
  have same := mapM_eq_ok.mp taken
  -- Each result stands where its member stands.
  induction list generalizing results with
  | nil => simpa using same.symm
  | cons first rest ih =>
    cases results with
    | nil => simp at same
    | cons value values =>
      rw [List.map_cons, List.map_cons, List.cons.injEq] at same
      rw [List.map_cons, List.map_cons, kept first value same.1,
        ih (mapM_eq_ok.mpr same.2) same.2]

/-- A list goes through a step exactly when no member fails it. -/
theorem exists_mapM_eq_ok {step : α → Except ε β} {list : List α} :
    (∃ results, list.mapM step = .ok results) ↔
      ∀ member ∈ list, ∃ result, step member = .ok result := by
  -- Each further member either adds its result or stops the whole list.
  induction list with
  | nil => simp [pure, Except.pure]
  | cons first rest ih =>
    rw [List.forall_mem_cons, ← ih]
    constructor
    · rintro ⟨results, taken⟩
      rw [List.mapM_cons, bind_eq_ok] at taken
      obtain ⟨value, head, later⟩ := taken
      obtain ⟨values, tail, _⟩ := bind_eq_ok.mp later
      exact ⟨⟨value, head⟩, values, tail⟩
    · rintro ⟨⟨value, head⟩, values, tail⟩
      exact ⟨value :: values, by rw [List.mapM_cons, head, ok_bind, tail]; rfl⟩

/-- A list fails a step exactly when some member fails it. -/
theorem exists_mapM_eq_error {step : α → Except ε β} {list : List α} :
    (∃ problem, list.mapM step = .error problem) ↔
      ∃ member ∈ list, ∃ problem, step member = .error problem := by
  -- This is the contrary of going through without a failure.
  simp only [exists_error_iff, exists_mapM_eq_ok]
  simp

/-- A list fails a step with the failure of the first member that fails it. -/
theorem mapM_eq_error {step : α → Except ε β} {list : List α} {problem : ε} :
    list.mapM step = .error problem ↔
      ∃ before failing after, list = before ++ failing :: after ∧
        (∀ member ∈ before, ∃ result, step member = .ok result) ∧
          step failing = .error problem := by
  -- The members before the failing one are peeled off from the front.
  induction list with
  | nil => simp [pure, Except.pure]
  | cons first rest ih =>
    rw [List.mapM_cons]
    cases head : step first with
    -- A first member that fails ends the list, whatever stands behind it.
    | error other =>
      rw [error_bind]
      constructor
      · intro same
        cases same
        exact ⟨[], first, rest, rfl, by simp, head⟩
      · rintro ⟨before, failing, after, split, passed, failed⟩
        cases before with
        | nil =>
          cases split
          rw [head] at failed
          cases failed
          rfl
        | cons earlier others =>
          -- A member before the failing one passed, and the first one did not.
          cases split
          obtain ⟨result, fine⟩ := passed first List.mem_cons_self
          rw [head] at fine
          cases fine
    -- Otherwise the failure, if there is one, is that of the rest.
    | ok value =>
      rw [ok_bind]
      have tail : (do let values ← rest.mapM step; pure (value :: values)) = .error problem ↔
          rest.mapM step = .error problem := by
        cases rest.mapM step with
        | error other => simp only [error_bind]
        | ok values => simp [pure, Except.pure]
      rw [tail, ih]
      constructor
      · rintro ⟨before, failing, after, rfl, passed, failed⟩
        refine ⟨first :: before, failing, after, rfl, ?_, failed⟩
        rw [List.forall_mem_cons]
        exact ⟨⟨value, head⟩, passed⟩
      · rintro ⟨before, failing, after, split, passed, failed⟩
        cases before with
        | nil =>
          cases split
          rw [head] at failed
          cases failed
        -- The first member is one of those before the failing one, and drops out of them.
        | cons earlier others =>
          cases split
          exact ⟨others, failing, after, rfl, fun member inside =>
            passed member (List.mem_cons_of_mem _ inside), failed⟩

/-- A list fails a step at the first place whose member fails it. -/
theorem mapM_eq_error_getElem? {step : α → Except ε β} {list : List α} {problem : ε} :
    list.mapM step = .error problem ↔ ∃ (index : Nat) (member : α), list[index]? = some member ∧
      (∀ earlier < index, ∀ other, list[earlier]? = some other →
        ∃ result, step other = .ok result) ∧ step member = .error problem := by
  -- The members in front of the failing one are those at earlier places.
  rw [mapM_eq_error]
  constructor
  · -- The failing member stands behind all those that passed.
    rintro ⟨before, failing, after, rfl, passed, failed⟩
    refine ⟨before.length, failing, by simp, ?_, failed⟩
    intro earlier first other listed
    rw [List.getElem?_append_left first] at listed
    exact passed other (List.mem_of_getElem? listed)
  · -- Cut at the place of the failing member, the list has only earlier places in front.
    rintro ⟨index, member, listed, passed, failed⟩
    obtain ⟨inside, entry⟩ := List.getElem?_eq_some_iff.mp listed
    refine ⟨list.take index, member, list.drop (index + 1), ?_, ?_, failed⟩
    · rw [← entry, ← List.drop_eq_getElem_cons inside, List.take_append_drop]
    · intro other taken
      obtain ⟨earlier, named⟩ := List.mem_iff_getElem?.mp taken
      rw [List.getElem?_take] at named
      split at named
      · rename_i first
        exact passed earlier first other named
      · cases named

/-- Steps that each read a member and then change a state may read the whole list beforehand. -/
theorem foldlM_map {σ : Type} {read : α → Except ε β} {change : σ → β → σ} {list : List α}
    {start : σ} :
    list.foldlM (fun state member => (read member).map (change state)) start =
      (list.mapM read).map fun values => values.foldl change start := by
  -- Whether a member can be read does not depend on the state that is reached before it.
  induction list generalizing start with
  | nil => rfl
  | cons first rest ih =>
    rw [List.foldlM_cons, List.mapM_cons]
    cases read first with
    | error problem => rfl
    | ok value =>
      rw [ok_bind]
      refine ih.trans ?_
      cases rest.mapM read with
      | error problem => rfl
      | ok values => rfl

/-- Steps that can only fail in one way fail in that way when any of them does. -/
theorem foldlM_eq_error {σ : Type} {step : σ → α → Except ε σ} {problem : ε} {list : List α}
    {start : σ}
    (only : ∀ state member other, step state member = .error other → other = problem)
    (failing : ∃ member ∈ list, ∀ state, step state member = .error problem) :
    list.foldlM step start = .error problem := by
  -- The steps before the failing one either fail as it does or lead up to it.
  induction list generalizing start with
  | nil =>
    obtain ⟨_, member, _⟩ := failing
    cases member
  | cons first rest ih =>
    rw [List.foldlM_cons]
    cases taken : step start first with
    | error other =>
      rw [error_bind, only start first other taken]
    | ok next =>
      rw [ok_bind]
      obtain ⟨member, listed, fails⟩ := failing
      -- The failing member is not the first, which passed.
      rcases List.mem_cons.mp listed with rfl | later
      · rw [fails start] at taken
        cases taken
      · exact ih ⟨member, later, fails⟩

end Steps

/-- What a step gives is not touched by how its faults are worded. -/
@[simp] theorem orFault_ok {α : Type} (value : α) : orFault (.ok value) = .ok value := rfl

/-- The fault of a step is a fault of compiling. -/
@[simp] theorem orFault_error {α : Type} (fault : Fault) :
    orFault (.error fault : Except Fault α) = .error (.fault fault) := rfl

/-- The refusal of a step is a refusal of compiling. -/
@[simp] theorem orRefuse_error {α : Type} (error : CompileError) :
    orRefuse (.error error : Except CompileError α) = .error (.refused error) := rfl

/-- A step that can only fault succeeds inside compiling when it succeeds alone. -/
@[simp] theorem orFault_eq_ok {α : Type} {result : Except Fault α} {value : α} :
    orFault result = .ok value ↔ result = .ok value := mapError_eq_ok

/-- A step that can only refuse succeeds inside compiling when it succeeds alone. -/
@[simp] theorem orRefuse_eq_ok {α : Type} {result : Except CompileError α} {value : α} :
    orRefuse result = .ok value ↔ result = .ok value := mapError_eq_ok

end SimdNetwork
