import SimdNetwork.Proofs.Plan.Compile

/-! Which permute is chosen when several are as cheap. -/

namespace SimdNetwork

/-- What is kept of the members that a search picks stands in the order of the list. -/
theorem map_filterMap_sublist {α β γ : Type} {pick : α → Option β} {ofPicked : β → γ}
    {ofMember : α → γ}
    (kept : ∀ member picked, pick member = some picked → ofPicked picked = ofMember member)
    (list : List α) : ((list.filterMap pick).map ofPicked).Sublist (list.map ofMember) := by
  -- The induction is on the list, of which every member is picked or dropped.
  induction list with
  | nil => simp
  | cons first rest ih =>
    cases found : pick first with
    | none =>
      -- A member that is not picked leaves no trace.
      simpa [List.filterMap_cons, found] using ih.cons (ofMember first)
    | some picked =>
      simpa [List.filterMap_cons, found, kept first picked found] using ih

/-- The order of rows whose permutes cost the same: wider lanes, then the order of the table. -/
def PermuteRow.Earlier (shape : Shape) (row other : PermuteRow) : Prop :=
  other.unit.bytes < row.unit.bytes ∨
    row.unit = other.unit ∧
      (permuteTable shape row.unit).idxOf row < (permuteTable shape row.unit).idxOf other

/-- Of two rows only one can be the earlier. -/
theorem PermuteRow.Earlier.asymm {shape : Shape} {row other : PermuteRow}
    (earlier : row.Earlier shape other) : ¬ other.Earlier shape row := by
  -- Places are compared only between rows of one unit, and those lie in one table.
  intro later
  rcases earlier with wider | ⟨same, before⟩
  · rcases later with narrower | ⟨same, _⟩
    · omega
    · rw [same] at wider
      omega
  · rcases later with narrower | ⟨_, after⟩
    · rw [same] at narrower
      omega
    · rw [same] at before
      omega

/-- There is at most one permute of every kind in a table. -/
theorem nodup_permuteKinds (shape : Shape) (unit : Width) :
    ((permuteTable shape unit).map PermuteRow.kind).Nodup := by
  -- Every table of permutes is looked through.
  cases shape <;> cases unit <;> decide

/-- No row stands in its table twice. -/
theorem nodup_permuteTable (shape : Shape) (unit : Width) : (permuteTable shape unit).Nodup := by
  -- Two equal rows would be of one kind.
  refine List.Pairwise.of_map PermuteRow.kind ?_ (nodup_permuteKinds shape unit)
  intro row other differ same
  exact differ (congrArg PermuteRow.kind same)

/-- The rows of a table are listed earlier rows first. -/
theorem permuteTable_ordered (shape : Shape) (unit : Width) :
    (permuteTable shape unit).Pairwise (PermuteRow.Earlier shape) := by
  -- A row that is listed once is found at its own place.
  have distinct := nodup_permuteTable shape unit
  rw [List.pairwise_iff_getElem]
  intro first second firstInside secondInside before
  have firstUnit := (offered_of_mem (List.getElem_mem firstInside)).unit_eq
  have secondUnit := (offered_of_mem (List.getElem_mem secondInside)).unit_eq
  -- Both rows are of the table's own unit, so only their places count.
  refine .inr ⟨firstUnit.trans secondUnit.symm, ?_⟩
  rw [firstUnit, distinct.idxOf_getElem, distinct.idxOf_getElem]
  exact before

/-- The readings of a stage are listed narrowest first. -/
theorem Stage.readings_ordered (stage : Stage) (width : Width) (widen : Bool) :
    (stage.readings width widen).Pairwise fun narrow wide =>
      narrow.unit.bytes < wide.unit.bytes := by
  -- The widths of the readings are some of those from the own width up.
  have coarsened : ((stage.wideReadings width).map Coarsening.width).Sublist
      (width.wider.map id) := by
    refine map_filterMap_sublist ?_ width.wider
    intro wide coarsening made
    obtain ⟨_, _, rfl⟩ := Option.map_eq_some_iff.mp made
    rfl
  rw [List.map_id] at coarsened
  -- Widths at which the stage does not coarsen are left out of the list of all wider ones.
  have listed : ((stage.readings width widen).map Candidate.unit).Sublist
      (width :: width.wider) := by
    rw [readings, List.map_cons]
    refine List.Sublist.cons_cons width ?_
    cases widen with
    | false => simp
    | true => simpa [Function.comp_def, Coarsening.candidate] using coarsened
  have ascending : (width :: width.wider).Pairwise fun narrow wide =>
      narrow.bytes < wide.bytes := by
    cases width <;> decide
  exact List.Pairwise.of_map Candidate.unit (fun _ _ wider => wider) (ascending.sublist listed)

/-- Trials of candidates listed narrowest first are made on earlier rows first. -/
theorem trials_ordered {candidates : List Candidate} (target : Target) (shape : Shape)
    (ascending : candidates.Pairwise fun narrow wide => narrow.unit.bytes < wide.unit.bytes) :
    ((trials target shape candidates).map Trial.row).Pairwise (PermuteRow.Earlier shape) := by
  -- The rows tried are those usable for the last candidate, then for the one before, and so on.
  have rows : (trials target shape candidates).map Trial.row =
      candidates.reverse.flatMap fun candidate => target.permutes shape candidate.unit := by
    simp [trials, List.map_flatMap, Function.comp_def]
  have unit : ∀ {width : Width} {row : PermuteRow}, row ∈ target.permutes shape width →
      row.unit = width := by
    intro width row usable
    exact (offered_of_mem (List.mem_filter.mp usable).1).unit_eq
  rw [rows, List.pairwise_flatMap]
  constructor
  · -- Leaving out the rows that cannot be used keeps the order of the others.
    intro candidate _
    exact (permuteTable_ordered shape candidate.unit).sublist List.filter_sublist
  · -- The candidates are tried from the last one back, and so the widest comes first.
    rw [List.pairwise_reverse]
    refine ascending.imp ?_
    intro narrow wide wider wideRow wideUsable narrowRow narrowUsable
    left
    rw [unit wideUsable, unit narrowUsable]
    exact wider

namespace PermuteChoice

/-- The order of preference: the cheaper permute, and among equally cheap ones the earlier row. -/
def Precedes (shape : Shape) (choice other : PermuteChoice) : Prop :=
  choice.permute.cost < other.permute.cost ∨
    choice.permute.cost = other.permute.cost ∧ choice.row.Earlier shape other.row

/-- Of two permutes only one can be preferred. -/
theorem Precedes.asymm {shape : Shape} {choice other : PermuteChoice}
    (precedes : choice.Precedes shape other) : ¬ other.Precedes shape choice := by
  -- Costs are compared first, and rows only between equal costs.
  intro back
  rcases precedes with cheaper | ⟨same, earlier⟩
  · rcases back with dearer | ⟨equal, _⟩ <;> omega
  · rcases back with dearer | ⟨_, later⟩
    · omega
    · exact earlier.asymm later

/-- A permute among those of the candidates that is preferred to all others. -/
structure Leads (choice : PermuteChoice) (target : Target) (shape : Shape)
    (candidates : List Candidate) : Prop where
  /-- It is among them itself. -/
  among : choice.Among target shape candidates
  /-- It is preferred to every other one. -/
  precedes : ∀ other : PermuteChoice, other.Among target shape candidates → other ≠ choice →
    choice.Precedes shape other

variable {target : Target} {shape : Shape} {candidates : List Candidate}
variable {choice other : PermuteChoice}

/-- There is at most one permute that is preferred to all others. -/
theorem Leads.unique (leads : choice.Leads target shape candidates)
    (otherLeads : other.Leads target shape candidates) : other = choice := by
  by_cases same : other = choice
  · exact same
  · -- Each of two leading permutes would be preferred to the other.
    have forth := leads.precedes other otherLeads.among same
    have back := otherLeads.precedes choice leads.among fun equal => same equal.symm
    exact absurd back forth.asymm

end PermuteChoice

/-- The choices that the attempts leave stand in the order of their rows. -/
theorem choices_ordered {target : Target} {shape : Shape} {candidates : List Candidate}
    {attempts : List Attempt}
    (ascending : candidates.Pairwise fun narrow wide => narrow.unit.bytes < wide.unit.bytes)
    (made : permuteAttempts target shape candidates = .ok attempts) :
    (attempts.filterMap Attempt.choice?).Pairwise fun choice other =>
      choice.row.Earlier shape other.row := by
  -- An attempt keeps the row of its trial, and a choice that of its attempt.
  have rows : attempts.map Attempt.row = (trials target shape candidates).map Trial.row := by
    refine map_of_mapM made ?_
    intro trial attempt taken
    obtain ⟨_, _, rfl⟩ := map_eq_ok.mp taken
    rfl
  have listed : ((attempts.filterMap Attempt.choice?).map PermuteChoice.row).Sublist
      (attempts.map Attempt.row) := by
    refine map_filterMap_sublist ?_ attempts
    intro attempt choice chosen
    obtain ⟨_, _, rfl⟩ := Option.map_eq_some_iff.mp chosen
    rfl
  -- An attempt without an encoding only drops out of the list of trials.
  rw [rows] at listed
  exact List.pairwise_map.mp ((trials_ordered target shape ascending).sublist listed)

/-- The permute that is chosen leads all permutes of candidates listed narrowest first. -/
theorem choosePermute_leads {target : Target} {shape : Shape} {candidates : List Candidate}
    {choice : PermuteChoice}
    (ascending : candidates.Pairwise fun narrow wide => narrow.unit.bytes < wide.unit.bytes)
    (chosen : choosePermute target shape candidates = .ok choice) :
    choice.Leads target shape candidates := by
  -- Every permute among the candidates is one of the choices, which stand in order.
  obtain ⟨attempts, made, rest⟩ := bind_eq_ok.mp chosen
  rw [orFault_eq_ok] at made
  split at rest
  · -- Some attempt gave an encoding, and the first of the cheapest was taken.
    rename_i least found
    cases rest
    refine ⟨(mem_choices_iff_among made).mp (mem_of_firstLeast? found), ?_⟩
    obtain ⟨before, after, parts, greater, noSmaller⟩ := firstLeast?_eq_some found
    have ordered := choices_ordered ascending made
    rw [parts, List.pairwise_append, List.pairwise_cons] at ordered
    obtain ⟨_, ⟨earlier, _⟩, _⟩ := ordered
    intro other among differs
    have listed := (mem_choices_iff_among made).mpr among
    rw [parts, List.mem_append, List.mem_cons] at listed
    -- Choices before the first of the cheapest are dearer; those after it at best tie.
    rcases listed with front | rfl | back
    · exact .inl (greater other front)
    · exact absurd rfl differs
    · rcases Nat.lt_or_eq_of_le (noSmaller other back) with cheaper | tied
      · exact .inl cheaper
      · exact .inr ⟨tied, earlier other back⟩
  · cases rest

/--
The permute of a plan is the one that is preferred to all others.

Of all usable rows at the widths of the candidates that encode the stage's route, it is the only one
that comes first when they are ordered by cost, then by width with the wider lanes first, and then
by their places in the table. The attempts are made in the order that breaks ties, so the first of
the cheapest is the one preferred.
-/
theorem Stage.permute_leads_of_compile (stage : Stage) (element : Element) (target : Target)
    (widen : Bool) (plan : Plan)
    (compiled : stage.compile element target widen = .ok plan) :
    ∃ (padded : Stage) (candidates : List Candidate) (choice : PermuteChoice),
      stage.shapeFor element = .ok plan.shape ∧
      stage.padTo (plan.shape.lanes element.width) = .ok padded ∧
      padded.candidates element.width widen = .ok candidates ∧
      choice.Leads target plan.shape candidates ∧
      (∀ other : PermuteChoice, other.Leads target plan.shape candidates → other = choice) ∧
      plan.permute = choice.permute ∧ plan.permuteUnit = choice.row.unit ∧
        plan.permuteRequires = choice.row.requires := by
  -- The plan takes its permute as it was chosen for the readings of the padded stage.
  obtain ⟨shape, lowering, padded, choice, blend, found, lowered, made, moved, _, rfl⟩ :=
    compile_eq_ok.mp compiled
  have register : (Plan.Parts.mk lowering padded choice blend).plan.shape = shape :=
    (Target.resolved_of_resolve lowered).shape_eq
  have leads := choosePermute_leads (padded.readings_ordered element.width widen) moved
  rw [register]
  exact ⟨padded, _, choice, found, made, candidates_eq padded element.width widen, leads,
    fun _ => leads.unique, rfl, rfl, rfl⟩

/-- Two halves of four dwords swap as dwords or as qwords at one cost, and qwords are preferred. -/
theorem Stage.permute_leads_of_compile_halves :
    ∃ plan, Stage.compile ⟨[2, 3, 0, 1], 4⟩ ⟨.b4, false⟩ (.ofTier .avx2) true = .ok plan ∧
      ∃ choice narrow : PermuteChoice, plan.permute = choice.permute ∧
        plan.permuteUnit = .b8 ∧ narrow.row.unit = .b4 ∧
          narrow.Among (.ofTier .avx2) .xmm [⟨.b4, ⟨[2, 3, 0, 1], 4⟩⟩, ⟨.b8, ⟨[1, 0], 2⟩⟩] ∧
            narrow.permute.cost = choice.permute.cost ∧ choice.Precedes .xmm narrow := by
  -- The permute of four dwords is shown to be among those tried, at the same cost.
  refine ⟨_, rfl, ?_⟩
  obtain ⟨padded, candidates, choice, _, made, listed, leads, _, permute, unit, _⟩ :=
    Stage.permute_leads_of_compile ⟨[2, 3, 0, 1], 4⟩ ⟨.b4, false⟩ (.ofTier .avx2) true _ rfl
  cases made
  cases listed
  have among : PermuteChoice.Among
      ⟨⟨.dwordImmediate, .b4, Shape.needs .xmm [.sse2] [.avx2] [.avx512f]⟩, .dwords swapImmediate⟩
      (.ofTier .avx2) .xmm [⟨.b4, ⟨[2, 3, 0, 1], 4⟩⟩, ⟨.b8, ⟨[1, 0], 2⟩⟩] :=
    ⟨⟨.b4, ⟨[2, 3, 0, 1], 4⟩⟩, by decide, by decide, by decide, rfl⟩
  refine ⟨choice, _, permute, rfl, rfl, among, by rw [← permute]; rfl, leads.precedes _ among ?_⟩
  -- The choice that leads is one of qwords.
  rintro rfl
  cases unit

end SimdNetwork
