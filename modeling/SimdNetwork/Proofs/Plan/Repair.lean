import SimdNetwork.Proofs.Plan.Compile

/-! What a target is told that it lacks is enough to go on. -/

namespace SimdNetwork

/-- Each primitive of a register has a row that provides it. -/
theorem Shape.requirements_ne_nil {shape : Shape} {primitive : Primitive}
    (used : primitive ∈ shape.primitives) (element : Element) :
    primitive.requirements shape element ≠ [] := by
  -- Every table that a primitive is looked up in is inspected.
  revert primitive
  obtain ⟨width, signed⟩ := element
  cases shape <;> cases width <;> cases signed <;> decide

namespace Target

/-- A repair makes all missing features present and declares a tier that allows them. -/
structure Repairs (before : Target) (missing : List Feature) (after : Target) : Prop where
  /-- The missing features are added to those present, and no others. -/
  present_eq : after.present = (missing.foldl insert before).present
  /-- The declared tier does not fall. -/
  tier_le : before.tier ≤ after.tier
  /-- The declared tier allows every feature that was missing. -/
  allows : ∀ feature ∈ missing, feature.tier ≤ after.tier

section Closest

variable {target : Target} {requirements : List FeatureSet}

/-- The closest requirement is one of those asked for. -/
theorem closestMissing_eq (target : Target) (some_listed : requirements ≠ []) :
    ∃ needed ∈ requirements,
      target.closestMissing requirements = needed.missing target.usable := by
  -- The least of what is missing is missing from one of the requirements.
  unfold closestMissing
  cases found : firstLeast? FeatureSet.size (requirements.map (·.missing target.usable)) with
  | none =>
    rw [firstLeast?_eq_none_iff, List.map_eq_nil_iff] at found
    exact absurd found some_listed
  | some least =>
    obtain ⟨needed, listed, same⟩ := List.mem_map.mp (mem_of_firstLeast? found)
    exact ⟨needed, listed, same.symm⟩

/-- What is not supported has a missing feature. -/
theorem missing_ne_nil {needed : FeatureSet} (lacked : target.supports needed = false) :
    (needed.missing target.usable).toList ≠ [] := by
  -- With nothing missing the requirement would be covered.
  intro none_missing
  have covered : target.supports needed = true := by
    rw [supports, FeatureSet.covers_iff]
    intro feature held
    cases usable : target.usable.contains feature with
    | true => rfl
    | false =>
      have member : feature ∈ (needed.missing target.usable).toList := by simp [held, usable]
      rw [none_missing] at member
      cases member
  rw [covered] at lacked
  cases lacked

end Closest

section Refusal

variable {target : Target} {shape : Shape} {element : Element}
variable {primitive : Primitive} {missing : List Feature}

/-- A refusal names a primitive that is lacking, and all that the target lacks of one row for it. -/
theorem missing_of_resolve
    (failed : target.resolve shape element = .error (.unsupported primitive missing)) :
    primitive ∈ target.lacking shape element ∧
      ∃ needed ∈ primitive.requirements shape element, target.supports needed = false ∧
        missing = (needed.missing target.usable).toList := by
  -- The refusal reports the closest of the rows, none of which is supported.
  obtain ⟨own, lacked, same⟩ := resolve_eq_error failed
  cases same
  obtain ⟨used, unprovided⟩ := mem_lacking.mp lacked
  obtain ⟨needed, listed, closest⟩ :=
    target.closestMissing_eq (Shape.requirements_ne_nil used element)
  have unsupported := List.any_eq_false.mp unprovided needed listed
  exact ⟨lacked, needed, listed, Bool.eq_false_iff.mpr unsupported, by rw [closest]⟩

end Refusal

section Repair

variable {before after later : Target} {missing : List Feature}

/-- Features added one by one are present besides those that were. -/
theorem contains_foldl_insert (features : List Feature) (target : Target) (feature : Feature) :
    (features.foldl insert target).present.contains feature = true ↔
      target.present.contains feature = true ∨ feature ∈ features := by
  -- Each feature joins the target that the rest is added to.
  induction features generalizing target with
  | nil => simp
  | cons first rest ih =>
    rw [List.foldl_cons, ih, insert, FeatureSet.contains_insert, Bool.or_eq_true, beq_iff_eq,
      List.mem_cons, or_comm (a := feature = first), or_assoc]

/-- After a repair all that was usable still is, and so is all that was missing. -/
theorem Repairs.usable (repair : before.Repairs missing after) {feature : Feature}
    (had : before.usable.contains feature = true ∨ feature ∈ missing) :
    after.usable.contains feature = true := by
  -- A feature is usable when it is present and allowed, and the repair sees to both.
  rw [contains_usable, repair.present_eq, contains_foldl_insert]
  rcases had with usable | missed
  · obtain ⟨present, allowed⟩ := (contains_usable _ _).mp usable
    exact ⟨.inl present, Nat.le_trans allowed repair.tier_le⟩
  · exact ⟨.inr missed, repair.allows feature missed⟩

/-- A repair takes no usable feature away. -/
theorem Repairs.covers (repair : before.Repairs missing after) :
    after.usable.covers before.usable = true :=
  -- All that was usable is present still, and the tier does not fall.
  (FeatureSet.covers_iff _ _).mpr fun _ usable => repair.usable (.inl usable)

/-- A repair of all that a requirement lacks supports the requirement. -/
theorem Repairs.supports {needed : FeatureSet}
    (repair : before.Repairs (needed.missing before.usable).toList after) :
    after.supports needed = true := by
  rw [Target.supports, FeatureSet.covers_iff]
  intro feature held
  -- What was usable already was not reported, and all the rest was.
  cases had : before.usable.contains feature with
  | true => exact repair.usable (.inl had)
  | false => exact repair.usable (.inr (by simp [held, had]))

/-- Every list of missing features can be repaired. -/
theorem exists_repairs (target : Target) (missing : List Feature) :
    ∃ after, target.Repairs missing after := by
  -- The highest tier allows every feature.
  have highest : ∀ tier : Tier, tier ≤ .avx512 := by
    intro tier
    cases tier <;> decide
  exact ⟨⟨.avx512, (missing.foldl insert target).present⟩, rfl, highest _, fun _ _ => highest _⟩

/-- A target with more usable features provides whatever the poorer one does. -/
theorem provides_mono (wider : later.usable.covers before.usable = true) {shape : Shape}
    {element : Element} {primitive : Primitive}
    (provided : before.provides shape element primitive = true) :
    later.provides shape element primitive = true := by
  -- The row that provides the primitive is supported by the richer target too.
  obtain ⟨needed, listed, supported⟩ := List.any_eq_true.mp provided
  exact List.any_eq_true.mpr ⟨needed, listed, supports_mono wider supported⟩

section Refused

variable {shape : Shape} {element : Element} {primitive : Primitive}
variable (failed : before.resolve shape element = .error (.unsupported primitive missing))
variable (repair : before.Repairs missing after)
include failed repair

/-- A repair of what a refusal reports provides the primitive that it names. -/
theorem Repairs.provides : after.provides shape element primitive = true := by
  -- The row that was closest now has all it needs.
  obtain ⟨_, needed, listed, _, rfl⟩ := missing_of_resolve failed
  exact List.any_eq_true.mpr ⟨needed, listed, repair.supports⟩

/-- With at least the features of the repaired target the primitive is not refused again. -/
theorem Repairs.resolve_ne (wider : later.usable.covers after.usable = true)
    (others : List Feature) :
    later.resolve shape element ≠ .error (.unsupported primitive others) := by
  -- A refusal would name a primitive that is lacking, but this one is provided.
  intro again
  have provided := provides_mono wider (repair.provides failed)
  have lacked := (mem_lacking.mp (missing_of_resolve again).1).2
  rw [provided] at lacked
  cases lacked

/-- A repair makes the list of lacking primitives shorter. -/
theorem Repairs.lacking_lt :
    (after.lacking shape element).length < (before.lacking shape element).length := by
  -- What is lacking after the repair was lacking before it, and the reported primitive is not.
  have kept : after.lacking shape element = (before.lacking shape element).filter
      fun primitive => !after.provides shape element primitive := by
    rw [lacking, lacking, List.filter_filter]
    refine List.filter_congr fun other _ => ?_
    cases provided : before.provides shape element other with
    | true => rw [provides_mono repair.covers provided]; rfl
    | false => simp
  rw [kept, List.length_filter_lt_length_iff_exists]
  refine ⟨primitive, (missing_of_resolve failed).1, ?_⟩
  rw [repair.provides failed]
  decide

end Refused

/--
Targets that are repaired as they are refused can be lowered to in the end.

This takes at most as many rounds as there are primitives lacking at the start.
-/
theorem exists_resolve_of_repairs {shape : Shape} {element : Element} {targets : Nat → Target}
    (repaired : ∀ round primitive missing,
      (targets round).resolve shape element = .error (.unsupported primitive missing) →
        (targets round).Repairs missing (targets (round + 1)))
    (count start : Nat) (few : ((targets start).lacking shape element).length ≤ count) :
    ∃ rounds ≤ count, ∃ lowering,
      (targets (start + rounds)).resolve shape element = .ok lowering := by
  -- A round that is refused leaves fewer primitives lacking.
  have progress : ∀ round, (∃ lowering, (targets round).resolve shape element = .ok lowering) ∨
      ((targets (round + 1)).lacking shape element).length <
        ((targets round).lacking shape element).length := by
    intro round
    cases lowered : (targets round).resolve shape element with
    | ok lowering => exact .inl ⟨lowering, rfl⟩
    | error problem =>
      obtain ⟨primitive, _, rfl⟩ := resolve_eq_error lowered
      exact .inr ((repaired round primitive _ lowered).lacking_lt lowered)
  -- The induction is on the primitives that may still be lacking, from whatever round on.
  induction count generalizing start with
  -- With nothing lacking no round can leave less, so the first one succeeds.
  | zero =>
    rcases progress start with lowered | shorter
    · exact ⟨0, Nat.le_refl _, lowered⟩
    · omega
  | succ count ih =>
    rcases progress start with lowered | shorter
    · exact ⟨0, Nat.zero_le _, lowered⟩
    · obtain ⟨rounds, within, lowered⟩ := ih (start + 1) (by omega)
      rw [Nat.add_assoc, Nat.add_comm 1] at lowered
      exact ⟨rounds + 1, by omega, lowered⟩

end Repair

end Target

/--
Refusals can be repaired as they are reported.

A valid stage that some register holds is refused only for features that the target cannot use, at
least one of them. Once these are all present and allowed, the stage is never again refused for the
same primitive, whatever features join them. There are four primitives, so repairing refusal after
refusal comes to a plan within four rounds.
-/
theorem Stage.compile_of_repairs (stage : Stage) (element : Element) (widen : Bool)
    (valid : stage.Valid) (small : stage.lanes * element.bytes ≤ 64) :
    (∀ (target : Target) (primitive : Primitive) (missing : List Feature),
      stage.compile element target widen = .error (.refused (.unsupported primitive missing)) →
      missing ≠ [] ∧ (∀ feature ∈ missing, target.usable.contains feature = false) ∧
      (∃ repaired, target.Repairs missing repaired) ∧
      ∀ repaired later : Target, target.Repairs missing repaired →
        later.usable.covers repaired.usable = true → ∀ others,
          stage.compile element later widen ≠
            .error (.refused (.unsupported primitive others))) ∧
    ∀ targets : Nat → Target,
      (∀ round primitive missing, stage.compile element (targets round) widen =
          .error (.refused (.unsupported primitive missing)) →
        (targets round).Repairs missing (targets (round + 1))) →
      ∃ rounds ≤ 4, ∃ plan, stage.compile element (targets rounds) widen = .ok plan := by
  -- All is said of the lowering, since the register is settled by the stage.
  obtain ⟨shape, found⟩ : ∃ shape, stage.shapeFor element = .ok shape := exists_shapeFor small
  -- Only the lowering can be refused for features.
  have refused : ∀ {target : Target} {primitive : Primitive} {missing : List Feature},
      stage.compile element target widen = .error (.refused (.unsupported primitive missing)) ↔
        target.resolve shape element = .error (.unsupported primitive missing) := by
    intro target primitive missing
    cases lowered : target.resolve shape element with
    | ok lowering =>
      obtain ⟨plan, compiled⟩ : ∃ plan, stage.compile element target widen = .ok plan :=
        exists_compile valid found lowered
      simp [compiled]
    | error problem => simp [compile_of_resolve found lowered]
  refine ⟨?_, ?_⟩
  · intro target primitive missing failed
    rw [refused] at failed
    obtain ⟨_, needed, _, lacked, reported⟩ := Target.missing_of_resolve failed
    refine ⟨?_, ?_, target.exists_repairs missing, ?_⟩
    · rw [reported]
      exact Target.missing_ne_nil lacked
    · intro feature member
      rw [reported, FeatureSet.mem_toList, FeatureSet.contains_missing, Bool.and_eq_true,
        Bool.not_eq_true'] at member
      exact member.2
    · intro repaired later repair wider others again
      exact repair.resolve_ne failed wider others (refused.mp again)
  · -- No more than the four primitives of a register can be lacking at the start.
    intro targets repaired
    have few : ((targets 0).lacking shape element).length ≤ 4 := List.length_filter_le _ _
    obtain ⟨rounds, within, lowering, lowered⟩ := Target.exists_resolve_of_repairs
      (fun round primitive missing failed => repaired round primitive missing (refused.mpr failed))
      4 0 few
    rw [Nat.zero_add] at lowered
    exact ⟨rounds, within, exists_compile valid found lowered⟩

/--
Three qwords are repaired twice on hardware that has only the feature of their register.

The declared tier hides that feature at first. Once the tier is raised the compare is still refused,
and its feature is the last one missing.
-/
theorem Stage.compile_of_repairs_three_qwords :
    Stage.Valid ⟨[1, 0, 2], 3⟩ ∧ Stage.lanes ⟨[1, 0, 2], 3⟩ * Element.bytes ⟨.b8, true⟩ ≤ 64 ∧
    Stage.compile ⟨[1, 0, 2], 3⟩ ⟨.b8, true⟩ ⟨.sse4, .ofList [.avx]⟩ true =
      .error (.refused (.unsupported (.register .ymm) [.avx])) ∧
    Target.Repairs ⟨.sse4, .ofList [.avx]⟩ [.avx] ⟨.avx2, .ofList [.avx]⟩ ∧
    Stage.compile ⟨[1, 0, 2], 3⟩ ⟨.b8, true⟩ ⟨.avx2, .ofList [.avx]⟩ true =
      .error (.refused (.unsupported .compare [.avx2])) ∧
    Target.Repairs ⟨.avx2, .ofList [.avx]⟩ [.avx2] ⟨.avx2, .ofList [.avx, .avx2]⟩ ∧
    (∀ others, Stage.compile ⟨[1, 0, 2], 3⟩ ⟨.b8, true⟩ (.ofTier .avx2) true ≠
      .error (.refused (.unsupported .compare others))) ∧
    ∃ rounds ≤ 4, ∃ plan, Stage.compile ⟨[1, 0, 2], 3⟩ ⟨.b8, true⟩
      ([⟨.sse4, .ofList [.avx]⟩, ⟨.avx2, .ofList [.avx]⟩].getD rounds
        ⟨.avx2, .ofList [.avx, .avx2]⟩) true = .ok plan := by
  -- Both refusals are computed, and both repairs are checked against what was reported.
  have valid : Stage.Valid ⟨[1, 0, 2], 3⟩ := by decide
  have small : Stage.lanes ⟨[1, 0, 2], 3⟩ * Element.bytes ⟨.b8, true⟩ ≤ 64 := by decide
  have found : Stage.shapeFor ⟨[1, 0, 2], 3⟩ ⟨.b8, true⟩ = .ok .ymm := rfl
  have hidden : Stage.compile ⟨[1, 0, 2], 3⟩ ⟨.b8, true⟩ ⟨.sse4, .ofList [.avx]⟩ true =
      .error (.refused (.unsupported (.register .ymm) [.avx])) := compile_of_resolve found rfl
  have absent : Stage.compile ⟨[1, 0, 2], 3⟩ ⟨.b8, true⟩ ⟨.avx2, .ofList [.avx]⟩ true =
      .error (.refused (.unsupported .compare [.avx2])) := compile_of_resolve found rfl
  -- The first repair raises the tier only, and the second one adds a feature only.
  have raised : Target.Repairs ⟨.sse4, .ofList [.avx]⟩ [.avx] ⟨.avx2, .ofList [.avx]⟩ :=
    ⟨by decide, by decide, by decide⟩
  have added : Target.Repairs ⟨.avx2, .ofList [.avx]⟩ [.avx2] ⟨.avx2, .ofList [.avx, .avx2]⟩ :=
    ⟨by decide, by decide, by decide⟩
  obtain ⟨plan, compiled⟩ : ∃ plan, Stage.compile ⟨[1, 0, 2], 3⟩ ⟨.b8, true⟩
      ⟨.avx2, .ofList [.avx, .avx2]⟩ true = .ok plan := exists_compile valid found rfl
  have repairable := compile_of_repairs ⟨[1, 0, 2], 3⟩ ⟨.b8, true⟩ true valid small
  refine ⟨valid, small, hidden, raised, absent, added, ?_, ?_⟩
  · exact (repairable.1 _ _ _ absent).2.2.2 _ (.ofTier .avx2) added (by decide)
  · apply repairable.2 fun round =>
      ([⟨.sse4, .ofList [.avx]⟩, ⟨.avx2, .ofList [.avx]⟩] : List Target).getD round
        ⟨.avx2, .ofList [.avx, .avx2]⟩
    intro round primitive missing failed
    -- The first two rounds are refused as said above, and all others compile.
    rcases round with _ | _ | round
    · rw [List.getD_cons_zero, hidden] at failed
      cases failed
      exact raised
    · rw [List.getD_cons_succ, List.getD_cons_zero, absent] at failed
      cases failed
      exact added
    · rw [List.getD_cons_succ, List.getD_cons_succ, List.getD_nil, compiled] at failed
      cases failed

end SimdNetwork
