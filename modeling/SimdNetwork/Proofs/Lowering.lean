import SimdNetwork.Lowering
import SimdNetwork.Proofs.Outcome

/-!
When a target can be lowered to, what a refusal says that it lacks, and that more usable features
never take a lowering away.
-/

namespace SimdNetwork

/-- What a resolved lowering records about its target. -/
structure Lowering.Resolved (lowering : Lowering) (target : Target) (shape : Shape)
    (element : Element) : Prop where
  /-- The lowering is for the register that was asked for. -/
  shape_eq : lowering.shape = shape
  /-- The target has the register. -/
  register : target.supports shape.requires = true
  /-- The first way of comparing that the target can run was taken. -/
  compare_eq : (compareTable shape element).find? (fun row => target.supports row.requires) =
    some lowering.compare
  /-- All blends that the target can run are listed. -/
  blends_eq : lowering.blends = target.blends shape element.width
  /-- One of the blends expresses every selector. -/
  blend_complete : ∃ row ∈ target.blends shape element.width, row.isComplete shape = true
  /-- One of the permutes realises every route. -/
  permute_complete : ∃ row ∈ target.permutes shape element.width, row.isComplete shape = true
  /-- The lowering is for the element type that was asked for. -/
  element_eq : lowering.element = element

/-- What each row that would provide a primitive needs. -/
def Primitive.requirements (shape : Shape) (element : Element) : Primitive → List FeatureSet
  | .register own => [own.requires]
  | .compare => (compareTable shape element).map CompareRow.requires
  | .blend => ((blendTable shape element.width).filter (·.isComplete shape)).map BlendRow.requires
  | .crossLane | .laneLocal =>
    ((permuteTable shape element.width).filter (·.isComplete shape)).map PermuteRow.requires
  | .named _ => []

/-- The primitives that a stage in the register is lowered to. -/
def Shape.primitives (shape : Shape) : List Primitive :=
  [.register shape, .compare, .blend, if 1 < shape.groups then .crossLane else .laneLocal]

/-- Rows that the target can run, one of them complete, are complete rows, one of them supported. -/
theorem any_supported {Row : Type} (table : List Row) (requires : Row → FeatureSet)
    (complete : Row → Bool) (target : Target) :
    (table.filter fun row => target.supports (requires row)).any complete =
      ((table.filter complete).map requires).any target.supports := by
  -- Being runnable and being complete are asked of one row, in either order.
  rw [List.any_map, List.any_filter, List.any_filter]
  exact congrArg (List.any table) (funext fun row => Bool.and_comm _ _)

namespace Target

/-- Whether the target supports a row that provides the primitive. -/
def provides (target : Target) (shape : Shape) (element : Element) (primitive : Primitive) : Bool :=
  (primitive.requirements shape element).any target.supports

/-- The primitives that the target does not provide in the register. -/
def lacking (target : Target) (shape : Shape) (element : Element) : List Primitive :=
  shape.primitives.filter fun primitive => !target.provides shape element primitive

/-- A primitive is lacking when the register needs it and the target does not provide it. -/
theorem mem_lacking {target : Target} {shape : Shape} {element : Element} {primitive : Primitive} :
    primitive ∈ target.lacking shape element ↔
      primitive ∈ shape.primitives ∧ target.provides shape element primitive = false := by
  -- What is lacking was filtered from what the register needs.
  rw [lacking, List.mem_filter, Bool.not_eq_true']

variable {target poor rich : Target} {shape : Shape} {element : Element}

/-- A successful lowering has a usable row of every kind, and a complete one where it matters. -/
theorem resolved_of_resolve {lowering : Lowering}
    (resolved : target.resolve shape element = .ok lowering) :
    lowering.Resolved target shape element := by
  -- A lowering is put together from four parts, and fails as soon as one of them does.
  unfold resolve at resolved
  obtain ⟨_, register, rest⟩ := bind_eq_ok.mp resolved
  obtain ⟨compare, compared, rest⟩ := bind_eq_ok.mp rest
  obtain ⟨blends, blended, rest⟩ := bind_eq_ok.mp rest
  obtain ⟨permutes, permuted, rest⟩ := bind_eq_ok.mp rest
  -- Each part succeeded, so each part's own test passed.
  unfold resolveRegister at register
  split at register
  · rename_i held
    unfold resolveCompare at compared
    split at compared
    · rename_i row found
      unfold resolveBlends at blended
      split at blended
      · rename_i blendComplete
        unfold resolvePermutes at permuted
        split at permuted
        · rename_i permuteComplete
          cases rest
          cases compared
          cases blended
          exact ⟨rfl, held, found, rfl, List.any_eq_true.mp blendComplete,
            List.any_eq_true.mp permuteComplete, rfl⟩
        · cases permuted
      · cases blended
    · cases compared
  · cases register

/-- A target that has the register and a usable row of every kind can be lowered to. -/
theorem exists_resolve (register : target.supports shape.requires = true)
    (compare : ∃ row ∈ compareTable shape element, target.supports row.requires = true)
    (blend : ∃ row ∈ target.blends shape element.width, row.isComplete shape = true)
    (permute : ∃ row ∈ target.permutes shape element.width, row.isComplete shape = true) :
    ∃ lowering, target.resolve shape element = .ok lowering := by
  -- Every part of the lowering has its test passed by one of the given rows.
  cases found : (compareTable shape element).find? fun row => target.supports row.requires with
  | none =>
    -- A usable row stops the search before it comes to nothing.
    obtain ⟨row, listed, usable⟩ := compare
    exact absurd usable (List.find?_eq_none.mp found row listed)
  | some row =>
    refine ⟨⟨shape, element, target.permutes shape element.width, row,
      target.blends shape element.width⟩, ?_⟩
    have compared : target.resolveCompare shape element = .ok row := by
      simp only [resolveCompare, found]
    rw [resolve, resolveRegister, if_pos register, ok_bind, compared, ok_bind, resolveBlends,
      if_pos (List.any_eq_true.mpr blend), ok_bind, resolvePermutes,
      if_pos (List.any_eq_true.mpr permute), ok_bind]

/--
A target that cannot be lowered to lacks some primitive, which the error names.

It also lists what is missing of the row that the target comes closest to.
-/
theorem resolve_eq_error {error : CompileError}
    (failed : target.resolve shape element = .error error) :
    ∃ primitive ∈ target.lacking shape element, error = .unsupported primitive
      (target.closestMissing (primitive.requirements shape element)).toList := by
  -- The first part that fails decides, and its test is the one for its own primitive.
  unfold resolve at failed
  rcases bind_eq_error.mp failed with register | ⟨_, _, failed⟩
  · -- The register is there or lacking as a whole.
    unfold resolveRegister at register
    split at register
    · cases register
    · rename_i lacked
      cases register
      refine ⟨.register shape, mem_lacking.mpr ⟨by simp [Shape.primitives], ?_⟩, rfl⟩
      simpa [provides, Primitive.requirements] using lacked
  rcases bind_eq_error.mp failed with compared | ⟨_, _, failed⟩
  · -- One usable row is enough to compare.
    unfold resolveCompare at compared
    split at compared
    · cases compared
    · rename_i lacked
      cases compared
      refine ⟨.compare, mem_lacking.mpr ⟨by simp [Shape.primitives], ?_⟩, rfl⟩
      simpa [provides, Primitive.requirements] using lacked
  rcases bind_eq_error.mp failed with blended | ⟨_, _, failed⟩
  · -- Blends are lacking until one of the usable rows is complete.
    unfold resolveBlends at blended
    split at blended
    · cases blended
    · rename_i lacked
      cases blended
      rw [blends, any_supported, Bool.not_eq_true] at lacked
      exact ⟨.blend, mem_lacking.mpr ⟨by simp [Shape.primitives], lacked⟩, rfl⟩
  rcases bind_eq_error.mp failed with permuted | ⟨_, _, failed⟩
  · unfold resolvePermutes at permuted
    split at permuted
    · cases permuted
    · rename_i lacked
      cases permuted
      rw [permutes, any_supported, Bool.not_eq_true] at lacked
      refine ⟨if 1 < shape.groups then .crossLane else .laneLocal,
        mem_lacking.mpr ⟨by simp [Shape.primitives], ?_⟩, ?_⟩
      -- The permute is called by the register it is for, and its rows are the same either way.
      · split <;> exact lacked
      · split <;> rfl
  · cases failed

section More

variable (wider : rich.usable.covers poor.usable = true)
include wider

/-- A target with more usable features supports whatever the poorer one does. -/
theorem supports_mono {needed : FeatureSet} (supported : poor.supports needed = true) :
    rich.supports needed = true := by
  -- A needed feature is usable for the poorer target, and so for the richer one.
  rw [supports, FeatureSet.covers_iff] at supported ⊢
  intro feature held
  exact (FeatureSet.covers_iff _ _).mp wider feature (supported feature held)

/-- A richer target can run every permute that the poorer one can. -/
theorem permutes_mono {unit : Width} {row : PermuteRow} (usable : row ∈ poor.permutes shape unit) :
    row ∈ rich.permutes shape unit := by
  -- The table is the same, and a row of it stays usable.
  rw [permutes, List.mem_filter] at usable ⊢
  exact ⟨usable.1, supports_mono wider usable.2⟩

/-- A richer target can run every blend that the poorer one can. -/
theorem blends_mono {width : Width} {row : BlendRow} (usable : row ∈ poor.blends shape width) :
    row ∈ rich.blends shape width := by
  -- As with permutes, both targets filter one table.
  rw [blends, List.mem_filter] at usable ⊢
  exact ⟨usable.1, supports_mono wider usable.2⟩

/-- A richer target can be lowered to whenever the poorer one can. -/
theorem resolve_mono {lowering : Lowering} (resolved : lowering.Resolved poor shape element) :
    ∃ better, rich.resolve shape element = .ok better := by
  -- The rows that served the poorer target are there for the richer one as well.
  obtain ⟨blend, blendUsable, blendComplete⟩ := resolved.blend_complete
  obtain ⟨permute, permuteUsable, permuteComplete⟩ := resolved.permute_complete
  have comparable := List.find?_some resolved.compare_eq
  exact exists_resolve (supports_mono wider resolved.register)
    ⟨_, List.mem_of_find?_eq_some resolved.compare_eq, supports_mono wider comparable⟩
    ⟨blend, blends_mono wider blendUsable, blendComplete⟩
    ⟨permute, permutes_mono wider permuteUsable, permuteComplete⟩

end More

end Target

end SimdNetwork
