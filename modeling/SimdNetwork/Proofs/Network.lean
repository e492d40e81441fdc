import SimdNetwork.Network
import SimdNetwork.Proofs.Stage.Exchange

/-! Networks as they are made: valid stages that all use one number of lanes. -/

namespace SimdNetwork

/-- The two ways of making a network. -/
inductive Network.Built : Network → Prop where
  /-- From valid stages. -/
  | fromStages {size : Nat} {stages : List Stage} {network : Network}
      (valid : ∀ stage ∈ stages, stage.Valid) (made : ofStages size stages = .ok network) :
      network.Built
  /-- From one list in which all stages are written. -/
  | fromFlat {size lanes : Nat} {flat : List Nat} {network : Network}
      (made : ofFlat size lanes flat = .ok network) : network.Built

/-- A stage of a network of the given size. -/
structure Stage.Suits (stage : Stage) (size : Nat) : Prop where
  /-- The stage is valid. -/
  valid : stage.Valid
  /-- It uses as many lanes as the network has values. -/
  used_eq : stage.used = size

/-- A network of given stages has just these stages, all of its own size. -/
theorem Network.ofStages_eq_ok {size : Nat} {stages : List Stage} {network : Network} :
    ofStages size stages = .ok network ↔
      (∀ stage ∈ stages, stage.used = size) ∧ network = ⟨size, stages⟩ := by
  -- A network is refused for the first stage of another size, if there is one.
  rw [ofStages]
  split
  · rename_i stage found
    -- The stage that was found is one of another size.
    have differs := List.find?_some found
    have listed := List.mem_of_find?_eq_some found
    simp only [reduceCtorEq, false_iff, not_and]
    intro same
    exact absurd (same stage listed) (by simpa using differs)
  · rename_i none_found
    have same : ∀ stage ∈ stages, stage.used = size := by
      simpa using List.find?_eq_none.mp none_found
    simp only [Except.ok.injEq]
    constructor
    · rintro rfl
      exact ⟨same, rfl⟩
    · rintro ⟨_, rfl⟩
      rfl

/-- Every stage of a network suits it, however the network was made. -/
theorem Network.Built.suits {network : Network} (built : network.Built) :
    ∀ stage ∈ network.stages, stage.Suits network.size := by
  -- Both ways of making a network end in the same comparison of sizes.
  cases built with
  | fromStages valid made =>
    obtain ⟨same, rfl⟩ := ofStages_eq_ok.mp made
    intro stage listed
    exact ⟨valid stage listed, same stage listed⟩
  | fromFlat made =>
    rw [ofFlat] at made
    split at made
    · simp at made
    · -- Each written stage passed the check before the stages were put together.
      obtain ⟨stages, written, gathered⟩ := bind_eq_ok.mp made
      obtain ⟨same, rfl⟩ := ofStages_eq_ok.mp gathered
      intro stage listed
      obtain ⟨chunk, _, passed⟩ := (mapM_eq_ok_mem written).mp listed
      exact ⟨Stage.valid_of_ofWritten passed, same stage listed⟩

end SimdNetwork
