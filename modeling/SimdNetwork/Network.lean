import SimdNetwork.Block
import SimdNetwork.Stage.Exchange

/-! Networks: stages of one size, run one after another. -/

namespace SimdNetwork

/-- A list of stages that all use the same number of lanes. -/
structure Network where
  /-- How many values the network works on. -/
  size : Nat
  /-- The stages in the order they run. -/
  stages : List Stage
  deriving DecidableEq, Repr

namespace Network

/-- The network of the given stages. -/
def ofStages (size : Nat) (stages : List Stage) : Except Flaw Network :=
  match stages.find? fun stage => stage.used ≠ size with
  | some stage => .error (.mixedSizes stage.used size)
  | none => .ok ⟨size, stages⟩

/-- The network whose stages are written one after another in one list. -/
def ofFlat (size lanes : Nat) (flat : List Nat) : Except Flaw Network :=
  if lanes = 0 ∨ flat.length % lanes ≠ 0 then .error (.ragged flat.length lanes)
  else (chunks lanes flat).mapM (Stage.ofWritten · size) >>= ofStages size

/-- How many stages the network has. -/
def depth (network : Network) : Nat := network.stages.length

/-- The values after every stage has run on them. -/
def exchange {α : Type} [Min α] [Max α] (network : Network) (values : List α) :
    Except Fault (List α) :=
  network.stages.foldlM (fun current stage => stage.exchange current) values

end Network

end SimdNetwork
