import SimdNetwork.Stage

/-! What a stage does to the values in its lanes. -/

namespace SimdNetwork

/-- The value that a lane holds after the exchange. -/
def Stage.exchangeLane {α : Type} [Min α] [Max α] (stage : Stage) (values : List α) (lane : Nat) :
    Except Fault α := do
  let partner ← stage.partner lane
  match values[lane]?, values[partner]? with
  | some own, some other =>
    match Side.ofPair lane partner with
    | .low => .ok (min own other)
    | .high => .ok (max own other)
  | _, _ => .error .outOfRange

/-- Every lane keeps the smaller or the larger of its own value and its partner's. -/
def Stage.exchange {α : Type} [Min α] [Max α] (stage : Stage) (values : List α) :
    Except Fault (List α) :=
  if values.length ≠ stage.used then .error .stageSize
  else (List.range values.length).mapM (stage.exchangeLane values)

end SimdNetwork
