import SimdNetwork.Stage.Coarsen

/-! Checking written partners lane by lane, with a table of marks and every reading guarded. -/

namespace SimdNetwork

/-- What stands at a place of a list, which must have that place. -/
def readAt {α : Type} (list : List α) (place : Nat) : Except Fault α :=
  match list[place]? with
  | some entry => .ok entry
  | none => .error .outOfRange

/-- A list of partners refused for a flaw. -/
def refuseFlaw {α : Type} (flaw : Flaw) : Except Failure α := .error (.refused (.invalid flaw))

namespace Stage

/-- The partner of a lane, partners being written highest lane first. -/
def writtenPartner (written : List Nat) (lane : Nat) : Except Fault Nat := do
  let last ← below written.length 1
  let place ← below last lane
  readAt written place

/-- The lanes are paired with used lanes that are not marked yet, and mark them one by one. -/
def checkMarks (written : List Nat) (used : Nat) :
    (lanes : List Nat) → (marks : List Bool) → Except Failure Unit
  | [], _ => .ok ()
  | lane :: rest, marks => do
    let partner ← orFault (writtenPartner written lane)
    if used ≤ partner then refuseFlaw (.readsPadding lane partner used)
    else if ← orFault (readAt marks partner) then refuseFlaw (.sharedPartner partner)
    else checkMarks written used rest (marks.set partner true)

/--
Whether partners written highest lane first make a stage with so many used lanes.

Every entry is read where it is written, and the partners of the used lanes are marked in a table.
-/
def validate (written : List Nat) (used : Nat) : Except Failure Unit :=
  let lanes := written.length
  if lanes = 0 then refuseFlaw .noLanes
  else if used = 0 ∨ lanes < used then refuseFlaw (.usedOutside used lanes)
  else match written.findIdx? (lanes ≤ ·) with
    | some position => do
      let index ← orFault (readAt written position)
      refuseFlaw (.indexOutside index position lanes)
    | none => checkMarks written used (List.range used) (List.replicate used false)

end Stage

end SimdNetwork
