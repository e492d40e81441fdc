import SimdNetwork.Bits
import SimdNetwork.Error

/-! Compare-exchange stages: a partner for every lane, of which the first few lanes are used. -/

namespace SimdNetwork

/-- Which value of its pair a lane keeps. -/
inductive Side where
  /-- The smaller one. -/
  | low
  /-- The larger one. -/
  | high
  deriving DecidableEq, Repr

/-- A lane keeps the smaller value when its partner is a later lane. -/
def Side.ofPair (lane partner : Nat) : Side := if lane < partner then .low else .high

/-- The partner of a lane, partners being listed lane zero first. -/
def partnerAmong (partners : List Nat) (lane : Nat) : Except Fault Nat :=
  match partners[lane]? with
  | some partner => .ok partner
  | none => .error .outOfRange

/-- The side of a lane, partners being listed lane zero first. -/
def Side.among (partners : List Nat) (lane : Nat) : Except Fault Side :=
  (partnerAmong partners lane).map (Side.ofPair lane)

/--
A compare-exchange stage.

Lanes at or above the used size are padding: their partners are only required to exist.
-/
structure Stage where
  /-- The partner of each lane, lane zero first. -/
  partners : List Nat
  /-- How many lanes carry values. -/
  used : Nat
  deriving DecidableEq, Repr

namespace Stage

/-- The used lanes are paired among themselves, each of them once. -/
def checkPairs (used : Nat) : (lane : Nat) → (seen : List Nat) → List Nat → Except Flaw Unit
  | _, _, [] => .ok ()
  | lane, seen, partner :: rest =>
    if used ≤ partner then .error (.readsPadding lane partner used)
    else if partner ∈ seen then .error (.sharedPartner partner)
    else checkPairs used (lane + 1) (partner :: seen) rest

/-- Whether partners written highest lane first make a stage with so many used lanes. -/
def check (written : List Nat) (used : Nat) : Except Flaw Unit :=
  let lanes := written.length
  if lanes = 0 then .error .noLanes
  else if used = 0 ∨ lanes < used then .error (.usedOutside used lanes)
  else match written.zipIdx.find? fun entry => lanes ≤ entry.1 with
    | some (index, position) => .error (.indexOutside index position lanes)
    | none => checkPairs used 0 [] (written.reverse.take used)

/-- The stage whose partners are written highest lane first. -/
def ofWritten (written : List Nat) (used : Nat) : Except Flaw Stage :=
  (check written used).map fun _ => ⟨written.reverse, used⟩

/-- The stage with the given partners, lane zero first. -/
def ofPartners (partners : List Nat) (used : Nat) : Except Flaw Stage :=
  ofWritten partners.reverse used

/-- The stage that leaves so many lanes alone. -/
def idle (lanes : Nat) : Except Flaw Stage := ofPartners (List.range lanes) lanes

/-- How many lanes the stage has, padding included. -/
def lanes (stage : Stage) : Nat := stage.partners.length

/-- The partners written highest lane first. -/
def written (stage : Stage) : List Nat := stage.partners.reverse

/-- The partner of a lane. -/
def partner (stage : Stage) (lane : Nat) : Except Fault Nat := partnerAmong stage.partners lane

/-- The side of a lane. -/
def side (stage : Stage) (lane : Nat) : Except Fault Side := Side.among stage.partners lane

/-- Whether there is such a lane and it keeps the smaller value. -/
def isLow (stage : Stage) (lane : Nat) : Bool :=
  match stage.partners[lane]? with
  | some partner => lane < partner
  | none => false

/-- Whether a lane is only padding. -/
def isPadding (stage : Stage) (lane : Nat) : Bool := stage.used ≤ lane

/-- The sides of all lanes. -/
def sides (stage : Stage) : List Side :=
  stage.partners.mapIdx Side.ofPair

/-- The mask of the lanes that keep the smaller value, which one word has to hold. -/
def lowLanes (stage : Stage) : Except Fault Nat :=
  if ∀ lane < stage.lanes, stage.isLow lane → lane < 64 then
    .ok (maskOf stage.lanes stage.isLow)
  else .error .wideShift

/-- Whether every used lane is its own partner. -/
def isIdle (stage : Stage) : Bool :=
  (List.range stage.used).all fun lane => stage.partners[lane]? == some lane

/-- Whether every used lane is the partner of its partner. -/
def isInvolution (stage : Stage) : Bool :=
  (List.range stage.used).all fun lane =>
    (stage.partners[lane]?.bind fun partner => stage.partners[partner]?) == some lane

/-- The stage with more lanes, each of the new ones its own partner. -/
def padTo (stage : Stage) (target : Nat) : Except Flaw Stage :=
  if target < stage.lanes then .error (.shrinks stage.lanes target)
  else .ok { stage with
    partners := stage.partners ++ List.range' stage.lanes (target - stage.lanes) }

end Stage

end SimdNetwork
