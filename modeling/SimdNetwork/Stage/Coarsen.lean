import SimdNetwork.Block
import SimdNetwork.Stage

/-! Stages whose lanes move in whole blocks, read as stages of fewer and wider lanes. -/

namespace SimdNetwork

/-- The number so far below a start, which must not pass zero. -/
def below (start offset : Nat) : Except Fault Nat :=
  if offset ≤ start then .ok (start - offset) else .error .overflow

/-- Whether positions count down from a start, the first of them standing so far below it. -/
def countsDown (start : Nat) : (offset : Nat) → List Nat → Except Fault Bool
  | _, [] => .ok true
  | offset, position :: rest => do
    let expected ← below start offset
    if position = expected then countsDown start (offset + 1) rest else .ok false

/-- The unit that a block is, written last position first, if it counts down a whole one. -/
def writtenUnit (size : Nat) : List Nat → Except Fault (Option Nat)
  | [] => .error .outOfRange
  | last :: rest => do
    if last % size ≠ size - 1 then .ok none
    else if ← countsDown last 0 (last :: rest) then .ok (some (last / size))
    else .ok none

/-- The units that blocks are, written last position first, if every block is one. -/
def writtenUnits (size : Nat) : List (List Nat) → Except Fault (Option (List Nat))
  | [] => .ok (some [])
  | block :: rest => do
    match ← writtenUnit size block with
    | some unit => (writtenUnits size rest).map (Option.map (unit :: ·))
    | none => .ok none

/--
The stage on lanes that are wider by the factor, its partners being read as they are written.

Every block is read from the highest lane down and each entry compared with a difference, which
would be a fault below zero. The reading never faults and finds the same stage as in lane order.
-/
def Stage.coarsenWritten (stage : Stage) (factor : Nat) : Except Fault (Option Stage) :=
  if factor < 2 ∨ stage.lanes % factor ≠ 0 then .ok none
  else (writtenUnits factor (chunks factor stage.written)).map fun units =>
    units.bind fun written =>
      (Stage.ofWritten written ((stage.used + factor - 1) / factor)).toOption

/-- A stage read at a wider lane width. -/
structure Coarsening where
  /-- The wider width. -/
  width : Width
  /-- How many of the narrow lanes one wide lane has. -/
  factor : Nat
  /-- The stage on the wide lanes. -/
  stage : Stage
  deriving DecidableEq, Repr

/-- How many lanes of one width make a lane of a wider one. -/
def Width.factorTo (width wide : Width) : Nat := wide.bytes / width.bytes

/-- The reading of a stage at one wider width, if its lanes move in lanes of that width. -/
def Stage.coarsening? (stage : Stage) (width wide : Width) : Except Fault (Option Coarsening) :=
  (stage.coarsenWritten (width.factorTo wide)).map
    (Option.map (Coarsening.mk wide (width.factorTo wide)))

/-- All wider readings of a stage on lanes of the given width, narrowest first. -/
def Stage.coarsenings (stage : Stage) (width : Width) : Except Fault (List Coarsening) :=
  (width.wider.mapM (stage.coarsening? width)).map (List.filterMap id)

end SimdNetwork
