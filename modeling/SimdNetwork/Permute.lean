import SimdNetwork.Shape
import SimdNetwork.Fault

/-! Permutes: instructions that bring every lane its partner's value. -/

namespace SimdNetwork

/-- The immediate whose two-bit fields are the selections, lowest field first. -/
def packedSelections : List Nat → Nat
  | [] => 0
  | selection :: rest => selection ||| packedSelections rest <<< 2

/-- The selections as one immediate byte; what does not fit is dropped. -/
def packSelections (selections : List Nat) : UInt8 := UInt8.ofNat (packedSelections selections)

/-- The two-bit field of an immediate. -/
def selection (immediate : UInt8) (slot : Nat) : Nat := immediate.toNat >>> (2 * slot) % 4

/-- A field of two bits and what is packed above it do not meet. -/
theorem packedSelections_cons (chosen : Nat) (rest : List Nat) (small : chosen < 4) :
    packedSelections (chosen :: rest) = 4 * packedSelections rest + chosen := by
  -- The shifted part has two zero bits below it, so joining is adding.
  rw [packedSelections, Nat.or_comm, ← Nat.shiftLeft_add_eq_or_of_lt (i := 2) small,
    Nat.shiftLeft_eq, Nat.mul_comm]

/-- Packed selections take two bits each. -/
theorem packedSelections_lt (selections : List Nat) (small : ∀ chosen ∈ selections, chosen < 4) :
    packedSelections selections < 1 <<< (2 * selections.length) := by
  rw [Nat.one_shiftLeft, Nat.pow_mul]
  -- Each further selection multiplies the bound by four.
  induction selections with
  | nil => decide
  | cons chosen rest ih =>
    have first := small chosen List.mem_cons_self
    have others := ih fun other member => small other (List.mem_cons_of_mem chosen member)
    rw [packedSelections_cons _ _ first, List.length_cons, Nat.pow_succ]
    omega

/-- Every field of packed selections is the selection that was packed there. -/
theorem packedSelections_shiftRight (selections : List Nat)
    (small : ∀ chosen ∈ selections, chosen < 4) (slot : Nat) (inside : slot < selections.length) :
    packedSelections selections >>> (2 * slot) % 4 = selections[slot] := by
  -- Slot zero is the remainder by four, and any other slot is one nearer in the quotient.
  induction selections generalizing slot with
  | nil => simp at inside
  | cons chosen rest ih =>
    have first := small chosen List.mem_cons_self
    rw [packedSelections_cons _ _ first, Nat.shiftRight_eq_div_pow]
    cases slot with
    | zero =>
      simp only [Nat.mul_zero, Nat.pow_zero, Nat.div_one, List.getElem_cons_zero]
      omega
    | succ slot =>
      -- The lowest field is shifted out first.
      rw [Nat.mul_succ, Nat.add_comm (2 * slot) 2, Nat.pow_add, ← Nat.div_div_eq_div_mul,
        show (4 * packedSelections rest + chosen) / 2 ^ 2 = packedSelections rest by omega,
        ← Nat.shiftRight_eq_div_pow]
      exact ih (fun other member => small other (List.mem_cons_of_mem chosen member)) slot
        (Nat.lt_of_succ_lt_succ inside)

/-- Up to four selections among four slots are read back from the immediate they make. -/
theorem selection_packSelections (selections : List Nat) (few : selections.length ≤ 4)
    (small : ∀ chosen ∈ selections, chosen < 4) (slot : Nat) (inside : slot < selections.length) :
    selection (packSelections selections) slot = selections[slot] := by
  -- Four fields fill the byte exactly, so nothing is dropped.
  have bound := packedSelections_lt selections small
  rw [Nat.one_shiftLeft] at bound
  have byteSize : 2 ^ (2 * selections.length) ≤ 2 ^ 8 :=
    Nat.pow_le_pow_right (by decide) (by omega)
  rw [selection, packSelections, UInt8.toNat_ofNat',
    Nat.mod_eq_of_lt (by omega : packedSelections selections < 2 ^ 8)]
  exact packedSelections_shiftRight selections small slot inside

/-- How a permute is told where each lane comes from. -/
inductive PermuteKind where
  /-- One dword pattern for every lane group. -/
  | dwordImmediate
  /-- One word pattern for each half of every lane group. -/
  | wordImmediate
  /-- A byte table inside each lane group. -/
  | byteTable
  /-- A qword pattern across lane groups. -/
  | qwordImmediate
  /-- A vector of lane indices. -/
  | indexed
  /-- Rotated lane groups, each through a byte table that zeroes the rest, joined together. -/
  | maskedUnion
  deriving DecidableEq, Repr

namespace PermuteKind

/-- All kinds of permute. -/
def all : List PermuteKind :=
  [.dwordImmediate, .wordImmediate, .byteTable, .qwordImmediate, .indexed, .maskedUnion]

/-- The kind's name. -/
def name : PermuteKind → String
  | .dwordImmediate => "DwordImmediate"
  | .wordImmediate => "WordImmediate"
  | .byteTable => "ByteTable"
  | .qwordImmediate => "QwordImmediate"
  | .indexed => "Indexed"
  | .maskedUnion => "MaskedUnion"

/-- Whether the kind moves data between lane groups. -/
def crossesGroups : PermuteKind → Bool
  | .qwordImmediate | .indexed | .maskedUnion => true
  | .dwordImmediate | .wordImmediate | .byteTable => false

end PermuteKind

/-- The immediate that keeps every slot in place. -/
def keepImmediate : UInt8 := 0xe4

/-- The immediate that swaps the two halves of four slots. -/
def swapImmediate : UInt8 := 0x4e

/-- The control byte that zeroes a byte. -/
def zeroByte : UInt8 := 0x80

/-- One part of a masked union. -/
structure UnionPart where
  /-- How many lane groups further on the part reads. -/
  rotation : Nat
  /-- The byte table, which zeroes what another part supplies. -/
  control : List UInt8
  deriving DecidableEq, Repr

/-- The immediate that rotates the lane groups for a part, if they have to be rotated. -/
def UnionPart.immediate (part : UnionPart) (shape : Shape) : Except Fault (Option UInt8) :=
  if part.rotation = 0 then .ok none
  else match shape with
    | .xmm => .ok none
    | .ymm => .ok (some swapImmediate)
    | .zmm => do
      let _ ← word (part.rotation + 3)
      .ok (some (packSelections ((List.range 4).map fun group => (group + part.rotation) % 4)))

/-- A permute with its operand. -/
inductive Permute where
  /-- Selects among the four dwords of each lane group. -/
  | dwords (immediate : UInt8)
  /-- Selects among the low and then among the high four words of each lane group. -/
  | words (low high : UInt8)
  /-- Looks every byte up in its lane group. -/
  | bytes (control : List UInt8)
  /-- Selects among four qwords. -/
  | qwords (immediate : UInt8)
  /-- Selects any lane of the unit for any other. -/
  | indexed (unit : Width) (indices : List UInt8)
  /-- Joins byte look-ups in rotated lane groups. -/
  | union (parts : List UnionPart)
  deriving DecidableEq, Repr

namespace Permute

/-- The kind of a permute. -/
def kind : Permute → PermuteKind
  | .dwords _ => .dwordImmediate
  | .words .. => .wordImmediate
  | .bytes _ => .byteTable
  | .qwords _ => .qwordImmediate
  | .indexed .. => .indexed
  | .union _ => .maskedUnion

/-- One for every instruction and one for every constant it loads. -/
def cost : Permute → Nat
  | .dwords _ => 1
  -- A half that stays in place needs no instruction, but two such halves still need one.
  | .words low high => max 1 ([low, high].countP (· ≠ keepImmediate))
  | .bytes _ => 2
  | .qwords _ => 1
  | .indexed .. => 2
  -- Each part is a look-up with its table, rotated parts add a rotation, and joining adds the rest.
  | .union parts => 2 * parts.length + parts.countP (·.rotation ≠ 0) + (parts.length - 1)

/-- Whether the permute keeps data in its lane group. -/
def isLaneLocal (permute : Permute) : Bool := !permute.kind.crossesGroups

/-- The vectors that have to be loaded before the permute. -/
def constants : Permute → List (List UInt8)
  | .bytes control => [control]
  | .indexed _ indices => [indices]
  | .union parts => parts.map UnionPart.control
  | .dwords _ | .words .. | .qwords _ => []

end Permute

end SimdNetwork
