import SimdNetwork.Permute
import SimdNetwork.Register

/-! Instructions that move bytes inside a register, and the permutes made of them. -/

namespace SimdNetwork

namespace Register

/-- Moves blocks of bytes: every block takes the contents of the block that a function names. -/
def moveBlocks (register : Register) (size : Nat) (source : Nat → Nat) : Except Fault Register :=
  let count := register.shape.bytes / size
  if ∀ block < count, source block < count then
    .ok (build register.shape fun position =>
      register.byte (source (position / size) * size + position % size))
  else .error .outOfRange

/-- The same selection among the four dwords of every lane group. -/
def shuffleDwords (register : Register) (immediate : UInt8) : Except Fault Register :=
  register.moveBlocks 4 fun slot => slot / 4 * 4 + selection immediate (slot % 4)

/-- The same selection among the low four words of every lane group. -/
def shuffleLowWords (register : Register) (immediate : UInt8) : Except Fault Register :=
  register.moveBlocks 2 fun slot =>
    if slot % 8 < 4 then slot / 8 * 8 + selection immediate (slot % 8) else slot

/-- The same selection among the high four words of every lane group. -/
def shuffleHighWords (register : Register) (immediate : UInt8) : Except Fault Register :=
  register.moveBlocks 2 fun slot =>
    if slot % 8 < 4 then slot else slot / 8 * 8 + 4 + selection immediate (slot % 8 - 4)

/-- The same selection among every four qwords. -/
def permuteQwords (register : Register) (immediate : UInt8) : Except Fault Register :=
  register.moveBlocks 8 fun slot => slot / 4 * 4 + selection immediate (slot % 4)

/-- A selection among the lane groups. -/
def permuteGroups (register : Register) (immediate : UInt8) : Except Fault Register :=
  -- The immediate has four fields and is shifted by two bits for each group.
  if 4 < register.shape.groups then .error .wideShift
  else register.moveBlocks groupBytes (selection immediate)

/-- Any lane of the unit for any other; indices count round the register. -/
def permuteIndexed (register : Register) (unit : Width) (indices : List UInt8) :
    Except Fault Register :=
  let lanes := register.lanes unit
  if indices.length < lanes then .error .outOfRange
  else register.moveBlocks unit.bytes fun slot => (indices.getD slot 0).toNat % lanes

/-- Looks every byte up in its lane group; a control byte with the top bit, or none, gives zero. -/
def shuffleBytes (register : Register) (control : List UInt8) : Register :=
  build register.shape fun position =>
    match control[position]? with
    | some index =>
      if zeroByte ≤ index then 0
      else register.byte (position / groupBytes * groupBytes + index.toNat % groupBytes)
    | none => 0

/-- The bits of either register, in the shape of the first. -/
def join (left right : Register) : Register :=
  build left.shape fun position => left.byte position ||| right.byte position

/-- The lane groups rotated as a part of a masked union reads them. -/
def rotateGroups (register : Register) (part : UnionPart) : Except Fault Register := do
  match register.shape, ← part.immediate register.shape with
  | .ymm, some immediate => register.permuteQwords immediate
  | .zmm, some immediate => register.permuteGroups immediate
  | _, _ => .ok register

/-- What one part of a masked union contributes. -/
def unionPart (register : Register) (part : UnionPart) : Except Fault Register :=
  (register.rotateGroups part).map (·.shuffleBytes part.control)

end Register

/-- The register that a permute leaves. -/
def Permute.apply (permute : Permute) (register : Register) : Except Fault Register :=
  match permute with
  | .dwords immediate => register.shuffleDwords immediate
  | .words low high => do
    let lower ← register.shuffleLowWords low
    lower.shuffleHighWords high
  | .bytes control => .ok (register.shuffleBytes control)
  | .qwords immediate => register.permuteQwords immediate
  | .indexed unit indices => register.permuteIndexed unit indices
  | .union parts =>
    parts.foldlM (fun joined part => (register.unionPart part).map joined.join)
      (Register.zero register.shape)

end SimdNetwork
