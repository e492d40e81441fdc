import SimdNetwork.Blend
import SimdNetwork.Compare
import SimdNetwork.Register

/-! Instructions that choose between the lanes of two registers. -/

namespace SimdNetwork

namespace Register

/-- Takes the bytes of the second register where its selector byte has the top bit. -/
def blendBytes (first second : Register) (selector : List UInt8) : Register :=
  build first.shape fun position =>
    if position < second.shape.bytes ∧ Blend.takeByte ≤ selector.getD position 0 then
      second.byte position
    else first.byte position

/-- All ones in the qwords where the first register is greater as a signed number, else zero. -/
def greaterQwords (first second : Register) : Except Fault Register :=
  if second.shape.bytes < first.shape.bytes then .error .outOfRange
  else .ok (build first.shape fun position =>
    let signed := fun (register : Register) =>
      Element.value ⟨.b8, true⟩ (register.laneBits .b8 (position / 8))
    if signed second < signed first then 0xff else 0)

/-- The register with the top bit of every lane flipped. -/
def flipSigns (register : Register) (width : Width) : Register :=
  build register.shape fun position =>
    if position % width.bytes = width.bytes - 1 then register.byte position ^^^ 0x80
    else register.byte position

/-- Whether a side keeps the second of two values, told whether the first is greater. -/
def keepsSecond (side : Side) (greater : Bool) : Bool :=
  match side with
  | .low => greater
  | .high => !greater

/-- The value that a side keeps of every two lanes, by the instruction for the element type. -/
def nativeKeep (first second : Register) (element : Element) (side : Side) :
    Except Fault Register :=
  if second.shape.bytes < first.shape.bytes then .error .outOfRange
  else .ok (build first.shape fun position =>
    let value := fun (register : Register) =>
      element.value (register.laneBits element.width (position / element.bytes))
    if keepsSecond side (value second < value first) then second.byte position
    else first.byte position)

/-- The value that a side keeps of every two qwords, by a signed compare and a blend. -/
def emulatedKeep (first second : Register) (flip : Bool) (side : Side) :
    Except Fault Register := do
  let flipped := fun (register : Register) => if flip then register.flipSigns .b8 else register
  let greater ← (flipped first).greaterQwords (flipped second)
  match side with
  | .low => .ok (first.blendBytes second greater.toBytes)
  | .high => .ok (second.blendBytes first greater.toBytes)

/-- The value that a side keeps of every two lanes. -/
def keep (first second : Register) (element : Element) (compare : Compare) (side : Side) :
    Except Fault Register :=
  match compare with
  | .native => first.nativeKeep second element side
  | .emulated flip => first.emulatedKeep second flip side

/-- Takes the chosen lanes of the second register. -/
def takeLanes (first second : Register) (unit : Width) (chosen : Nat → Bool) :
    Except Fault Register :=
  if ∀ lane < first.lanes unit, chosen lane → lane < second.lanes unit then
    .ok (build first.shape fun position =>
      if chosen (position / unit.bytes) then second.byte position else first.byte position)
  else .error .outOfRange

end Register

/-- The register of larger values with the selected lanes taken from that of smaller values. -/
def Blend.apply (blend : Blend) (larger smaller : Register) : Except Fault Register :=
  match blend with
  | .maskMove unit mask =>
    -- The mask is one word, which is shifted by the number of each lane.
    if 64 < larger.lanes unit then .error .wideShift
    else larger.takeLanes smaller unit mask.testBit
  | .words immediate =>
    larger.takeLanes smaller .b2 fun lane => immediate.toNat.testBit (lane % 8)
  | .dwords immediate =>
    larger.takeLanes smaller .b4 fun lane => immediate.toNat.testBit (lane % 8)
  | .bytes selector => .ok (larger.blendBytes smaller selector)

end SimdNetwork
