import SimdNetwork.Plan
import SimdNetwork.Text.Hex

/-! The text of a plan: a heading and one line for each step. -/

namespace SimdNetwork

/-- A vector of bytes between brackets. -/
def listBytes (bytes : List UInt8) : String :=
  "[" ++ " ".intercalate (bytes.map hexByte) ++ "]"

/-- A part of a masked union, with its rotation in front if it has one. -/
def UnionPart.listing (part : UnionPart) (shape : Shape) : String :=
  let rotate := match part.immediate shape with
    | .ok (some immediate) => "rotate " ++ hexImmediate immediate ++ "; "
    | _ => ""
  rotate ++ "pshufb " ++ listBytes part.control

/-- The lines of a permute, of which a masked union has several. -/
def Permute.listing (permute : Permute) (shape : Shape) : List String :=
  match permute with
  | .dwords immediate => ["pshufd " ++ hexImmediate immediate]
  | .words low high => ["pshuflw " ++ hexImmediate low ++ "; pshufhw " ++ hexImmediate high]
  | .bytes control => ["pshufb " ++ listBytes control]
  | .qwords immediate => ["vpermq " ++ hexImmediate immediate]
  | .indexed unit indices => ["vperm" ++ unit.letter ++ " " ++ listBytes indices]
  | .union parts => parts.map (·.listing shape) ++ [s!"por x{parts.length - 1}"]

/-- The line of a minimum or a maximum, which the word tells apart. -/
def Compare.listing (compare : Compare) (element : Element) (word : String) : String :=
  match compare with
  | .native => "p" ++ word ++ (if element.signed then "s" else "u") ++ element.width.letter
  | .emulated flip =>
    (if flip then "pxor bias + " else "") ++ "pcmpgtq + pblendvb (" ++ word ++ ")"

/-- The line of a blend. -/
def Blend.listing : Blend → String
  | .maskMove unit mask => "kmov " ++ hexWord mask ++ s!"; vmovdqu{unit.bits}"
  | .words immediate => "pblendw " ++ hexImmediate immediate
  | .dwords immediate => "vpblendd " ++ hexImmediate immediate
  | .bytes selector => "pblendvb " ++ listBytes selector

/-- The lines of one step of a plan. -/
def Plan.stepListing (plan : Plan) : Operation → List String
  | .permute permute => permute.listing plan.shape
  | .minimum compare => [compare.listing plan.element "min"]
  | .maximum compare => [compare.listing plan.element "max"]
  | .blend blend => [blend.listing]

/-- The heading of a plan. -/
def Plan.heading (plan : Plan) : String :=
  s!"; {plan.element.name} x{plan.lanes} in {plan.shape.name} " ++
    s!"(tier {plan.tier.name}, cost {plan.cost})"

/-- The whole text of a plan, every line ended. -/
def Plan.listing (plan : Plan) : String :=
  let lines := plan.heading :: plan.steps.flatMap fun step => plan.stepListing step.operation
  String.join (lines.map (· ++ "\n"))

end SimdNetwork
