import SimdNetwork.Blend
import SimdNetwork.Compare
import SimdNetwork.Feature.Set
import SimdNetwork.Permute

/-! Tables of the instructions that each register offers, with the features they need. -/

namespace SimdNetwork

/-- The features listed for the register's shape. -/
def Shape.needs (shape : Shape) (xmm ymm zmm : List Feature) : FeatureSet :=
  match shape with
  | .xmm => .ofList xmm
  | .ymm => .ofList ymm
  | .zmm => .ofList zmm

/-- The features without which the register cannot be used at all. -/
def Shape.requires (shape : Shape) : FeatureSet := shape.needs [.sse2] [.avx] [.avx512f]

/-- A permute instruction on lanes of one width. -/
structure PermuteRow where
  /-- The kind of permute. -/
  kind : PermuteKind
  /-- The width of the lanes it moves. -/
  unit : Width
  /-- The features it needs. -/
  requires : FeatureSet
  deriving DecidableEq

/-- Whether the instruction realises every route of its unit in the register. -/
def PermuteRow.isComplete (row : PermuteRow) (shape : Shape) : Bool :=
  match row.kind with
  | .dwordImmediate | .byteTable => shape.groups == 1
  | .wordImmediate => false
  | .qwordImmediate => shape == .ymm
  | .indexed | .maskedUnion => true

/-- What an indexed permute needs, which depends on the width of the lanes. -/
def indexedNeeds (shape : Shape) : Width → FeatureSet
  | .b8 => shape.needs [] [.avx512f, .avx512vl] [.avx512f]
  | .b4 => shape.needs [] [.avx2] [.avx512f]
  | .b2 => shape.needs [] [.avx512bw, .avx512vl] [.avx512bw]
  | .b1 => shape.needs [] [.avx512vbmi, .avx512vl] [.avx512vbmi]

/-- The permutes that stay inside a lane group. -/
def laneLocalTable (shape : Shape) (unit : Width) : List PermuteRow :=
  (if 4 ≤ unit.bytes then
    [⟨.dwordImmediate, unit, shape.needs [.sse2] [.avx2] [.avx512f]⟩] else []) ++
  (if unit = .b2 then
    [⟨.wordImmediate, unit, shape.needs [.sse2] [.avx2] [.avx512bw]⟩] else []) ++
  [⟨.byteTable, unit, shape.needs [.ssse3] [.avx2] [.avx512bw]⟩]

/-- The permutes that move data between lane groups. -/
def crossLaneTable (shape : Shape) (unit : Width) : List PermuteRow :=
  (if unit = .b8 then
    [⟨.qwordImmediate, unit, shape.needs [] [.avx2] [.avx512f]⟩] else []) ++
  [⟨.indexed, unit, indexedNeeds shape unit⟩,
    ⟨.maskedUnion, unit, shape.needs [] [.avx2] [.avx512f, .avx512bw]⟩]

/-- Every permute on lanes of the unit, in the order they are tried. -/
def permuteTable (shape : Shape) (unit : Width) : List PermuteRow :=
  laneLocalTable shape unit ++ if 1 < shape.groups then crossLaneTable shape unit else []

/-- A way of comparing. -/
structure CompareRow where
  /-- How minimum and maximum are computed. -/
  compare : Compare
  /-- The features it needs. -/
  requires : FeatureSet
  deriving DecidableEq

/-- The native compare of eight-byte lanes, and the emulated one for targets without it. -/
def wideCompares (signed : Bool) (emulation : List Feature) : List CompareRow :=
  [⟨.native, .ofList [.avx512f, .avx512vl]⟩, ⟨.emulated (!signed), .ofList emulation⟩]

/-- Every way of comparing elements of the type, best first. -/
def compareTable (shape : Shape) (element : Element) : List CompareRow :=
  match shape, element.width with
  | .xmm, .b1 => [⟨.native, .ofList [if element.signed then .sse41 else .sse2]⟩]
  | .xmm, .b2 => [⟨.native, .ofList [if element.signed then .sse2 else .sse41]⟩]
  | .xmm, .b4 => [⟨.native, .ofList [.sse41]⟩]
  | .xmm, .b8 =>
    wideCompares element.signed
      (if element.signed then [.sse41, .sse42] else [.sse2, .sse41, .sse42])
  | .ymm, .b8 => wideCompares element.signed [.avx2]
  | .ymm, _ => [⟨.native, .ofList [.avx2]⟩]
  | .zmm, .b1 | .zmm, .b2 => [⟨.native, .ofList [.avx512bw]⟩]
  | .zmm, .b4 | .zmm, .b8 => [⟨.native, .ofList [.avx512f]⟩]

/-- A blend instruction. -/
structure BlendRow where
  /-- The kind of blend. -/
  kind : BlendKind
  /-- The granularity of the selector it takes. -/
  granularity : Granularity
  /-- The features it needs. -/
  requires : FeatureSet
  deriving DecidableEq

/-- Whether the instruction expresses every selector of the register. -/
def BlendRow.isComplete (row : BlendRow) (shape : Shape) : Bool :=
  -- A word immediate has eight bits, so beyond one lane group it repeats.
  !(row.kind == .wordImmediate && row.granularity == .lane && 1 < shape.groups)

/-- The blend under a mask of bytes or words. -/
def narrowMaskMove (shape : Shape) : BlendRow :=
  ⟨.maskMove, .lane, shape.needs [.avx512bw, .avx512vl] [.avx512bw, .avx512vl] [.avx512bw]⟩

/-- The blend under a mask of dwords or qwords. -/
def wideMaskMove (shape : Shape) : BlendRow :=
  ⟨.maskMove, .lane, shape.needs [.avx512f, .avx512vl] [.avx512f, .avx512vl] [.avx512f]⟩

/-- The blend by a selector vector. -/
def variableBlend (shape : Shape) : BlendRow :=
  ⟨.byteVariable, .byte, shape.needs [.sse41] [.avx2] []⟩

/-- The blend of words by an immediate. -/
def wordBlend (shape : Shape) (granularity : Granularity) : BlendRow :=
  ⟨.wordImmediate, granularity, shape.needs [.sse41] [.avx2] []⟩

/-- The blend of dwords by an immediate. -/
def dwordBlend (granularity : Granularity) : BlendRow :=
  ⟨.dwordImmediate, granularity, .ofList [.avx2]⟩

/-- Every blend of lanes of the width, best first. -/
def blendTable (shape : Shape) (width : Width) : List BlendRow :=
  match width, shape with
  | .b1, .zmm => [narrowMaskMove shape]
  | .b1, _ => [narrowMaskMove shape, variableBlend shape]
  | .b2, .zmm => [narrowMaskMove shape]
  | .b2, _ => [wordBlend shape .lane, narrowMaskMove shape, variableBlend shape]
  | .b4, .xmm => [dwordBlend .lane, wordBlend shape .pair, wideMaskMove shape]
  | .b4, .ymm => [dwordBlend .lane, wideMaskMove shape]
  | .b4, .zmm => [wideMaskMove shape]
  | .b8, .xmm => [wideMaskMove shape, dwordBlend .pair, variableBlend shape]
  | .b8, .ymm => [wideMaskMove shape, dwordBlend .pair]
  | .b8, .zmm => [wideMaskMove shape]

end SimdNetwork
