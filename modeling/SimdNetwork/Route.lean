import SimdNetwork.Block
import SimdNetwork.Shape
import SimdNetwork.Stage

/-! Byte routes: for every destination byte, the byte it is taken from. -/

namespace SimdNetwork

/-- Where each destination byte comes from. -/
structure Route where
  /-- The source of each destination byte, byte zero first. -/
  sources : List Nat
  deriving DecidableEq, Repr

namespace Route

/-- The route that brings every lane its partner, on lanes of the given width. -/
def ofStage (stage : Stage) (unit : Width) : Route :=
  ⟨expand unit.bytes stage.partners⟩

/-- How many bytes the route fills. -/
def bytes (route : Route) : Nat := route.sources.length

/-- How many lane groups the route fills or begins to fill. -/
def groups (route : Route) : Nat := (route.bytes + groupBytes - 1) / groupBytes

/-- Whether every byte stays in its lane group. -/
def isLaneLocal (route : Route) : Bool :=
  route.sources.zipIdx.all fun entry => entry.1 / groupBytes = entry.2 / groupBytes

/-- The route on larger units, if its bytes move in such units. -/
def units? (route : Route) (size : Nat) : Option (List Nat) := blocks? size route.sources

/-- The selection that every lane group makes among its own units, if they all make the same. -/
def sharedPattern? (route : Route) (unit : Width) : Option (List Nat) :=
  let slots := groupBytes / unit.bytes
  (route.units? unit.bytes).bind fun units =>
    let local? := (chunks slots units).zipIdx.all fun entry =>
      entry.1.all fun source => source / slots = entry.2
    match (chunks slots units).map (List.map (· % slots)) with
    | [] => none
    | pattern :: others =>
      if local? && others.all (· == pattern) then some pattern else none

end Route

end SimdNetwork
