/-! Verification sweeps: how thoroughly compiled networks are tested. -/

namespace SimdNetwork

/-- How much is tested. -/
inductive Sweep where
  | quick
  | commit
  | release
  deriving DecidableEq, Repr

namespace Sweep

/-- The sweep's name. -/
def name : Sweep → String
  | .quick => "Quick"
  | .commit => "Commit"
  | .release => "Release"

/-- The sweep that a value asks for; anything unknown asks for the least. -/
def ofValue : Option String → Sweep
  | some "commit" => .commit
  | some "release" => .release
  | some "full" => .release
  | _ => .quick

/-- How many vectors are run through each stage. -/
def vectors : Sweep → Nat
  | .quick => 1000
  | .commit => 10000
  | .release => 100000

/-- The network sizes that are tested. -/
def sizes : Sweep → List Nat
  | .quick => List.range' 2 15 ++ [32, 64]
  | .commit => List.range' 2 31 ++ [48, 64]
  | .release => List.range' 2 63

/-- The seed of the vectors. -/
def seed : Nat := 42

/-- Whether more is tested than where nothing is asked for. -/
def isAboveDefault (sweep : Sweep) : Bool := sweep ≠ .quick

/-- The sweep in one line. -/
def summary (sweep : Sweep) : String :=
  s!"{sweep.name} tier: {sweep.vectors} vectors per stage over {sweep.sizes.length} " ++
    s!"network sizes (seed {seed})"

end Sweep

end SimdNetwork
