import Microbench.Verdict
import Microbench.Workload

/-!
# Sweep configuration

A sweep measures one capability at each of a list of sizes.
-/
namespace Microbench

namespace Sweep

/-- Working sets in kilobytes that straddle the usual cache capacities. -/
def cacheSizes : List Nat :=
  [4, 8, 16, 32, 64, 128, 256, 512, 1024, 2048, 4096, 8192, 16384]

/-- What a sweep is asked for (`SweepConfig`). -/
structure Config where
  capability : Capability := .modifyInPlace
  sizes : List Nat := cacheSizes
  fill : Fill := .sequential
  tolerance : Tolerance := .standard
  /-- Trip count of modify-in-place workloads. -/
  steps : Nat := defaultSteps
  /-- Timed runs per kernel and size; their ticks are summed. -/
  iterations : Nat := 1
  /-- Differing elements kept per failed verdict. -/
  maxReported : Nat := 8
  deriving BEq

namespace Config

def withIterations (c : Config) (iterations : Nat) : Config :=
  { c with iterations := max iterations 1 }

/-- The shape of one sweep point (`shape_for`). -/
def shapeFor (c : Config) (size : Nat) : Shape :=
  match c.capability with
  | .modifyInPlace => ⟨.modifyInPlace, size, c.steps⟩
  | other => ⟨other, size, 0⟩

def verifier (c : Config) : Verifier := ⟨c.tolerance, c.maxReported⟩

end Config

end Sweep

end Microbench
