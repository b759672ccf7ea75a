import Microbench.Timer
import Microbench.Verdict

/-!
# Measurements

What a sweep records of one kernel at one size, and what a block trace records of one block.

Results:

* `passed_eq`: a measurement passes exactly if its verdict has no reason.
-/
namespace Microbench

structure Measurement where
  kernel : String
  variant : Variant
  capability : Capability
  size : Nat
  shape : String
  ticks : UInt64
  seconds : Float
  iterations : Nat
  precision : Precision
  verdict : Verdict

def Measurement.passed (m : Measurement) : Bool := m.verdict.isPass

/-- One timed block copy. -/
structure BlockSample where
  bytes : Nat
  /-- Bytes of this and all earlier blocks. -/
  totalBytes : Nat
  ticks : UInt64
  deriving DecidableEq, Repr

/-- The samples of one kernel. -/
structure BlockTrace where
  kernel : String
  samples : List BlockSample
  deriving DecidableEq, Repr

theorem passed_eq (m : Measurement) : m.passed = m.verdict.reason?.isNone := by
  unfold Measurement.passed
  cases m.verdict <;> rfl

end Microbench
