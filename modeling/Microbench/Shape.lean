import Microbench.Capability
import Microbench.Word

/-!
# Workload shapes

A shape names one sweep point: a capability and a size. The size is the matrix dimension, the
vector length, the number of 512-byte blocks, or the working set in kilobytes. Byte counts are
64-bit machine words: a count that does not fit has no value.

Results:

* `elementCount_eq_some`: what the count is whenever there is one.
-/
namespace Microbench

/-- Bytes per block moved by the memory-copy kernels. -/
def blockBytes : Nat := 512

/-- Bytes per kilobyte of working set. -/
def kilobyte : Nat := 1024

/-- Loads and stores of the modify-in-place loop when no count is given. -/
def defaultSteps : Nat := 256 * 1024 * 1024

/-- One point of a sweep (`WorkloadShape`). -/
structure Shape where
  capability : Capability
  size : Nat
  /-- Trip count of the modify-in-place loop; no other capability reads it. -/
  steps : Nat := 0
  deriving DecidableEq, Repr

namespace Shape

def elementType (s : Shape) : ElementType := s.capability.elementType

def inputCount (s : Shape) : Nat := s.capability.inputCount

/-- Elements in every buffer of the workload, before any limit is applied. -/
def elements (s : Shape) : Nat :=
  match s.capability with
  | .matrixMultiply => s.size * s.size
  | .vectorAdd => s.size
  | .memoryCopy => s.size * blockBytes
  | .modifyInPlace => s.size * kilobyte / ElementType.i32.width

/-- Elements in every buffer of the workload, `none` on overflow. The working set of the
modify-in-place loop is counted in bytes first. -/
def elementCount (s : Shape) : Option Nat :=
  match s.capability with
  | .matrixMultiply => word? (s.size * s.size)
  | .vectorAdd => word? s.size
  | .memoryCopy => word? (s.size * blockBytes)
  | .modifyInPlace => (word? (s.size * kilobyte)).map (· / ElementType.i32.width)

def bufferBytes (s : Shape) : Option Nat :=
  s.elementCount.bind fun n => word? (n * s.elementType.width)

/-- Bytes of all inputs and the output together (`footprint_bytes`). -/
def footprintBytes (s : Shape) : Option Nat :=
  s.bufferBytes.bind fun n => word? (n * (s.inputCount + 1))

def text (s : Shape) : String :=
  match s.capability with
  | .matrixMultiply => toString s.size ++ "x" ++ toString s.size
  | .vectorAdd => toString s.size
  | .memoryCopy => toString s.size ++ "x" ++ toString blockBytes ++ "B"
  | .modifyInPlace => toString s.size ++ "KB"

theorem elementCount_eq_some {s : Shape} {n : Nat} (h : s.elementCount = some n) :
    n = s.elements := by
  obtain ⟨c, k, t⟩ := s
  cases c with
  | matrixMultiply => exact (word?_eq_some.1 h).1.symm
  | vectorAdd => exact (word?_eq_some.1 h).1.symm
  | memoryCopy => exact (word?_eq_some.1 h).1.symm
  | modifyInPlace =>
    obtain ⟨b, hb, rfl⟩ := Option.map_eq_some_iff.1 h
    rw [← (word?_eq_some.1 hb).1]
    rfl

end Shape

end Microbench
