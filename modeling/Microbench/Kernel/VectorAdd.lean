import Microbench.Kernel
import Microbench.Span

/-!
# Vector addition

Three kernels write the sums of two vectors of 16-bit integers to the output. Sums wrap. The
kernels differ in how they cut the range of indices.
-/
namespace Microbench.VectorAdd

structure Operands where
  n : Nat
  lhs : Vector Int16 n
  rhs : Vector Int16 n
  out : Vector Int16 n

/-- Two vectors and an output of the shape's length (`vector_operands`). -/
def operands (inputs : Inputs) (output : Buffer) : Except Failure Operands := do
  let n ← inputs.shape.check .vectorAdd
  let lhs ← inputs.i16 0
  let rhs ← inputs.i16 1
  let out ← output.requireI16 .output
  if h : lhs.size = n ∧ rhs.size = n ∧ out.size = n then
    return ⟨n, ⟨lhs, h.1⟩, ⟨rhs, h.2.1⟩, ⟨out, h.2.2⟩⟩
  else
    throw (.vectorSizes lhs.size rhs.size out.size n)

/-- Writes the sums at the indices of the given pieces. -/
def writeSums {n : Nat} (pieces : List (Span n)) (lhs rhs out : Vector Int16 n) :
    Vector Int16 n :=
  Span.foldAll pieces (fun out i => out.set i (lhs.get i + rhs.get i) i.isLt) out

def operation (cut : (n : Nat) → List (Span n)) (inputs : Inputs) (output : Buffer) :
    Except Failure Buffer := do
  let o ← operands inputs output
  return .i16 (writeSums (cut o.n) o.lhs o.rhs o.out).toArray

/-- Sums written per round of the unrolled loop. -/
def unrollCount : Nat := 4

/-- Lanes of one vector register. -/
def laneCount : Nat := 8

variable {m : Type → Type} [Monad m]

def reference : Kernel m :=
  .ofOperation "vadd-reference" .vectorAdd .reference (operation fun n => [Span.whole n])

def unrolled : Kernel m :=
  .ofOperation "vadd-unrolled" .vectorAdd .optimizedScalar
    (operation fun n => Span.lanes n unrollCount)

def simd : Kernel m :=
  .ofOperation "vadd-simd" .vectorAdd .simd (operation fun n => Span.lanes n laneCount)

end Microbench.VectorAdd
