import Microbench.Kernel
import Microbench.Square

/-!
# Matrix multiplication

Three kernels add the product of two square matrices of floats to the output, so a zeroed output
becomes the product.
-/
namespace Microbench.MatrixMultiply

structure Operands where
  n : Nat
  lhs : Square Float32 n
  rhs : Square Float32 n
  out : Square Float32 n

/-- Two matrices and an output of the shape's dimension (`matmul_operands`). -/
def operands (inputs : Inputs) (output : Buffer) : Except Failure Operands := do
  let _ ← inputs.shape.check .matrixMultiply
  let lhs ← inputs.f32 0
  let rhs ← inputs.f32 1
  let out ← output.requireF32 .output
  let n := inputs.shape.size
  if h : lhs.size = n * n ∧ rhs.size = n * n ∧ out.size = n * n then
    return ⟨n, ⟨⟨lhs, h.1⟩⟩, ⟨⟨rhs, h.2.1⟩⟩, ⟨⟨out, h.2.2⟩⟩⟩
  else
    throw (.matrixSizes lhs.size rhs.size out.size inputs.shape)

/-- Runs one way of adding a product on the operands of a workload. -/
def operation (addProduct : {n : Nat} → (lhs rhs out : Square Float32 n) → Square Float32 n)
    (inputs : Inputs) (output : Buffer) : Except Failure Buffer := do
  let o ← operands inputs output
  return .f32 (addProduct o.lhs o.rhs o.out).cells.toArray

/-- Tile lengths over rows, columns and terms. A length of zero counts as one. -/
structure Tiling where
  rows : Nat := 32
  columns : Nat := 64
  terms : Nat := 32
  deriving DecidableEq, Repr

/-- Lanes of one vector register. -/
def laneCount : Nat := 8

/-- The loops of `BlockedMatmul`: rows, then terms, then columns, tile by tile. -/
def addTiled (t : Tiling) {n : Nat} (lhs rhs out : Square Float32 n) : Square Float32 n :=
  Square.addProductTiled (Span.tiles n (max t.rows 1)) (Span.tiles n (max t.terms 1))
    (Span.tiles n (max t.columns 1)) lhs rhs out

/-- The loops of `matmul_simd`: full registers of columns, then the columns left over. -/
def addLanes {n : Nat} (lhs rhs out : Square Float32 n) : Square Float32 n :=
  Square.addProductRows (Span.lanes n laneCount) lhs rhs out

variable {m : Type → Type} [Monad m]

def reference : Kernel m :=
  .ofOperation "mm-reference" .matrixMultiply .reference (operation Square.addProduct)

def blocked (t : Tiling) : Kernel m :=
  .ofOperation "mm-blocked" .matrixMultiply .optimizedScalar (operation (addTiled t))

def simd : Kernel m :=
  .ofOperation "mm-simd" .matrixMultiply .simd (operation addLanes)

end Microbench.MatrixMultiply
