import Microbench.Kernel
import Microbench.Span

/-!
# Memory copies

Three kernels copy the input to the output in blocks of 512 bytes. Each also copies a single
block of any length, so blocks can be timed one by one.
-/
namespace Microbench.MemoryCopy

/-- Overwrites the first bytes of `dst` with those of `src`, as many as both have, visiting the
pieces of a cut in turn. -/
def overwrite (cut : (n : Nat) → List (Span n)) (dst src : Array UInt8) : Array UInt8 :=
  let source := src.toVector
  (Span.foldAll (cut (min dst.size src.size))
    (fun (out : Vector UInt8 dst.size) i =>
      out.set i (source.get ⟨i, Nat.lt_of_lt_of_le i.isLt (Nat.min_le_right ..)⟩)
        (Nat.lt_of_lt_of_le i.isLt (Nat.min_le_left ..)))
    dst.toVector).toArray

/-- Byte by byte (`ReferenceCopy`). -/
def copyBytes : BlockCopy := fun dst src => .ok (overwrite (fun n => [Span.whole n]) dst src)

/-- The whole block at once; the lengths have to agree (`SliceCopy`). -/
def copySlice : BlockCopy := fun dst src =>
  if dst.size = src.size then .ok src else .error (.unequalBlocks dst.size src.size)

/-- Bytes of one vector register. -/
def registerBytes : Nat := 16

/-- A register at a time, then the bytes that fill none (`SimdCopy`). -/
def copyRegisters : BlockCopy := fun dst src =>
  .ok (overwrite (fun n => Span.lanes n registerBytes) dst src)

/-- Consecutive blocks; only the last may be short. -/
def blocks (data : Array UInt8) : List (Array UInt8) :=
  (List.range ((data.size + blockBytes - 1) / blockBytes)).map fun b =>
    data.extract (b * blockBytes) (b * blockBytes + blockBytes)

structure Operands where
  src : Array UInt8
  dst : Array UInt8

/-- A source and a destination of the shape's length (`copy_operands`). -/
def operands (inputs : Inputs) (output : Buffer) : Except Failure Operands := do
  let len ← inputs.shape.check .memoryCopy
  let src ← inputs.bytes 0
  let dst ← output.requireBytes .output
  if src.size = len ∧ dst.size = len then
    return ⟨src, dst⟩
  else
    throw (.copySizes src.size dst.size len)

/-- The destination and source blocks in order. -/
def Operands.pairs (o : Operands) : List (Array UInt8 × Array UInt8) :=
  (blocks o.dst).zip (blocks o.src)

/-- Blocks put back together. -/
def join (parts : List (Array UInt8)) : Array UInt8 := parts.foldl (· ++ ·) #[]

/-- Copies block by block (`copy_all_blocks`). -/
def operation (copy : BlockCopy) (inputs : Inputs) (output : Buffer) : Except Failure Buffer := do
  let o ← operands inputs output
  let copied ← o.pairs.mapM fun (dst, src) => copy dst src
  return .bytes (join copied)

variable {m : Type → Type} [Monad m]

def kernel (name : String) (variant : Variant) (copy : BlockCopy) : Kernel m :=
  .ofOperation name .memoryCopy variant (operation copy) (some copy)

def reference : Kernel m := kernel "memcpy-reference" .reference copyBytes

def slice : Kernel m := kernel "memcpy-slice" .optimizedScalar copySlice

def simd : Kernel m := kernel "memcpy-simd" .simd copyRegisters

end Microbench.MemoryCopy
