/-!
# Capabilities, element types and kernel variants

A capability is a numeric operation that several kernels implement. It fixes the element type
of every buffer of its workloads. A variant says how a kernel implements its capability; the
reference variant is the one the others are compared with.
-/
namespace Microbench

inductive Capability where
  | matrixMultiply
  | vectorAdd
  | memoryCopy
  | modifyInPlace
  deriving DecidableEq, Repr

inductive ElementType where
  | f32
  | i16
  | i32
  | bytes
  deriving DecidableEq, Repr

inductive Variant where
  /-- Portable scalar code, trusted as ground truth. -/
  | reference
  /-- Hand-tuned scalar code, no vector instructions. -/
  | optimizedScalar
  | simd
  deriving DecidableEq, Repr

namespace Capability

def all : List Capability := [.matrixMultiply, .vectorAdd, .memoryCopy, .modifyInPlace]

def name : Capability → String
  | .matrixMultiply => "matrix-multiply"
  | .vectorAdd => "vector-add"
  | .memoryCopy => "memory-copy"
  | .modifyInPlace => "modify-in-place"

/-- The element type of every buffer of the capability's workloads. -/
def elementType : Capability → ElementType
  | .matrixMultiply => .f32
  | .vectorAdd => .i16
  | .memoryCopy => .bytes
  | .modifyInPlace => .i32

/-- How many input buffers a kernel of the capability reads. -/
def inputCount : Capability → Nat
  | .matrixMultiply => 2
  | .vectorAdd => 2
  | .memoryCopy => 1
  | .modifyInPlace => 0

end Capability

namespace ElementType

def all : List ElementType := [.f32, .i16, .i32, .bytes]

def name : ElementType → String
  | .f32 => "F32"
  | .i16 => "I16"
  | .i32 => "I32"
  | .bytes => "Bytes"

/-- Bytes per element. -/
def width : ElementType → Nat
  | .f32 => 4
  | .i16 => 2
  | .i32 => 4
  | .bytes => 1

theorem width_pos (e : ElementType) : 0 < e.width := by cases e <;> decide

end ElementType

namespace Variant

def all : List Variant := [.reference, .optimizedScalar, .simd]

def name : Variant → String
  | .reference => "reference"
  | .optimizedScalar => "optimized-scalar"
  | .simd => "simd"

end Variant

end Microbench
