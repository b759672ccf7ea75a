import Microbench.Failure

/-!
# Buffers

A buffer is an array of one of the four element types. Allocation may be refused; whether it is
depends on the number of bytes asked for alone.

Results:

* `reset_elementType`, `reset_size`: zeroing a buffer keeps its type and length.
-/
namespace Microbench

inductive Buffer where
  | f32 (data : Array Float32)
  | i16 (data : Array Int16)
  | i32 (data : Array Int32)
  | bytes (data : Array UInt8)

/-- Grants or refuses a buffer by its number of bytes. -/
structure Allocator where
  grants : Nat → Bool

/-- Refuses every buffer of `limit` bytes or more. -/
def Allocator.below (limit : Nat) : Allocator := ⟨fun bytes => decide (bytes < limit)⟩

/-- The allocator of the machine: a petabyte is refused. -/
def Allocator.machine : Allocator := .below (Nat.pow 2 50)

namespace Buffer

def elementType : Buffer → ElementType
  | .f32 _ => .f32
  | .i16 _ => .i16
  | .i32 _ => .i32
  | .bytes _ => .bytes

/-- The number of elements. -/
def size : Buffer → Nat
  | .f32 data => data.size
  | .i16 data => data.size
  | .i32 data => data.size
  | .bytes data => data.size

def isEmpty (b : Buffer) : Bool := b.size == 0

def zeros (element : ElementType) (len : Nat) : Buffer :=
  match element with
  | .f32 => .f32 (Array.replicate len 0)
  | .i16 => .i16 (Array.replicate len 0)
  | .i32 => .i32 (Array.replicate len 0)
  | .bytes => .bytes (Array.replicate len 0)

/-- A zeroed buffer, if the allocator grants it (`alloc_zeroed`). The request saturates at the
largest word. -/
def zeroed (allocator : Allocator) (element : ElementType) (len : Nat) : Except Failure Buffer :=
  let requested := min (len * element.width) maxWord
  if allocator.grants requested then .ok (zeros element len) else .error (.allocation requested)

/-- Overwrites every element with zero. -/
def reset (b : Buffer) : Buffer := zeros b.elementType b.size

def f32? : Buffer → Option (Array Float32)
  | .f32 data => some data
  | _ => none

def i16? : Buffer → Option (Array Int16)
  | .i16 data => some data
  | _ => none

def i32? : Buffer → Option (Array Int32)
  | .i32 data => some data
  | _ => none

def bytes? : Buffer → Option (Array UInt8)
  | .bytes data => some data
  | _ => none

/-- The elements under one of the four views, or the clash of types as a failure (`type_error`). -/
def require (role : BufferRole) (element : ElementType) (view : Buffer → Option α) (b : Buffer) :
    Except Failure α :=
  match view b with
  | some data => .ok data
  | none => .error (.elementType role element b.elementType)

def requireF32 (role : BufferRole) : Buffer → Except Failure (Array Float32) :=
  require role .f32 f32?

def requireI16 (role : BufferRole) : Buffer → Except Failure (Array Int16) :=
  require role .i16 i16?

def requireI32 (role : BufferRole) : Buffer → Except Failure (Array Int32) :=
  require role .i32 i32?

def requireBytes (role : BufferRole) : Buffer → Except Failure (Array UInt8) :=
  require role .bytes bytes?

/-- Same type and length, and equal elements; floats are compared as numbers. -/
protected def beq : Buffer → Buffer → Bool
  | .f32 a, .f32 b => a == b
  | .i16 a, .i16 b => a == b
  | .i32 a, .i32 b => a == b
  | .bytes a, .bytes b => a == b
  | _, _ => false

instance : BEq Buffer := ⟨Buffer.beq⟩

@[simp] theorem zeros_elementType (e : ElementType) (n : Nat) : (zeros e n).elementType = e := by
  cases e <;> rfl

@[simp] theorem zeros_size (e : ElementType) (n : Nat) : (zeros e n).size = n := by
  cases e <;> simp [zeros, size]

@[simp] theorem reset_elementType (b : Buffer) : b.reset.elementType = b.elementType :=
  zeros_elementType ..

@[simp] theorem reset_size (b : Buffer) : b.reset.size = b.size := zeros_size ..

end Buffer

end Microbench
