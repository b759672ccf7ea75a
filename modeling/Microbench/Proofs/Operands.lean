import Microbench.Proofs.MatrixMultiply
import Microbench.Proofs.MemoryCopy
import Microbench.Proofs.ModifyInPlace
import Microbench.Proofs.VectorAdd

/-!
# Which operands are accepted

Before it touches anything a kernel checks its operands: the capability of the shape and its
element count, then the inputs it reads, one after another, then the output, and last their
lengths. All kernels of a capability make the same check, so they refuse the same operands for the
same reason.

Results:

* `check_eq_ok`: the operands that are accepted.
* `operands_append`, one for each capability: inputs beyond those that are read play no part.
* `MemoryCopy.operands_granted`, `MemoryCopy.operands_refused`: what a copy is given, and that it is
  never refused because of a block.
-/
namespace Microbench

/-! ## Single checks -/

theorem bind_eq_ok {x : Except ε α} {f : α → Except ε β} {value : β} :
    (x >>= f) = .ok value ↔ ∃ first, x = .ok first ∧ f first = .ok value := by
  constructor
  · exact ok_of_bind
  · rintro ⟨first, rfl, h⟩
    exact h

theorem bind_ne_error {x : Except ε α} {f : α → Except ε β} {failure : ε}
    (first : x ≠ .error failure) (rest : ∀ a, f a ≠ .error failure) :
    (x >>= f) ≠ .error failure := by
  cases x with
  | error => exact fun h => first (by cases h; rfl)
  | ok a => exact rest a

theorem Shape.check_eq_ok {shape : Shape} {expected : Capability} {len : Nat} :
    shape.check expected = .ok len ↔
      shape.capability = expected ∧ shape.elementCount = some len := by
  unfold check
  split
  · next other => exact ⟨nofun, fun h => absurd h.1 other⟩
  · next same =>
    rw [ne_eq, not_not] at same
    cases shape.elementCount <;> simp [same]

namespace Buffer

variable {b : Buffer} {role : BufferRole}

theorem require_eq_ok {element : ElementType} {view : Buffer → Option α} {data : α} :
    require role element view b = .ok data ↔ view b = some data := by
  constructor
  · exact require_ok
  · intro h
    rw [require, h]

theorem requireF32_eq_ok {data : Array Float32} :
    b.requireF32 role = .ok data ↔ b = .f32 data := by
  rw [requireF32, require_eq_ok]
  cases b <;> simp [f32?]

theorem requireI16_eq_ok {data : Array Int16} :
    b.requireI16 role = .ok data ↔ b = .i16 data := by
  rw [requireI16, require_eq_ok]
  cases b <;> simp [i16?]

theorem requireI32_eq_ok {data : Array Int32} :
    b.requireI32 role = .ok data ↔ b = .i32 data := by
  rw [requireI32, require_eq_ok]
  cases b <;> simp [i32?]

theorem requireBytes_eq_ok {data : Array UInt8} :
    b.requireBytes role = .ok data ↔ b = .bytes data := by
  rw [requireBytes, require_eq_ok]
  cases b <;> simp [bytes?]

theorem f32_holds {data : Array Float32} {len : Nat} :
    (f32 data).Holds .f32 len ↔ data.size = len := ⟨(·.size), (⟨rfl, ·⟩)⟩

theorem i16_holds {data : Array Int16} {len : Nat} :
    (i16 data).Holds .i16 len ↔ data.size = len := ⟨(·.size), (⟨rfl, ·⟩)⟩

theorem bytes_holds {data : Array UInt8} {len : Nat} :
    (bytes data).Holds .bytes len ↔ data.size = len := ⟨(·.size), (⟨rfl, ·⟩)⟩

theorem Holds.i32 {len : Nat} (h : b.Holds .i32 len) : ∃ data, data.size = len ∧ b = .i32 data := by
  obtain ⟨type, size⟩ := h
  cases b with
  | i32 data => exact ⟨data, size, rfl⟩
  | _ => cases type

end Buffer

namespace Inputs

variable {inputs : Inputs} {index : Nat}

theorem input_eq_ok {b : Buffer} :
    inputs.input index = .ok b ↔ inputs.buffers[index]? = some b := by
  unfold input
  cases inputs.buffers[index]? <;> simp

theorem f32_eq_ok {data : Array Float32} :
    inputs.f32 index = .ok data ↔ inputs.buffers[index]? = some (.f32 data) := by
  simp only [f32, bind_eq_ok, input_eq_ok, Buffer.requireF32_eq_ok, ↓existsAndEq, and_true]

theorem i16_eq_ok {data : Array Int16} :
    inputs.i16 index = .ok data ↔ inputs.buffers[index]? = some (.i16 data) := by
  simp only [i16, bind_eq_ok, input_eq_ok, Buffer.requireI16_eq_ok, ↓existsAndEq, and_true]

theorem bytes_eq_ok {data : Array UInt8} :
    inputs.bytes index = .ok data ↔ inputs.buffers[index]? = some (.bytes data) := by
  simp only [bytes, bind_eq_ok, input_eq_ok, Buffer.requireBytes_eq_ok, ↓existsAndEq, and_true]

/-- Buffers behind the one that is read play no part. -/
theorem input_append {shape : Shape} {buffers : List Buffer} (extra : List Buffer)
    (h : index < buffers.length) :
    (Inputs.mk shape (buffers ++ extra)).input index = (Inputs.mk shape buffers).input index := by
  simp only [input, List.getElem?_append_left h, List.getElem?_eq_getElem h]

end Inputs

/-! ## The check of a capability -/

/-- The check that all kernels of the capability make. -/
def Capability.check (c : Capability) (inputs : Inputs) (output : Buffer) : Except Failure Unit :=
  match c with
  | .matrixMultiply => (MatrixMultiply.operands inputs output).map fun _ => ()
  | .vectorAdd => (VectorAdd.operands inputs output).map fun _ => ()
  | .memoryCopy => (MemoryCopy.operands inputs output).map fun _ => ()
  | .modifyInPlace => (ModifyInPlace.operands inputs output).map fun _ => ()

/-- Operands for a capability: the shape belongs to it and has an element count, and the inputs
that are read and the output have its element type and that many elements. A working set that is
modified in place has at least one. -/
structure Capability.Accepts (c : Capability) (inputs : Inputs) (output : Buffer) (len : Nat) :
    Prop where
  capability : inputs.shape.capability = c
  count : inputs.shape.elementCount = some len
  inputs : ∀ index < c.inputCount, ∃ b, inputs.buffers[index]? = some b ∧ b.Holds c.elementType len
  output : output.Holds c.elementType len
  pos : c = .modifyInPlace → 0 < len

section Checks

variable {inputs : Inputs} {output : Buffer}

theorem map_unit_eq_ok {x : Except ε α} : (x.map fun _ => ()) = .ok () ↔ ∃ a, x = .ok a := by
  cases x <;> simp [Except.map]

theorem Shape.elementCount_square {shape : Shape} {len : Nat}
    (capability : shape.capability = .matrixMultiply) (h : shape.elementCount = some len) :
    len = shape.size * shape.size := by
  rw [elementCount_eq_some h, elements, capability]

theorem word?_le {value word : Nat} (h : word? value = some word) : word ≤ maxWord := by
  obtain ⟨rfl, fits⟩ := word?_eq_some.1 h
  exact fits

theorem Shape.elementCount_le {shape : Shape} {len : Nat} (h : shape.elementCount = some len) :
    len ≤ maxWord := by
  unfold elementCount at h
  split at h
  · exact word?_le h
  · exact word?_le h
  · exact word?_le h
  · obtain ⟨bytes, known, rfl⟩ := Option.map_eq_some_iff.1 h
    exact Nat.le_trans (Nat.div_le_self ..) (word?_le known)

theorem Capability.Accepts.output_fits {c : Capability} {len : Nat}
    (h : c.Accepts inputs output len) : output.size ≤ maxWord := by
  rw [h.output.size]
  exact Shape.elementCount_le h.count

theorem MatrixMultiply.operands_isOk_iff : (∃ o, operands inputs output = .ok o) ↔
    ∃ len, Capability.Accepts .matrixMultiply inputs output len := by
  constructor
  · rintro ⟨o, h⟩
    obtain ⟨len, checked, h⟩ := ok_of_bind h
    obtain ⟨lhs, left, h⟩ := ok_of_bind h
    obtain ⟨rhs, right, h⟩ := ok_of_bind h
    obtain ⟨out, typed, h⟩ := ok_of_bind h
    obtain ⟨capability, count⟩ := Shape.check_eq_ok.1 checked
    obtain rfl := Shape.elementCount_square capability count
    dsimp only at h
    split at h
    · next sizes =>
      refine ⟨_, capability, count, fun index hindex => ?_,
        sizes.2.2 ▸ Buffer.requireF32_holds typed, nofun⟩
      obtain rfl | rfl : index = 0 ∨ index = 1 := by
        have : Capability.inputCount .matrixMultiply = 2 := rfl
        omega
      · exact ⟨_, Inputs.f32_eq_ok.1 left, Buffer.f32_holds.2 sizes.1⟩
      · exact ⟨_, Inputs.f32_eq_ok.1 right, Buffer.f32_holds.2 sizes.2.1⟩
    · cases h
  · rintro ⟨len, capability, count, read, out, -⟩
    obtain rfl := Shape.elementCount_square capability count
    obtain ⟨first, left, holds⟩ := read 0 (by decide)
    obtain ⟨lhs, rfl⟩ := holds.f32
    obtain ⟨second, right, holds⟩ := read 1 (by decide)
    obtain ⟨rhs, rfl⟩ := holds.f32
    obtain ⟨data, rfl⟩ := out.f32
    simp only [operands, bind_eq_ok]
    refine ⟨⟨_, ⟨lhs⟩, ⟨rhs⟩, ⟨data⟩⟩, _, Shape.check_eq_ok.2 ⟨capability, count⟩, _,
      Inputs.f32_eq_ok.2 left, _,
      Inputs.f32_eq_ok.2 right, _, Buffer.requireF32_eq_ok.2 rfl, ?_⟩
    exact dif_pos ⟨lhs.size_toArray, rhs.size_toArray, data.size_toArray⟩

theorem VectorAdd.operands_isOk_iff : (∃ o, operands inputs output = .ok o) ↔
    ∃ len, Capability.Accepts .vectorAdd inputs output len := by
  constructor
  · rintro ⟨o, h⟩
    obtain ⟨len, checked, h⟩ := ok_of_bind h
    obtain ⟨lhs, left, h⟩ := ok_of_bind h
    obtain ⟨rhs, right, h⟩ := ok_of_bind h
    obtain ⟨out, typed, h⟩ := ok_of_bind h
    obtain ⟨capability, count⟩ := Shape.check_eq_ok.1 checked
    split at h
    · next sizes =>
      refine ⟨_, capability, count, fun index hindex => ?_,
        sizes.2.2 ▸ Buffer.requireI16_holds typed, nofun⟩
      obtain rfl | rfl : index = 0 ∨ index = 1 := by
        have : Capability.inputCount .vectorAdd = 2 := rfl
        omega
      · exact ⟨_, Inputs.i16_eq_ok.1 left, Buffer.i16_holds.2 sizes.1⟩
      · exact ⟨_, Inputs.i16_eq_ok.1 right, Buffer.i16_holds.2 sizes.2.1⟩
    · cases h
  · rintro ⟨len, capability, count, read, out, -⟩
    obtain ⟨first, left, holds⟩ := read 0 (by decide)
    obtain ⟨lhs, rfl⟩ := holds.i16
    obtain ⟨second, right, holds⟩ := read 1 (by decide)
    obtain ⟨rhs, rfl⟩ := holds.i16
    obtain ⟨data, rfl⟩ := out.i16
    simp only [operands, bind_eq_ok]
    refine ⟨⟨len, lhs, rhs, data⟩, _, Shape.check_eq_ok.2 ⟨capability, count⟩, _,
      Inputs.i16_eq_ok.2 left, _,
      Inputs.i16_eq_ok.2 right, _, Buffer.requireI16_eq_ok.2 rfl, ?_⟩
    exact dif_pos ⟨lhs.size_toArray, rhs.size_toArray, data.size_toArray⟩

theorem MemoryCopy.operands_isOk_iff : (∃ o, operands inputs output = .ok o) ↔
    ∃ len, Capability.Accepts .memoryCopy inputs output len := by
  constructor
  · rintro ⟨o, h⟩
    obtain ⟨len, checked, h⟩ := ok_of_bind h
    obtain ⟨src, source, h⟩ := ok_of_bind h
    obtain ⟨dst, typed, h⟩ := ok_of_bind h
    obtain ⟨capability, count⟩ := Shape.check_eq_ok.1 checked
    split at h
    · next sizes =>
      refine ⟨_, capability, count, fun index hindex => ?_,
        sizes.2 ▸ Buffer.requireBytes_holds typed, nofun⟩
      obtain rfl : index = 0 := by
        have : Capability.inputCount .memoryCopy = 1 := rfl
        omega
      exact ⟨_, Inputs.bytes_eq_ok.1 source, Buffer.bytes_holds.2 sizes.1⟩
    · cases h
  · rintro ⟨len, capability, count, read, out, -⟩
    obtain ⟨first, source, holds⟩ := read 0 (by decide)
    obtain ⟨src, size, rfl⟩ := holds.bytes
    obtain ⟨dst, size', rfl⟩ := out.bytes
    simp only [operands, bind_eq_ok]
    refine ⟨⟨src, dst⟩, _, Shape.check_eq_ok.2 ⟨capability, count⟩, _,
      Inputs.bytes_eq_ok.2 source, _,
      Buffer.requireBytes_eq_ok.2 rfl, ?_⟩
    exact if_pos ⟨size, size'⟩

theorem ModifyInPlace.operands_isOk_iff : (∃ o, operands inputs output = .ok o) ↔
    ∃ len, Capability.Accepts .modifyInPlace inputs output len := by
  constructor
  · rintro ⟨o, h⟩
    obtain ⟨len, checked, h⟩ := ok_of_bind h
    obtain ⟨data, typed, h⟩ := ok_of_bind h
    obtain ⟨capability, count⟩ := Shape.check_eq_ok.1 checked
    split at h
    · next sizes =>
      refine ⟨_, capability, count, fun index hindex => ?_,
        sizes.1 ▸ Buffer.requireI32_holds typed, fun _ => sizes.2⟩
      exact absurd hindex (Nat.not_lt_zero index)
    · cases h
  · rintro ⟨len, capability, count, -, out, pos⟩
    obtain ⟨data, size, rfl⟩ := out.i32
    simp only [operands, bind_eq_ok]
    refine ⟨⟨len, ⟨data, size⟩, pos rfl⟩, _, Shape.check_eq_ok.2 ⟨capability, count⟩, _,
      Buffer.requireI32_eq_ok.2 rfl, ?_⟩
    exact dif_pos ⟨size, pos rfl⟩

theorem check_eq_ok {c : Capability} :
    c.check inputs output = .ok () ↔ ∃ len, c.Accepts inputs output len := by
  cases c with
  | matrixMultiply => exact map_unit_eq_ok.trans MatrixMultiply.operands_isOk_iff
  | vectorAdd => exact map_unit_eq_ok.trans VectorAdd.operands_isOk_iff
  | memoryCopy => exact map_unit_eq_ok.trans MemoryCopy.operands_isOk_iff
  | modifyInPlace => exact map_unit_eq_ok.trans ModifyInPlace.operands_isOk_iff

end Checks

/-! ## Surplus inputs -/

section Surplus

variable {shape : Shape} {buffers : List Buffer} {output : Buffer} (extra : List Buffer)

theorem MatrixMultiply.operands_append
    (h : Capability.inputCount .matrixMultiply ≤ buffers.length) :
    operands ⟨shape, buffers ++ extra⟩ output = operands ⟨shape, buffers⟩ output := by
  have first := @Inputs.input_append 0 shape buffers extra (Nat.lt_of_lt_of_le (by decide) h)
  have second := @Inputs.input_append 1 shape buffers extra (Nat.lt_of_lt_of_le (by decide) h)
  simp only [operands, Inputs.f32, first, second]

theorem VectorAdd.operands_append (h : Capability.inputCount .vectorAdd ≤ buffers.length) :
    operands ⟨shape, buffers ++ extra⟩ output = operands ⟨shape, buffers⟩ output := by
  have first := @Inputs.input_append 0 shape buffers extra (Nat.lt_of_lt_of_le (by decide) h)
  have second := @Inputs.input_append 1 shape buffers extra (Nat.lt_of_lt_of_le (by decide) h)
  simp only [operands, Inputs.i16, first, second]

theorem MemoryCopy.operands_append (h : Capability.inputCount .memoryCopy ≤ buffers.length) :
    operands ⟨shape, buffers ++ extra⟩ output = operands ⟨shape, buffers⟩ output := by
  have first := @Inputs.input_append 0 shape buffers extra (Nat.lt_of_lt_of_le (by decide) h)
  simp only [operands, Inputs.bytes, first]

theorem ModifyInPlace.operands_append :
    operands ⟨shape, buffers ++ extra⟩ output = operands ⟨shape, buffers⟩ output := rfl

end Surplus

/-! ## Operands of copies -/

namespace MemoryCopy

variable {inputs : Inputs} {output : Buffer}

/-- The source and the destination that a shape of memory copies asks for. -/
structure Operands.Granted (o : Operands) (inputs : Inputs) : Prop where
  capability : inputs.shape.capability = .memoryCopy
  source : inputs.buffers[0]? = some (.bytes o.src)
  src : o.src.size = inputs.shape.size * blockBytes
  dst : o.dst.size = inputs.shape.size * blockBytes

theorem operands_granted {o : Operands} (h : operands inputs output = .ok o) :
    o.Granted inputs := by
  obtain ⟨len, checked, h⟩ := ok_of_bind h
  obtain ⟨src, source, h⟩ := ok_of_bind h
  obtain ⟨dst, -, h⟩ := ok_of_bind h
  obtain ⟨capability, count⟩ := Shape.check_eq_ok.1 checked
  have bytes : len = inputs.shape.size * blockBytes := by
    rw [Shape.elementCount_eq_some count, Shape.elements, capability]
  split at h
  · next sizes =>
    cases h
    exact ⟨capability, Inputs.bytes_eq_ok.1 source, sizes.1.trans bytes, sizes.2.trans bytes⟩
  · cases h

theorem Operands.Granted.pairs {o : Operands} (h : o.Granted inputs) :
    o.pairs.length = inputs.shape.size ∧
      ∀ p ∈ o.pairs, p.1.size = blockBytes ∧ p.2.size = blockBytes :=
  pairs_whole h.dst h.src

/-- Operands are refused before any block is copied, so never because of one. -/
theorem operands_refused (dst src : Nat) :
    operands inputs output ≠ .error (.unequalBlocks dst src) := by
  have checked : inputs.shape.check .memoryCopy ≠ .error (.unequalBlocks dst src) := by
    unfold Shape.check
    split
    · nofun
    · split <;> nofun
  have read : inputs.input 0 ≠ .error (.unequalBlocks dst src) := by
    unfold Inputs.input
    split <;> nofun
  have typed (role : BufferRole) (b : Buffer) :
      b.requireBytes role ≠ .error (.unequalBlocks dst src) := by
    unfold Buffer.requireBytes Buffer.require
    split <;> nofun
  refine bind_ne_error checked fun len => ?_
  refine bind_ne_error (bind_ne_error read (typed _)) fun source => ?_
  refine bind_ne_error (typed _ output) fun target => ?_
  split <;> nofun

end MemoryCopy

end Microbench
