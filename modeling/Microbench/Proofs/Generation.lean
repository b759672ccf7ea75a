import Microbench.Proofs.Float.Rounding
import Microbench.Proofs.Workload

/-!
# What is generated

Generation is settled by the size, the exact footprint and the grant of one buffer, in this order.
The footprint is taken without any limit, so no product overflows before it does. What is generated
depends neither on the memory that is left nor, as far as types and lengths go, on the generator.

Results:

* `footprintBytes_eq_some`, `footprintBytes_eq_none`: the footprint as a word.
* `counting_countsUp`: what a buffer holds that is filled by counting up.
* `generation_settled`: when it fails, with which failure, and what there is otherwise.
-/
namespace Microbench

/-! ## Lengths and footprints -/

/-- Elements in each buffer at a size. -/
def Capability.length : Capability → Nat → Nat
  | .matrixMultiply, n => n * n
  | .vectorAdd, len => len
  | .memoryCopy, blocks => 512 * blocks
  | .modifyInPlace, kb => 256 * kb

namespace Shape

/-- Elements in each buffer of the workload. -/
def length (s : Shape) : Nat := s.capability.length s.size

theorem elements_eq_length (s : Shape) : s.elements = s.length := by
  obtain ⟨c, n, steps⟩ := s
  cases c with
  | matrixMultiply => rfl
  | vectorAdd => rfl
  | memoryCopy => exact Nat.mul_comm ..
  | modifyInPlace =>
    show n * 1024 / 4 = 256 * n
    omega

theorem footprint_eq (s : Shape) :
    s.footprint = (s.inputCount + 1) * (s.length * s.elementType.width) := by
  rw [footprint, elements_eq_length, Nat.mul_comm]

/-- Bytes of one buffer. -/
theorem footprint_div (s : Shape) :
    s.footprint / (s.inputCount + 1) = s.length * s.elementType.width := by
  rw [footprint_eq, Nat.mul_div_cancel_left _ (Nat.succ_pos _)]

theorem footprintBytes_eq_some {s : Shape} {bytes : Nat} :
    s.footprintBytes = some bytes ↔ bytes = s.footprint ∧ s.footprint < 2 ^ 64 := by
  rw [footprintBytes_eq, word?_eq_some, maxWord]
  omega

theorem footprintBytes_eq_none {s : Shape} : s.footprintBytes = none ↔ 2 ^ 64 ≤ s.footprint := by
  rw [footprintBytes_eq, word?, maxWord]
  split
  · next h => exact iff_of_false (Option.some_ne_none _) (by omega)
  · next h => exact iff_of_true rfl (by omega)

/-- No buffer has an odd number of bytes, as the largest word would be. -/
theorem bufferSize_ne_maxWord (s : Shape) : s.length * s.elementType.width ≠ maxWord := by
  have even : s.length * s.elementType.width % 2 = 0 := by
    obtain ⟨c, n, steps⟩ := s
    cases c with
    | matrixMultiply =>
      show n * n * 4 % 2 = 0
      omega
    | vectorAdd =>
      show n * 2 % 2 = 0
      omega
    | memoryCopy =>
      show 512 * n * 1 % 2 = 0
      omega
    | modifyInPlace =>
      show 256 * n * 4 % 2 = 0
      omega
  rw [maxWord]
  omega

end Shape

/-! ## Counting up -/

/-- Element `i` is `i`: rounded to the nearest number, or reduced to the width of the integer. -/
def Buffer.CountsUp : Buffer → Prop
  | .f32 data => ∀ (i : Nat) (h : i < data.size), RoundsTo i data[i] ∧ data[i].abs = data[i]
  | .i16 data => ∀ (i : Nat) (h : i < data.size), data[i].toInt = (i : Int).bmod (2 ^ 16)
  | .i32 data => ∀ (i : Nat) (h : i < data.size), data[i].toInt = (i : Int).bmod (2 ^ 32)
  | .bytes data => ∀ (i : Nat) (h : i < data.size), data[i].toNat = i % 256

theorem Buffer.counting_countsUp (element : ElementType) {len : Nat} (fits : len ≤ maxWord) :
    (counting element len).CountsUp := by
  cases element with
  | f32 =>
    intro i hi
    have below : i < len := by rwa [Array.size_ofFn] at hi
    have word : (UInt64.ofNat i).toNat = i := by
      have size : UInt64.size = maxWord + 1 := rfl
      exact UInt64.toNat_ofNat_of_lt' (by omega)
    have rounds := toFloat32_rounds (UInt64.ofNat i)
    rw [word] at rounds
    rw [Array.getElem_ofFn]
    exact rounds
  | i16 =>
    intro i hi
    rw [Array.getElem_ofFn]
    exact Int16.toInt_ofNat
  | i32 =>
    intro i hi
    rw [Array.getElem_ofFn]
    exact Int32.toInt_ofNat
  | bytes =>
    intro i hi
    rw [Array.getElem_ofFn]
    exact UInt8.toNat_ofNat

/-! ## Generated workloads -/

theorem Stream.buffersOf_none (d : Stream σ) (element : ElementType) (len count : Nat) :
    d.buffersOf element len count none = List.replicate count (.counting element len) := by
  induction count with
  | zero => rfl
  | succ count ih => exact congrArg (_ :: ·) ih

namespace Workload

variable (a : Supply) (fill : Fill) (shape : Shape)

/-- The inputs and the output that a shape asks for. -/
structure Generated (fill : Fill) (shape : Shape) (w : Workload) : Prop where
  own : w.shape = shape
  count : w.inputs.buffers.length = shape.inputCount
  inputs : ∀ b ∈ w.inputs.buffers, b.Holds shape.elementType shape.length
  output : w.output = .zeros shape.elementType shape.length
  sequential : fill = .sequential → ∀ b ∈ w.inputs.buffers, b.CountsUp

theorem filled_generated (d : Stream σ) (fits : shape.elements ≤ maxWord) :
    Generated fill shape (d.filled fill shape) where
  own := rfl
  count := Stream.buffersOf_holds.1
  inputs := by
    rw [← shape.elements_eq_length]
    exact Stream.buffersOf_holds.2
  output := by
    rw [← shape.elements_eq_length]
    rfl
  sequential := by
    rintro rfl b hb
    have same : b ∈ List.replicate shape.inputCount
        (.counting shape.elementType shape.elements) := by
      rw [← d.buffersOf_none]
      exact hb
    rw [List.eq_of_mem_replicate same]
    exact Buffer.counting_countsUp _ fits

/-- The rows of the table, with the bytes of a buffer as a part of the footprint. -/
theorem generate_cases :
    shape.size = 0 ∧ generate a fill shape = .error (.emptyWorkload shape.capability) ∨
    shape.size ≠ 0 ∧ 2 ^ 64 ≤ shape.footprint ∧
      generate a fill shape = .error (.allocation (2 ^ 64 - 1)) ∨
    shape.size ≠ 0 ∧ shape.footprint < 2 ^ 64 ∧
      a.grants (shape.footprint / (shape.inputCount + 1)) = false ∧
      generate a fill shape = .error (.allocation (shape.footprint / (shape.inputCount + 1))) ∨
    shape.size ≠ 0 ∧ shape.footprint < 2 ^ 64 ∧
      a.grants (shape.footprint / (shape.inputCount + 1)) = true ∧
      generate a fill shape = .ok (a.stream.filled fill shape) := by
  have table := generate_eq a fill shape
  rw [Shape.elements_eq_length, ← Shape.footprint_div] at table
  by_cases empty : shape.size = 0
  · rw [if_pos empty] at table
    exact .inl ⟨empty, table⟩
  rw [if_neg empty] at table
  have word : maxWord < shape.footprint ↔ 2 ^ 64 ≤ shape.footprint := by
    rw [maxWord]
    omega
  by_cases large : 2 ^ 64 ≤ shape.footprint
  · rw [if_pos (word.2 large)] at table
    exact .inr (.inl ⟨empty, large, table⟩)
  rw [if_neg (mt word.1 large)] at table
  have small := Nat.not_le.1 large
  cases granted : a.grants (shape.footprint / (shape.inputCount + 1)) with
  | false =>
    rw [granted] at table
    exact .inr (.inr (.inl ⟨empty, small, rfl, table⟩))
  | true =>
    rw [granted] at table
    exact .inr (.inr (.inr ⟨empty, small, rfl, table⟩))

/-- The failures are tried in the order in which they are listed, and those for want of memory are
told apart by their bytes. -/
theorem generation_settled :
    shape.footprint = (shape.inputCount + 1) * (shape.length * shape.elementType.width) ∧
    (∀ bytes, shape.footprintBytes = some bytes ↔
      bytes = shape.footprint ∧ shape.footprint < 2 ^ 64) ∧
    (shape.footprintBytes = none ↔ 2 ^ 64 ≤ shape.footprint) ∧
    (∀ failure, generate a fill shape = .error failure ↔
      shape.size = 0 ∧ failure = .emptyWorkload shape.capability ∨
      shape.size ≠ 0 ∧ 2 ^ 64 ≤ shape.footprint ∧ failure = .allocation (2 ^ 64 - 1) ∨
      shape.size ≠ 0 ∧ shape.footprint < 2 ^ 64 ∧
        a.grants (shape.footprint / (shape.inputCount + 1)) = false ∧
        failure = .allocation (shape.footprint / (shape.inputCount + 1))) ∧
    shape.footprint / (shape.inputCount + 1) ≠ 2 ^ 64 - 1 ∧
    ((∃ w, generate a fill shape = .ok w) ↔ shape.size ≠ 0 ∧ shape.footprint < 2 ^ 64 ∧
      a.grants (shape.footprint / (shape.inputCount + 1)) = true) ∧
    ∀ w, generate a fill shape = .ok w → Generated fill shape w := by
  have odd : shape.footprint / (shape.inputCount + 1) ≠ 2 ^ 64 - 1 := by
    rw [Shape.footprint_div]
    exact shape.bufferSize_ne_maxWord
  have fits (small : shape.footprint < 2 ^ 64) : shape.elements ≤ maxWord := by
    have buffer := shape.buffer_le_footprint
    have element := Nat.le_mul_of_pos_right shape.elements shape.elementType.width_pos
    rw [maxWord]
    omega
  refine ⟨shape.footprint_eq, fun bytes => Shape.footprintBytes_eq_some,
    Shape.footprintBytes_eq_none, fun failure => ?_, odd, ?_, fun w made => ?_⟩
  · rcases generate_cases a fill shape with ⟨empty, table⟩ | ⟨some, large, table⟩ |
      ⟨some, small, refused, table⟩ | ⟨some, small, granted, table⟩ <;> rw [table] <;> grind
  · rcases generate_cases a fill shape with ⟨empty, table⟩ | ⟨some, large, table⟩ |
      ⟨some, small, refused, table⟩ | ⟨some, small, granted, table⟩ <;> rw [table] <;> grind
  · rcases generate_cases a fill shape with ⟨empty, table⟩ | ⟨some, large, table⟩ |
      ⟨some, small, refused, table⟩ | ⟨some, small, granted, table⟩ <;> cases table.symm.trans made
    exact filled_generated fill shape a.stream (fits small)

end Workload

end Microbench
