import Microbench.Workload

/-!
# Generated workloads

Every buffer of a workload has the element type and the element count of its shape, whether its
elements are counted up or drawn. Whether there is a workload is settled by the size, the footprint
and the grant of one buffer, and not by what fills it.

Results:

* `generate_eq`: generation as a table.
* `generate_eq_ok`: when there is a workload, and which.
* `generate_error`: why a workload is refused.
* `generate_holds`: the types and lengths of its buffers.
* `generate_ok_iff`: which shapes have a workload.
-/
namespace Microbench

/-! ## Draws of a stream -/

theorem drawn_size (one : σ → α × σ) (count : Nat) (s : σ) :
    (drawn one count s).1.size = count := by
  unfold drawn
  induction count with
  | zero => rfl
  | succ count ih => rw [Nat.fold_succ, Array.size_push, ih]

theorem Stream.bytes_size (d : Stream σ) (count : Nat) (s : σ) :
    (d.bytes count s).1.size = count := by
  have outputs := drawn_size d.next ((count + 7) / 8) s
  have eight (output : UInt64) : (littleEndian output).size = 8 := Array.size_ofFn
  have total : ((drawn d.next ((count + 7) / 8) s).1.flatMap littleEndian).size
      = (count + 7) / 8 * 8 := by
    rw [Array.size_flatMap]
    simp only [eight]
    rw [← Array.sum_toList, Array.toList_map, List.map_const', List.sum_replicate_nat,
      Array.length_toList, outputs]
  show (Array.extract ((drawn d.next ((count + 7) / 8) s).1.flatMap littleEndian) 0 count).size
    = count
  rw [Array.size_extract, total]
  omega

/-- The buffer has elements of one type, and this many. -/
structure Buffer.Holds (element : ElementType) (len : Nat) (b : Buffer) : Prop where
  elementType : b.elementType = element
  size : b.size = len

namespace Buffer

theorem counting_holds (element : ElementType) (len : Nat) :
    (counting element len).Holds element len := by
  cases element <;> exact ⟨rfl, Array.size_ofFn⟩

variable {b : Buffer} {len : Nat}

theorem Holds.f32 (h : b.Holds .f32 len) : ∃ data : Vector Float32 len, b = .f32 data.toArray := by
  obtain ⟨type, size⟩ := h
  cases b with
  | f32 data => exact ⟨⟨data, size⟩, rfl⟩
  | _ => cases type

theorem Holds.i16 (h : b.Holds .i16 len) : ∃ data : Vector Int16 len, b = .i16 data.toArray := by
  obtain ⟨type, size⟩ := h
  cases b with
  | i16 data => exact ⟨⟨data, size⟩, rfl⟩
  | _ => cases type

theorem Holds.bytes (h : b.Holds .bytes len) : ∃ data, data.size = len ∧ b = .bytes data := by
  obtain ⟨type, size⟩ := h
  cases b with
  | bytes data => exact ⟨data, size, rfl⟩
  | _ => cases type

end Buffer

namespace Stream

variable (d : Stream σ)

theorem buffer_holds (element : ElementType) (len : Nat) (s : σ) :
    (d.buffer element len s).1.Holds element len := by
  cases element with
  | f32 => exact ⟨rfl, drawn_size d.fraction len s⟩
  | i16 => exact ⟨rfl, drawn_size d.int16 len s⟩
  | i32 => exact ⟨rfl, drawn_size d.int32 len s⟩
  | bytes => exact ⟨rfl, d.bytes_size len s⟩

theorem take_holds (element : ElementType) (len : Nat) (source : Option σ) :
    (d.take element len source).1.Holds element len := by
  cases source with
  | none => exact Buffer.counting_holds element len
  | some s => exact d.buffer_holds element len s

end Stream

/-! ## Footprints -/

namespace Shape

/-- Bytes of all inputs and the output together, before any limit is applied. -/
def footprint (s : Shape) : Nat := s.elements * s.elementType.width * (s.inputCount + 1)

/-- The footprint is a word, and each buffer is granted. -/
structure Fits (a : Allocator) (s : Shape) : Prop where
  footprint : s.footprint ≤ maxWord
  granted : a.grants (s.elements * s.elementType.width) = true

/-- A product of words is a word only if its factors are. -/
theorem word?_bind_mul {n k : Nat} (hk : 0 < k) :
    ((word? n).bind fun n => word? (n * k)) = word? (n * k) := by
  unfold word?
  by_cases h : n ≤ maxWord
  · rw [if_pos h, Option.bind_some]
  · rw [if_neg h, Option.bind_none, if_neg]
    have := Nat.le_mul_of_pos_right n hk
    omega

theorem bufferBytes_eq (s : Shape) :
    s.bufferBytes = word? (s.elements * s.elementType.width) := by
  obtain ⟨c, n, steps⟩ := s
  cases c with
  | matrixMultiply => exact word?_bind_mul (ElementType.width_pos _)
  | vectorAdd => exact word?_bind_mul (ElementType.width_pos _)
  | memoryCopy => exact word?_bind_mul (ElementType.width_pos _)
  | modifyInPlace =>
    -- A kilobyte is a whole number of elements.
    have whole : n * kilobyte / ElementType.i32.width * ElementType.i32.width = n * kilobyte :=
      Nat.div_mul_cancel (Nat.dvd_mul_left_of_dvd (by decide) n)
    show ((word? (n * kilobyte)).map (· / ElementType.i32.width)).bind
      (fun n => word? (n * ElementType.i32.width))
        = word? (n * kilobyte / ElementType.i32.width * ElementType.i32.width)
    rw [whole, Option.bind_map]
    unfold word?
    split
    · next h => simp only [Option.bind_some, Function.comp, whole, if_pos h]
    · rfl

theorem footprintBytes_eq (s : Shape) : s.footprintBytes = word? s.footprint := by
  rw [footprintBytes, bufferBytes_eq, word?_bind_mul (Nat.succ_pos _), footprint]

theorem elementCount_of_footprint {s : Shape} (h : s.footprint ≤ maxWord) :
    s.elementCount = some s.elements := by
  have some : s.footprintBytes = some s.footprint := by
    rw [footprintBytes_eq]
    exact word?_eq_some.2 ⟨rfl, h⟩
  obtain ⟨bytes, counted, -⟩ := Option.bind_eq_some_iff.1 some
  obtain ⟨len, counted, -⟩ := Option.bind_eq_some_iff.1 counted
  rw [counted, elementCount_eq_some counted]

theorem buffer_le_footprint (s : Shape) : s.elements * s.elementType.width ≤ s.footprint :=
  Nat.le_mul_of_pos_right _ (Nat.succ_pos _)

end Shape

/-! ## Filled buffers -/

/-- Filled buffers in order, one stream running through all of them. -/
def Stream.buffersOf (d : Stream σ) (element : ElementType) (len : Nat) :
    Nat → Option σ → List Buffer
  | 0, _ => []
  | count + 1, source =>
    let (buffer, source) := d.take element len source
    buffer :: d.buffersOf element len count source

theorem Stream.buffersOf_holds {d : Stream σ} {element : ElementType} {len count : Nat}
    {source : Option σ} : (d.buffersOf element len count source).length = count ∧
      ∀ b ∈ d.buffersOf element len count source, b.Holds element len := by
  induction count generalizing source with
  | zero => exact ⟨rfl, fun b hb => absurd hb List.not_mem_nil⟩
  | succ count ih =>
    obtain ⟨length, holds⟩ := @ih (d.take element len source).2
    exact ⟨congrArg (· + 1) length,
      List.forall_mem_cons.2 ⟨d.take_holds element len source, holds⟩⟩

/-- The workload for a shape, when memory is no matter. -/
def Stream.filled (d : Stream σ) (fill : Fill) (shape : Shape) : Workload where
  inputs := ⟨shape, d.buffersOf shape.elementType shape.elements shape.inputCount (d.source fill)⟩
  output := .zeros shape.elementType shape.elements

/-! ## Generated workloads -/

namespace Workload

section Filling

variable (a : Supply) {element : ElementType} {len : Nat} (source : Option a.State)

theorem fillInputs_granted (granted : a.grants (min (len * element.width) maxWord) = true)
    (count : Nat) : fillInputs a element len count source
      = .ok (a.stream.buffersOf element len count source) := by
  induction count generalizing source with
  | zero => rfl
  | succ count ih =>
    rw [fillInputs, Buffer.zeroed, if_pos granted]
    show (fillInputs a element len count (a.stream.take element len source).2 >>= _) = _
    rw [ih]
    rfl

theorem fillInputs_refused (refused : ¬a.grants (min (len * element.width) maxWord) = true)
    (count : Nat) : fillInputs a element len (count + 1) source
      = .error (.allocation (min (len * element.width) maxWord)) := by
  rw [fillInputs, Buffer.zeroed, if_neg refused]
  rfl

end Filling

/-- Generation as a table. -/
theorem generate_eq (a : Supply) (fill : Fill) (shape : Shape) : generate a fill shape =
    if shape.size = 0 then .error (.emptyWorkload shape.capability)
    else if maxWord < shape.footprint then .error (.allocation maxWord)
    else if a.grants (shape.elements * shape.elementType.width) then
      .ok (a.stream.filled fill shape)
    else .error (.allocation (shape.elements * shape.elementType.width)) := by
  unfold generate
  by_cases empty : shape.size = 0
  · rw [if_pos empty, if_pos empty]
    rfl
  rw [if_neg empty, if_neg empty]
  by_cases large : maxWord < shape.footprint
  · have none : shape.footprintBytes = none := by
      rw [Shape.footprintBytes_eq, word?, if_neg (Nat.not_le.2 large)]
    rw [if_pos large, none]
    cases shape.elementCount <;> rfl
  have word := Nat.not_lt.1 large
  have some : shape.footprintBytes = some shape.footprint := by
    rw [Shape.footprintBytes_eq, word?, if_pos word]
  have small : min (shape.elements * shape.elementType.width) maxWord
      = shape.elements * shape.elementType.width :=
    Nat.min_eq_left (Nat.le_trans shape.buffer_le_footprint word)
  rw [if_neg large, Shape.elementCount_of_footprint word, some]
  show (do
    let buffers ← fillInputs a shape.elementType shape.elements shape.inputCount
      (a.stream.source fill)
    let output ← Buffer.zeroed a.toAllocator shape.elementType shape.elements
    return (⟨⟨shape, buffers⟩, output⟩ : Workload)) = _
  by_cases granted : a.grants (shape.elements * shape.elementType.width) = true
  · rw [fillInputs_granted a _ (small.symm ▸ granted), Buffer.zeroed, small, if_pos granted,
      if_pos granted]
    rfl
  · -- Inputs are asked for before the output, but by the same request.
    have refused : ¬a.grants (min (shape.elements * shape.elementType.width) maxWord) = true := by
      rwa [small]
    rw [if_neg granted]
    cases shape.inputCount with
    | zero =>
      rw [fillInputs, Buffer.zeroed, if_neg refused, small]
      rfl
    | succ count =>
      rw [fillInputs_refused a _ refused, small]
      rfl

variable {a : Supply} {fill : Fill} {shape : Shape} {w : Workload}

theorem generate_eq_ok : generate a fill shape = .ok w ↔
    0 < shape.size ∧ shape.Fits a.toAllocator ∧ w = a.stream.filled fill shape := by
  rw [generate_eq]
  constructor
  · intro h
    split at h
    · cases h
    next size =>
      split at h
      · cases h
      next word =>
        split at h
        · next granted =>
          exact ⟨Nat.pos_of_ne_zero size, ⟨Nat.not_lt.1 word, granted⟩, (Except.ok.inj h).symm⟩
        · cases h
  · rintro ⟨size, fits, rfl⟩
    rw [if_neg (Nat.ne_of_gt size), if_neg (Nat.not_lt.2 fits.footprint), if_pos fits.granted]

/-- A workload is refused for its size or for want of memory. -/
theorem generate_error {failure : Failure} (h : generate a fill shape = .error failure) :
    shape.size = 0 ∧ failure = .emptyWorkload shape.capability ∨
      ∃ bytes, failure = .allocation bytes := by
  rw [generate_eq] at h
  split at h
  · next empty => exact .inl ⟨empty, (Except.error.inj h).symm⟩
  split at h
  · exact .inr ⟨_, (Except.error.inj h).symm⟩
  split at h
  · cases h
  · exact .inr ⟨_, (Except.error.inj h).symm⟩

theorem generate_shape (h : generate a fill shape = .ok w) : w.shape = shape := by
  obtain ⟨-, -, rfl⟩ := generate_eq_ok.1 h
  rfl

theorem generate_size_pos (h : generate a fill shape = .ok w) : 0 < shape.size :=
  (generate_eq_ok.1 h).1

theorem generate_holds (h : generate a fill shape = .ok w) : ∃ len buffers,
    shape.elementCount = some len ∧ buffers.length = shape.inputCount ∧
      (∀ b ∈ buffers, b.Holds shape.elementType len) ∧
      w = ⟨⟨shape, buffers⟩, .zeros shape.elementType len⟩ := by
  obtain ⟨-, fits, rfl⟩ := generate_eq_ok.1 h
  obtain ⟨length, holds⟩ := @Stream.buffersOf_holds _ a.stream shape.elementType shape.elements
    shape.inputCount (a.stream.source fill)
  exact ⟨_, _, Shape.elementCount_of_footprint fits.footprint, length, holds, rfl⟩

/-- A shape of positive size has a workload exactly if it fits. -/
theorem generate_ok_iff (pos : 0 < shape.size) :
    (∃ w, generate a fill shape = .ok w) ↔ shape.Fits a.toAllocator := by
  constructor
  · rintro ⟨w, h⟩
    exact (generate_eq_ok.1 h).2.1
  · intro fits
    exact ⟨_, generate_eq_ok.2 ⟨pos, fits, rfl⟩⟩

end Workload

end Microbench
