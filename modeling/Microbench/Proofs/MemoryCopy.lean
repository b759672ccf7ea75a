import Microbench.Kernel.MemoryCopy
import Microbench.Proofs.Kernel
import Microbench.Proofs.Span

/-!
# The copying kernels agree

Results:

* `overwrite_eq`: what a copy over any cover leaves, for blocks of any lengths.
* `copyBytes_copies`, `copySlice_copies`, `copyRegisters_copies`: the three copies of one block, for
  blocks of equal length.
* `join_blocks`: the blocks of some data put together are the data.
* `operation_granted`: an operation leaves the source of its operands.
* `operation_holds`: the type and length of the output are kept.
* `operation_generated`: every kernel that copies blocks of equal length copies the input of a
  generated workload.
-/
namespace Microbench.MemoryCopy

/-! ## One block -/

/-- The source over the first bytes of the destination, as many as both have. -/
def overlaid (dst src : Array UInt8) : Array UInt8 :=
  src.extract 0 (min dst.size src.size) ++ dst.extract (min dst.size src.size) dst.size

theorem overlaid_of_size_eq {dst src : Array UInt8} (h : dst.size = src.size) :
    overlaid dst src = src := by
  simp [overlaid, h]

section Block

variable {cut : (n : Nat) → List (Span n)} {dst src : Array UInt8}

theorem overwrite_size : (overwrite cut dst src).size = dst.size := Vector.size_toArray _

theorem overwrite_getElem (covers : ∀ n, Span.Covers (cut n)) {j : Nat}
    (hj : j < (overwrite cut dst src).size) (hd : j < dst.size) :
    (overwrite cut dst src)[j] = if hs : j < src.size then src[j] else dst[j] := by
  have written := (covers (min dst.size src.size)).foldAll_set (Nat.min_le_left ..)
    (fun i => src.toVector.get ⟨i, Nat.lt_of_lt_of_le i.isLt (Nat.min_le_right ..)⟩) dst.toVector hd
  refine written.trans ?_
  by_cases hs : j < src.size
  · rw [dif_pos hs, dif_pos (by omega)]
    rfl
  · rw [dif_neg hs, dif_neg (by omega)]
    rfl

/-- The cut makes no difference, whether or not its pieces fill the blocks. -/
theorem overwrite_eq (covers : ∀ n, Span.Covers (cut n)) :
    overwrite cut dst src = overlaid dst src := by
  apply Array.ext
  · rw [overwrite_size, overlaid, Array.size_append, Array.size_extract, Array.size_extract]
    omega
  · intro j hj _
    have hd : j < dst.size := by rwa [overwrite_size] at hj
    rw [overwrite_getElem covers hj hd]
    by_cases hs : j < src.size
    · have both : j < min dst.size src.size := Nat.lt_min.2 ⟨hd, hs⟩
      simp [overlaid, hs, both]
    · have rest : min dst.size src.size ≤ j := by omega
      simp [overlaid, hs, rest]

end Block

theorem copyBytes_eq (dst src : Array UInt8) : copyBytes dst src = .ok (overlaid dst src) :=
  congrArg Except.ok (overwrite_eq Span.covers_whole)

theorem copyRegisters_eq (dst src : Array UInt8) : copyRegisters dst src = .ok (overlaid dst src) :=
  congrArg Except.ok (overwrite_eq fun n => Span.covers_lanes n registerBytes)

/-- A copy of one block that copies blocks of equal length. -/
def Copies (copy : BlockCopy) : Prop := ∀ dst src, dst.size = src.size → copy dst src = .ok src

theorem copyBytes_copies : Copies copyBytes := fun dst src h => by
  rw [copyBytes_eq, overlaid_of_size_eq h]

theorem copySlice_copies : Copies copySlice := fun _ _ h => if_pos h

theorem copyRegisters_copies : Copies copyRegisters := fun dst src h => by
  rw [copyRegisters_eq, overlaid_of_size_eq h]

/-! ## All blocks -/

theorem join_eq_flatten (parts : List (Array UInt8)) : join parts = parts.toArray.flatten :=
  (List.foldl_toArray ..).symm

theorem join_blocks (data : Array UInt8) : join (blocks data) = data := by
  have enough : data.size ≤ (data.size + blockBytes - 1) / blockBytes * blockBytes := by
    unfold blockBytes
    omega
  rw [blocks, join_eq_flatten, Span.flatten_pieces, Array.extract_eq_self_of_le enough]

/-- Blocks of data of one length, in pairs. -/
theorem pairs_eq {dst src : Array UInt8} (h : dst.size = src.size) :
    (Operands.mk src dst).pairs
      = (List.range ((src.size + blockBytes - 1) / blockBytes)).map fun b =>
          (dst.extract (b * blockBytes) (b * blockBytes + blockBytes),
            src.extract (b * blockBytes) (b * blockBytes + blockBytes)) := by
  rw [Operands.pairs, blocks, blocks, h, List.zip_map']

theorem pairs_sizes {dst src : Array UInt8} (h : dst.size = src.size) :
    ∀ p ∈ (Operands.mk src dst).pairs, p.1.size = p.2.size := by
  rw [pairs_eq h, List.forall_mem_map]
  intro b _
  rw [Array.size_extract, Array.size_extract, h]

/-- Whole blocks, as many as there are. -/
theorem pairs_whole {n : Nat} {dst src : Array UInt8} (hd : dst.size = n * blockBytes)
    (hs : src.size = n * blockBytes) : (Operands.mk src dst).pairs.length = n ∧
      ∀ p ∈ (Operands.mk src dst).pairs, p.1.size = blockBytes ∧ p.2.size = blockBytes := by
  have count : (src.size + blockBytes - 1) / blockBytes = n := by
    rw [hs]
    unfold blockBytes
    omega
  rw [pairs_eq (hd.trans hs.symm), count, List.length_map, List.length_range, List.forall_mem_map]
  refine ⟨rfl, fun b hb => ?_⟩
  have inside : (b + 1) * blockBytes ≤ n * blockBytes :=
    Nat.mul_le_mul_right _ (List.mem_range.1 hb)
  rw [Array.size_extract, Array.size_extract, hd, hs]
  rw [Nat.add_mul] at inside
  omega

theorem pairs_snd {dst src : Array UInt8} (h : dst.size = src.size) :
    (Operands.mk src dst).pairs.map Prod.snd = blocks src := by
  rw [pairs_eq h, List.map_map]
  rfl

theorem mapM_congr {m : Type → Type} [Monad m] [LawfulMonad m] {α β : Type} {f g : α → m β}
    {xs : List α} (h : ∀ x ∈ xs, f x = g x) : xs.mapM f = xs.mapM g := by
  induction xs with
  | nil => rfl
  | cons x xs ih =>
    obtain ⟨here, rest⟩ := List.forall_mem_cons.1 h
    rw [List.mapM_cons, List.mapM_cons, here, ih rest]

/-- A loop over pairs of equal blocks copies each of them. -/
theorem mapM_copies {copy : BlockCopy} (h : Copies copy) (pairs : List (Array UInt8 × Array UInt8))
    (sizes : ∀ p ∈ pairs, p.1.size = p.2.size) :
    (pairs.mapM fun (dst, src) => copy dst src) = .ok (pairs.map Prod.snd) := by
  have each : ∀ p ∈ pairs, (fun (dst, src) => copy dst src) p = .ok p.2 :=
    fun p hp => h p.1 p.2 (sizes p hp)
  exact (mapM_congr each).trans List.mapM_pure

/-! ## The kernels -/

theorem operands_eq {n steps : Nat} (fits : n * blockBytes ≤ maxWord) {src dst : Array UInt8}
    (hs : src.size = n * blockBytes) (hd : dst.size = n * blockBytes) :
    operands ⟨⟨.memoryCopy, n, steps⟩, [.bytes src]⟩ (.bytes dst) = .ok ⟨src, dst⟩ := by
  have count : word? (n * blockBytes) = some (n * blockBytes) := word?_eq_some.2 ⟨rfl, fits⟩
  have check : Shape.check ⟨.memoryCopy, n, steps⟩ .memoryCopy = .ok (n * blockBytes) := by
    rw [Shape.check, Shape.elementCount, if_neg (fun h => h rfl)]
    simp only [count]
  rw [operands, check]
  exact if_pos ⟨hs, hd⟩

/-- All that a loop over blocks copies, put together. -/
theorem copied_eq {copy : BlockCopy} (h : Copies copy) {o : Operands}
    (same : o.dst.size = o.src.size) :
    (do
      let copied ← o.pairs.mapM fun (dst, src) => copy dst src
      return Buffer.bytes (join copied) : Except Failure Buffer) = .ok (.bytes o.src) := by
  have copied := mapM_copies h _ (pairs_sizes same)
  rw [pairs_snd same] at copied
  rw [copied]
  show Except.ok (Buffer.bytes (join (blocks o.src))) = _
  rw [join_blocks]

theorem operands_holds {inputs : Inputs} {output : Buffer} {o : Operands}
    (h : operands inputs output = .ok o) :
    output.Holds .bytes o.dst.size ∧ o.dst.size = o.src.size := by
  obtain ⟨len, -, h⟩ := ok_of_bind h
  obtain ⟨src, -, h⟩ := ok_of_bind h
  obtain ⟨dst, typed, h⟩ := ok_of_bind h
  split at h
  · next sizes =>
    cases h
    exact ⟨Buffer.requireBytes_holds typed, sizes.2.trans sizes.1.symm⟩
  · cases h

/-- An operation leaves the source of the operands it is granted. -/
theorem operation_granted {copy : BlockCopy} (copies : Copies copy) (inputs : Inputs)
    (output : Buffer) :
    operation copy inputs output = (operands inputs output).map fun o => .bytes o.src := by
  unfold operation
  cases accepted : operands inputs output with
  | error failure => rfl
  | ok o => exact copied_eq copies (operands_holds accepted).2

theorem operation_eq {copy : BlockCopy} (h : Copies copy) {n steps : Nat}
    (fits : n * blockBytes ≤ maxWord) {src dst : Array UInt8} (hs : src.size = n * blockBytes)
    (hd : dst.size = n * blockBytes) :
    operation copy ⟨⟨.memoryCopy, n, steps⟩, [.bytes src]⟩ (.bytes dst) = .ok (.bytes src) := by
  rw [operation_granted h, operands_eq fits hs hd]
  rfl

theorem operation_holds {copy : BlockCopy} (copies : Copies copy) {inputs : Inputs}
    {output result : Buffer} (h : operation copy inputs output = .ok result) :
    result.elementType = output.elementType ∧ result.size = output.size := by
  rw [operation_granted copies] at h
  cases accepted : operands inputs output with
  | error failure =>
    rw [accepted] at h
    cases h
  | ok o =>
    obtain ⟨holds, same⟩ := operands_holds accepted
    rw [accepted] at h
    cases h
    exact Buffer.Holds.same ⟨rfl, same.symm⟩ holds

/-- A run does, too, or leaves the output as it was. -/
theorem kernel_run {m : Type → Type} [Monad m] [LawfulMonad m] {copy : BlockCopy}
    (copies : Copies copy) (name : String) (variant : Variant) (inputs : Inputs)
    (output : Buffer) :
    (kernel name variant copy : Kernel m).run inputs output =
      match operands inputs output with
      | .error failure => pure (.error failure, output)
      | .ok o => pure (.ok (), .bytes o.src) := by
  rw [kernel, Kernel.ofOperation_applied, Kernel.applied, operation_granted copies]
  cases operands inputs output <;> rfl

/-- What holds of all kernels that copy blocks of equal length holds of the three. -/
theorem forall_kernel {m : Type → Type} [Monad m] {P : Kernel m → Prop}
    (h : ∀ {copy}, Copies copy → ∀ name variant, P (kernel name variant copy)) :
    ∀ k ∈ [reference, slice, simd], P k := by
  rw [List.forall_mem_cons, List.forall_mem_cons, List.forall_mem_singleton]
  exact ⟨h copyBytes_copies _ _, h copySlice_copies _ _, h copyRegisters_copies _ _⟩

theorem operation_generated {a : Supply} {fill : Fill} {shape : Shape} {w : Workload}
    (capability : shape.capability = .memoryCopy) (h : Workload.generate a fill shape = .ok w) :
    ∃ src, ∀ copy, Copies copy → operation copy w.inputs w.output = .ok (.bytes src) := by
  obtain ⟨len, buffers, count, length, holds, rfl⟩ := Workload.generate_holds h
  obtain ⟨c, n, steps⟩ := shape
  obtain rfl : c = .memoryCopy := capability
  obtain ⟨rfl, fits⟩ := word?_eq_some.1 count
  obtain ⟨first, rfl⟩ := List.length_eq_one_iff.1 length
  obtain ⟨src, size, rfl⟩ := (holds first (by simp)).bytes
  exact ⟨src, fun copy copies => operation_eq copies fits size Array.size_replicate⟩

end Microbench.MemoryCopy
