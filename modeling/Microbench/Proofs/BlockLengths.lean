import Microbench.Proofs.CheckedLoops
import Microbench.Proofs.Sweep.Traces

/-!
# Blocks of unequal lengths

Two of the three copies of one block stop where the shorter of two blocks ends. The third refuses
blocks of unequal lengths. The kernels and the traces cut source and destination alike, so they
never give it such blocks, and what a copy does with them makes no difference.

Results:

* `operation_congr`, `traceBlockCopies_congr`: only blocks of one length are copied.
* `run_neverUnequal`, `traceBlockCopies_neverUnequal`: no run and no trace fails at a block.
* `copies_alike`: the three copies of one block and the three kernels.
-/
namespace Microbench

/-- The two agree on blocks of one length. -/
def MemoryCopy.AgreeOnEqual (copy copy' : BlockCopy) : Prop :=
  ∀ dst src, dst.size = src.size → copy dst src = copy' dst src

/-- The action is refused for another reason than blocks of unequal lengths, or it succeeds. -/
def NeverUnequal {m : Type → Type} [Monad m] {α β : Type} (action : m (Except Failure α × β)) :
    Prop :=
  (∃ failure rest, (∀ dst src, failure ≠ .unequalBlocks dst src) ∧
    action = pure (.error failure, rest)) ∨
  ∃ done : m (α × β), action = do
    let (value, rest) ← done
    return (.ok value, rest)

variable {m : Type → Type} [Monad m] {copy copy' : BlockCopy}

/-! ## Which blocks are copied -/

namespace MemoryCopy

/-- The blocks of operands that are granted have one length. -/
theorem AgreeOnEqual.pairs (agree : AgreeOnEqual copy copy') {inputs : Inputs} {o : Operands}
    (granted : o.Granted inputs) : ∀ p ∈ o.pairs, copy p.1 p.2 = copy' p.1 p.2 := by
  intro p hp
  obtain ⟨dst, src⟩ := granted.pairs.2 p hp
  exact agree p.1 p.2 (dst.trans src.symm)

theorem operation_congr (agree : AgreeOnEqual copy copy') (inputs : Inputs) (output : Buffer) :
    operation copy inputs output = operation copy' inputs output := by
  unfold operation
  cases accepted : operands inputs output with
  | error failure => rfl
  | ok o =>
    have same : o.pairs.mapM (fun p => copy p.1 p.2) = o.pairs.mapM fun p => copy' p.1 p.2 :=
      mapM_congr (agree.pairs (operands_granted accepted))
    exact congrArg (· >>= fun copied => pure (Buffer.bytes (join copied))) same

end MemoryCopy

namespace Runner

open MemoryCopy

theorem traceBlocks_congr {pairs : List (Array UInt8 × Array UInt8)}
    (h : ∀ p ∈ pairs, copy p.1 p.2 = copy' p.1 p.2) (total : Nat) (timer : Timer m) :
    traceBlocks copy pairs total timer = traceBlocks copy' pairs total timer := by
  induction pairs generalizing total timer with
  | nil => rfl
  | cons p pairs ih =>
    obtain ⟨here, rest⟩ := List.forall_mem_cons.1 h
    simp only [traceBlocks, here, ih rest]

theorem traceBlockCopies_congr (agree : AgreeOnEqual copy copy') (name : String)
    (variant : Variant) (r : Runner m) (w : Workload) :
    r.traceBlockCopies (kernel name variant copy) w
      = r.traceBlockCopies (kernel name variant copy') w := by
  have memory (copy : BlockCopy) :
      ¬(kernel name variant copy : Kernel m).capability ≠ .memoryCopy := fun other => other rfl
  rw [traceBlockCopies, traceBlockCopies, if_neg (memory copy), if_neg (memory copy')]
  simp only [kernel, Kernel.ofOperation]
  cases accepted : operands w.resetOutput.inputs w.resetOutput.output with
  | error failure => rfl
  | ok o =>
    have same := traceBlocks_congr (agree.pairs (operands_granted accepted)) 0 r.timer
    simp only [same]

end Runner

/-! ## What is never refused -/

section Refusals

variable [LawfulMonad m] (copies : MemoryCopy.Copies copy) (name : String) (variant : Variant)
include copies

theorem MemoryCopy.run_neverUnequal (inputs : Inputs) (output : Buffer) :
    NeverUnequal ((kernel name variant copy : Kernel m).run inputs output) := by
  rw [kernel_run copies]
  cases accepted : operands inputs output with
  | error failure =>
    refine .inl ⟨failure, output, fun dst src same => ?_, rfl⟩
    exact operands_refused dst src (same ▸ accepted)
  | ok o =>
    refine .inr ⟨pure ((), .bytes o.src), ?_⟩
    rw [pure_bind]

theorem Runner.traceBlockCopies_neverUnequal (r : Runner m) (w : Workload) :
    NeverUnequal (r.traceBlockCopies (MemoryCopy.kernel name variant copy) w) := by
  rw [traceBlockCopies_eq copies rfl rfl]
  cases accepted : MemoryCopy.operands w.inputs w.output.reset with
  | error failure =>
    refine .inl ⟨failure, _, fun dst src same => ?_, rfl⟩
    exact MemoryCopy.operands_refused dst src (same ▸ accepted)
  | ok o =>
    refine .inr ⟨do
      let readings ← r.timer.source.read (2 * w.shape.size)
      return (BlockSample.between r.timer.source.bits 0 w.shape.size readings,
        { w with output := .bytes o.src }, { r with timer := r.timer.after w.shape.size }), ?_⟩
    simp only [bind_assoc, pure_bind]

end Refusals

namespace MemoryCopy

/-- The three copies of one block, for blocks of any lengths, and the three kernels, for any number
of blocks and any bytes that were in the output before. Source and destination are handed to a copy
in whole blocks. So neither a run nor a trace depends on what a copy does with blocks of unequal
lengths, and none is refused because of them. -/
theorem copies_alike {m : Type → Type} [Monad m] [LawfulMonad m] :
    (∀ dst src : Array UInt8,
      copyBytes dst src = .ok (overlaid dst src) ∧
      copyRegisters dst src = .ok (overlaid dst src) ∧
      copySlice dst src =
        if dst.size = src.size then .ok (overlaid dst src)
        else .error (.unequalBlocks dst.size src.size)) ∧
    (∀ dst src : Array UInt8, min dst.size src.size ≤ maxWord →
      Words.bytes dst src = some (overlaid dst src) ∧
      Words.registers registerBytes dst src = some (overlaid dst src)) ∧
    (∀ n steps : Nat, ∀ src dst : Array UInt8, ∀ extra : List Buffer,
      n * blockBytes ≤ maxWord → src.size = n * blockBytes → dst.size = n * blockBytes →
      ∀ k ∈ [reference, slice, simd],
        (k : Kernel m).run ⟨⟨.memoryCopy, n, steps⟩, .bytes src :: extra⟩ (.bytes dst)
          = pure (.ok (), .bytes src)) ∧
    (∀ inputs output o, operands inputs output = .ok o →
      o.pairs.length = inputs.shape.size ∧
      ∀ p ∈ o.pairs, p.1.size = blockBytes ∧ p.2.size = blockBytes) ∧
    (∀ copy copy', AgreeOnEqual copy copy' →
      (∀ inputs output, operation copy inputs output = operation copy' inputs output) ∧
      ∀ name variant, ∀ r : Runner m, ∀ w,
        r.traceBlockCopies (kernel name variant copy) w
          = r.traceBlockCopies (kernel name variant copy') w) ∧
    ∀ k ∈ [reference, slice, simd],
      (∀ inputs output, NeverUnequal ((k : Kernel m).run inputs output)) ∧
      ∀ (r : Runner m) w, NeverUnequal (r.traceBlockCopies k w) := by
  refine ⟨fun dst src => ⟨copyBytes_eq dst src, copyRegisters_eq dst src, ?_⟩,
    fun dst src fits => ⟨Words.bytes_eq dst src, Words.registers_eq registerBytes fits⟩,
    fun n steps src dst extra fits source target => ?_,
    fun inputs output o accepted => (operands_granted accepted).pairs,
    fun copy copy' agree => ⟨operation_congr agree, Runner.traceBlockCopies_congr agree⟩, ?_⟩
  · unfold copySlice
    split
    · next same => rw [overlaid_of_size_eq same]
    · rfl
  · have read : Capability.inputCount .memoryCopy ≤ [Buffer.bytes src].length := Nat.le_refl 1
    have granted : operands ⟨⟨.memoryCopy, n, steps⟩, .bytes src :: extra⟩ (.bytes dst)
        = .ok ⟨src, dst⟩ := (operands_append extra read).trans (operands_eq fits source target)
    refine forall_kernel fun copies name variant => ?_
    rw [kernel_run copies, granted]
  · exact forall_kernel fun copies name variant => ⟨run_neverUnequal copies name variant,
      Runner.traceBlockCopies_neverUnequal copies name variant⟩

/-- One register and a ragged tail over a longer block, and one whole block. -/
theorem copies_alike_ragged :
    copyRegisters (.replicate 20 0) (.replicate 18 7) = .ok (.replicate 18 7 ++ #[0, 0]) ∧
    copyBytes (.replicate 20 0) (.replicate 18 7) = .ok (.replicate 18 7 ++ #[0, 0]) ∧
    copySlice (.replicate 20 0) (.replicate 18 7) = .error (.unequalBlocks 20 18) ∧
    (slice : Kernel Id).run ⟨⟨.memoryCopy, 1, 0⟩, [.bytes (.replicate (1 * blockBytes) 7)]⟩
        (.bytes (.replicate (1 * blockBytes) 1))
      = (.ok (), .bytes (.replicate (1 * blockBytes) 7)) := by
  obtain ⟨blocks, -, runs, -⟩ := copies_alike (m := Id)
  obtain ⟨bytes, registers, block⟩ := blocks (.replicate 20 0) (.replicate 18 7)
  refine ⟨registers.trans ?_, bytes.trans ?_, block.trans ?_, ?_⟩
  · decide
  · decide
  · decide
  · exact runs 1 0 _ _ [] (by decide) Array.size_replicate Array.size_replicate slice (by simp)

end MemoryCopy

end Microbench
