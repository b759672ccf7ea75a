import Mathlib.Data.Fin.Tuple.Basic
import Microbench.Proofs.Operands
import Microbench.Proofs.Timer
import Microbench.Sweep.BlockCopies

/-!
# Tracing single blocks next to running a kernel

A trace has a loop over blocks of its own. It asks for the operands as a run does, so it refuses
the same workloads for the same reason, before any reading is taken. If they are granted it takes
two readings for each block and nothing else, and leaves the output that a run leaves.

Results:

* `traceBlocks_eq`: the trace of whole blocks, over the readings it takes.
* `traceBlockCopies_eq`: the trace of a workload, by its operands.
* `traceBlockCopies_matches`: traces and runs of the kernels that copy memory.
-/
namespace Microbench

variable {m : Type → Type} [Monad m]

/-! ## Readings and samples -/

/-- Any number of readings, in order. -/
def TickSource.read (source : TickSource m) : (n : Nat) → m (Fin n → UInt64)
  | 0 => pure Fin.elim0
  | n + 1 => do
    let first ← source.now
    let rest ← source.read n
    return Fin.cons first rest

/-- The samples of some whole blocks after `total` bytes, each between two readings of its own. -/
def BlockSample.between (bits total count : Nat) (readings : Fin (2 * count) → UInt64) :
    List BlockSample :=
  List.ofFn fun i : Fin count =>
    { bytes := blockBytes
      totalBytes := total + blockBytes * (i + 1)
      ticks := ticksBetween (readings ⟨2 * i, by omega⟩) (readings ⟨2 * i + 1, by omega⟩) bits }

/-- A timer after it has timed some blocks: the last stop has taken the start. -/
def Timer.after (timer : Timer m) : (blocks : Nat) → Timer m
  | 0 => timer
  | _ + 1 => { timer with started := none }

/-- The readings around one block, then those around the others. -/
theorem TickSource.read_succ [LawfulMonad m] (source : TickSource m) (count : Nat) :
    source.read (2 * (count + 1)) = do
      let first ← source.now
      let second ← source.now
      let rest ← source.read (2 * count)
      return Fin.cons first (Fin.cons second rest : Fin (2 * count + 1) → UInt64) := by
  show source.read (2 * count + 1 + 1) = _
  simp only [read, bind_assoc, pure_bind]

omit [Monad m] in
theorem Timer.after_succ (timer : Timer m) (blocks : Nat) :
    timer.after (blocks + 1) = (Timer.mk timer.source none).after blocks := by
  cases blocks <;> rfl

theorem BlockSample.between_succ (bits total count : Nat) (first second : UInt64)
    (rest : Fin (2 * count) → UInt64) :
    between bits total (count + 1)
        (Fin.cons first (Fin.cons second rest : Fin (2 * count + 1) → UInt64)) =
      ⟨blockBytes, total + blockBytes, ticksBetween first second bits⟩
        :: between bits (total + blockBytes) count rest := by
  unfold between
  refine List.ofFn_succ.trans (congrArg₂ List.cons ?_ (congrArg List.ofFn (funext fun i => ?_)))
  · show BlockSample.mk blockBytes (total + blockBytes * (0 + 1)) _ = _
    rw [Nat.zero_add, Nat.mul_one]
    rfl
  · have bytes : total + blockBytes * (i.succ + 1) = total + blockBytes + blockBytes * (i + 1) := by
      rw [Fin.val_succ, Nat.mul_succ blockBytes (i + 1), Nat.add_assoc, Nat.add_comm blockBytes]
    rw [bytes]
    rfl

theorem BlockSample.between_getElem? (bits total count : Nat)
    (readings : Fin (2 * count) → UInt64) (i : Fin count) :
    (between bits total count readings)[i.val]?
      = some ⟨blockBytes, total + blockBytes * (i + 1),
          ticksBetween (readings ⟨2 * i, by omega⟩) (readings ⟨2 * i + 1, by omega⟩) bits⟩ := by
  rw [between, List.getElem?_ofFn, dif_pos i.isLt]

/-! ## Tracing blocks -/

namespace Runner

open MemoryCopy

variable [LawfulMonad m]

/-- By induction on the blocks still to come, with two readings for the first of them. -/
theorem traceBlocks_eq {copy : BlockCopy} (copies : Copies copy)
    (pairs : List (Array UInt8 × Array UInt8))
    (sizes : ∀ p ∈ pairs, p.1.size = blockBytes ∧ p.2.size = blockBytes) (total : Nat)
    (timer : Timer m) :
    traceBlocks copy pairs total timer = do
      let readings ← timer.source.read (2 * pairs.length)
      return (.ok (BlockSample.between timer.source.bits total pairs.length readings,
        pairs.map Prod.snd), timer.after pairs.length) := by
  induction pairs generalizing total timer with
  | nil =>
    rw [traceBlocks_nil]
    show _ = TickSource.read timer.source 0 >>= _
    rw [TickSource.read, pure_bind]
    rfl
  | cons p pairs ih =>
    obtain ⟨⟨whole, size⟩, rest⟩ := List.forall_mem_cons.1 sizes
    have copied : copy p.1 p.2 = .ok p.2 := copies p.1 p.2 (whole.trans size.symm)
    rw [List.length_cons, TickSource.read_succ]
    simp only [traceBlocks, Timer.start, Timer.stop, bind_assoc, pure_bind, copied, whole,
      ih rest, BlockSample.between_succ, Timer.after_succ]
    rfl

/-- What a trace of a workload does, by the operands it is granted. -/
theorem traceBlockCopies_eq {copy : BlockCopy} (copies : Copies copy) {kernel : Kernel m}
    (capability : kernel.capability = .memoryCopy) (access : kernel.blockCopy = some copy)
    (r : Runner m) (w : Workload) :
    r.traceBlockCopies kernel w =
      match operands w.inputs w.output.reset with
      | .error failure => pure (.error failure, w.resetOutput, r)
      | .ok o => do
        let readings ← r.timer.source.read (2 * w.shape.size)
        return (.ok (BlockSample.between r.timer.source.bits 0 w.shape.size readings),
          { w with output := .bytes o.src }, { r with timer := r.timer.after w.shape.size }) := by
  rw [traceBlockCopies, if_neg (fun other => other capability), access]
  show (match operands w.inputs w.output.reset with
    | .error failure => _
    | .ok o => _) = _
  cases granted : operands w.inputs w.output.reset with
  | error failure => rfl
  | ok o =>
    have granted := operands_granted granted
    obtain ⟨count, sizes⟩ := granted.pairs
    have same : o.dst.size = o.src.size := granted.dst.trans granted.src.symm
    have traced := traceBlocks_eq copies o.pairs sizes 0 r.timer
    rw [count, pairs_snd same] at traced
    simp only [traced, bind_assoc, pure_bind, join_blocks]
    rfl

/-! ## Next to a run -/

omit [LawfulMonad m] in
/-- A trace of a kernel on a workload, next to a run of it after the output is zeroed: both are
refused, or both copy the source. The readings of the trace are two for each block. -/
inductive Matches (r : Runner m) (kernel : Kernel m) (w : Workload) : Prop where
  | refused {failure : Failure}
      (run : kernel.run w.resetOutput.inputs w.resetOutput.output
        = pure (.error failure, w.resetOutput.output))
      (trace : r.traceBlockCopies kernel w = pure (.error failure, w.resetOutput, r))
  | copied {src : Array UInt8} (capability : w.shape.capability = .memoryCopy)
      (source : w.inputs.buffers[0]? = some (.bytes src))
      (size : src.size = w.shape.size * blockBytes)
      (run : kernel.run w.resetOutput.inputs w.resetOutput.output = pure (.ok (), .bytes src))
      (trace : r.traceBlockCopies kernel w = do
        let readings ← r.timer.source.read (2 * w.shape.size)
        return (.ok (BlockSample.between r.timer.source.bits 0 w.shape.size readings),
          { w with output := .bytes src }, { r with timer := r.timer.after w.shape.size }))

theorem kernel_matches {copy : BlockCopy} (copies : Copies copy) (name : String)
    (variant : Variant) (r : Runner m) (w : Workload) :
    r.Matches (MemoryCopy.kernel name variant copy) w := by
  have run := kernel_run (m := m) copies name variant w.inputs w.output.reset
  have trace : r.traceBlockCopies (MemoryCopy.kernel name variant copy) w = _ :=
    traceBlockCopies_eq copies rfl rfl r w
  cases accepted : operands w.inputs w.output.reset with
  | error failure =>
    rw [accepted] at run trace
    exact .refused run trace
  | ok o =>
    rw [accepted] at run trace
    have granted := operands_granted accepted
    exact .copied granted.capability granted.source granted.src run trace

/-- Any workload on any clock. -/
theorem traceBlockCopies_matches {m : Type → Type} [Monad m] [LawfulMonad m] (r : Runner m)
    (w : Workload) :
    (∀ kernel : Kernel m, kernel.capability ≠ .memoryCopy →
      r.traceBlockCopies kernel w = pure (.error (.notMemoryCopy kernel.name), w, r)) ∧
    (∀ kernel : Kernel m, kernel.capability = .memoryCopy → kernel.blockCopy = none →
      r.traceBlockCopies kernel w = pure (.error (.noBlockAccess kernel.name), w, r)) ∧
    (∀ kernel ∈ [MemoryCopy.reference, MemoryCopy.slice, MemoryCopy.simd], r.Matches kernel w) ∧
    ∀ (readings : Fin (2 * w.shape.size) → UInt64) (counter : Nat → Nat), Monotone counter →
      (∀ j, (readings j).toNat % Nat.pow 2 (min r.timer.source.bits 64)
        = counter j % Nat.pow 2 (min r.timer.source.bits 64)) →
      ∀ i : Fin w.shape.size, ∃ ticks,
        (BlockSample.between r.timer.source.bits 0 w.shape.size readings)[i.val]?
          = some ⟨blockBytes, blockBytes * (i + 1), ticks⟩ ∧
        ticks.toNat = (counter (2 * i + 1) - counter (2 * i))
          % Nat.pow 2 (min r.timer.source.bits 64) := by
  refine ⟨fun kernel other => ?_, fun kernel capability none => ?_, ?_, ?_⟩
  · rw [traceBlockCopies, if_pos other]
  · rw [traceBlockCopies, if_neg (fun other => other capability), none]
  · exact forall_kernel fun copies name variant => kernel_matches copies name variant r w
  · intro readings counter mono reads i
    refine ⟨_, by rw [BlockSample.between_getElem?, Nat.zero_add], ?_⟩
    exact ticksBetween_advance (reads _) (reads _) (mono (Nat.le_succ _))

section Wrapping

/-- A start is pending on a clock of eight bits, in the middle of a sweep. -/
def wrapping : Runner (StateM Nat) := ⟨⟨[]⟩, ⟨Timer.wrapping, some 3⟩, .verifying⟩

/-- Two blocks full of one byte. -/
def twoBlocks (byte : UInt8) : Array UInt8 := .replicate (2 * blockBytes) byte

/-- The blocks to copy are full of sevens. -/
def copyingTo (output : Buffer) : Workload :=
  ⟨⟨⟨.memoryCopy, 2, 0⟩, [.bytes (twoBlocks 7)]⟩, output⟩

/-- Four readings for two blocks, none for an output of another type. -/
theorem traceBlockCopies_matches_wrapping :
    (wrapping.traceBlockCopies MemoryCopy.slice (copyingTo (.bytes (twoBlocks 1))) 5
      = ((.ok [⟨512, 512, 100⟩, ⟨512, 1024, 100⟩], copyingTo (.bytes (twoBlocks 7)),
          { wrapping with timer := ⟨Timer.wrapping, none⟩ }), 9)) ∧
    wrapping.traceBlockCopies MemoryCopy.slice (copyingTo (.i16 #[4])) 5
      = ((.error (.elementType .output .bytes .i16), copyingTo (.i16 #[0]), wrapping), 5) := by
  constructor
  · obtain ⟨-, -, same, -⟩ := traceBlockCopies_matches wrapping (copyingTo (.bytes (twoBlocks 1)))
    cases same MemoryCopy.slice (by simp) with
    | copied capability source size run trace =>
      cases source
      exact (congrFun trace 5).trans rfl
    | refused run trace =>
      have granted : operands (copyingTo (.bytes (twoBlocks 1))).inputs
          (Buffer.bytes (twoBlocks 1)).reset = .ok ⟨twoBlocks 7, .replicate (twoBlocks 1).size 0⟩ :=
        operands_eq (by decide) Array.size_replicate
          (Array.size_replicate.trans Array.size_replicate)
      have copied := kernel_run (m := StateM Nat) copySlice_copies "memcpy-slice" .optimizedScalar
        (copyingTo (.bytes (twoBlocks 1))).inputs (Buffer.bytes (twoBlocks 1)).reset
      rw [granted] at copied
      cases congrFun (copied.symm.trans run) 5
  · obtain ⟨-, -, same, -⟩ := traceBlockCopies_matches wrapping (copyingTo (.i16 #[4]))
    cases same MemoryCopy.slice (by simp) with
    | copied capability source size run trace => cases congrFun run 5
    | refused run trace =>
      cases congrFun run 5
      exact (congrFun trace 5).trans rfl

end Wrapping

end Runner

end Microbench
