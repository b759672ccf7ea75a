import Microbench.Sweep.Runner

/-!
# Timing single block copies

A memory-copy workload is copied block by block, each block bracketed by a start and a stop of
the timer. The phase of the runner is left alone.

Results:

* `traceBlocks_nil`: no blocks take no reading.
-/
namespace Microbench.Runner

variable {m : Type → Type} [Monad m]

/-- Copies the pairs of destination and source in order. Gives the samples and the copies made,
up to the first failure. -/
def traceBlocks (copy : BlockCopy) :
    List (Array UInt8 × Array UInt8) → (total : Nat) → Timer m →
      m (Except Failure (List BlockSample × List (Array UInt8)) × Timer m)
  | [], _, timer => pure (.ok ([], []), timer)
  | (dst, src) :: rest, total, timer => do
    let timer ← timer.start
    match copy dst src with
    | .error failure => return (.error failure, timer)
    | .ok copied =>
      let (elapsed, timer) ← timer.stop
      match elapsed with
      | .error failure => return (.error failure, timer)
      | .ok elapsed =>
        let total := total + dst.size
        let (result, timer) ← traceBlocks copy rest total timer
        return (result.map fun (samples, copies) =>
          (⟨dst.size, total, elapsed.ticks⟩ :: samples, copied :: copies), timer)

/-- Copies a workload from a zeroed output with a kernel that gives access to its blocks
(`trace_block_copies`). -/
def traceBlockCopies (r : Runner m) (kernel : Kernel m) (w : Workload) :
    m (Except Failure (List BlockSample) × Workload × Runner m) := do
  if kernel.capability ≠ .memoryCopy then
    return (.error (.notMemoryCopy kernel.name), w, r)
  match kernel.blockCopy with
  | none => return (.error (.noBlockAccess kernel.name), w, r)
  | some copy =>
    let w := w.resetOutput
    match MemoryCopy.operands w.inputs w.output with
    | .error failure => return (.error failure, w, r)
    | .ok o =>
      let (result, timer) ← traceBlocks copy o.pairs 0 r.timer
      match result with
      | .error failure => return (.error failure, w, { r with timer })
      | .ok (samples, copies) =>
        return (.ok samples, { w with output := .bytes (MemoryCopy.join copies) },
          { r with timer })

theorem traceBlocks_nil (copy : BlockCopy) (total : Nat) (timer : Timer m) :
    traceBlocks copy [] total timer = pure (.ok ([], []), timer) := rfl

end Microbench.Runner
