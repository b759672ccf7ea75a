import Microbench.Proofs.Sweep.Traces
import Microbench.Proofs.Workload

/-!
# Block traces do not fail

On a generated workload a trace is granted its operands, and then neither its timer nor a copy can
fail, whatever the clock reads. Its samples count the bytes block by block, and it leaves a
workload that can be traced again.

Results:

* `whole_between`: how the samples of a trace count.
* `Traceable.generated`: what can be traced of a generated workload.
* `traceBlockCopies_always`: a trace succeeds and leaves a workload that can be traced again.
-/
namespace Microbench

variable {σ τ α β : Type}

/-! ## What an action gives in any state -/

/-- Whatever the state, the action gives a value with the property. A state in front of it is
neither read nor changed. -/
def Always (P : α → Prop) (action : StateT τ (StateM σ) α) : Prop :=
  ∀ s, ∃ a s', P a ∧ ∀ t, action t s = ((a, t), s')

namespace Always

variable {P : α → Prop} {Q : β → Prop} {p : StateT τ (StateM σ) α} {f : α → StateT τ (StateM σ) β}

theorem pure {a : α} (h : P a) : Always (τ := τ) (σ := σ) P (Pure.pure a) :=
  fun s => ⟨a, s, h, fun _ => rfl⟩

theorem bind (h : Always P p) (hf : ∀ a, P a → Always Q (f a)) : Always Q (p >>= f) := by
  intro s
  obtain ⟨a, s', ha, first⟩ := h s
  obtain ⟨b, s'', hb, second⟩ := hf a ha s'
  refine ⟨b, s'', hb, fun t => ?_⟩
  show f (p t s).1.1 (p t s).1.2 (p t s).2 = _
  rw [first]
  exact second t

theorem imp {P' : α → Prop} (h : Always P p) (sub : ∀ a, P a → P' a) : Always P' p := by
  intro s
  obtain ⟨a, s', ha, run⟩ := h s
  exact ⟨a, s', sub a ha, run⟩

theorem lift (action : StateM σ α) :
    Always (fun _ => True) (MonadLift.monadLift action : StateT τ (StateM σ) α) :=
  fun s => ⟨(action s).1, (action s).2, True.intro, fun _ => rfl⟩

end Always

/-! ## Timing blocks -/

theorem TickSource.read_always (source : TickSource (StateM σ)) (n : Nat) :
    Always (fun _ => True) ((source.lift : TickSource (StateT τ (StateM σ))).read n) := by
  induction n with
  | zero => exact .pure True.intro
  | succ n ih => exact (Always.lift source.now).bind fun _ _ => ih.bind fun _ _ => .pure True.intro

theorem Timer.after_source (timer : Timer m) (blocks : Nat) :
    (timer.after blocks).source = timer.source := by
  cases blocks <;> rfl

/-- The bytes of whole blocks, each with all before it. -/
def Whole (total count : Nat) (samples : List BlockSample) : Prop :=
  samples.map (fun s => (s.bytes, s.totalBytes))
    = (List.range count).map fun i => (blockBytes, total + blockBytes * (i + 1))

theorem whole_between (bits total count : Nat) (readings : Fin (2 * count) → UInt64) :
    Whole total count (BlockSample.between bits total count readings) := by
  rw [Whole, BlockSample.between, List.map_ofFn, List.ofFn_eq_map, ← List.map_coe_finRange_eq_range,
    List.map_map]
  rfl

theorem Whole.length_eq {total count : Nat} {samples : List BlockSample}
    (h : Whole total count samples) : samples.length = count := by
  simpa using congrArg List.length h

theorem Whole.getElem?_eq {total count : Nat} {samples : List BlockSample}
    (h : Whole total count samples) {i : Nat} (hi : i < count) :
    ∃ ticks, samples[i]? = some ⟨blockBytes, total + blockBytes * (i + 1), ticks⟩ := by
  have bytes := congrArg (·[i]?) h
  simp only [List.getElem?_map, List.getElem?_range hi, Option.map_some] at bytes
  obtain ⟨⟨_, _, ticks⟩, here, same⟩ := Option.map_eq_some_iff.1 bytes
  obtain ⟨rfl, rfl⟩ := Prod.mk.inj same
  exact ⟨ticks, here⟩

/-- The trace of a kernel over a number of blocks. -/
structure BlockTrace.Covers (blocks : Nat) (kernel : Kernel m) (t : BlockTrace) : Prop where
  kernel : t.kernel = kernel.name
  samples : Whole 0 blocks t.samples

namespace Runner

open MemoryCopy

/-- A workload whose buffers are as long as its shape says. -/
structure Traceable (n : Nat) (src : Array UInt8) (w : Workload) : Prop where
  fits : n * blockBytes ≤ maxWord
  inputs : ∃ steps, w.inputs = ⟨⟨.memoryCopy, n, steps⟩, [.bytes src]⟩
  source : src.size = n * blockBytes
  output : w.output.Holds .bytes (n * blockBytes)

theorem Traceable.generated {a : Supply} {fill : Fill} {shape : Shape} {w : Workload}
    (capability : shape.capability = .memoryCopy) (h : Workload.generate a fill shape = .ok w) :
    ∃ src, Traceable shape.size src w := by
  obtain ⟨len, buffers, count, length, holds, rfl⟩ := Workload.generate_holds h
  obtain ⟨c, n, steps⟩ := shape
  obtain rfl : c = .memoryCopy := capability
  obtain ⟨rfl, fits⟩ := word?_eq_some.1 count
  obtain ⟨first, rfl⟩ := List.length_eq_one_iff.1 length
  obtain ⟨src, size, rfl⟩ := (holds first (by simp)).bytes
  exact ⟨src, fits, ⟨steps, rfl⟩, size, rfl, Array.size_replicate⟩

theorem traceBlockCopies_always {r : Runner (StateT τ (StateM σ))}
    {source : TickSource (StateM σ)} (clock : r.timer.source = source.lift)
    {kernel : Kernel (StateT τ (StateM σ))} {copy : BlockCopy}
    (capability : kernel.capability = .memoryCopy) (access : kernel.blockCopy = some copy)
    (copies : Copies copy) {n : Nat} {src : Array UInt8} {w : Workload} (h : Traceable n src w) :
    Always (fun out => (∃ samples, Whole 0 n samples ∧ out.1 = .ok samples) ∧
        Traceable n src out.2.1 ∧ out.2.2.timer.source = source.lift)
      (r.traceBlockCopies kernel w) := by
  obtain ⟨dst, size, zeroed⟩ := Buffer.Holds.bytes (b := w.output.reset)
    ⟨(Buffer.reset_elementType _).trans h.output.elementType,
      (Buffer.reset_size _).trans h.output.size⟩
  obtain ⟨steps, inputs⟩ := h.inputs
  have accepted : operands w.inputs w.output.reset = .ok ⟨src, dst⟩ := by
    rw [zeroed, inputs]
    exact operands_eq h.fits h.source size
  have blocks : w.shape.size = n := by rw [Workload.shape, inputs]
  rw [traceBlockCopies_eq copies capability access, accepted, clock, blocks]
  refine (TickSource.read_always source _).bind fun readings _ => .pure ?_
  exact ⟨⟨_, whole_between _ _ _ readings, rfl⟩, ⟨h.fits, h.inputs, h.source, rfl, h.source⟩,
    (Timer.after_source ..).trans clock⟩

end Runner

end Microbench
