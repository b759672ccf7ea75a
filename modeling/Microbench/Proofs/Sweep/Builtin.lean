import Microbench.Proofs.Builtin
import Microbench.Proofs.Sweep.Isolation

/-!
# Sweeps of the built-in kernels pass

The built-in kernels keep no state and answer a generated workload alike, so a sweep of them
compares every output with itself. Such a comparison passes without an error, whatever the
tolerance, unless the output holds something that is not a number; only a product of matrices
can.

Results:

* `builtin_steady`: the built-in kernels are steady.
* `Visited.passes`: kernels that answer alike all pass.
* `builtin_sweep_passes`: no sweep of built-in kernels skips or fails one of them.
-/
namespace Microbench

open Sweep

variable {σ : Type}

theorem builtin_steady : ∀ k ∈ (Registry.builtinKernels : List (Kernel (StateM σ))), k.Steady := by
  intro k hk
  simp only [Registry.builtinKernels, List.mem_cons, List.not_mem_nil, or_false] at hk
  rcases hk with rfl | rfl | rfl | rfl | rfl | rfl | rfl | rfl | rfl | rfl | rfl
  · exact Kernel.ofOperation_steady _ _ _ _ fun _ _ _ => MatrixMultiply.operation_holds
  · exact Kernel.ofOperation_steady _ _ _ _ fun _ _ _ => MatrixMultiply.operation_holds
  · exact Kernel.ofOperation_steady _ _ _ _ fun _ _ _ => MatrixMultiply.operation_holds
  · exact Kernel.ofOperation_steady _ _ _ _ fun _ _ _ => VectorAdd.operation_holds
  · exact Kernel.ofOperation_steady _ _ _ _ fun _ _ _ => VectorAdd.operation_holds
  · exact Kernel.ofOperation_steady _ _ _ _ fun _ _ _ => VectorAdd.operation_holds
  · exact Kernel.ofOperation_steady _ _ _ _ fun _ _ _ =>
      MemoryCopy.operation_holds MemoryCopy.copyBytes_copies
  · exact Kernel.ofOperation_steady _ _ _ _ fun _ _ _ =>
      MemoryCopy.operation_holds MemoryCopy.copySlice_copies
  · exact Kernel.ofOperation_steady _ _ _ _ fun _ _ _ =>
      MemoryCopy.operation_holds MemoryCopy.copyRegisters_copies
  · exact Kernel.ofOperation_steady _ _ _ _ fun _ _ _ => ModifyInPlace.operation_holds
  · exact Kernel.ofOperation_steady _ _ _ _ fun _ _ _ => ModifyInPlace.operation_holds

/-! ## Kernels that answer alike -/

section Points

variable {s : Setup (StateM σ)} {reference : Kernel (StateM σ)} {others : List (Kernel (StateM σ))}
  {size : Nat} {p : Point (StateM σ)} {out : Buffer}

theorem Part.verdict_passes (v : Verifier) (x : σ) {w : Workload} {part : Part (StateM σ)}
    (supports : reference.supports w.shape = true)
    (answers : ∀ k ∈ reference :: others, k.answer x w = (.ok (), out)) (numeric : out.Numeric)
    (h : part ∈ parts reference others w.shape) : part.verdict v reference x w = .passed 0 := by
  have known : reference.truth x w = .known out := by
    rw [Kernel.truth, if_pos supports, answers _ List.mem_cons_self]
    rfl
  rcases List.mem_append.1 h with h | h
  · rw [if_pos supports] at h
    obtain rfl := List.mem_singleton.1 h
    rw [Part.verdict, answers _ List.mem_cons_self]
    rfl
  · obtain ⟨k, hk, rfl⟩ := List.mem_map.1 h
    rw [Part.verdict, answers k (List.mem_cons_of_mem _ (List.mem_filter.1 hk).1), known]
    exact v.compare_self numeric

/-- Steady kernels that leave the same output, one of numbers, all pass without an error. -/
theorem Visited.passes (h : Visited s reference others size p)
    (steady : ∀ k ∈ reference :: others, k.Steady) (x : σ)
    (supports : reference.supports p.workload.shape = true)
    (answers : ∀ k ∈ reference :: others, k.answer x p.workload = (.ok (), out))
    (numeric : out.Numeric) : ∀ t ∈ p.turns, t.record.verdict = .passed 0 := by
  intro t ht
  obtain ⟨part, among, plays⟩ := forall₂_mem_right (h.plays steady x) ht
  exact plays.verdict.trans (Part.verdict_passes _ x supports answers numeric among)

end Points

/-! ## Sweeps -/

section Sweeps

variable {s : Setup (StateM σ)} {reference : Kernel (StateM σ)} {others : List (Kernel (StateM σ))}
  {size : Nat} {p : Point (StateM σ)}
  (members : ∀ k ∈ reference :: others,
    k ∈ Registry.builtinKernels ∧ k.capability = s.config.capability)
include members

theorem builtin_supports_shapeFor (size : Nat) :
    ∀ k ∈ reference :: others, k.supports (s.config.shapeFor size) = true := by
  intro k hk
  obtain ⟨builtin, capability⟩ := members k hk
  rw [builtin_supports k builtin, capability, s.config.shapeFor_capability]
  exact BEq.rfl

/-- The built-in kernels of a sweep run on the workload of a size alike. -/
theorem builtin_runs_alike {w : Workload} (h : s.config.workload s.supply size = .ok w) :
    ∃ out, (s.config.capability ≠ .matrixMultiply → out.Numeric) ∧
      ∀ k ∈ reference :: others, k.run w.inputs w.output = pure (.ok (), out) := by
  obtain ⟨out, numeric, runs⟩ := builtin_answers (m := StateM σ) h
  rw [s.config.shapeFor_capability] at numeric runs
  refine ⟨out, numeric, fun k hk => runs k ?_⟩
  obtain ⟨builtin, capability⟩ := members k hk
  exact List.mem_filter.2 ⟨builtin, beq_iff_eq.2 capability⟩

theorem builtin_answers_alike {w : Workload} (x : σ)
    (h : s.config.workload s.supply size = .ok w) :
    ∃ out, (s.config.capability ≠ .matrixMultiply → out.Numeric) ∧
      ∀ k ∈ reference :: others, k.answer x w = (.ok (), out) := by
  obtain ⟨out, numeric, runs⟩ := builtin_runs_alike members h
  refine ⟨out, numeric, fun k hk => ?_⟩
  rw [Kernel.answer, runs k hk]
  rfl

/-- What is recorded of the built-in kernels at one size. -/
theorem Visited.builtin (h : Visited s reference others size p) (x : σ) :
    List.Forall₂ (fun due record => record.Heading s.timer s.config due ∧
        ((s.config.capability = .matrixMultiply →
          ∀ w, s.config.workload s.supply due.2 = .ok w →
            (reference.answer x w).2.Numeric) → record.verdict = .passed 0))
      ((reference :: others).map (·, size)) p.records := by
  have supports := builtin_supports_shapeFor members size
  have accepted : reference.supports p.workload.shape = true := by
    rw [Workload.generate_shape h.1]
    exact supports _ List.mem_cons_self
  obtain ⟨out, numeric, answers⟩ := builtin_answers_alike members x h.1
  have took := h.turns
  rw [Config.due, List.filter_eq_self.2 supports] at took
  rw [Point.records, List.forall₂_map_right_iff]
  refine List.forall₂_iff_zip.2 ⟨took.length_eq, fun {due t} hz => ?_⟩
  obtain ⟨among, turn⟩ := List.of_mem_zip hz
  obtain ⟨k, -, rfl⟩ := List.mem_map.1 among
  refine ⟨((List.forall₂_iff_zip.1 took).2 hz).heading, fun numbers => ?_⟩
  have here : out.Numeric := by
    by_cases capability : s.config.capability = .matrixMultiply
    · have left := numbers capability p.workload h.1
      rwa [answers _ List.mem_cons_self] at left
    · exact numeric capability
  exact h.passes (fun k hk => builtin_steady k (members k hk).1) x accepted answers here t turn

end Sweeps

/-- A sweep of built-in kernels whose workloads can all be generated measures each of them at each
size, whatever the selection, the fill, the stream, the tolerance and the counts. Every verdict is a
pass without any error, for products of matrices at the sizes at which the product has nothing but
numbers. No built-in kernel fails on a generated workload. -/
theorem builtin_sweep_passes (r : Runner (StateM σ)) (a : Supply) (c : Config) (s : σ)
    (shipped : r.registry.Shipped c.capability)
    (generates : ∀ size ∈ c.sizes, ∃ w, c.workload a size = .ok w) :
    (∃ reference others ms, r.registry.Lineup c.capability reference others ∧
      (r.sweep a c .silent s).1.1 = .ok ms ∧
      List.Forall₂ (fun due record => record.Heading r.timer c due ∧
          ((c.capability = .matrixMultiply →
            ∀ w, c.workload a due.2 = .ok w → (reference.answer s w).2.Numeric) →
              record.verdict = .passed 0))
        (c.sizes.flatMap fun size => (reference :: others).map (·, size)) ms) ∧
    ∀ fill shape w, Workload.generate a fill shape = .ok w →
      ∀ k ∈ (Registry.builtinKernels : List (Kernel (StateM σ))),
        k.capability = shape.capability → ∃ out, k.run w.inputs w.output = pure (.ok (), out) := by
  constructor
  · obtain ⟨reference, others, lineup⟩ := shipped.lineup
    have members : ∀ k ∈ reference :: others,
        k ∈ Registry.builtinKernels ∧ k.capability = c.capability := by
      intro k hk
      obtain ⟨registered, capability⟩ := lineup.mem k hk
      exact ⟨shipped.builtin k registered, capability⟩
    obtain ⟨found, candidates⟩ := Registry.lineup_iff.1 lineup
    obtain ⟨points, stop, tour, out, -⟩ := r.sweep_tour a c .silent found s
    obtain ⟨rfl, visits⟩ := tour.completes Observer.silent_agrees generates
    rw [candidates] at visits
    refine ⟨reference, others, points.flatMap Point.records, lineup, by rw [out]; rfl, ?_⟩
    exact List.rel_flatMap visits fun size p visited => visited.builtin members s
  · intro fill shape w generated k builtin capability
    obtain ⟨out, -, runs⟩ := builtin_answers (m := StateM σ) generated
    exact ⟨out, runs k (List.mem_filter.2 ⟨builtin, beq_iff_eq.2 capability⟩)⟩

section Selected

open Simulation

def selectedConfig : Config where
  capability := .matrixMultiply
  sizes := [1, 3]
  tolerance := ⟨-1, 0 / 0⟩
  iterations := 2

/-- Two of the built-in kernels that multiply matrices, compared with a band that nothing fits. -/
theorem builtin_sweep_passes_selected : ∃ full g : Registry (StateM Bench), ∃ ms,
    Registry.builtin = .ok full ∧ full.select .matrixMultiply ["mm-simd"] = .ok g ∧
    ((Runner.mk g ⟨source "bench" .cycle 1 64, none⟩ .idle).sweep .machine selectedConfig .silent
      {}).1.1 = .ok ms ∧
    ms.map (fun m => (m.kernel, m.size))
      = [("mm-reference", 1), ("mm-simd", 1), ("mm-reference", 3), ("mm-simd", 3)] ∧
    ∀ m ∈ ms, m.verdict = .passed 0 := by
  let full : Registry (StateM Bench) := ⟨Registry.builtinKernels⟩
  let g : Registry (StateM Bench) := ⟨[MatrixMultiply.reference, MatrixMultiply.simd]⟩
  have registered : Registry.builtin = .ok full := rfl
  have select : full.select .matrixMultiply ["mm-simd"] = .ok g := rfl
  have generates : ∀ size ∈ selectedConfig.sizes,
      ∃ w, selectedConfig.workload .machine size = .ok w := by
    intro size hsize
    rcases List.mem_pair.1 hsize with rfl | rfl
    · exact ⟨_, rfl⟩
    · exact ⟨_, rfl⟩
  have numbers : ∀ size ∈ selectedConfig.sizes,
      ∀ w ∈ (selectedConfig.workload .machine size).toOption,
        (MatrixMultiply.reference.answer ({} : Bench) w).2.Numeric := by
    decide +kernel
  obtain ⟨⟨reference, others, ms, lineup, swept, records⟩, -⟩ :=
    builtin_sweep_passes ⟨g, ⟨source "bench" .cycle 1 64, none⟩, .idle⟩ .machine selectedConfig {}
      (.selected registered select) generates
  obtain ⟨found, candidates⟩ := Registry.lineup_iff.1 lineup
  obtain rfl : MatrixMultiply.reference = reference := Option.some.inj found
  obtain rfl : [MatrixMultiply.simd] = others := candidates
  have numeric : ∀ size ∈ selectedConfig.sizes, ∀ w,
      selectedConfig.workload .machine size = .ok w →
        (MatrixMultiply.reference.answer ({} : Bench) w).2.Numeric := by
    intro size hsize w generated
    exact numbers size hsize w (by rw [generated]; rfl)
  obtain _ | ⟨first, _ | ⟨second, _ | ⟨third, _ | ⟨fourth, ⟨⟩⟩⟩⟩⟩ := records
  refine ⟨full, g, _, registered, select, swept, ?_, ?_⟩
  · simp only [List.map_cons, first.1.kernel, first.1.size, second.1.kernel, second.1.size,
      third.1.kernel, third.1.size, fourth.1.kernel, fourth.1.size]
    rfl
  · simp only [List.forall_mem_cons, List.not_mem_nil, false_implies, implies_true, and_true]
    have one := fun _ : selectedConfig.capability = .matrixMultiply => numeric 1 (by decide)
    have three := fun _ : selectedConfig.capability = .matrixMultiply => numeric 3 (by decide)
    exact ⟨first.2 one, second.2 one, third.2 three, fourth.2 three⟩

end Selected

end Microbench
