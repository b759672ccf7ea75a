import Microbench.Proofs.MatrixMultiply
import Microbench.Proofs.MemoryCopy
import Microbench.Proofs.ModifyInPlace
import Microbench.Proofs.Selection
import Microbench.Proofs.VectorAdd
import Microbench.Proofs.Verdict

/-!
# The built-in kernels

Results:

* `builtin_select`, `builtin_lineup`: which names a selection of built-in kernels may give, and what
  it holds.
* `Shipped.reference`: every selection of built-in kernels keeps the reference.
* `builtin_answers`: on a generated workload all built-in kernels succeed with the same output.
-/
namespace Microbench

open Registry

/-! ## Registries of built-in kernels -/

namespace Registry

variable {m : Type → Type} {g : Registry m} {c : Capability}

theorem builtin_kernels [Monad m] (h : builtin = .ok g) : g.kernels = builtinKernels :=
  registerAll_kernels h

/-- The names of the built-in kernels of a capability. -/
def builtinNames (c : Capability) : List String :=
  ((⟨builtinKernels⟩ : Registry Id).kernelsFor c).map (·.name)

theorem builtinNames_eq [Monad m] (c : Capability) :
    ((⟨builtinKernels⟩ : Registry m).kernelsFor c).map (·.name) = builtinNames c := by
  cases c <;> rfl

theorem builtin_eq [Monad m] : (builtin : Except Failure (Registry m)) = .ok ⟨builtinKernels⟩ := rfl

/-- A selection of built-in kernels fails exactly for a name that is none of theirs. -/
theorem builtin_select [Monad m] (c : Capability) (names : List String) :
    (builtin >>= fun full : Registry m => full.select c names) =
      match names.find? fun name => decide (name ∉ builtinNames c) with
      | some name => .error (.unknownKernel c name)
      | none => .ok ⟨(⟨builtinKernels⟩ : Registry m).wanted c names⟩ := by
  have nodup : (⟨builtinKernels⟩ : Registry m).names.Nodup := by
    have unique : (⟨builtinKernels⟩ : Registry Id).names.Nodup := by decide
    exact unique
  have selected := @select_eq m ⟨builtinKernels⟩ c names nodup
  rw [builtinNames_eq] at selected
  rw [builtin_eq]
  exact selected

/-- A selection of built-in kernels is its reference and what else was named, in order. -/
theorem builtin_lineup [Monad m] (c : Capability) (names : List String) :
    ∃ reference others,
      (⟨(⟨builtinKernels⟩ : Registry m).wanted c names⟩ : Registry m).Lineup c reference others ∧
        (⟨builtinKernels⟩ : Registry m).wanted c names = reference :: others := by
  cases c with
  | matrixMultiply => exact ⟨_, wanted_lineup rfl rfl⟩
  | vectorAdd => exact ⟨_, wanted_lineup rfl rfl⟩
  | memoryCopy => exact ⟨_, wanted_lineup rfl rfl⟩
  | modifyInPlace => exact ⟨_, wanted_lineup rfl rfl⟩

/-- What a sweep of a capability may be given: all built-in kernels, or a selection of them. -/
inductive Shipped [Monad m] (c : Capability) : Registry m → Prop where
  | all {g : Registry m} (registered : builtin = .ok g) : Shipped c g
  | selected {full g : Registry m} {names : List String} (registered : builtin = .ok full)
      (select : full.select c names = .ok g) : Shipped c g

variable [Monad m]

theorem Shipped.builtin (h : g.Shipped c) : ∀ k ∈ g.kernels, k ∈ builtinKernels := by
  intro k hk
  cases h with
  | all registered => rwa [builtin_kernels registered] at hk
  | selected registered select =>
    rw [select_kernels select, List.mem_filter, kernelsFor, List.mem_filter,
      builtin_kernels registered] at hk
    exact hk.1.1

theorem Shipped.reference (h : g.Shipped c) {k : Kernel m} (hk : k ∈ builtinKernels)
    (capability : k.capability = c) (variant : k.variant = .reference) : k ∈ g.kernels := by
  cases h with
  | all registered =>
    rw [builtin_kernels registered]
    exact hk
  | selected registered select =>
    have wanted := isReference_iff.2 variant
    rw [select_kernels select, List.mem_filter, kernelsFor, List.mem_filter,
      builtin_kernels registered]
    exact ⟨⟨hk, beq_iff_eq.2 capability⟩, by rw [wanted]; simp⟩

theorem exists_reference (c : Capability) :
    ∃ k ∈ (builtinKernels : List (Kernel m)), k.capability = c ∧ k.variant = .reference := by
  cases c with
  | matrixMultiply => exact ⟨MatrixMultiply.reference, by simp [builtinKernels], rfl, rfl⟩
  | vectorAdd => exact ⟨VectorAdd.reference, by simp [builtinKernels], rfl, rfl⟩
  | memoryCopy => exact ⟨MemoryCopy.reference, by simp [builtinKernels], rfl, rfl⟩
  | modifyInPlace => exact ⟨ModifyInPlace.reference, by simp [builtinKernels], rfl, rfl⟩

/-- A sweep of built-in kernels finds its reference and nothing but built-in kernels. -/
theorem Shipped.lineup (h : g.Shipped c) : ∃ reference others,
    g.Lineup c reference others := by
  obtain ⟨k, hk, capability, variant⟩ := exists_reference (m := m) c
  have present : g.referenceFor c ≠ none := by
    rw [ne_eq, referenceFor_eq_none]
    exact fun none => none k (h.reference hk capability variant) capability variant
  obtain ⟨reference, found⟩ := Option.ne_none_iff_exists'.1 present
  exact ⟨reference, _, lineup_iff.2 ⟨found, rfl⟩⟩

end Registry

/-! ## Their answers -/

section Answers

variable {m : Type → Type} [Monad m]

theorem builtin_supports : ∀ k ∈ (builtinKernels : List (Kernel m)), ∀ shape : Shape,
    k.supports shape = (shape.capability == k.capability) := by
  intro k hk shape
  simp only [builtinKernels, List.mem_cons, List.not_mem_nil, or_false] at hk
  rcases hk with rfl | rfl | rfl | rfl | rfl | rfl | rfl | rfl | rfl | rfl | rfl <;> rfl

/-- Those that copy memory give access to their blocks. -/
theorem builtin_blockCopy : ∀ k ∈ (builtinKernels : List (Kernel m)), k.capability = .memoryCopy →
    ∃ copy, k.blockCopy = some copy ∧ MemoryCopy.Copies copy := by
  intro k hk capability
  have among : k ∈ (⟨builtinKernels⟩ : Registry m).kernelsFor .memoryCopy :=
    List.mem_filter.2 ⟨hk, beq_iff_eq.2 capability⟩
  have kernels : (⟨builtinKernels⟩ : Registry m).kernelsFor .memoryCopy
      = [MemoryCopy.reference, MemoryCopy.slice, MemoryCopy.simd] := rfl
  rw [kernels] at among
  have access : ∀ k ∈ [MemoryCopy.reference, MemoryCopy.slice, MemoryCopy.simd],
      ∃ copy, (k : Kernel m).blockCopy = some copy ∧ MemoryCopy.Copies copy :=
    MemoryCopy.forall_kernel fun copies _ _ => ⟨_, rfl, copies⟩
  exact access k among

variable [LawfulMonad m]

/-- On a generated workload the kernels of its capability succeed with the same output, which is
one of numbers if it is not a matrix. -/
theorem builtin_answers {a : Supply} {fill : Fill} {shape : Shape} {w : Workload}
    (h : Workload.generate a fill shape = .ok w) :
    ∃ out, (shape.capability ≠ .matrixMultiply → out.Numeric) ∧
      ∀ k ∈ (⟨builtinKernels⟩ : Registry m).kernelsFor shape.capability,
        k.run w.inputs w.output = pure (.ok (), out) := by
  cases capability : shape.capability with
  | matrixMultiply =>
    obtain ⟨product, agree⟩ := MatrixMultiply.operation_generated capability h
    refine ⟨.f32 product, fun ne => absurd rfl ne, ?_⟩
    have kernels : (⟨builtinKernels⟩ : Registry m).kernelsFor .matrixMultiply
        = [MatrixMultiply.reference, MatrixMultiply.blocked ⟨32, 64, 32⟩, MatrixMultiply.simd] :=
      rfl
    rw [kernels, List.forall_mem_cons, List.forall_mem_cons, List.forall_mem_singleton]
    exact ⟨Kernel.ofOperation_run _ _ _ _ (agree _ fun _ _ _ => rfl),
      Kernel.ofOperation_run _ _ _ _ (agree _ (MatrixMultiply.addTiled_eq _)),
      Kernel.ofOperation_run _ _ _ _ (agree _ MatrixMultiply.addLanes_eq)⟩
  | vectorAdd =>
    obtain ⟨sums, agree⟩ := VectorAdd.operation_generated capability h
    refine ⟨.i16 sums, fun _ => trivial, ?_⟩
    have kernels : (⟨builtinKernels⟩ : Registry m).kernelsFor .vectorAdd
        = [VectorAdd.reference, VectorAdd.unrolled, VectorAdd.simd] := rfl
    rw [kernels, List.forall_mem_cons, List.forall_mem_cons, List.forall_mem_singleton]
    exact ⟨Kernel.ofOperation_run _ _ _ _ (agree _ Span.covers_whole),
      Kernel.ofOperation_run _ _ _ _ (agree _ fun n => Span.covers_lanes n _),
      Kernel.ofOperation_run _ _ _ _ (agree _ fun n => Span.covers_lanes n _)⟩
  | memoryCopy =>
    obtain ⟨src, agree⟩ := MemoryCopy.operation_generated capability h
    refine ⟨.bytes src, fun _ => trivial, ?_⟩
    have kernels : (⟨builtinKernels⟩ : Registry m).kernelsFor .memoryCopy
        = [MemoryCopy.reference, MemoryCopy.slice, MemoryCopy.simd] := rfl
    rw [kernels]
    exact MemoryCopy.forall_kernel fun copies _ _ =>
      Kernel.ofOperation_run _ _ _ _ (agree _ copies)
  | modifyInPlace =>
    obtain ⟨left, agree⟩ := ModifyInPlace.operation_generated capability h
    refine ⟨.i32 left, fun _ => trivial, ?_⟩
    have kernels : (⟨builtinKernels⟩ : Registry m).kernelsFor .modifyInPlace
        = [ModifyInPlace.reference, ModifyInPlace.wrapped] := rfl
    rw [kernels, List.forall_mem_cons, List.forall_mem_singleton]
    exact ⟨Kernel.ofOperation_run _ _ _ _ (agree _ ModifyInPlace.walk_visits),
      Kernel.ofOperation_run _ _ _ _ (agree _ ModifyInPlace.laps_visits)⟩

end Answers

end Microbench
