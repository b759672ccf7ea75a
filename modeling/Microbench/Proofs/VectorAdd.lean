import Microbench.Kernel.VectorAdd
import Microbench.Proofs.Kernel
import Microbench.Proofs.Span

/-!
# The vector kernels agree

Results:

* `writeSums_eq`: a loop over any cover of the range writes the vector of sums.
* `operands_eq`: vectors of the shape's length are accepted as they are.
* `operation_holds`: the type and length of the output are kept.
* `operation_generated`: all cuts succeed on a generated workload, with the same sums.
-/
namespace Microbench.VectorAdd

variable {n : Nat}

/-- The sums, whatever the output held. -/
theorem writeSums_eq {pieces : List (Span n)} (h : Span.Covers pieces)
    (lhs rhs out : Vector Int16 n) :
    writeSums pieces lhs rhs out = Vector.ofFn fun i => lhs.get i + rhs.get i := by
  apply Vector.ext
  intro j hj
  have written := h.foldAll_set (Nat.le_refl n) (fun i => lhs.get i + rhs.get i) out hj
  rw [dif_pos hj] at written
  rw [Vector.getElem_ofFn]
  exact written

theorem operands_eq (fits : n ≤ maxWord) (steps : Nat) (lhs rhs out : Vector Int16 n) :
    operands ⟨⟨.vectorAdd, n, steps⟩, [.i16 lhs.toArray, .i16 rhs.toArray]⟩ (.i16 out.toArray)
      = .ok ⟨n, lhs, rhs, out⟩ := by
  have count : word? n = some n := word?_eq_some.2 ⟨rfl, fits⟩
  have check : Shape.check ⟨.vectorAdd, n, steps⟩ .vectorAdd = .ok n := by
    rw [Shape.check, Shape.elementCount, if_neg (fun h => h rfl)]
    simp only [count]
  have sizes : lhs.toArray.size = n ∧ rhs.toArray.size = n ∧ out.toArray.size = n :=
    ⟨lhs.size_toArray, rhs.size_toArray, out.size_toArray⟩
  rw [operands, check]
  exact dif_pos sizes

theorem operation_eq {cut : (n : Nat) → List (Span n)} (covers : ∀ n, Span.Covers (cut n))
    (fits : n ≤ maxWord) (steps : Nat) (lhs rhs out : Vector Int16 n) :
    operation cut ⟨⟨.vectorAdd, n, steps⟩, [.i16 lhs.toArray, .i16 rhs.toArray]⟩
        (.i16 out.toArray)
      = .ok (.i16 (Vector.ofFn fun i => lhs.get i + rhs.get i).toArray) := by
  rw [operation, operands_eq fits, ← writeSums_eq (covers n) lhs rhs out]
  rfl

theorem operands_holds {inputs : Inputs} {output : Buffer} {o : Operands}
    (h : operands inputs output = .ok o) : output.Holds .i16 o.n := by
  obtain ⟨n, -, h⟩ := ok_of_bind h
  obtain ⟨lhs, -, h⟩ := ok_of_bind h
  obtain ⟨rhs, -, h⟩ := ok_of_bind h
  obtain ⟨out, typed, h⟩ := ok_of_bind h
  split at h
  · next sizes =>
    cases h
    exact sizes.2.2 ▸ Buffer.requireI16_holds typed
  · cases h

theorem operation_holds {cut : (n : Nat) → List (Span n)} {inputs : Inputs}
    {output result : Buffer} (h : operation cut inputs output = .ok result) :
    result.elementType = output.elementType ∧ result.size = output.size := by
  obtain ⟨o, accepted, h⟩ := ok_of_bind h
  cases h
  exact Buffer.Holds.same ⟨rfl, Vector.size_toArray _⟩ (operands_holds accepted)

theorem operation_generated {a : Supply} {fill : Fill} {shape : Shape} {w : Workload}
    (capability : shape.capability = .vectorAdd)
    (h : Workload.generate a fill shape = .ok w) :
    ∃ sums, ∀ cut : (n : Nat) → List (Span n), (∀ n, Span.Covers (cut n)) →
      operation cut w.inputs w.output = .ok (.i16 sums) := by
  obtain ⟨len, buffers, count, length, holds, rfl⟩ := Workload.generate_holds h
  obtain ⟨c, n, steps⟩ := shape
  obtain rfl : c = .vectorAdd := capability
  obtain ⟨rfl, fits⟩ := word?_eq_some.1 count
  obtain ⟨first, second, rfl⟩ := List.length_eq_two.1 length
  obtain ⟨lhs, rfl⟩ := (holds first (by simp)).i16
  obtain ⟨rhs, rfl⟩ := (holds second (by simp)).i16
  exact ⟨_, fun cut covers => operation_eq covers fits steps lhs rhs (.replicate n 0)⟩

end Microbench.VectorAdd
