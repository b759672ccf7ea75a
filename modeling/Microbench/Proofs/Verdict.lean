import Mathlib.Data.List.FinRange
import Microbench.Proofs.Float.Special
import Microbench.Verdict

/-!
# Tallies, errors and an output compared with itself

Results:

* `Tally.of_total`, `Tally.of_kept`: a tally counts all mismatches and keeps the first of them.
* `maxAbsError_self`: an output has no error against itself.
* `Verifier.compare_self`: it passes, whatever the tolerance, if all its floats are numbers.
-/
namespace Microbench

/-! ## Tallies -/

namespace Tally

/-- Noting some mismatches keeps what would be left if all were kept and the list were cut off in
the end. -/
theorem foldl_note {limit : Nat} (found : List Mismatch) (t : Tally)
    (room : t.kept.size ≤ limit) :
    (found.foldl (fun t m => t.note limit fun _ => m) t).total = t.total + found.length ∧
      (found.foldl (fun t m => t.note limit fun _ => m) t).kept.toList
        = (t.kept.toList ++ found).take limit := by
  induction found generalizing t with
  | nil => simp [List.take_of_length_le, room]
  | cons m found ih =>
    rw [List.foldl_cons]
    by_cases full : t.kept.size = limit
    · have noted : t.note limit (fun _ => m) = ⟨t.total + 1, t.kept⟩ := by simp [note, full]
      obtain ⟨total, kept⟩ := ih ⟨t.total + 1, t.kept⟩ room
      rw [noted, total, kept, List.take_left' full, List.take_left' full]
      exact ⟨by simp only [List.length_cons]; omega, rfl⟩
    · have noted : t.note limit (fun _ => m) = ⟨t.total + 1, t.kept.push m⟩ := by
        have short : t.kept.size < limit := by omega
        simp [note, short]
      obtain ⟨total, kept⟩ := ih ⟨t.total + 1, t.kept.push m⟩ (by rw [Array.size_push]; omega)
      rw [noted, total, kept, Array.toList_push, List.append_assoc, List.singleton_append]
      exact ⟨by simp only [List.length_cons]; omega, rfl⟩

section Of

variable {n : Nat} {differ : α → α → Bool} {text : α → String} {limit : Nat}
  {expected actual : Vector α n}

/-- The indices that differ, in ascending order. -/
def differences (differ : α → α → Bool) (expected actual : Vector α n) : List (Fin n) :=
  (List.finRange n).filter fun i => differ (expected.get i) (actual.get i)

/-- All mismatches, in ascending order. -/
def mismatches (differ : α → α → Bool) (text : α → String) (expected actual : Vector α n) :
    List Mismatch :=
  (differences differ expected actual).map fun i : Fin n =>
    ⟨i, text (expected.get i), text (actual.get i)⟩

theorem of_eq : Tally.of differ text limit expected actual
    = (mismatches differ text expected actual).foldl (fun t m => t.note limit fun _ => m) {} := by
  rw [Tally.of, Fin.foldl_eq_finRange_foldl, mismatches, differences, List.foldl_map,
    List.foldl_filter]

theorem of_total : (Tally.of differ text limit expected actual).total
    = (mismatches differ text expected actual).length := by
  rw [of_eq, (foldl_note _ _ (Nat.zero_le limit)).1]
  exact Nat.zero_add _

theorem of_kept : (Tally.of differ text limit expected actual).kept.toList
    = (mismatches differ text expected actual).take limit := by
  rw [of_eq, (foldl_note _ _ (Nat.zero_le limit)).2]
  rfl

theorem of_total_eq_zero : (Tally.of differ text limit expected actual).total = 0 ↔
    ∀ i, differ (expected.get i) (actual.get i) = false := by
  rw [of_total, mismatches, List.length_map, List.length_eq_zero_iff, differences,
    List.filter_eq_nil_iff]
  simp only [List.mem_finRange, true_implies, Bool.not_eq_true]

end Of

theorem verdict_eq_passed {t : Tally} {size : Nat} {error m : Float} :
    t.verdict size error = .passed m ↔ t.total = 0 ∧ error = m := by
  unfold verdict
  split
  · simp [*]
  · simp [*]

end Tally

/-! ## Errors -/

/-- The error of a number against itself is zero, or nothing. -/
theorem absError_self (x : Float32) : ¬0 < absError x x := by
  intro lt
  obtain ⟨-, -, lt⟩ := double_lt.1 lt
  let wide := (Binary.widen x).toModel.unpack
  have unpacked : (absError x x).toModel.unpack = (Float.Model.pack
      (Float.Model.pack (wide.sub Float.Model.Format.binary64 wide)).unpack.abs).unpack := rfl
  rw [unpacked, sub_self] at lt
  split at lt
  · exact lt_irrefl _ lt
  · exact lt_irrefl _ lt

theorem maxAbsError_self {n : Nat} (x : Vector Float32 n) : maxAbsError x x = 0 := by
  rw [maxAbsError, Fin.foldl_eq_finRange_foldl]
  induction List.finRange n with
  | nil => rfl
  | cons i indices ih =>
    have skipped : ((absError (x.get i) (x.get i)).isFinite
        && decide (0 < absError (x.get i) (x.get i))) = false := by
      rw [decide_eq_false (absError_self _), Bool.and_false]
    simp only [List.foldl_cons, skipped]
    exact ih

/-! ## An output and itself -/

/-- Every float is a number. -/
def Buffer.Numeric : Buffer → Prop
  | .f32 data => ∀ x ∈ data, x.isNaN = false
  | .i16 _ | .i32 _ | .bytes _ => True

instance Buffer.decidableNumeric : DecidablePred Buffer.Numeric
  | .f32 data => inferInstanceAs (Decidable (∀ x ∈ data, x.isNaN = false))
  | .i16 _ | .i32 _ | .bytes _ => inferInstanceAs (Decidable True)

namespace Verifier

variable {n : Nat}

theorem compareFloats_self (v : Verifier) {x : Vector Float32 n}
    (h : ∀ i, (x.get i).isNaN = false) : v.compareFloats x x = .passed 0 := by
  rw [compareFloats, maxAbsError_self, Tally.verdict_eq_passed, Tally.of_total_eq_zero]
  refine ⟨fun i => ?_, rfl⟩
  rw [Tolerance.accepts, single_beq_self (h i)]
  rfl

theorem compareExactly_self [BEq α] [ReflBEq α] (v : Verifier) (text : α → String)
    (x : Vector α n) : v.compareExactly text x x = .passed 0 := by
  rw [compareExactly, Tally.verdict_eq_passed, Tally.of_total_eq_zero]
  refine ⟨fun i => ?_, rfl⟩
  rw [bne, BEq.rfl]
  rfl

theorem compare_self (v : Verifier) {b : Buffer} (h : b.Numeric) : v.compare b b = .passed 0 := by
  unfold compare
  rw [dif_pos rfl]
  cases b with
  | f32 data => exact v.compareFloats_self fun i => h _ (Array.getElem_mem i.isLt)
  | i16 data => exact v.compareExactly_self _ _
  | i32 data => exact v.compareExactly_self _ _
  | bytes data => exact v.compareExactly_self _ _

end Verifier

end Microbench
