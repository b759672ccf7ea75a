import Microbench.Proofs.Float.Widen
import Microbench.Proofs.Verdict

/-!
# What a pass says of the errors

A pair that is accepted holds two numbers. If both are finite, their error is finite and counts
towards the largest, so the largest error of a pass bounds it. An infinity is different: it makes
its own error infinite, which the largest error leaves out, and any relative part of the band
infinite as well, so that the error is within the band.

Results:

* `absError_le_maxAbsError`: every finite error is at most the largest.
* `Tolerance.accepts_infinite`: when a pair with an infinity is accepted.
* `errors_of_passed`: the errors of a comparison that passes.
-/
namespace Microbench

open Float.Model Float.Model.UnpackedFloat

/-! ## The largest error -/

section Largest

variable {n : Nat} {expected actual : Vector Float32 n}

theorem absError_isFinite {x y : Float32} (hx : x.isFinite = true) (hy : y.isFinite = true) :
    (absError x y).isFinite = true := by
  have difference : Below (183 + 2) (UnpackedFloat.sub Format.binary64
      (Binary.widen x).toModel.unpack (Binary.widen y).toModel.unpack) :=
    sub_below (by decide) (widen_below hx) (widen_below hy)
  have rounded := (difference.pack (by decide) (by decide)).abs
  exact (rounded.pack (by decide) (by decide)).isFinite

/-- The larger of the errors seen and one more, if it is finite. -/
def keepLarger (largest error : Float) : Float :=
  if error.isFinite && largest < error then error else largest

theorem maxAbsError_eq : maxAbsError expected actual
    = ((List.finRange n).map fun i => absError (expected.get i) (actual.get i)).foldl keepLarger
        0 := by
  rw [maxAbsError, Fin.foldl_eq_finRange_foldl, List.foldl_map]
  rfl

theorem keepLarger_le {largest : Float} (h : largest.isNaN = false) (error : Float) :
    largest ≤ keepLarger largest error ∧
      (error.isFinite = true → error ≤ keepLarger largest error) := by
  unfold keepLarger
  split
  · next larger =>
    rw [Bool.and_eq_true, decide_eq_true_iff] at larger
    exact ⟨double_le_of_lt larger.2, fun finite =>
      double_le_refl (double_isNaN_of_isFinite finite)⟩
  · next not =>
    refine ⟨double_le_refl h, fun finite => ?_⟩
    rw [finite, Bool.true_and, decide_eq_true_iff] at not
    exact double_le_of_not_lt h (double_isNaN_of_isFinite finite) not

/-- The largest of some errors and a number is no less than any of them. -/
theorem foldl_keepLarger (errors : List Float) {largest : Float} (h : largest.isNaN = false) :
    largest ≤ errors.foldl keepLarger largest ∧
      ∀ error ∈ errors, error.isFinite = true → error ≤ errors.foldl keepLarger largest := by
  induction errors generalizing largest with
  | nil => exact ⟨double_le_refl h, fun _ none => absurd none List.not_mem_nil⟩
  | cons error errors ih =>
    obtain ⟨kept, counted⟩ := keepLarger_le h error
    obtain ⟨later, all⟩ := ih (double_le.1 kept).2.1
    refine ⟨double_le_trans kept later, List.forall_mem_cons.2 ⟨fun finite => ?_, all⟩⟩
    exact double_le_trans (counted finite) later

theorem absError_le_maxAbsError (i : Fin n)
    (finite : (absError (expected.get i) (actual.get i)).isFinite = true) :
    absError (expected.get i) (actual.get i) ≤ maxAbsError expected actual := by
  rw [maxAbsError_eq]
  exact (foldl_keepLarger _ rfl).2 _ (List.mem_map_of_mem (List.mem_finRange i)) finite

end Largest

/-! ## Pairs that are accepted -/

namespace Tolerance

variable {t : Tolerance} {expected actual : Float32}

/-- Both parts are finite and not negative. -/
structure Proper (t : Tolerance) : Prop where
  absolute_finite : t.absolute.isFinite = true
  absolute_nonneg : 0 ≤ t.absolute
  relative_finite : t.relative.isFinite = true
  relative_nonneg : 0 ≤ t.relative

theorem accepts_iff : t.accepts expected actual = true ↔
    (expected == actual) = true ∨ (expected - actual).abs ≤ t.band expected actual := by
  rw [accepts, Bool.or_eq_true, decide_eq_true_iff]

/-- What is no number is never accepted. -/
theorem accepts_number (h : t.accepts expected actual = true) :
    expected.isNaN = false ∧ actual.isNaN = false := by
  rcases accepts_iff.1 h with equal | within
  · obtain ⟨he, ha, -⟩ := single_beq.1 equal
    exact ⟨he, ha⟩
  · have number : (expected - actual).abs.isNaN = false := (single_le.1 within).1
    rw [← Bool.not_eq_true, ← Bool.not_eq_true, ← not_or]
    intro nan
    have difference : UnpackedFloat.sub Format.binary32 expected.toModel.unpack
        actual.toModel.unpack = .notANumber := sub_notANumber nan
    have shown : (expected - actual).abs.isNaN = (Float32.Model.pack (Float32.Model.pack
        (UnpackedFloat.sub Format.binary32 expected.toModel.unpack
          actual.toModel.unpack)).unpack.abs).unpack.isNaN := rfl
    rw [shown, difference] at number
    cases number

theorem larger_infinite {x y : Float32} (h : x.toModel.unpack = .infinity .positive ∨
    y.toModel.unpack = .infinity .positive) :
    (larger x y).toModel.unpack = .infinity .positive := by
  unfold larger
  by_cases hx : x.isNaN = true
  · rw [if_pos hx]
    have nan : x.toModel.unpack = .notANumber := isNaN_iff.1 hx
    rw [nan] at h
    exact h.resolve_left UnpackedFloat.noConfusion
  rw [if_neg hx]
  by_cases hy : y.isNaN = true
  · rw [if_pos hy]
    have nan : y.toModel.unpack = .notANumber := isNaN_iff.1 hy
    rw [nan] at h
    exact h.resolve_right UnpackedFloat.noConfusion
  rw [if_neg hy]
  rw [Bool.not_eq_true] at hx hy
  by_cases less : x < y
  · rw [if_pos less]
    rcases h with infinite | infinite
    · refine eq_infinity_of_rank_le ?_
      rw [← infinite]
      exact le_of_lt (single_lt.1 less).2.2
    · exact infinite
  · rw [if_neg less]
    rcases h with infinite | infinite
    · exact infinite
    · refine eq_infinity_of_rank_le ?_
      rw [← infinite]
      exact not_lt.1 fun lt => less (single_lt.2 ⟨hx, hy, lt⟩)

/-- An infinity makes the band infinite, or nothing if the band has no relative part. -/
theorem band_infinite (proper : t.Proper) (h : expected.isInf = true ∨ actual.isInf = true) :
    (t.band expected actual).toModel.unpack
      = if 0 < t.relative then .infinity .positive else .notANumber := by
  have magnitude : (larger expected.abs actual.abs).toModel.unpack = .infinity .positive :=
    larger_infinite (h.imp abs_infinite abs_infinite)
  show (Float32.Model.pack (UnpackedFloat.add Format.binary32 t.absolute.toModel.unpack
    (Float32.Model.pack (UnpackedFloat.mul Format.binary32 t.relative.toModel.unpack
      (larger expected.abs actual.abs).toModel.unpack)).unpack)).unpack = _
  rw [magnitude]
  rcases nonneg_cases proper.relative_finite proper.relative_nonneg with
    ⟨none, s, relative⟩ | ⟨some, m, e, pos, relative⟩
  · rw [relative, if_neg none, mul_zero_infinity, single_pack_notANumber, add_notANumber]
    exact single_pack_notANumber
  · rw [relative, if_pos some, mul_infinity, single_pack_infinity,
      add_infinity proper.absolute_finite]
    exact single_pack_infinity .positive

/-- A pair of different numbers with an infinity is accepted exactly if the band has a relative
part: both the error and the band are infinite then. -/
theorem accepts_infinite (proper : t.Proper) (he : expected.isNaN = false)
    (ha : actual.isNaN = false) (h : expected.isInf = true ∨ actual.isInf = true)
    (ne : ¬(expected == actual) = true) : t.accepts expected actual = true ↔ 0 < t.relative := by
  have band := band_infinite proper h
  have different : rank expected.toModel.unpack ≠ rank actual.toModel.unpack := fun same =>
    ne (single_beq.2 ⟨he, ha, same⟩)
  obtain ⟨s, difference⟩ : ∃ s, UnpackedFloat.sub Format.binary32 expected.toModel.unpack
      actual.toModel.unpack = .infinity s := sub_infinite he ha h different
  have error : (expected - actual).abs.toModel.unpack = .infinity .positive := by
    show (Float32.Model.pack (Float32.Model.pack (UnpackedFloat.sub Format.binary32
      expected.toModel.unpack actual.toModel.unpack)).unpack.abs).unpack = _
    rw [difference, single_pack_infinity]
    exact single_pack_infinity .positive
  have number : (expected - actual).abs.isNaN = false := by
    show (expected - actual).abs.toModel.unpack.isNaN = false
    rw [error]
    rfl
  rw [accepts_iff, or_iff_right ne, single_le, error]
  show _ ∧ (t.band expected actual).toModel.unpack.isNaN = false ∧ _ ↔ _
  rw [band]
  split
  · next positive => exact iff_of_true ⟨number, rfl, le_refl _⟩ positive
  · next zero => exact iff_of_false (fun within => Bool.noConfusion within.2.1) zero

end Tolerance

/-! ## What passes -/

namespace Verifier

variable {v : Verifier}

theorem compareFloats_eq_passed {n : Nat} {expected actual : Vector Float32 n} {m : Float} :
    v.compareFloats expected actual = .passed m ↔
      (∀ i, v.tolerance.accepts (expected.get i) (actual.get i) = true) ∧
        maxAbsError expected actual = m := by
  rw [compareFloats, Tally.verdict_eq_passed, Tally.of_total_eq_zero]
  simp only [Bool.not_eq_false']

/-- A comparison of floats that passes has accepted every pair, and gives the largest error. -/
theorem compare_f32_passed {expected actual : Array Float32} {m : Float}
    (h : v.compare (.f32 expected) (.f32 actual) = .passed m) :
    ∃ size : expected.size = actual.size,
      (∀ i, v.tolerance.accepts ((Vector.mk expected size).get i) (actual.toVector.get i) = true) ∧
        maxAbsError ⟨expected, size⟩ actual.toVector = m := by
  by_cases size : expected.size = actual.size
  · have compared : v.compare (.f32 expected) (.f32 actual)
        = v.compareFloats ⟨expected, size⟩ actual.toVector := dif_pos size
    rw [compared] at h
    exact ⟨size, compareFloats_eq_passed.1 h⟩
  · have clash : (Buffer.f32 expected).size ≠ (Buffer.f32 actual).size := size
    rw [v.compare_of_size_ne clash] at h
    cases h

end Verifier

/-- Every pair of a comparison that passes is equal, or finite with an error of at most the
largest, or has an infinity. The last of these are accepted under every band with a relative part
and under no other. -/
theorem errors_of_passed (v : Verifier) (proper : v.tolerance.Proper) :
    (∀ (expected actual : Array Float32) (m : Float),
      v.compare (.f32 expected) (.f32 actual) = .passed m →
      expected.size = actual.size ∧
        ∀ i (_ : i < expected.size) (_ : i < actual.size),
          (expected[i] == actual[i]) = true ∨
          (expected[i].isFinite = true ∧ actual[i].isFinite = true ∧
            absError expected[i] actual[i] ≤ m) ∨
          (0 < v.tolerance.relative ∧ expected[i].isNaN = false ∧ actual[i].isNaN = false ∧
            (expected[i].isInf = true ∨ actual[i].isInf = true))) ∧
    ∀ e a : Float32, e.isNaN = false → a.isNaN = false → (e.isInf = true ∨ a.isInf = true) →
      ¬(e == a) = true → (v.tolerance.accepts e a = true ↔ 0 < v.tolerance.relative) := by
  refine ⟨fun expected actual m passed => ?_, fun e a he ha infinite ne =>
    Tolerance.accepts_infinite proper he ha infinite ne⟩
  obtain ⟨size, accepted, rfl⟩ := Verifier.compare_f32_passed passed
  refine ⟨size, fun i he ha => ?_⟩
  have pair : v.tolerance.accepts expected[i] actual[i] = true := accepted ⟨i, ha⟩
  obtain ⟨number, number'⟩ := Tolerance.accepts_number pair
  by_cases equal : (expected[i] == actual[i]) = true
  · exact .inl equal
  by_cases finite : expected[i].isFinite = true ∧ actual[i].isFinite = true
  · have bound := @absError_le_maxAbsError _ ⟨expected, size⟩ actual.toVector ⟨i, ha⟩
      (absError_isFinite finite.1 finite.2)
    exact .inr (.inl ⟨finite.1, finite.2, bound⟩)
  · have infinite : expected[i].isInf = true ∨ actual[i].isInf = true :=
      (not_and_or.1 finite).imp (isInf_of_not_isFinite number) (isInf_of_not_isFinite number')
    exact .inr (.inr ⟨(Tolerance.accepts_infinite proper number number' infinite equal).1 pair,
      number, number', infinite⟩)

theorem standard_proper : Tolerance.standard.Proper where
  absolute_finite := by decide +kernel
  absolute_nonneg := by decide +kernel
  relative_finite := by decide +kernel
  relative_nonneg := by decide +kernel

/-- A small error, zeros of both signs and an infinity. -/
theorem errors_of_passed_mixed : ∃ m,
    (⟨.standard, 8⟩ : Verifier).compare (.f32 #[1, 0, 1]) (.f32 #[1.0001, -0, 1 / 0])
      = .passed m ∧
    absError 1 1.0001 ≤ m ∧
    (Tolerance.standard.accepts 1 (1 / 0) = true ↔ 0 < Tolerance.standard.relative) := by
  let v : Verifier := ⟨.standard, 8⟩
  have compared : v.compare (.f32 #[1, 0, 1]) (.f32 #[1.0001, -0, 1 / 0])
      = v.compareFloats #v[1, 0, 1] #v[1.0001, -0, 1 / 0] := rfl
  have passed : v.compare (.f32 #[1, 0, 1]) (.f32 #[1.0001, -0, 1 / 0])
      = .passed (maxAbsError #v[1, 0, 1] #v[1.0001, -0, 1 / 0]) := by
    rw [compared, Verifier.compareFloats_eq_passed]
    exact ⟨by decide +kernel, rfl⟩
  obtain ⟨bounds, band⟩ := errors_of_passed v standard_proper
  refine ⟨_, passed, ?_, band 1 (1 / 0) ?_ ?_ ?_ ?_⟩
  · rcases (bounds _ _ _ passed).2 0 (by decide) (by decide) with equal | close | infinite
    · exact absurd equal (by decide +kernel)
    · exact close.2.2
    · exact absurd infinite.2.2.2 (by decide +kernel)
  · decide +kernel
  · decide +kernel
  · decide +kernel
  · decide +kernel

/-- An infinity passes for a number, with a largest error of zero. -/
theorem infinite_error_passes :
    ¬∀ v : Verifier, v.tolerance.Proper → ∀ (expected actual : Array Float32) (m : Float),
      v.compare (.f32 expected) (.f32 actual) = .passed m →
      ∀ i (_ : i < expected.size) (_ : i < actual.size),
        (expected[i] == actual[i]) = true ∨
        (expected[i].isFinite = true ∧ actual[i].isFinite = true ∧
          absError expected[i] actual[i] ≤ m) := by
  intro bounded
  let v : Verifier := ⟨.standard, 8⟩
  have compared : v.compare (.f32 #[1]) (.f32 #[1 / 0]) = v.compareFloats #v[1] #v[1 / 0] := rfl
  have passed : v.compare (.f32 #[1]) (.f32 #[1 / 0]) = .passed 0 := by
    rw [compared, Verifier.compareFloats_eq_passed]
    decide +kernel
  rcases bounded v standard_proper _ _ _ passed 0 (by decide) (by decide) with equal | close
  · exact absurd equal (by decide +kernel)
  · exact absurd close.2.1 (by decide +kernel)

end Microbench
