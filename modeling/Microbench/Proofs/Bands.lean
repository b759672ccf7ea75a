import Microbench.Proofs.Diagnostics
import Microbench.Proofs.Float.Arithmetic

/-!
# Wider and narrower bands

A band with larger parts accepts more pairs. The error of a pair does not depend on the band, and
rounding keeps the order of bands: of the products with the larger magnitude, then of the sums. An
infinity is accepted under every band with a relative part and under no other. The band without
parts accepts what is equal, since the error of any other pair is not zero.

Results:

* `not_beq_iff`: which floats are not equal.
* `Tolerance.accepts_wider`: a wider band accepts whatever a narrower one does.
* `Tolerance.accepts_comm`: the two floats of a pair may change places.
* `Tolerance.accepts_exact`: what is accepted without a band.
* `graded`: how comparisons under different bands relate.
-/
namespace Microbench

open Float.Model Float.Model.UnpackedFloat

/-! ## Floats that are not equal -/

/-- Something that is no number, an infinity and any other value, or numbers that differ. -/
inductive Unequal (x y : Float32) : Prop where
  | nan (h : x.isNaN = true ∨ y.isNaN = true)
  | infinite (hx : x.isNaN = false) (hy : y.isNaN = false) (h : x.isInf = true ∨ y.isInf = true)
      (ne : x.toModel.unpack ≠ y.toModel.unpack)
  | finite {v w : ℚ} (hv : number x.toModel.unpack = some v)
      (hw : number y.toModel.unpack = some w) (ne : v ≠ w)

section Equality

variable {x y : Float32}

/-- Nothing else stands where an infinity stands. -/
theorem eq_infinity_of_rank {u : UnpackedFloat} {s : Sign} (h : rank u = rank (.infinity s)) :
    u = .infinity s := by
  cases u with
  | infinity s' => cases s <;> cases s' <;> first | rfl | cases h
  | finite s' => cases s <;> cases s' <;> cases h
  | _ => cases s <;> cases h

theorem unpack_eq_of_beq (h : (x == y) = true) (infinite : x.isInf = true ∨ y.isInf = true) :
    x.toModel.unpack = y.toModel.unpack := by
  obtain ⟨-, -, same⟩ := single_beq.1 h
  rcases infinite with hx | hy
  · obtain ⟨s, hs⟩ := unpack_of_isInf hx
    rw [hs] at same ⊢
    exact (eq_infinity_of_rank same.symm).symm
  · obtain ⟨s, hs⟩ := unpack_of_isInf hy
    rw [hs] at same ⊢
    exact eq_infinity_of_rank same

theorem not_beq_iff : (x == y) = false ↔ Unequal x y := by
  rw [← Bool.not_eq_true]
  constructor
  · intro ne
    by_cases nan : x.isNaN = true ∨ y.isNaN = true
    · exact .nan nan
    rw [not_or, Bool.not_eq_true, Bool.not_eq_true] at nan
    by_cases finite : x.isFinite = true ∧ y.isFinite = true
    · obtain ⟨v, hv⟩ := single_number finite.1
      obtain ⟨w, hw⟩ := single_number finite.2
      exact .finite hv hw fun same => ne ((single_beq_iff hv hw).2 same)
    · refine .infinite nan.1 nan.2 ?_ fun same => ne ?_
      · exact (not_and_or.1 finite).imp (isInf_of_not_isFinite nan.1) (isInf_of_not_isFinite nan.2)
      · exact single_beq.2 ⟨nan.1, nan.2, by rw [same]⟩
  · intro unequal equal
    cases unequal with
    | nan h =>
      obtain ⟨hx, hy, -⟩ := single_beq.1 equal
      rw [hx, hy] at h
      exact h.elim Bool.noConfusion Bool.noConfusion
    | infinite _ _ h ne => exact ne (unpack_eq_of_beq equal h)
    | finite hv hw ne => exact ne ((single_beq_iff hv hw).1 equal)

theorem single_beq_comm : (x == y) = (y == x) := by
  rw [Bool.eq_iff_iff, single_beq, single_beq]
  constructor <;> exact fun ⟨hx, hy, same⟩ => ⟨hy, hx, same.symm⟩

end Equality

/-! ## Pairs that are accepted -/

namespace Tolerance

variable {t t' : Tolerance} {expected actual : Float32}

/-- Neither part is larger. -/
structure Within (t t' : Tolerance) : Prop where
  absolute : t.absolute ≤ t'.absolute
  relative : t.relative ≤ t'.relative

theorem larger_number {x y : Float32} {v w : ℚ} (hv : number x.toModel.unpack = some v)
    (hw : number y.toModel.unpack = some w) :
    number (larger x y).toModel.unpack = some (max v w) := by
  rw [larger, isNaN_of_number hv, isNaN_of_number hw]
  by_cases less : x < y
  · rw [max_eq_right ((single_lt_iff hv hw).1 less).le]
    simpa [less] using hw
  · rw [max_eq_left (not_lt.1 fun lt => less ((single_lt_iff hv hw).2 lt))]
    simpa [less] using hv

section Finite

variable {expected' actual' : Float32} {v v' w w' : ℚ}
  (he : number expected.toModel.unpack = some v) (ha : number actual.toModel.unpack = some w)
include he ha

/-- The band of larger magnitudes is wider, too. -/
theorem band_le (proper : t.Proper) (proper' : t'.Proper) (within : t.Within t')
    (he' : number expected'.toModel.unpack = some v')
    (ha' : number actual'.toModel.unpack = some w') (le : max |v| |w| ≤ max |v'| |w'|) :
    t.band expected actual ≤ t'.band expected' actual' := by
  obtain ⟨p, hp⟩ := single_number proper.relative_finite
  obtain ⟨p', hp'⟩ := single_number proper'.relative_finite
  have factor : 0 ≤ p := (single_nonneg_iff hp).1 proper.relative_nonneg
  have factor' : 0 ≤ p' := (single_nonneg_iff hp').1 proper'.relative_nonneg
  have grows : p ≤ p' := (single_le_iff hp hp').1 within.relative
  have magnitude : 0 ≤ max |v| |w| := le_max_of_le_left (abs_nonneg v)
  have product := mul_result hp (larger_number (abs_number he) (abs_number ha)) factor magnitude
  have product' := mul_result hp' (larger_number (abs_number he') (abs_number ha')) factor'
    (magnitude.trans le)
  exact single_add_le_add proper.absolute_finite proper'.absolute_finite proper.absolute_nonneg
    within.absolute (zero_result.le product (mul_nonneg factor magnitude))
    (product.le product' (mul_le_mul grows le magnitude factor'))

/-- Without parts there is no band. -/
theorem band_exact : exact.band expected actual ≤ 0 := by
  have product := mul_result (show number (0 : Float32).toModel.unpack = some 0 from rfl)
    (larger_number (abs_number he) (abs_number ha)) le_rfl (le_max_of_le_left (abs_nonneg v))
  rw [zero_mul] at product
  have sum : exact.band expected actual ≤ 0 + 0 :=
    single_add_le_add rfl rfl (by decide +kernel) (by decide +kernel)
      (zero_result.le product le_rfl) (product.le zero_result le_rfl)
  exact single_le_trans sum (by decide +kernel)

end Finite

theorem exact_proper : exact.Proper where
  absolute_finite := rfl
  absolute_nonneg := by decide +kernel
  relative_finite := rfl
  relative_nonneg := by decide +kernel

/-- Why a pair is accepted. With an infinity, the error is infinite and so has the band to be. -/
inductive Accepted (t : Tolerance) (expected actual : Float32) : Prop where
  | equal (h : (expected == actual) = true)
  | infinite (number : expected.isNaN = false) (number' : actual.isNaN = false)
      (h : expected.isInf = true ∨ actual.isInf = true) (ne : ¬(expected == actual) = true)
      (band : 0 < t.relative)
  | finite {v w : ℚ} (he : number expected.toModel.unpack = some v)
      (ha : number actual.toModel.unpack = some w) (ne : ¬(expected == actual) = true)
      (within : (expected - actual).abs ≤ t.band expected actual)

theorem accepts_iff_accepted (proper : t.Proper) :
    t.accepts expected actual = true ↔ Accepted t expected actual := by
  constructor
  · intro h
    by_cases equal : (expected == actual) = true
    · exact .equal equal
    obtain ⟨number, number'⟩ := accepts_number h
    cases not_beq_iff.1 (Bool.not_eq_true _ ▸ equal) with
    | nan nan =>
      rw [number, number'] at nan
      exact absurd nan (by decide)
    | infinite _ _ infinite =>
      exact .infinite number number' infinite equal
        ((accepts_infinite proper number number' infinite equal).1 h)
    | finite he ha => exact .finite he ha equal ((accepts_iff.1 h).resolve_left equal)
  · intro accepted
    cases accepted with
    | equal h => exact accepts_iff.2 (.inl h)
    | infinite number number' h ne band =>
      exact (accepts_infinite proper number number' h ne).2 band
    | finite _ _ _ within => exact accepts_iff.2 (.inr within)

theorem Proper.within (proper : t.Proper) : t.Within t :=
  ⟨single_le_refl (single_le.1 proper.absolute_nonneg).2.1,
    single_le_refl (single_le.1 proper.relative_nonneg).2.1⟩

theorem accepts_wider (proper : t.Proper) (proper' : t'.Proper) (within : t.Within t')
    (h : t.accepts expected actual = true) : t'.accepts expected actual = true := by
  refine (accepts_iff_accepted proper').2 ?_
  cases (accepts_iff_accepted proper).1 h with
  | equal equal => exact .equal equal
  | infinite number number' infinite ne band =>
    exact .infinite number number' infinite ne (single_lt_of_lt_of_le band within.relative)
  | finite he ha ne close =>
    have band := band_le he ha proper proper' within he ha le_rfl
    exact .finite he ha ne (single_le_trans close band)

theorem accepts_symm (proper : t.Proper) (h : t.accepts expected actual = true) :
    t.accepts actual expected = true := by
  refine (accepts_iff_accepted proper).2 ?_
  cases (accepts_iff_accepted proper).1 h with
  | equal equal => exact .equal (single_beq_comm.trans equal)
  | infinite number number' infinite ne band =>
    exact .infinite number' number infinite.symm (single_beq_comm ▸ ne) band
  | finite he ha ne close =>
    have error := sub_abs_le (isFinite_of_number ha) (isFinite_of_number he)
    have band := band_le he ha proper proper proper.within ha he (max_comm ..).le
    exact .finite ha he (single_beq_comm ▸ ne) (single_le_trans error (single_le_trans close band))

theorem accepts_comm (proper : t.Proper) :
    t.accepts expected actual = t.accepts actual expected :=
  Bool.eq_iff_iff.2 ⟨accepts_symm proper, accepts_symm proper⟩

/-- Without a band, all that is accepted is what is equal. -/
theorem accepts_exact : exact.accepts expected actual = (expected == actual) := by
  rw [Bool.eq_iff_iff, accepts_iff_accepted exact_proper]
  refine ⟨fun accepted => ?_, .equal⟩
  cases accepted with
  | equal equal => exact equal
  | infinite _ _ _ _ band => exact absurd band (by decide +kernel)
  | finite he ha ne close =>
    have error := sub_abs_pos (isFinite_of_number he) (isFinite_of_number ha) ne
    exact absurd error (single_not_lt (single_le_trans close (band_exact he ha)))

end Tolerance

/-! ## Outputs of floats -/

namespace Verdict

/-- How many elements differ. -/
def total : Verdict → Nat
  | .passed _ => 0
  | .failed _ _ total => total

end Verdict

theorem Tally.verdict_total (t : Tally) (size : Nat) (error : Float) :
    (t.verdict size error).total = t.total := by
  rw [Tally.verdict]
  split
  · next none => exact none.symm
  · rfl

namespace Verifier

variable {v narrow wide : Verifier} {reference candidate : Array Float32} {i : Nat}
  (size : reference.size = candidate.size)
include size

theorem compare_f32 : v.compare (.f32 reference) (.f32 candidate)
    = v.compareFloats ⟨reference, size⟩ candidate.toVector := dif_pos size

theorem rejected_f32 : v.rejected (.f32 reference) (.f32 candidate)
    = (Tally.differences (fun e a => !v.tolerance.accepts e a) ⟨reference, size⟩
        candidate.toVector).map Fin.val :=
  rejected_eq (Buffer.typed_f32.shows ⟨reference, size⟩) (Buffer.typed_f32.shows candidate.toVector)
    fun _ _ => rfl

theorem mem_rejected : i ∈ v.rejected (.f32 reference) (.f32 candidate) ↔
    ∃ (_ : i < reference.size) (_ : i < candidate.size),
      v.tolerance.accepts reference[i] candidate[i] = false := by
  rw [rejected_f32 size, List.mem_map]
  constructor
  · rintro ⟨j, among, rfl⟩
    rw [Tally.differences, List.mem_filter, Bool.not_eq_true'] at among
    exact ⟨j.isLt.trans_eq size.symm, j.isLt, among.2⟩
  · rintro ⟨_, bound, refused⟩
    refine ⟨⟨i, bound⟩, ?_, rfl⟩
    rw [Tally.differences, List.mem_filter, Bool.not_eq_true']
    exact ⟨List.mem_finRange _, refused⟩

theorem compare_total : (v.compare (.f32 reference) (.f32 candidate)).total
    = (v.rejected (.f32 reference) (.f32 candidate)).length := by
  rw [compare_f32 size, compareFloats, Tally.verdict_total, Tally.of_total, Tally.mismatches,
    rejected_f32 size, List.length_map, List.length_map]

theorem rejected_sublist (proper : narrow.tolerance.Proper) (proper' : wide.tolerance.Proper)
    (within : narrow.tolerance.Within wide.tolerance) :
    (wide.rejected (.f32 reference) (.f32 candidate)).Sublist
      (narrow.rejected (.f32 reference) (.f32 candidate)) := by
  rw [rejected_f32 size, rejected_f32 size]
  refine List.Sublist.map _ (List.monotone_filter_right _ fun i refused => ?_)
  rw [Bool.not_eq_true'] at refused ⊢
  rw [← Bool.not_eq_true] at refused ⊢
  exact fun accepted => refused (Tolerance.accepts_wider proper proper' within accepted)

theorem rejected_comm (proper : v.tolerance.Proper) :
    v.rejected (.f32 reference) (.f32 candidate)
      = v.rejected (.f32 candidate) (.f32 reference) := by
  have lengths : (Buffer.f32 reference).size = (Buffer.f32 candidate).size := size
  rw [rejected, rejected, lengths]
  refine List.filter_congr fun i _ => ?_
  simp only [Buffer.element?]
  cases reference[i]? <;> cases candidate[i]?
  case some.some e a => exact congrArg (!·) (Tolerance.accepts_comm proper)
  all_goals rfl

theorem passed_wider (proper : narrow.tolerance.Proper) (proper' : wide.tolerance.Proper)
    (within : narrow.tolerance.Within wide.tolerance) {m : Float}
    (passed : narrow.compare (.f32 reference) (.f32 candidate) = .passed m) :
    wide.compare (.f32 reference) (.f32 candidate) = .passed m := by
  rw [compare_f32 size, compareFloats_eq_passed] at passed ⊢
  exact ⟨fun i => Tolerance.accepts_wider proper proper' within (passed.1 i), passed.2⟩

end Verifier

/-- How comparisons of two outputs of floats under a narrower and a wider band relate. -/
structure Graded (narrow wide : Verifier) (reference candidate : Array Float32) : Prop where
  /-- Every pair that is not accepted is rejected, and all of them are counted. -/
  rejected : ∀ v : Verifier,
    (∀ i, i ∈ v.rejected (.f32 reference) (.f32 candidate) ↔
      ∃ (_ : i < reference.size) (_ : i < candidate.size),
        v.tolerance.accepts reference[i] candidate[i] = false) ∧
    (v.compare (.f32 reference) (.f32 candidate)).total
      = (v.rejected (.f32 reference) (.f32 candidate)).length
  nested : wide.rejected (.f32 reference) (.f32 candidate)
    ⊆ narrow.rejected (.f32 reference) (.f32 candidate)
  fewer : (wide.compare (.f32 reference) (.f32 candidate)).total
    ≤ (narrow.compare (.f32 reference) (.f32 candidate)).total
  /-- With the same largest error. -/
  passed : ∀ m, narrow.compare (.f32 reference) (.f32 candidate) = .passed m →
    wide.compare (.f32 reference) (.f32 candidate) = .passed m
  swapped : ∀ v : Verifier, v.tolerance.Proper →
    v.rejected (.f32 reference) (.f32 candidate) = v.rejected (.f32 candidate) (.f32 reference)
  /-- Without a band, everything is rejected that is not equal. -/
  exact : ∀ limit i, i ∈ (⟨.exact, limit⟩ : Verifier).rejected (.f32 reference) (.f32 candidate) ↔
    ∃ (_ : i < reference.size) (_ : i < candidate.size), (reference[i] == candidate[i]) = false
  unequal : ∀ e a : Float32, (e == a) = false ↔ Unequal e a

/-- Wider bands reject less, whatever the floats and however many mismatches are reported. -/
theorem graded {narrow wide : Verifier} (proper : narrow.tolerance.Proper)
    (proper' : wide.tolerance.Proper)
    (absolute : narrow.tolerance.absolute ≤ wide.tolerance.absolute)
    (relative : narrow.tolerance.relative ≤ wide.tolerance.relative)
    {reference candidate : Array Float32} (size : reference.size = candidate.size) :
    Graded narrow wide reference candidate := by
  have sublist := Verifier.rejected_sublist size proper proper' ⟨absolute, relative⟩
  refine ⟨fun v => ⟨fun _ => Verifier.mem_rejected size, Verifier.compare_total size⟩,
    sublist.subset, ?_, fun m => Verifier.passed_wider size proper proper' ⟨absolute, relative⟩,
    fun v => Verifier.rejected_comm size, fun limit i => ?_, fun _ _ => not_beq_iff⟩
  · rw [Verifier.compare_total size, Verifier.compare_total size]
    exact sublist.length_le
  · rw [Verifier.mem_rejected size]
    simp only [Tolerance.accepts_exact]

theorem strict_proper : Tolerance.strict.Proper where
  absolute_finite := by decide +kernel
  absolute_nonneg := by decide +kernel
  relative_finite := by decide +kernel
  relative_nonneg := by decide +kernel

/-- A small error, zeros of both signs, an infinity and what is no number. -/
theorem graded_strict_standard :
    Graded ⟨.strict, 8⟩ ⟨.standard, 2⟩ #[1, 0, 1, 1] #[1.00005, -0, 1 / 0, 0 / 0] ∧
      (⟨.strict, 8⟩ : Verifier).rejected (.f32 #[1, 0, 1, 1]) (.f32 #[1.00005, -0, 1 / 0, 0 / 0])
        = [0, 3] ∧
      (⟨.standard, 2⟩ : Verifier).rejected (.f32 #[1, 0, 1, 1])
        (.f32 #[1.00005, -0, 1 / 0, 0 / 0]) = [3] :=
  ⟨graded strict_proper standard_proper (by decide +kernel) (by decide +kernel) rfl,
    by decide +kernel, by decide +kernel⟩

end Microbench
