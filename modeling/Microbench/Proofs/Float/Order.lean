import Mathlib.Data.Prod.Lex
import Mathlib.Order.Compare
import Mathlib.Algebra.Order.Group.Int

/-!
# The order of floating-point numbers

Comparing two numbers is comparing their ranks in a linear order: by class and sign first, then by
exponent and mantissa. What is no number compares with nothing.

Results:

* `compare_eq`: the comparison by ranks.
* `single_beq_self`: a number equals itself.
* `double_le_of_not_lt`, `double_le_of_lt`, `double_le_trans`: the order of double precision.
-/
namespace Microbench

open Float.Model Float.Model.UnpackedFloat

/-- Where a number stands. -/
def rank : UnpackedFloat → ℤ ×ₗ ℤ ×ₗ ℤ
  | .infinity .negative => toLex (-2, toLex (0, 0))
  | .finite .negative m e _ => toLex (-1, toLex (-e, -(m : ℤ)))
  | .zero _ | .notANumber => toLex (0, toLex (0, 0))
  | .finite .positive m e _ => toLex (1, toLex (e, (m : ℤ)))
  | .infinity .positive => toLex (2, toLex (0, 0))

theorem compare_cast (m m' : ℕ) : compare (m : ℤ) (m' : ℤ) = compare m m' := by
  rcases lt_trichotomy m m' with h | h | h
  · rw [compare_lt_iff_lt.2 h, compare_lt_iff_lt.2 (Int.ofNat_lt.2 h)]
  · rw [compare_eq_iff_eq.2 h, compare_eq_iff_eq.2 (congrArg Nat.cast h)]
  · rw [compare_gt_iff_gt.2 h, compare_gt_iff_gt.2 (Int.ofNat_lt.2 h)]

theorem compare_neg (a b : ℤ) : compare (-a) (-b) = (compare a b).swap := by
  rcases lt_trichotomy a b with h | h | h
  · have h' : -b < -a := by omega
    rw [compare_lt_iff_lt.2 h, compare_gt_iff_gt.2 h']
    rfl
  · rw [h, compare_eq_iff_eq.2 rfl, compare_eq_iff_eq.2 rfl]
    rfl
  · have h' : -a < -b := by omega
    rw [compare_gt_iff_gt.2 h, compare_lt_iff_lt.2 h']
    rfl

/-- Finite numbers above zero are compared by exponent and mantissa. -/
theorem compare_positive (m m' : ℕ) (e e' : ℤ) :
    compare (toLex (1, toLex (e, (m : ℤ)))) (toLex ((1 : ℤ), toLex (e', (m' : ℤ))))
      = (compare e e').then (compare m m') := by
  rw [← compare_cast]
  rfl

/-- Finite numbers below zero are compared the other way round. -/
theorem compare_negative (m m' : ℕ) (e e' : ℤ) :
    compare (toLex (-1, toLex (-e, -(m : ℤ)))) (toLex ((-1 : ℤ), toLex (-e', -(m' : ℤ))))
      = ((compare e e').then (compare m m')).swap := by
  rw [← compare_cast, Ordering.swap_then, ← compare_neg, ← compare_neg]
  rfl

section Unpacked

variable {x y : UnpackedFloat}

theorem compare_eq (hx : x.isNaN = false) (hy : y.isNaN = false) :
    UnpackedFloat.compare x y = some (compare (rank x) (rank y)) := by
  cases x with
  | notANumber => cases hx
  | infinity s =>
    cases y with
    | notANumber => cases hy
    | infinity s' => cases s <;> cases s' <;> rfl
    | zero => cases s <;> rfl
    | finite s' => cases s <;> cases s' <;> rfl
  | zero =>
    cases y with
    | notANumber => cases hy
    | infinity s' => cases s' <;> rfl
    | zero => rfl
    | finite s' => cases s' <;> rfl
  | finite s m e =>
    cases y with
    | notANumber => cases hy
    | infinity s' => cases s <;> cases s' <;> rfl
    | zero => cases s <;> rfl
    | finite s' m' e' =>
      -- Within one sign the ranks differ by exponent and mantissa alone.
      cases s with
      | negative =>
        cases s' with
        | negative => exact congrArg some (compare_negative m m' e e').symm
        | positive => rfl
      | positive =>
        cases s' with
        | negative => rfl
        | positive => exact congrArg some (compare_positive m m' e e').symm

theorem notANumber_compare (y : UnpackedFloat) : UnpackedFloat.compare .notANumber y = none := by
  cases y <;> rfl

theorem compare_notANumber (x : UnpackedFloat) : UnpackedFloat.compare x .notANumber = none := by
  cases x with
  | infinity s => cases s <;> rfl
  | finite s => cases s <;> rfl
  | _ => rfl

theorem isNaN_iff : x.isNaN = true ↔ x = .notANumber := by
  constructor
  · intro h
    cases x with
    | notANumber => rfl
    | _ => cases h
  · intro h
    rw [h]
    rfl

theorem compare_eq_none : UnpackedFloat.compare x y = none ↔ x.isNaN = true ∨ y.isNaN = true := by
  constructor
  · intro h
    by_contra numbers
    rw [not_or, Bool.not_eq_true, Bool.not_eq_true] at numbers
    rw [compare_eq numbers.1 numbers.2] at h
    cases h
  · intro h
    rcases h with h | h
    · rw [isNaN_iff.1 h, notANumber_compare]
    · rw [isNaN_iff.1 h, compare_notANumber]

theorem compare_eq_some {o : Ordering} : UnpackedFloat.compare x y = some o ↔
    x.isNaN = false ∧ y.isNaN = false ∧ compare (rank x) (rank y) = o := by
  constructor
  · intro h
    have numbers : ¬(x.isNaN = true ∨ y.isNaN = true) := by
      rw [← compare_eq_none, h]
      exact Option.some_ne_none o
    rw [not_or, Bool.not_eq_true, Bool.not_eq_true] at numbers
    rw [compare_eq numbers.1 numbers.2] at h
    exact ⟨numbers.1, numbers.2, Option.some.inj h⟩
  · intro ⟨hx, hy, h⟩
    rw [compare_eq hx hy, h]

theorem unpacked_beq : x.beq y = true ↔ x.isNaN = false ∧ y.isNaN = false ∧ rank x = rank y := by
  show (UnpackedFloat.compare x y == some .eq) = true ↔ _
  rw [beq_iff_eq, compare_eq_some, compare_eq_iff_eq]

theorem unpacked_lt : x.lt y = true ↔ x.isNaN = false ∧ y.isNaN = false ∧ rank x < rank y := by
  show (UnpackedFloat.compare x y == some .lt) = true ↔ _
  rw [beq_iff_eq, compare_eq_some, compare_lt_iff_lt]

theorem unpacked_le : x.le y = true ↔ x.isNaN = false ∧ y.isNaN = false ∧ rank x ≤ rank y := by
  show (UnpackedFloat.compare x y).any (·.isLE) = true ↔ _
  rw [Option.any_eq_true, ← compare_le_iff_le]
  constructor
  · intro ⟨o, ho, le⟩
    obtain ⟨hx, hy, rfl⟩ := compare_eq_some.1 ho
    exact ⟨hx, hy, Ordering.isLE_iff_ne_gt.1 le⟩
  · intro ⟨hx, hy, le⟩
    exact ⟨_, compare_eq hx hy, Ordering.isLE_iff_ne_gt.2 le⟩

end Unpacked

/-! ## Single and double precision -/

theorem single_beq {x y : Float32} : (x == y) = true ↔
    x.isNaN = false ∧ y.isNaN = false ∧ rank x.toModel.unpack = rank y.toModel.unpack :=
  unpacked_beq

theorem single_beq_self {x : Float32} (h : x.isNaN = false) : (x == x) = true :=
  single_beq.2 ⟨h, h, rfl⟩

theorem single_le {x y : Float32} : x ≤ y ↔
    x.isNaN = false ∧ y.isNaN = false ∧ rank x.toModel.unpack ≤ rank y.toModel.unpack := by
  refine Iff.trans ?_ unpacked_le
  exact decide_eq_true_iff

theorem single_lt {x y : Float32} : x < y ↔
    x.isNaN = false ∧ y.isNaN = false ∧ rank x.toModel.unpack < rank y.toModel.unpack := by
  refine Iff.trans ?_ unpacked_lt
  exact decide_eq_true_iff

theorem double_le {x y : Float} : x ≤ y ↔
    x.isNaN = false ∧ y.isNaN = false ∧ rank x.toModel.unpack ≤ rank y.toModel.unpack := by
  refine Iff.trans ?_ unpacked_le
  exact decide_eq_true_iff

theorem double_lt {x y : Float} : x < y ↔
    x.isNaN = false ∧ y.isNaN = false ∧ rank x.toModel.unpack < rank y.toModel.unpack := by
  refine Iff.trans ?_ unpacked_lt
  exact decide_eq_true_iff

section Double

variable {x y z : Float}

theorem double_le_of_lt (h : x < y) : x ≤ y := by
  obtain ⟨hx, hy, lt⟩ := double_lt.1 h
  exact double_le.2 ⟨hx, hy, le_of_lt lt⟩

theorem double_le_of_not_lt (hx : x.isNaN = false) (hy : y.isNaN = false) (h : ¬x < y) : y ≤ x := by
  rw [double_lt] at h
  exact double_le.2 ⟨hy, hx, not_lt.1 fun lt => h ⟨hx, hy, lt⟩⟩

theorem double_le_refl (hx : x.isNaN = false) : x ≤ x := double_le.2 ⟨hx, hx, le_refl _⟩

theorem double_le_trans (h : x ≤ y) (h' : y ≤ z) : x ≤ z := by
  obtain ⟨hx, -, le⟩ := double_le.1 h
  obtain ⟨-, hz, le'⟩ := double_le.1 h'
  exact double_le.2 ⟨hx, hz, le_trans le le'⟩

end Double

end Microbench
