import Mathlib.Tactic.NormNum
import Microbench.Proofs.Float.Order

/-!
# Infinities, zeros and what is no number

Packing keeps the classes of infinities, zeros and what is no number, so results of these classes
are found before rounding.

Results:

* `sub_self`: a number less itself is zero, or nothing if it is infinite.
* `sub_infinite`: the difference of an infinity and anything else but itself is infinite.
* `nonneg_cases`: finite numbers that are not negative.
* `isInf_of_not_isFinite`: a number that is not finite is infinite.
-/
namespace Microbench

open Float.Model Float.Model.UnpackedFloat

/-! ## Packing -/

section Pack

theorem single_pack_infinity (s : Sign) :
    (Float32.Model.pack (.infinity s)).unpack = .infinity s := by
  cases s <;> rfl

theorem single_pack_notANumber : (Float32.Model.pack .notANumber).unpack = .notANumber := rfl

theorem double_pack_zero (s : Sign) : (Float.Model.pack (.zero s)).unpack = .zero s := by
  cases s <;> rfl

end Pack

/-! ## Operations on special operands -/

section Unpacked

variable {x y : UnpackedFloat} {spec : Format}

theorem sub_self (spec : Format) (x : UnpackedFloat) :
    UnpackedFloat.sub spec x x = if x.isFinite then .zero .positive else .notANumber := by
  cases x with
  | finite s m e h =>
    show normalize spec (s.apply _ - s.apply _) (min e e) .positive = _
    rw [Int.sub_self]
    rfl
  | notANumber => rfl
  | _ s => cases s <;> rfl

theorem sub_infinite (hx : x.isNaN = false) (hy : y.isNaN = false)
    (infinite : x.isInf = true ∨ y.isInf = true) (ne : rank x ≠ rank y) :
    ∃ s, UnpackedFloat.sub spec x y = .infinity s := by
  cases x with
  | notANumber => cases hx
  | infinity s =>
    cases y with
    | notANumber => cases hy
    | infinity s' =>
      cases s <;> cases s' <;> first | exact absurd rfl ne | exact ⟨_, rfl⟩
    | zero => exact ⟨_, rfl⟩
    | finite => exact ⟨_, rfl⟩
  | zero =>
    cases y with
    | infinity s' => exact ⟨_, rfl⟩
    | _ => exact (infinite.elim Bool.noConfusion Bool.noConfusion)
  | finite =>
    cases y with
    | infinity s' => exact ⟨_, rfl⟩
    | _ => exact (infinite.elim Bool.noConfusion Bool.noConfusion)

theorem sub_notANumber (h : x.isNaN = true ∨ y.isNaN = true) :
    UnpackedFloat.sub spec x y = .notANumber := by
  rcases h with h | h
  · rw [isNaN_iff.1 h]
    rfl
  · rw [isNaN_iff.1 h]
    cases x <;> rfl

theorem add_infinity (h : x.isFinite = true) (s : Sign) :
    UnpackedFloat.add spec x (.infinity s) = .infinity s := by
  cases x with
  | zero => rfl
  | finite => rfl
  | infinity => cases h
  | notANumber => cases h

theorem add_notANumber : UnpackedFloat.add spec x .notANumber = .notANumber := by
  cases x <;> rfl

theorem mul_zero_infinity (s s' : Sign) :
    UnpackedFloat.mul spec (.zero s) (.infinity s') = .notANumber := rfl

theorem mul_infinity {m : Nat} {e : Int} (pos : 0 < m) (s : Sign) :
    UnpackedFloat.mul spec (.finite .positive m e pos) (.infinity s) = .infinity s := by
  cases s <;> rfl

end Unpacked

/-! ## Finite numbers that are not negative -/

theorem rank_negative_lt {m : Nat} {e : Int} (h : 0 < m) (s : Sign) :
    rank (.finite .negative m e h) < rank (.zero s) :=
  Prod.Lex.toLex_lt_toLex.2 (.inl (by norm_num))

theorem rank_zero_lt {m : Nat} {e : Int} (h : 0 < m) (s : Sign) :
    rank (.zero s) < rank (.finite .positive m e h) :=
  Prod.Lex.toLex_lt_toLex.2 (.inl (by norm_num))

theorem single_unpack_zero : (0 : Float32).toModel.unpack = .zero .positive := rfl

theorem nonneg_cases {x : Float32} (finite : x.isFinite = true) (h : 0 ≤ x) :
    (¬0 < x ∧ ∃ s, x.toModel.unpack = .zero s) ∨
      (0 < x ∧ ∃ m e pos, x.toModel.unpack = .finite .positive m e pos) := by
  obtain ⟨hz, hx, le⟩ := single_le.1 h
  have finite' : x.toModel.unpack.isFinite = true := finite
  rw [single_lt, single_unpack_zero]
  rw [single_unpack_zero] at le
  cases hu : x.toModel.unpack with
  | notANumber => rw [hu] at finite'; cases finite'
  | infinity => rw [hu] at finite'; cases finite'
  | zero s => exact .inl ⟨fun lt => lt_irrefl _ lt.2.2, s, rfl⟩
  | finite s m e pos =>
    cases s with
    | negative =>
      rw [hu] at le
      exact absurd le (not_le.2 (rank_negative_lt pos .positive))
    | positive => exact .inr ⟨⟨hz, hx, rank_zero_lt pos .positive⟩, m, e, pos, rfl⟩

/-! ## Infinities -/

theorem eq_infinity_of_rank_le {u : UnpackedFloat} (h : rank (.infinity .positive) ≤ rank u) :
    u = .infinity .positive := by
  have first := Prod.Lex.monotone_fst _ _ h
  cases u with
  | infinity s =>
    cases s with
    | positive => rfl
    | negative => exact absurd first (show ¬(2 : ℤ) ≤ -2 by decide)
  | notANumber => exact absurd first (show ¬(2 : ℤ) ≤ 0 by decide)
  | zero => exact absurd first (show ¬(2 : ℤ) ≤ 0 by decide)
  | finite s =>
    cases s with
    | positive => exact absurd first (show ¬(2 : ℤ) ≤ 1 by decide)
    | negative => exact absurd first (show ¬(2 : ℤ) ≤ -1 by decide)

theorem unpack_of_isInf {x : Float32} (h : x.isInf = true) :
    ∃ s, x.toModel.unpack = .infinity s := by
  have infinite : x.toModel.unpack.isInf = true := h
  cases hu : x.toModel.unpack with
  | infinity s => exact ⟨s, rfl⟩
  | _ => rw [hu] at infinite; cases infinite

theorem abs_infinite {x : Float32} (h : x.isInf = true) :
    x.abs.toModel.unpack = .infinity .positive := by
  obtain ⟨s, stored⟩ := unpack_of_isInf h
  show (Float32.Model.pack x.toModel.unpack.abs).unpack = _
  rw [stored]
  exact single_pack_infinity .positive

theorem isInf_of_not_isFinite {x : Float32} (number : x.isNaN = false)
    (h : ¬x.isFinite = true) : x.isInf = true := by
  have number' : x.toModel.unpack.isNaN = false := number
  have infinite : ¬x.toModel.unpack.isFinite = true := h
  show x.toModel.unpack.isInf = true
  cases hu : x.toModel.unpack with
  | infinity => rfl
  | notANumber => rw [hu] at number'; cases number'
  | _ => rw [hu] at infinite; exact absurd rfl infinite

theorem double_isNaN_of_isFinite {x : Float} (h : x.isFinite = true) : x.isNaN = false := by
  have finite : x.toModel.unpack.isFinite = true := h
  show x.toModel.unpack.isNaN = false
  cases hu : x.toModel.unpack with
  | notANumber => rw [hu] at finite; cases finite
  | _ => rfl

end Microbench
