import Microbench.Proofs.Float.Special

/-!
# How large a difference can be

A finite number is below `2 ^ k` if its mantissa is below `2 ^ (k - exponent)`. Rounding raises
such a bound by one at most, a difference by one more, and packing keeps every number finite whose
bound is well below the range of the format.

Results:

* `round_below`, `sub_below`: bounds of what is rounded and of differences.
* `Below.pack`: what is below `2 ^ 970` stays finite in double precision.
-/
namespace Microbench

open Float.Model Float.Model.UnpackedFloat

/-- Finite and less than `2 ^ k` without its sign. -/
def Below (k : Int) : UnpackedFloat → Prop
  | .zero _ => True
  | .finite _ m e _ => m < Nat.pow 2 (k - e).toNat
  | .infinity _ | .notANumber => False

theorem Below.isFinite {k : Int} {u : UnpackedFloat} (h : Below k u) : u.isFinite = true := by
  cases u with
  | zero => rfl
  | finite => rfl
  | infinity => cases h
  | notANumber => cases h

theorem Below.mono {k k' : Int} {u : UnpackedFloat} (h : Below k u) (le : k ≤ k') : Below k' u := by
  cases u with
  | zero => trivial
  | finite s m e pos =>
    have grows : (k - e).toNat ≤ (k' - e).toNat := by omega
    exact Nat.lt_of_lt_of_le h (Nat.pow_le_pow_right (by decide) grows)
  | infinity => cases h
  | notANumber => cases h

theorem Below.abs {k : Int} {u : UnpackedFloat} (h : Below k u) : Below k u.abs := by
  cases u with
  | zero => trivial
  | finite => exact h
  | infinity => cases h
  | notANumber => cases h

/-! ## Shifts -/

section Shifts

variable {m : Nat} {j : Int}

/-- The bound leaves no room below the last place. -/
theorem pos_of_lt_pow (pos : 0 < m) (h : m < Nat.pow 2 j.toNat) : 0 < j := by
  by_contra neg
  have zero : j.toNat = 0 := by omega
  rw [zero] at h
  exact absurd h (Nat.not_lt.2 pos)

theorem div_pow_lt (n : Nat) (h : m < Nat.pow 2 j.toNat) :
    m / Nat.pow 2 n < Nat.pow 2 (j - n).toNat := by
  by_cases room : n ≤ j.toNat
  · have split : n + (j - n).toNat = j.toNat := by omega
    rw [← split] at h
    exact Nat.div_lt_of_lt_mul (Nat.lt_of_lt_of_eq h (Nat.pow_add 2 n _))
  · have small : m < Nat.pow 2 n :=
      Nat.lt_of_lt_of_le h (Nat.pow_le_pow_right (by decide) (by omega))
    rw [Nat.div_eq_of_lt small]
    exact Nat.two_pow_pos _

theorem shiftLeft_lt (n : Nat) (pos : 0 < m) (h : m < Nat.pow 2 j.toNat) :
    m <<< n < Nat.pow 2 (j + n).toNat := by
  have room := pos_of_lt_pow pos h
  have split : (j + n).toNat = j.toNat + n := by omega
  rw [split, Nat.shiftLeft_eq]
  exact Nat.lt_of_lt_of_eq (Nat.mul_lt_mul_of_pos_right h (Nat.two_pow_pos n))
    (Nat.pow_add 2 _ n).symm

/-- Bringing a number to a smaller exponent leaves its bound alone. -/
theorem decreaseExponent_lt {k e e' : Int} (pos : 0 < m)
    (h : m < Nat.pow 2 (k - e).toNat) (le : e' ≤ e) :
    m <<< (e - e').toNat < Nat.pow 2 (k - e').toNat := by
  have shifted := shiftLeft_lt (e - e').toNat pos h
  rwa [show k - e + ((e - e').toNat : Nat) = k - e' by omega] at shifted

theorem shiftRight_mantissa (em : ExtendedMantissa) (n : Nat) :
    (em >>> n).mantissa = em.mantissa / Nat.pow 2 n := by
  induction n with
  | zero => exact (Nat.div_one _).symm
  | succ n ih =>
    show (em >>> n).mantissa / 2 = _
    rw [ih, Nat.div_div_eq_div_mul]
    rfl

theorem roundedMantissa_le (em : ExtendedMantissa) : em.roundedMantissa ≤ em.mantissa + 1 := by
  obtain ⟨m, round, sticky⟩ := em
  cases round with
  | false => cases sticky <;> exact Nat.le_succ m
  | true =>
    cases sticky with
    | false =>
      show m + m % 2 ≤ m + 1
      omega
    | true => exact Nat.le_refl _

end Shifts

/-! ## Rounding -/

section Rounding

variable {spec : Float.Model.Format} {k e : Int} {m : Nat}

/-- The exponent a number below `2 ^ k` is rounded to. -/
theorem targetExponent_le (least : spec.minExponent ≤ k) (he : e ≤ k)
    (h : m < Nat.pow 2 (k - e).toNat) : spec.targetExponent (totalExponent m e) ≤ k := by
  have total : totalExponent m e ≤ k + 1 := by
    show (m.log2 : Int) + 1 + e ≤ k + 1
    by_cases zero : m = 0
    · rw [zero, Nat.log2_zero]
      omega
    · have := (Nat.log2_lt zero).2 h
      omega
  refine max_le ?_ least
  show totalExponent m e - (1 + spec.mantissaBitsWithoutImplicit : Nat) ≤ k
  omega

theorem shiftToTargetExponent_lt (accuracy : Accuracy) (least : spec.minExponent ≤ k) (he : e ≤ k)
    (h : m < Nat.pow 2 (k - e).toNat) :
    (shiftToTargetExponent spec m e accuracy).2 ≤ k ∧
      (shiftToTargetExponent spec m e accuracy).1.mantissa
        < Nat.pow 2 (k - (shiftToTargetExponent spec m e accuracy).2).toNat := by
  let n := (spec.targetExponent (totalExponent m e) - e).toNat
  have exponent : (shiftToTargetExponent spec m e accuracy).2 = e + n := rfl
  have mantissa : (shiftToTargetExponent spec m e accuracy).1.mantissa = m / Nat.pow 2 n := by
    have given : (ExtendedMantissa.ofMantissaAndAccuracy m accuracy).mantissa = m := by
      cases accuracy with
      | exact => rfl
      | inexact o => cases o <;> rfl
    show (ExtendedMantissa.ofMantissaAndAccuracy m accuracy >>> n).mantissa = _
    rw [shiftRight_mantissa, given]
  have target := targetExponent_le least he h
  rw [exponent, mantissa, ← Int.sub_sub]
  exact ⟨by omega, div_pow_lt n h⟩

theorem roundWithAccuracy_below (s : Sign) (accuracy : Accuracy) (least : spec.minExponent ≤ k)
    (he : e ≤ k) (h : m < Nat.pow 2 (k - e).toNat) :
    Below (k + 1) (roundWithAccuracy spec s m e accuracy) := by
  let first := shiftToTargetExponent spec m e accuracy
  obtain ⟨room, shifted⟩ : first.2 ≤ k ∧ first.1.mantissa < Nat.pow 2 (k - first.2).toNat :=
    shiftToTargetExponent_lt accuracy least he h
  -- Rounding up may reach the bound itself, so the bound doubles.
  have rounded : first.1.roundedMantissa < Nat.pow 2 (k + 1 - first.2).toNat := by
    have double : (k + 1 - first.2).toNat = (k - first.2).toNat + 1 := by omega
    rw [double]
    calc first.1.roundedMantissa
        ≤ Nat.pow 2 (k - first.2).toNat := (roundedMantissa_le first.1).trans shifted
      _ < Nat.pow 2 ((k - first.2).toNat + 1) := Nat.pow_lt_pow_succ (by decide)
  let last := shiftToTargetExponent spec first.1.roundedMantissa first.2 .exact
  obtain ⟨-, final⟩ : last.2 ≤ k + 1 ∧ last.1.mantissa < Nat.pow 2 (k + 1 - last.2).toNat :=
    shiftToTargetExponent_lt .exact (by omega) (by omega) rounded
  have result : roundWithAccuracy spec s m e accuracy
      = if h : last.1.mantissa = 0 then .zero s
        else .finite s last.1.mantissa last.2 (Nat.pos_of_ne_zero h) := rfl
  rw [result]
  by_cases vanishes : last.1.mantissa = 0
  · rw [dif_pos vanishes]
    trivial
  · rw [dif_neg vanishes]
    exact final

theorem round_below (s : Sign) (least : spec.minExponent ≤ k) (he : e ≤ k) (pos : 0 < m)
    (h : m < Nat.pow 2 (k - e).toNat) : Below (k + 1) (UnpackedFloat.round spec s m e) := by
  let n := (e - spec.targetExponent (totalExponent m e)).toNat
  have lower : e - n ≤ e := by omega
  have decreased := decreaseExponent_lt pos h lower
  rw [show (e - (e - n)).toNat = n by omega] at decreased
  exact roundWithAccuracy_below s .exact least (by omega) decreased

theorem normalize_below {m : Int} (zeroSign : Sign) (least : spec.minExponent ≤ k) (he : e ≤ k)
    (h : m.natAbs < Nat.pow 2 (k - e).toNat) :
    Below (k + 1) (UnpackedFloat.normalize spec m e zeroSign) := by
  unfold UnpackedFloat.normalize
  rcases lt_trichotomy m 0 with neg | zero | pos
  · rw [compare_lt_iff_lt.2 neg]
    have size : (-m).toNat = m.natAbs := by omega
    exact round_below .negative least he (by omega) (by rwa [size])
  · rw [compare_eq_iff_eq.2 zero]
    trivial
  · rw [compare_gt_iff_gt.2 pos]
    have size : m.toNat = m.natAbs := by omega
    exact round_below .positive least he (by omega) (by rwa [size])

theorem apply_natAbs (s : Sign) (m : Int) : (s.apply m).natAbs = m.natAbs := by
  cases s with
  | negative => exact Int.natAbs_neg m
  | positive => rfl

/-- Two numbers below the bound differ by less than twice the bound. -/
theorem apply_sub_lt {a b : Nat} {j : Int} (s s' : Sign) (nonneg : 0 ≤ j)
    (ha : a < Nat.pow 2 j.toNat) (hb : b < Nat.pow 2 j.toNat) :
    (s.apply a - s'.apply b).natAbs < Nat.pow 2 (j + 1).toNat := by
  have double : (j + 1).toNat = j.toNat + 1 := by omega
  have triangle := Int.natAbs_sub_le (s.apply a) (s'.apply b)
  rw [apply_natAbs, apply_natAbs, Int.natAbs_natCast, Int.natAbs_natCast] at triangle
  rw [double]
  calc (s.apply a - s'.apply b).natAbs
      ≤ a + b := triangle
    _ < Nat.pow 2 j.toNat + Nat.pow 2 j.toNat := Nat.add_lt_add ha hb
    _ = Nat.pow 2 (j.toNat + 1) := (Nat.two_pow_succ _).symm

theorem sub_below {x y : UnpackedFloat} (least : spec.minExponent ≤ k) (hx : Below k x)
    (hy : Below k y) : Below (k + 2) (UnpackedFloat.sub spec x y) := by
  cases x with
  | infinity => cases hx
  | notANumber => cases hx
  | zero s =>
    cases y with
    | infinity => cases hy
    | notANumber => cases hy
    | zero s' => cases s <;> cases s' <;> trivial
    | finite s' m' e' pos' => exact hy.mono (by omega)
  | finite s m e pos =>
    cases y with
    | infinity => cases hy
    | notANumber => cases hy
    | zero s' => exact hx.mono (by omega)
    | finite s' m' e' pos' =>
      let least' := min e e'
      let a := m <<< (e - least').toNat
      let b := m' <<< (e' - least').toNat
      have room := pos_of_lt_pow pos hx
      have room' := pos_of_lt_pow pos' hy
      have difference := apply_sub_lt s s' (by omega)
        (decreaseExponent_lt pos hx (Int.min_le_left e e'))
        (decreaseExponent_lt pos' hy (Int.min_le_right e e'))
      rw [show k - least' + 1 = k + 1 - least' by omega] at difference
      have normal : Below (k + 1 + 1)
          (UnpackedFloat.normalize spec (s.apply a - s'.apply b) least' .positive) :=
        normalize_below .positive (by omega) (by omega) difference
      rwa [Int.add_assoc] at normal

end Rounding

/-! ## Packing in double precision -/

section Packing

/-- A mantissa with fewer bits than the bound leaves room for. -/
theorem lt_pow_of_lt {m n : Nat} {j : Int} (h : m < Nat.pow 2 n) (le : (n : Int) ≤ j) :
    m < Nat.pow 2 j.toNat :=
  Nat.lt_of_lt_of_le h (Nat.pow_le_pow_right (by decide) (by omega))

/-- The exponent field bounds a number of double precision. -/
theorem unpack_below {bits : BitVec Format.binary64.numBits} {field : Nat}
    (h : (unpackExponent bits).toNat ≤ field) (range : field < 2047) :
    Below (field - 1022) (UnpackedFloat.unpack Format.binary64 bits) := by
  have finite : unpackExponent bits ≠ -1#_ := by
    intro all
    rw [all] at h
    exact absurd h (Nat.not_le.2 range)
  have bias : Format.binary64.exponentBias = 1023 := rfl
  have width : Format.binary64.mantissaBitsWithoutImplicit = 52 := rfl
  unfold UnpackedFloat.unpack
  dsimp only
  rw [if_neg finite]
  by_cases subnormal : unpackExponent bits = 0#_
  · rw [if_pos subnormal]
    by_cases vanishes : unpackMantissa bits = 0#_
    · rw [dif_pos vanishes]
      trivial
    · rw [dif_neg vanishes]
      exact lt_pow_of_lt (unpackMantissa bits).isLt (by omega)
  · rw [if_neg subnormal]
    exact lt_pow_of_lt (1#1 ++ unpackMantissa bits).isLt (by omega)

theorem Below.pack {k : Int} {u : UnpackedFloat} (h : Below k u) (low : -1074 ≤ k)
    (high : k ≤ 970) : Below (k + 52) (Float.Model.pack u).unpack := by
  cases u with
  | infinity => cases h
  | notANumber => cases h
  | zero s =>
    rw [double_pack_zero]
    trivial
  | finite s m e pos =>
    have room := pos_of_lt_pow pos h
    have field : (unpackExponent (UnpackedFloat.pack Format.binary64 (.finite s m e pos))).toNat
        ≤ (k + 1074).toNat := by
      have fits : ¬2 ^ Format.binary64.exponentBits ≤
          (e + Format.binary64.exponentBias + Format.binary64.mantissaBitsWithoutImplicit).toNat
            + 1 := by
        show ¬2048 ≤ (e + 1023 + 52).toNat + 1
        omega
      unfold UnpackedFloat.pack
      dsimp only
      rw [if_neg fits]
      split
      · rw [unpackExponent_packComponents]
        show (e + 1023 + 52).toNat % 2048 ≤ (k + 1074).toNat
        omega
      · rw [unpackExponent_packComponents]
        exact Nat.zero_le _
    have bound := unpack_below field (by omega)
    rwa [show ((k + 1074).toNat : Int) - 1022 = k + 52 by omega] at bound

end Packing

end Microbench
