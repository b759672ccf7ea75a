import Mathlib
import Microbench.Proofs.Float.Widen

/-!
# Rounding to the nearest

A number is rounded at the last place that its format keeps: the quotient by that place becomes the
nearest whole number, or the even one of two that are as near. No number of the format is nearer
than the one that is found, and where another is as near the mantissa that is found is even.

Results:

* `divEven_nearest`: the nearest whole number to a ratio.
* `round_stores`: what rounding gives, by the quotient at the last place.
* `quotient_nearest`: no number of the format is nearer.
* `single_unpack_pack`: packing in single precision loses nothing.
* `toFloat32_rounds`: a whole number becomes the nearest number of single precision.
-/
namespace Microbench

open Float.Model Float.Model.UnpackedFloat

/-! ## Nearest whole numbers -/

section Quotients

open Binary

variable {num den : ℕ}

theorem divEven_close (pos : 0 < den) :
    2 * |(divEven num den * den : ℤ) - num| ≤ den ∧
      (2 * |(divEven num den * den : ℤ) - num| = den → divEven num den % 2 = 0) := by
  have whole := Nat.div_add_mod num den
  have left := Nat.mod_lt num pos
  obtain ⟨q, hq⟩ : ∃ q, q = num / den := ⟨_, rfl⟩
  obtain ⟨r, hr⟩ : ∃ r, r = num % den := ⟨_, rfl⟩
  rw [← hq, ← hr] at whole
  rw [← hr] at left
  have split : ((q * den : ℤ)) + r = num := by
    rw [← whole]
    push_cast
    rw [mul_comm]
  unfold divEven
  dsimp only
  rw [← hq, ← hr]
  by_cases down : 2 * r < den ∨ 2 * r = den ∧ q % 2 = 0
  · rw [if_pos (by simpa using down)]
    have below : (q * den : ℤ) - num = -r := by omega
    rw [below, abs_neg, abs_of_nonneg (Int.natCast_nonneg r)]
    exact ⟨by omega, fun tie => by omega⟩
  · rw [if_neg (by simpa using down)]
    have above : ((q + 1 : ℕ) * den : ℤ) - num = den - r := by
      push_cast
      rw [add_mul]
      omega
    rw [above, abs_of_nonneg (by omega)]
    exact ⟨by omega, fun tie => by omega⟩

/-- Another whole number is no nearer to a ratio, and if it is as near this one is even. -/
theorem divEven_nearest (pos : 0 < den) {k : ℤ} (ne : k ≠ divEven num den) :
    |(divEven num den * den : ℤ) - num| ≤ |k * den - num| ∧
      (|(divEven num den * den : ℤ) - num| = |k * den - num| → divEven num den % 2 = 0) := by
  obtain ⟨close, even⟩ := @divEven_close num den pos
  have apart : (den : ℤ) ≤ |k * den - divEven num den * den| := by
    rw [← sub_mul, abs_mul, abs_of_nonneg (Int.natCast_nonneg den)]
    exact le_mul_of_one_le_left (Int.natCast_nonneg den) (Int.one_le_abs (sub_ne_zero.2 ne))
  have triangle := abs_sub_le (k * den : ℤ) num (divEven num den * den)
  rw [abs_sub_comm (num : ℤ)] at triangle
  exact ⟨by omega, fun tie => even (by omega)⟩

theorem le_divEven : num / den ≤ divEven num den := by
  unfold divEven
  dsimp only
  split
  · exact Nat.le_refl _
  · exact Nat.le_succ _

end Quotients

/-! ## Dropping places -/

/-- A mantissa, and how the fraction `rest / den` behind it compares with one half. -/
def withRest (q rest den : ℕ) : ExtendedMantissa :=
  ⟨q, decide (den ≤ 2 * rest), decide (rest ≠ 0 ∧ 2 * rest ≠ den)⟩

section Places

variable {q rest den : ℕ}

theorem withRest_shiftRightOne (h : rest < den) :
    (withRest q rest den).shiftRightOne = withRest (q / 2) (rest + den * (q % 2)) (den * 2) := by
  unfold withRest ExtendedMantissa.shiftRightOne
  rcases Nat.mod_two_eq_zero_or_one q with bit | bit
  · simp only [bit, Nat.mul_zero, Nat.add_zero]
    congr 1 <;> grind
  · simp only [bit, Nat.mul_one]
    congr 1 <;> grind

theorem withRest_rounded : (withRest q rest den).roundedMantissa
    = if 2 * rest < den ∨ 2 * rest = den ∧ q % 2 = 0 then q else q + 1 := by
  rcases Nat.lt_trichotomy (2 * rest) den with low | half | high
  · rw [if_pos (.inl low), withRest, decide_eq_false (Nat.not_le.2 low)]
    by_cases none : rest = 0
    · rw [decide_eq_false fun h => h.1 none]
      rfl
    · rw [decide_eq_true ⟨none, Nat.ne_of_lt low⟩]
      rfl
  · have round : den ≤ 2 * rest := Nat.le_of_eq half.symm
    rw [withRest, decide_eq_true round, decide_eq_false fun h => h.2 half]
    show q + q % 2 = _
    split <;> omega
  · rw [if_neg (by omega), withRest, decide_eq_true high.le, decide_eq_true (by omega)]
    rfl

/-- What is left of a mantissa when places are dropped. -/
theorem shiftRight_eq (m n : ℕ) : ExtendedMantissa.mk m false false >>> n
    = withRest (m / Nat.pow 2 n) (m % Nat.pow 2 n) (Nat.pow 2 n) := by
  induction n with
  | zero =>
    have none : m % Nat.pow 2 0 = 0 := Nat.mod_one m
    rw [none, show m / Nat.pow 2 0 = m from Nat.div_one m]
    rfl
  | succ n ih =>
    have left : m % Nat.pow 2 n < Nat.pow 2 n := Nat.mod_lt m (Nat.two_pow_pos n)
    have half : m / Nat.pow 2 n / 2 = m / Nat.pow 2 (n + 1) := Nat.div_div_eq_div_mul ..
    have rest : m % Nat.pow 2 n + Nat.pow 2 n * (m / Nat.pow 2 n % 2) = m % Nat.pow 2 (n + 1) :=
      Nat.mod_pow_succ.symm
    show (ExtendedMantissa.mk m false false >>> n).shiftRightOne = _
    rw [ih, withRest_shiftRightOne left, half, rest]
    rfl

theorem roundedMantissa_shiftRight (m n : ℕ) :
    (ExtendedMantissa.mk m false false >>> n).roundedMantissa = Binary.divEven m (Nat.pow 2 n) := by
  rw [shiftRight_eq, withRest_rounded]
  simp [Binary.divEven]

end Places

/-! ## Numbers of a format -/

/-- The number that is meant, if there is one. -/
def number : UnpackedFloat → Option ℚ
  | .zero _ => some 0
  | .finite s m e _ => some (s.apply m * 2 ^ e)
  | .infinity _ | .notANumber => none

def mantissa : UnpackedFloat → ℕ
  | .finite _ m _ _ => m
  | _ => 0

/-- Finite, with as many places as the format keeps, and fewer only at its least exponent. -/
def Canonical (spec : Float.Model.Format) : UnpackedFloat → Prop
  | .zero _ => True
  | .finite _ m e _ => m < 2 ^ spec.mantissaBits ∧ spec.minExponent ≤ e ∧
      (2 ^ spec.mantissaBitsWithoutImplicit ≤ m ∨ e = spec.minExponent)
  | .infinity _ | .notANumber => False

/-- What a whole multiple of a last place is stored as. -/
structure Stores (spec : Float.Model.Format) (s : Sign) (q : ℕ) (t : ℤ) (u : UnpackedFloat) :
    Prop where
  number : number u = some (s.apply q * (2 : ℚ) ^ t)
  canonical : Canonical spec u
  even : q % 2 = 0 → mantissa u % 2 = 0
  positive : s = .positive → u.abs = u

/-! ## Rounding -/

section Rounding

variable {spec : Float.Model.Format} {s : Sign} {m q : ℕ} {e t : ℤ}

/-- The exponent of the last place that is kept of `m * 2 ^ e`. -/
def lastPlace (spec : Float.Model.Format) (m : ℕ) (e : ℤ) : ℤ :=
  spec.targetExponent (totalExponent m e)

/-- The number in multiples of its last place. -/
def quotient (spec : Float.Model.Format) (m : ℕ) (e : ℤ) : ℕ :=
  Binary.divEven (m * Nat.pow 2 (e - lastPlace spec m e).toNat)
    (Nat.pow 2 (lastPlace spec m e - e).toNat)

theorem pow_mantissaBits (spec : Float.Model.Format) :
    2 ^ spec.mantissaBits = 2 ^ spec.mantissaBitsWithoutImplicit * 2 := by
  rw [Float.Model.Format.mantissaBits, Nat.add_comm, Nat.pow_succ]

theorem shift_none (least : spec.minExponent ≤ t) (h : q < 2 ^ spec.mantissaBits) :
    shiftToTargetExponent spec q t .exact = (⟨q, false, false⟩, t) := by
  have bits : q.log2 < spec.mantissaBits := by
    by_cases zero : q = 0
    · rw [zero, Nat.log2_zero, Float.Model.Format.mantissaBits]
      omega
    · exact (Nat.log2_lt zero).2 h
  have target : spec.targetExponent (totalExponent q t) ≤ t := by
    unfold Float.Model.Format.targetExponent totalExponent
    omega
  have none : (spec.targetExponent (totalExponent q t) - t).toNat = 0 := by omega
  rw [shiftToTargetExponent, shiftToExponent, none]
  exact Prod.ext rfl (Int.add_zero t)

theorem shift_carry (least : spec.minExponent ≤ t) :
    shiftToTargetExponent spec (2 ^ spec.mantissaBits) t .exact
      = (⟨2 ^ spec.mantissaBitsWithoutImplicit, false, false⟩, t + 1) := by
  have target : spec.targetExponent (totalExponent (2 ^ spec.mantissaBits) t) = t + 1 := by
    unfold Float.Model.Format.targetExponent totalExponent
    rw [Nat.log2_two_pow]
    omega
  have one : (t + 1 - t).toNat = 1 := by omega
  rw [shiftToTargetExponent, target, shiftToExponent, one]
  refine Prod.ext ?_ rfl
  show ExtendedMantissa.shiftRightOne ⟨2 ^ spec.mantissaBits, false, false⟩ = _
  rw [pow_mantissaBits, ExtendedMantissa.shiftRightOne, Nat.mul_div_cancel _ Nat.two_pos,
    Nat.mul_mod_left]
  rfl

def signed (s : Sign) (m : ℕ) (e : ℤ) : UnpackedFloat :=
  if h : m = 0 then .zero s else .finite s m e (Nat.pos_of_ne_zero h)

/-- A whole multiple of a last place. One place too many carries over to the next exponent. -/
def carried (spec : Float.Model.Format) (s : Sign) (q : ℕ) (t : ℤ) : UnpackedFloat :=
  let last := shiftToTargetExponent spec q t .exact
  signed s last.1.mantissa last.2

theorem abs_finite (pos : 0 < m) (h : s = .positive) :
    (UnpackedFloat.finite s m e pos).abs = .finite s m e pos := by
  rw [h]
  rfl

theorem carried_stores (le : q ≤ 2 ^ spec.mantissaBits) (least : spec.minExponent ≤ t)
    (full : 2 ^ spec.mantissaBitsWithoutImplicit ≤ q ∨ t = spec.minExponent) :
    Stores spec s q t (carried spec s q t) := by
  rcases Nat.lt_or_eq_of_le le with lt | rfl
  · rw [carried, shift_none least lt, signed]
    by_cases zero : q = 0
    · subst zero
      rw [dif_pos rfl]
      refine ⟨?_, trivial, fun _ => rfl, fun h => by rw [h]; rfl⟩
      cases s <;> simp [number, Sign.apply]
    · rw [dif_neg zero]
      exact ⟨rfl, ⟨lt, least, full⟩, id, abs_finite _⟩
  · have pos : 0 < 2 ^ spec.mantissaBitsWithoutImplicit := Nat.two_pow_pos _
    rw [carried, shift_carry least, signed, dif_neg pos.ne']
    refine ⟨?_, ⟨?_, by omega, .inl (Nat.le_refl _)⟩, fun _ => ?_, abs_finite _⟩
    · rw [number, pow_mantissaBits, zpow_add_one₀ two_ne_zero]
      cases s <;> simp only [Sign.apply] <;> push_cast <;> ring_nf
    · show 2 ^ spec.mantissaBitsWithoutImplicit < 2 ^ spec.mantissaBits
      rw [pow_mantissaBits]
      omega
    · obtain ⟨bits, rest⟩ := Nat.exists_eq_succ_of_ne_zero spec.hm.ne'
      show 2 ^ spec.mantissaBitsWithoutImplicit % 2 = 0
      rw [rest, Nat.pow_succ, Nat.mul_mod_left]

theorem roundWithAccuracy_eq (h : e ≤ lastPlace spec m e) :
    roundWithAccuracy spec s m e .exact
      = carried spec s (quotient spec m e) (lastPlace spec m e) := by
  have none : (e - lastPlace spec m e).toNat = 0 := by omega
  have place : e + ((lastPlace spec m e - e).toNat : ℤ) = lastPlace spec m e := by omega
  have first : shiftToTargetExponent spec m e .exact
      = (ExtendedMantissa.mk m false false >>> (lastPlace spec m e - e).toNat,
        lastPlace spec m e) := by
    rw [shiftToTargetExponent, shiftToExponent, ← lastPlace, place]
    rfl
  rw [roundWithAccuracy, first]
  dsimp only
  rw [roundedMantissa_shiftRight, quotient, none, show m * Nat.pow 2 0 = m from Nat.mul_one m]
  rfl

theorem log2_shiftLeft (pos : 0 < m) (n : ℕ) : (m <<< n).log2 = m.log2 + n := by
  rw [Nat.shiftLeft_eq, Nat.log2_eq_iff (Nat.mul_ne_zero pos.ne' (Nat.two_pow_pos n).ne')]
  have low := Nat.log2_self_le pos.ne'
  have high : m < 2 ^ (m.log2 + 1) := Nat.lt_log2_self
  constructor
  · rw [Nat.pow_add]
    exact Nat.mul_le_mul_right _ low
  · rw [Nat.add_right_comm, Nat.pow_add]
    exact Nat.mul_lt_mul_of_pos_right high (Nat.two_pow_pos n)

theorem round_eq (pos : 0 < m) : UnpackedFloat.round spec s m e
    = carried spec s (quotient spec m e) (lastPlace spec m e) := by
  obtain ⟨n, hn⟩ : ∃ n, n = (e - lastPlace spec m e).toNat := ⟨_, rfl⟩
  have same : lastPlace spec (m <<< n) (e - n) = lastPlace spec m e := by
    rw [lastPlace, totalExponent, log2_shiftLeft pos]
    show spec.targetExponent _ = spec.targetExponent (m.log2 + 1 + e)
    congr 1
    omega
  have lowered : UnpackedFloat.round spec s m e
      = roundWithAccuracy spec s (m <<< n) (e - n) .exact := by
    rw [hn]
    rfl
  have whole : quotient spec (m <<< n) (e - n) = quotient spec m e := by
    rw [quotient, quotient, same, Nat.shiftLeft_eq]
    rcases le_or_gt (lastPlace spec m e) e with up | down
    · have none : (e - n - lastPlace spec m e).toNat = 0 := by omega
      have level : (lastPlace spec m e - (e - n)).toNat = (lastPlace spec m e - e).toNat := by omega
      rw [none, level, ← hn]
      exact congrArg (Binary.divEven · _) (Nat.mul_one _)
    · have zero : n = 0 := by omega
      rw [zero, Int.ofNat_zero, Int.sub_zero, Nat.pow_zero, Nat.mul_one]
  rw [lowered, roundWithAccuracy_eq (by rw [same]; omega), same, whole]

/-! ### The quotient -/

section Nearest

variable (spec m e) in
/-- A number and its last place in multiples of the smaller of their powers of two. -/
theorem quotient_scale : ∃ c : ℚ, 0 < c ∧
    (2 : ℚ) ^ lastPlace spec m e = Nat.pow 2 (lastPlace spec m e - e).toNat * c ∧
      m * (2 : ℚ) ^ e = (m * Nat.pow 2 (e - lastPlace spec m e).toNat : ℕ) * c := by
  have scale {t least : ℤ} (h : least ≤ t) :
      (2 : ℚ) ^ t = (Nat.pow 2 (t - least).toNat : ℕ) * 2 ^ least := by
    have exponent : t = ((t - least).toNat : ℤ) + least := by omega
    have power : ((Nat.pow 2 (t - least).toNat : ℕ) : ℚ) = 2 ^ (t - least).toNat :=
      Nat.cast_pow 2 _
    conv_lhs => rw [exponent, zpow_add₀ two_ne_zero, zpow_natCast]
    rw [power]
  let least := min (lastPlace spec m e) e
  refine ⟨2 ^ least, zpow_pos two_pos _, ?_, ?_⟩
  · rw [scale (min_le_left (lastPlace spec m e) e)]
    congr 3
    omega
  · rw [scale (min_le_right (lastPlace spec m e) e), Nat.cast_mul, mul_assoc]
    congr 4
    omega

theorem quotient_le : quotient spec m e ≤ 2 ^ spec.mantissaBits := by
  have place : totalExponent m e - spec.mantissaBits ≤ lastPlace spec m e := le_max_left ..
  have total : totalExponent m e = m.log2 + 1 + e := rfl
  refine (divEven_le _ _).trans (Nat.div_lt_of_lt_mul ?_)
  calc m * Nat.pow 2 (e - lastPlace spec m e).toNat
      < 2 ^ (m.log2 + 1) * Nat.pow 2 (e - lastPlace spec m e).toNat :=
        Nat.mul_lt_mul_of_pos_right Nat.lt_log2_self (Nat.two_pow_pos _)
    _ = 2 ^ (m.log2 + 1 + (e - lastPlace spec m e).toNat) := (Nat.pow_add ..).symm
    _ ≤ 2 ^ ((lastPlace spec m e - e).toNat + spec.mantissaBits) :=
        Nat.pow_le_pow_right Nat.two_pos (by omega)
    _ = Nat.pow 2 (lastPlace spec m e - e).toNat * 2 ^ spec.mantissaBits := Nat.pow_add ..

theorem lastPlace_eq (h : lastPlace spec m e ≠ spec.minExponent) :
    lastPlace spec m e = m.log2 + e - spec.mantissaBitsWithoutImplicit := by
  unfold lastPlace Float.Model.Format.targetExponent totalExponent at h ⊢
  rw [Float.Model.Format.mantissaBits] at h ⊢
  omega

theorem quotient_full (pos : 0 < m) :
    2 ^ spec.mantissaBitsWithoutImplicit ≤ quotient spec m e ∨
      lastPlace spec m e = spec.minExponent := by
  by_cases least : lastPlace spec m e = spec.minExponent
  · exact .inr least
  have place := lastPlace_eq least
  refine .inl (le_trans ?_ le_divEven)
  refine (Nat.le_div_iff_mul_le (Nat.two_pow_pos _)).2 ?_
  calc 2 ^ spec.mantissaBitsWithoutImplicit * 2 ^ (lastPlace spec m e - e).toNat
      = 2 ^ (spec.mantissaBitsWithoutImplicit + (lastPlace spec m e - e).toNat) :=
        (Nat.pow_add ..).symm
    _ ≤ 2 ^ (m.log2 + (e - lastPlace spec m e).toNat) :=
        Nat.pow_le_pow_right Nat.two_pos (by omega)
    _ = 2 ^ m.log2 * 2 ^ (e - lastPlace spec m e).toNat := Nat.pow_add ..
    _ ≤ m * 2 ^ (e - lastPlace spec m e).toNat :=
        Nat.mul_le_mul_right _ (Nat.log2_self_le pos.ne')

theorem round_stores (pos : 0 < m) : Stores spec s (quotient spec m e) (lastPlace spec m e)
    (UnpackedFloat.round spec s m e) := by
  rw [round_eq pos]
  exact carried_stores quotient_le (le_max_right ..) (quotient_full pos)

/-- Whole multiples of the last place are no nearer. -/
theorem quotient_nearest_multiple {k : ℤ} (ne : k ≠ quotient spec m e) :
    |quotient spec m e * (2 : ℚ) ^ lastPlace spec m e - m * 2 ^ e|
        ≤ |k * (2 : ℚ) ^ lastPlace spec m e - m * 2 ^ e| ∧
      (|quotient spec m e * (2 : ℚ) ^ lastPlace spec m e - m * 2 ^ e|
        = |k * (2 : ℚ) ^ lastPlace spec m e - m * 2 ^ e| → quotient spec m e % 2 = 0) := by
  obtain ⟨c, pos, place, value⟩ := quotient_scale spec m e
  have distance (k : ℤ) : |k * (2 : ℚ) ^ lastPlace spec m e - m * 2 ^ e|
      = (|k * (Nat.pow 2 (lastPlace spec m e - e).toNat : ℕ)
          - (m * Nat.pow 2 (e - lastPlace spec m e).toNat : ℕ)| : ℤ) * c := by
    rw [place, value, ← mul_assoc, ← sub_mul, abs_mul, abs_of_pos pos]
    push_cast
    rfl
  obtain ⟨near, even⟩ := divEven_nearest (Nat.two_pow_pos _) ne
  have own := distance (quotient spec m e)
  rw [Int.cast_natCast] at own
  rw [own, distance k]
  refine ⟨mul_le_mul_of_nonneg_right (Int.cast_le.2 near) pos.le, fun tie => even ?_⟩
  exact Int.cast_injective (mul_right_cancel₀ pos.ne' tie)

/-- Above the smallest last place, a number is not below the power of two that has its leading bit
alone. -/
theorem leading_le (pos : 0 < m) (least : lastPlace spec m e ≠ spec.minExponent) :
    (2 : ℚ) ^ spec.mantissaBitsWithoutImplicit * 2 ^ lastPlace spec m e ≤ m * 2 ^ e := by
  have exponents : (spec.mantissaBitsWithoutImplicit : ℤ) + lastPlace spec m e = m.log2 + e := by
    rw [lastPlace_eq least]
    omega
  calc (2 : ℚ) ^ spec.mantissaBitsWithoutImplicit * 2 ^ lastPlace spec m e
      = 2 ^ m.log2 * 2 ^ e := by
        rw [← zpow_natCast, ← zpow_add₀ two_ne_zero, exponents, zpow_add₀ two_ne_zero, zpow_natCast]
    _ ≤ m * 2 ^ e := by
        refine mul_le_mul_of_nonneg_right ?_ (zpow_pos two_pos e).le
        exact_mod_cast Nat.log2_self_le pos.ne'

/-- Numbers with a smaller last place are smaller than this power. -/
theorem finer_lt {k place : ℤ} (hk : |k| < 2 ^ spec.mantissaBits) (finer : t < place) :
    (k : ℚ) * 2 ^ t < 2 ^ spec.mantissaBitsWithoutImplicit * 2 ^ place := by
  have double : (2 : ℚ) ^ spec.mantissaBits = 2 ^ spec.mantissaBitsWithoutImplicit * 2 := by
    exact_mod_cast pow_mantissaBits spec
  have bound : (k : ℚ) < 2 ^ spec.mantissaBits := by exact_mod_cast (abs_lt.1 hk).2
  calc (k : ℚ) * 2 ^ t
      < 2 ^ spec.mantissaBits * 2 ^ t := mul_lt_mul_of_pos_right bound (zpow_pos two_pos t)
    _ = 2 ^ spec.mantissaBitsWithoutImplicit * 2 ^ (t + 1) := by
        rw [double, zpow_add_one₀ two_ne_zero]
        ring
    _ ≤ 2 ^ spec.mantissaBitsWithoutImplicit * 2 ^ place :=
        mul_le_mul_of_nonneg_left (zpow_le_zpow_right₀ one_le_two finer) (by positivity)

/-- No number of the format is nearer. -/
theorem quotient_nearest (pos : 0 < m) {k : ℤ} (hk : |k| < 2 ^ spec.mantissaBits)
    (ht : spec.minExponent ≤ t)
    (ne : k * (2 : ℚ) ^ t ≠ quotient spec m e * 2 ^ lastPlace spec m e) :
    |quotient spec m e * (2 : ℚ) ^ lastPlace spec m e - m * 2 ^ e|
        ≤ |k * (2 : ℚ) ^ t - m * 2 ^ e| ∧
      (|quotient spec m e * (2 : ℚ) ^ lastPlace spec m e - m * 2 ^ e|
        = |k * (2 : ℚ) ^ t - m * 2 ^ e| → quotient spec m e % 2 = 0) := by
  rcases le_or_gt (lastPlace spec m e) t with multiple | finer
  · obtain ⟨n, hn⟩ : ∃ n : ℕ, t = n + lastPlace spec m e :=
      ⟨(t - lastPlace spec m e).toNat, by omega⟩
    have same : (k : ℚ) * 2 ^ t = (k * 2 ^ n : ℤ) * 2 ^ lastPlace spec m e := by
      rw [hn, zpow_add₀ two_ne_zero, zpow_natCast, ← mul_assoc]
      push_cast
      rfl
    rw [same] at ne ⊢
    refine quotient_nearest_multiple fun equal => ne ?_
    rw [equal, Int.cast_natCast]
  · -- The power with the leading bit lies between, and is a multiple of the last place.
    let power : ℤ := 2 ^ spec.mantissaBitsWithoutImplicit
    have cast : (power : ℚ) = 2 ^ spec.mantissaBitsWithoutImplicit := by simp [power]
    have below : power * (2 : ℚ) ^ lastPlace spec m e ≤ m * 2 ^ e := by
      rw [cast]
      exact leading_le pos (by omega)
    have small : k * (2 : ℚ) ^ t < power * 2 ^ lastPlace spec m e := by
      rw [cast]
      exact finer_lt hk finer
    have near : |quotient spec m e * (2 : ℚ) ^ lastPlace spec m e - m * 2 ^ e|
        ≤ |power * (2 : ℚ) ^ lastPlace spec m e - m * 2 ^ e| := by
      by_cases equal : power = quotient spec m e
      · rw [equal, Int.cast_natCast]
      · exact (quotient_nearest_multiple equal).1
    have farther : |power * (2 : ℚ) ^ lastPlace spec m e - m * 2 ^ e|
        < |k * (2 : ℚ) ^ t - m * 2 ^ e| := by
      rw [abs_of_nonpos (by linarith), abs_of_nonpos (by linarith)]
      linarith
    exact ⟨(near.trans_lt farther).le, fun tie => absurd tie (near.trans_lt farther).ne⟩

end Nearest

end Rounding

/-! ## Single precision -/

section Single

/-- The leading bit and the fraction behind it. -/
theorem leading_toNat (fraction : BitVec 23) :
    (1#1 ++ fraction).toNat = Nat.pow 2 23 + fraction.toNat := by
  rw [BitVec.toNat_append, ← Nat.shiftLeft_add_eq_or_of_lt fraction.isLt]
  rfl

theorem single_canonical {x : Float32} (h : x.isFinite = true) :
    Canonical Format.binary32 x.toModel.unpack := by
  have bias : Format.binary32.exponentBias = 127 := rfl
  have least : Format.binary32.minExponent = -149 := rfl
  have finite : x.toModel.unpack.isFinite = true := h
  unfold Float32.Model.unpack UnpackedFloat.unpack at finite ⊢
  dsimp only at finite ⊢
  split at finite
  · split at finite <;> cases finite
  rename_i top
  rw [if_neg top]
  split
  · next bottom =>
    split
    · trivial
    · have fraction := (@unpackMantissa Format.binary32 x.toModel.toBits.toBitVec).isLt
      refine ⟨fraction.trans (by decide), ?_, .inr ?_⟩
      · rw [bottom]
        decide
      · rw [bottom]
        decide
  · next bottom =>
    have fraction := (@unpackMantissa Format.binary32 x.toModel.toBits.toBitVec).isLt
    have field : (@unpackExponent Format.binary32 x.toModel.toBits.toBitVec).toNat ≠ 0 :=
      fun zero => bottom (BitVec.eq_of_toNat_eq zero)
    refine ⟨?_, ?_, .inl ?_⟩
    · rw [leading_toNat]
      exact Nat.add_lt_add_left fraction _
    · rw [least, bias]
      omega
    · rw [leading_toNat]
      exact Nat.le_add_right ..

/-- What a sign, a field and a fraction stand for, if the field is not all ones. -/
theorem unpack_components (s : Sign) {field : BitVec Format.binary32.exponentBits}
    (fraction : BitVec Format.binary32.mantissaBitsWithoutImplicit) (top : field ≠ -1#_) :
    UnpackedFloat.unpack Format.binary32 (packComponents _ s field fraction)
      = if field = 0#_ then signed s fraction.toNat (-149)
        else signed s (1#1 ++ fraction).toNat (field.toNat - 150) := by
  unfold UnpackedFloat.unpack
  dsimp only
  simp only [unpackExponent_packComponents, unpackMantissa_packComponents,
    unpackSign_packComponents, Sign.ofBitVec_toBitVec]
  rw [if_neg top]
  split
  · next bottom =>
    subst bottom
    by_cases zero : fraction = 0#_
    · rw [dif_pos zero, zero]
      rfl
    · have pos : fraction.toNat ≠ 0 := fun none => zero (BitVec.eq_of_toNat_eq none)
      rw [dif_neg zero, signed, dif_neg pos]
      rfl
  · have pos : (1#1 ++ fraction).toNat ≠ 0 := by
      rw [leading_toNat]
      exact Nat.ne_of_gt (Nat.add_pos_left (by decide) _)
    rw [signed, dif_neg pos]
    rfl

section Stored

variable (s : Sign) {m : ℕ} (pos : 0 < m)

theorem signed_eq (e : ℤ) : signed s m e = .finite s m e pos := dif_neg pos.ne'

/-- With a full mantissa the exponent goes into its field and the leading bit is left out. -/
theorem single_unpack_normal {e : ℤ} (full : 8388608 ≤ m) (wide : m < 2 * 8388608)
    (low : -149 ≤ e) (high : e ≤ 104) :
    (Float32.Model.pack (.finite s m e pos)).unpack = .finite s m e pos := by
  have log : m.log2 + 1 = Format.binary32.mantissaBits :=
    congrArg (· + 1) ((Nat.log2_eq_iff pos.ne').2 ⟨full, wide⟩)
  have fits : ¬2 ^ 8 ≤ (e + 127 + 23).toNat + 1 := by omega
  have packed : UnpackedFloat.pack Format.binary32 (.finite s m e pos)
      = packComponents _ s (BitVec.ofNat 8 (e + 127 + 23).toNat) (BitVec.ofNat 23 m) :=
    (if_neg fits).trans (if_pos log)
  have stored : (BitVec.ofNat 8 (e + 127 + 23).toNat).toNat = (e + 150).toNat := by
    rw [BitVec.toNat_ofNat]
    omega
  have top : BitVec.ofNat 8 (e + 127 + 23).toNat ≠ -1#8 := by
    intro all
    rw [all, show (-1#8).toNat = 255 from rfl] at stored
    omega
  have bottom : BitVec.ofNat 8 (e + 127 + 23).toNat ≠ 0#8 := by
    intro none
    rw [none, show (0#8).toNat = 0 from rfl] at stored
    omega
  have fraction : Nat.pow 2 23 + m % 2 ^ 23 = m := by
    show 8388608 + m % 8388608 = m
    omega
  have exponent : ((e + 150).toNat : ℤ) - 150 = e := by omega
  show UnpackedFloat.unpack Format.binary32
    (UnpackedFloat.pack Format.binary32 (.finite s m e pos)) = _
  rw [packed]
  refine (unpack_components s (BitVec.ofNat 23 m) top).trans ?_
  rw [if_neg bottom, leading_toNat, BitVec.toNat_ofNat, stored, fraction, exponent,
    signed_eq s pos]

/-- At the least exponent the field is zero and there is no leading bit. -/
theorem single_unpack_subnormal (small : m < 8388608) :
    (Float32.Model.pack (.finite s m (-149) pos)).unpack = .finite s m (-149) pos := by
  have log : ¬m.log2 + 1 = Format.binary32.mantissaBits := by
    intro log
    have bits : m.log2 = 23 := Nat.succ.inj log
    exact Nat.not_le.2 small ((Nat.log2_eq_iff pos.ne').1 bits).1
  have packed : UnpackedFloat.pack Format.binary32 (.finite s m (-149) pos)
      = packComponents _ s 0#8 (BitVec.ofNat 23 m) := if_neg log
  show UnpackedFloat.unpack Format.binary32
    (UnpackedFloat.pack Format.binary32 (.finite s m (-149) pos)) = _
  rw [packed]
  refine (@unpack_components s 0#8 (BitVec.ofNat 23 m) (by decide)).trans ?_
  have fraction : m % 2 ^ 23 = m := Nat.mod_eq_of_lt small
  rw [if_pos rfl, BitVec.toNat_ofNat]
  exact (congrArg (signed s · (-149)) fraction).trans (signed_eq s pos (-149))

end Stored

/-- A canonical number in the range of single precision is stored as it is. -/
theorem single_unpack_pack {u : UnpackedFloat} (h : Canonical Format.binary32 u)
    (below : Below 128 u) : (Float32.Model.pack u).unpack = u := by
  cases u with
  | infinity => cases h
  | notANumber => cases h
  | zero s => cases s <;> rfl
  | finite s m e pos =>
    obtain ⟨small, least, full⟩ := h
    rcases Nat.lt_or_ge m 8388608 with less | more
    · obtain rfl : e = -149 := full.resolve_left (Nat.not_le.2 less)
      exact single_unpack_subnormal s pos less
    · have room : Nat.pow 2 23 < Nat.pow 2 (128 - e).toNat := Nat.lt_of_le_of_lt more below
      have range := (Nat.pow_lt_pow_iff_right (by decide : 1 < 2)).1 room
      exact single_unpack_normal s pos more small least (by omega)

/-- A number of single precision that no other is nearer to a ratio than. If another is as near,
the mantissa of this one is even. -/
def RoundsTo (r : ℚ) (x : Float32) : Prop :=
  ∃ v, number x.toModel.unpack = some v ∧
    ∀ (y : Float32) (w : ℚ), number y.toModel.unpack = some w → w ≠ v →
      |v - r| ≤ |w - r| ∧ (|v - r| = |w - r| → mantissa x.toModel.unpack % 2 = 0)

theorem number_canonical {spec : Float.Model.Format} {u : UnpackedFloat} {w : ℚ}
    (h : Canonical spec u) (value : number u = some w) :
    ∃ (k : ℤ) (e : ℤ), |k| < 2 ^ spec.mantissaBits ∧ spec.minExponent ≤ e ∧ w = k * 2 ^ e := by
  cases u with
  | infinity => cases h
  | notANumber => cases h
  | zero s =>
    cases value
    exact ⟨0, spec.minExponent, by positivity, Int.le_refl _, by simp⟩
  | finite s m e pos =>
    cases value
    refine ⟨s.apply m, e, ?_, h.2.1, rfl⟩
    rw [Int.abs_eq_natAbs, apply_natAbs]
    exact_mod_cast h.1

theorem isFinite_of_number {x : Float32} {w : ℚ} (h : number x.toModel.unpack = some w) :
    x.isFinite = true := by
  show x.toModel.unpack.isFinite = true
  cases hu : x.toModel.unpack with
  | infinity => rw [hu] at h; cases h
  | notANumber => rw [hu] at h; cases h
  | _ => rfl

/-- A number that is rounded and stays in range. -/
theorem round_roundsTo {m : ℕ} {e : ℤ} {x : Float32} (pos : 0 < m)
    (stored : x.toModel.unpack = UnpackedFloat.round Format.binary32 .positive m e) :
    RoundsTo (m * 2 ^ e) x := by
  have stores := @round_stores Format.binary32 .positive m e pos
  rw [RoundsTo, stored]
  refine ⟨_, stores.number, fun y w value ne => ?_⟩
  obtain ⟨k, t, small, least, rfl⟩ := number_canonical (single_canonical (isFinite_of_number value))
    value
  obtain ⟨near, even⟩ := quotient_nearest pos small least ne
  exact ⟨near, fun tie => stores.even (even tie)⟩

/-- A number that is stored as it is has no sign if it is stored without one. -/
theorem abs_of_stored {x : Float32} {u : UnpackedFloat} (packed : x.toModel = Float32.Model.pack u)
    (stored : x.toModel.unpack = u) (h : u.abs = u) : x.abs = x := by
  have model : x.abs.toModel = x.toModel := by
    show Float32.Model.pack x.toModel.unpack.abs = x.toModel
    rw [stored, h, packed]
  exact congrArg Float32.ofModel model

/-- Every word becomes the nearest number of single precision, which has no sign. -/
theorem toFloat32_rounds (w : UInt64) :
    RoundsTo w.toNat w.toFloat32 ∧ w.toFloat32.abs = w.toFloat32 := by
  have packed : w.toFloat32.toModel
      = Float32.Model.pack (UnpackedFloat.normalize Format.binary32 w.toNat 0 .positive) := rfl
  rcases Nat.eq_zero_or_pos w.toNat with zero | pos
  · rw [zero] at packed ⊢
    have stored : w.toFloat32.toModel.unpack = .zero .positive := by
      rw [packed]
      rfl
    refine ⟨?_, abs_of_stored packed stored rfl⟩
    rw [RoundsTo, stored]
    refine ⟨0, rfl, fun y v value ne => ⟨?_, fun _ => rfl⟩⟩
    rw [Nat.cast_zero, sub_zero, abs_zero]
    exact abs_nonneg _
  · have rounded : UnpackedFloat.normalize Format.binary32 w.toNat 0 .positive
        = UnpackedFloat.round Format.binary32 .positive w.toNat 0 := by
      unfold UnpackedFloat.normalize
      rw [compare_gt_iff_gt.2 (Int.natCast_pos.2 pos), Int.toNat_natCast]
    rw [rounded] at packed
    have below : Below 65 (UnpackedFloat.round Format.binary32 .positive w.toNat 0) :=
      @round_below Format.binary32 64 0 w.toNat .positive (by decide) (by decide) pos w.toNat_lt
    have stores := @round_stores Format.binary32 .positive w.toNat 0 pos
    have stored : w.toFloat32.toModel.unpack
        = UnpackedFloat.round Format.binary32 .positive w.toNat 0 := by
      rw [packed]
      exact single_unpack_pack stores.canonical (below.mono (by decide))
    have rounds := round_roundsTo pos stored
    rw [zpow_zero, mul_one] at rounds
    exact ⟨rounds, abs_of_stored packed stored (stores.positive rfl)⟩

end Single

end Microbench
