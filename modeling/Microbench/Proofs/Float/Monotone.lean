import Microbench.Proofs.Float.Rounding

/-!
# Rounding and the order of numbers

Canonical numbers stand in the order of what they mean. Rounding to the nearest keeps that order: a
larger number has a last place that is no smaller, and at one last place two quotients could only
change places at a tie that is even for both. What products, sums and differences give is therefore
compared by what was rounded.

Results:

* `rank_le_iff`: ranks are compared as the numbers are.
* `Rounds.mono`: the nearest multiples of the last places keep the order.
* `exact_rounded`: a number of the format is rounded to itself.
* `mul_rounded`, `add_rounded`: products and sums of numbers that are not negative.
* `sub_rounded`: a difference without its sign.
-/
namespace Microbench

open Float.Model Float.Model.UnpackedFloat

/-! ## Ranks and numbers -/

section Ranks

variable {spec : Float.Model.Format} {x y : UnpackedFloat} {v w : ℚ}

/-- A larger exponent makes a larger number, as long as the mantissas are canonical. -/
theorem exponent_lt {m m' : ℕ} {e e' : ℤ} {pos : 0 < m} {pos' : 0 < m'} {s s' : Sign}
    (hx : Canonical spec (.finite s m e pos)) (hy : Canonical spec (.finite s' m' e' pos'))
    (h : e < e') : (m : ℚ) * 2 ^ e < m' * 2 ^ e' := by
  have full : 2 ^ spec.mantissaBitsWithoutImplicit ≤ m' :=
    hy.2.2.resolve_right fun least => by have := hx.2.1; omega
  have small : |(m : ℤ)| < 2 ^ spec.mantissaBits := by
    rw [abs_of_nonneg (Int.natCast_nonneg m)]
    exact_mod_cast hx.1
  calc (m : ℚ) * 2 ^ e
      < 2 ^ spec.mantissaBitsWithoutImplicit * 2 ^ e' := by exact_mod_cast finer_lt small h
    _ ≤ m' * 2 ^ e' := mul_le_mul_of_nonneg_right (by exact_mod_cast full) (by positivity)

theorem magnitude_lt {m m' : ℕ} {e e' : ℤ} {pos : 0 < m} {pos' : 0 < m'} {s s' : Sign}
    (hx : Canonical spec (.finite s m e pos)) (hy : Canonical spec (.finite s' m' e' pos'))
    (h : e < e' ∨ e = e' ∧ m < m') : (m : ℚ) * 2 ^ e < m' * 2 ^ e' := by
  rcases h with lt | ⟨rfl, lt⟩
  · exact exponent_lt hx hy lt
  · exact mul_lt_mul_of_pos_right (by exact_mod_cast lt) (by positivity)

theorem lex_lt {a a' b b' c c' : ℤ} : toLex (a, toLex (b, c)) < toLex (a', toLex (b', c')) ↔
    a < a' ∨ a = a' ∧ (b < b' ∨ b = b' ∧ c < c') := by
  rw [Prod.Lex.toLex_lt_toLex]
  simp only [Prod.Lex.toLex_lt_toLex]

/-- A canonical number and its sign. -/
theorem number_finite (s : Sign) (m : ℕ) (e : ℤ) (pos : 0 < m) :
    number (.finite s m e pos)
      = some (match s with | .positive => m * 2 ^ e | .negative => -(m * 2 ^ e)) := by
  cases s <;> simp [number, Sign.apply]

theorem number_lt (hx : Canonical spec x) (hy : Canonical spec y) (hv : number x = some v)
    (hw : number y = some w) (h : rank x < rank y) : v < w := by
  cases x with
  | infinity => cases hx
  | notANumber => cases hx
  | zero s =>
    cases hv
    cases y with
    | infinity => cases hy
    | notANumber => cases hy
    | zero => exact absurd h (lt_irrefl _)
    | finite s' m' e' pos' =>
      cases (number_finite ..).symm.trans hw
      cases s' with
      | negative => exact absurd h (rank_negative_lt pos' s).not_gt
      | positive => positivity
  | finite s m e pos =>
    cases (number_finite ..).symm.trans hv
    have above : (0 : ℚ) < m * 2 ^ e := by positivity
    cases y with
    | infinity => cases hy
    | notANumber => cases hy
    | zero s' =>
      cases hw
      cases s with
      | negative => exact neg_lt_zero.2 above
      | positive => exact absurd h (rank_zero_lt pos s').not_gt
    | finite s' m' e' pos' =>
      cases (number_finite ..).symm.trans hw
      have above' : (0 : ℚ) < m' * 2 ^ e' := by positivity
      cases s <;> cases s' <;> simp only [rank, lex_lt] at h
      case negative.negative => exact neg_lt_neg (magnitude_lt hy hx (by omega))
      case negative.positive => exact (neg_lt_zero.2 above).trans above'
      case positive.negative => omega
      case positive.positive => exact magnitude_lt hx hy (by omega)

theorem Canonical.isFinite (h : Canonical spec x) : x.isFinite = true := by
  cases x with
  | infinity => cases h
  | notANumber => cases h
  | _ => rfl

theorem number_congr (hx : x.isFinite = true) (hy : y.isFinite = true) (h : rank x = rank y) :
    number x = number y := by
  cases x with
  | infinity => cases hx
  | notANumber => cases hx
  | zero s =>
    cases y with
    | infinity => cases hy
    | notANumber => cases hy
    | zero => rfl
    | finite s' => cases s' <;> simp [rank] at h
  | finite s m e pos =>
    cases y with
    | infinity => cases hy
    | notANumber => cases hy
    | zero => cases s <;> simp [rank] at h
    | finite s' m' e' pos' => cases s <;> cases s' <;> simp [rank] at h <;> simp [number, h]

theorem rank_le_iff (hx : Canonical spec x) (hy : Canonical spec y) (hv : number x = some v)
    (hw : number y = some w) : rank x ≤ rank y ↔ v ≤ w := by
  rcases lt_trichotomy (rank x) (rank y) with less | same | more
  · exact iff_of_true less.le (number_lt hx hy hv hw less).le
  · have equal := number_congr hx.isFinite hy.isFinite same
    rw [hv, hw, Option.some.injEq] at equal
    exact iff_of_true same.le equal.le
  · exact iff_of_false more.not_ge (number_lt hy hx hw hv more).not_ge

end Ranks

/-! ## The nearest multiple of a last place -/

section Rounds

variable {spec : Float.Model.Format} {m q q' : ℕ} {e t t' : ℤ} {r r' : ℚ}

/-- A number that is not negative is rounded to `q` multiples of its last place `2 ^ t`. -/
structure Rounds (spec : Float.Model.Format) (r : ℚ) (q : ℕ) (t : ℤ) : Prop where
  least : spec.minExponent ≤ t
  /-- The last place is no larger than the leading bit asks for. -/
  leading : (2 : ℚ) ^ spec.mantissaBitsWithoutImplicit * 2 ^ t ≤ r ∨ t = spec.minExponent
  below : r < 2 ^ spec.mantissaBits * 2 ^ t
  close : 2 * |q * 2 ^ t - r| ≤ 2 ^ t
  even : 2 * |q * 2 ^ t - r| = 2 ^ t → q % 2 = 0

theorem two_pow_mantissaBits : (2 : ℚ) ^ spec.mantissaBits
    = 2 ^ spec.mantissaBitsWithoutImplicit * 2 := by
  exact_mod_cast pow_mantissaBits spec

/-- Twice a last place is still no more than a larger one. -/
theorem two_zpow_le (h : t < t') : (2 : ℚ) * 2 ^ t ≤ 2 ^ t' := by
  calc (2 : ℚ) * 2 ^ t = 2 ^ (t + 1) := by rw [zpow_add_one₀ two_ne_zero, mul_comm]
    _ ≤ 2 ^ t' := zpow_le_zpow_right₀ one_le_two h

/-- All places above one last place hold no more than the leading bit above a larger one. -/
theorem whole_le_leading (spec : Float.Model.Format) (h : t < t') :
    (2 : ℚ) ^ spec.mantissaBits * 2 ^ t ≤ 2 ^ spec.mantissaBitsWithoutImplicit * 2 ^ t' := by
  rw [two_pow_mantissaBits, mul_assoc]
  exact mul_le_mul_of_nonneg_left (two_zpow_le h) (by positivity)

theorem Rounds.le_whole (h : Rounds spec r q t) :
    (q : ℚ) * 2 ^ t ≤ 2 ^ spec.mantissaBits * 2 ^ t := by
  have place : (0 : ℚ) < 2 ^ t := zpow_pos two_pos t
  have near := abs_le.1 (show |q * (2 : ℚ) ^ t - r| ≤ 2 ^ t / 2 by linarith [h.close])
  have bound : (q : ℚ) * 2 ^ t < (2 ^ spec.mantissaBits + 1 : ℕ) * 2 ^ t := by
    push_cast
    linarith [h.below]
  have less : q < 2 ^ spec.mantissaBits + 1 := by
    exact_mod_cast lt_of_mul_lt_mul_right bound place.le
  have le : (q : ℚ) ≤ 2 ^ spec.mantissaBits := by exact_mod_cast Nat.le_of_lt_succ less
  exact mul_le_mul_of_nonneg_right le place.le

theorem Rounds.leading_le (h : Rounds spec r q t) (above : t ≠ spec.minExponent) :
    (2 : ℚ) ^ spec.mantissaBitsWithoutImplicit * 2 ^ t ≤ q * 2 ^ t := by
  have place : (0 : ℚ) < 2 ^ t := zpow_pos two_pos t
  have near := abs_le.1 (show |q * (2 : ℚ) ^ t - r| ≤ 2 ^ t / 2 by linarith [h.close])
  have bound : ((2 ^ spec.mantissaBitsWithoutImplicit : ℕ) : ℚ) * 2 ^ t < (q + 1 : ℕ) * 2 ^ t := by
    push_cast
    linarith [h.leading.resolve_right above]
  have less : 2 ^ spec.mantissaBitsWithoutImplicit < q + 1 := by
    exact_mod_cast lt_of_mul_lt_mul_right bound place.le
  have le : (2 : ℚ) ^ spec.mantissaBitsWithoutImplicit ≤ q := by
    exact_mod_cast Nat.le_of_lt_succ less
  exact mul_le_mul_of_nonneg_right le place.le

/-- A larger number is rounded at a place that is no smaller. -/
theorem Rounds.place_le (h : Rounds spec r q t) (h' : Rounds spec r' q' t') (le : r ≤ r') :
    t ≤ t' := by
  by_contra less
  have above : t ≠ spec.minExponent := fun least => by have := h'.least; omega
  have whole := whole_le_leading spec (not_le.1 less)
  linarith [h.leading.resolve_right above, h'.below]

/-- At one place, quotients that came the other way round would lie one apart and be two ties
between the same neighbours, of which only one is even. -/
theorem Rounds.quotient_le (h : Rounds spec r q t) (h' : Rounds spec r' q' t) (le : r ≤ r') :
    q ≤ q' := by
  by_contra more
  have place : (0 : ℚ) < 2 ^ t := zpow_pos two_pos t
  have apart : (q' : ℚ) + 1 ≤ q := by exact_mod_cast not_le.1 more
  have gap : (q' : ℚ) * 2 ^ t + 2 ^ t ≤ q * 2 ^ t := by
    calc (q' : ℚ) * 2 ^ t + 2 ^ t = (q' + 1) * 2 ^ t := by ring
      _ ≤ q * 2 ^ t := mul_le_mul_of_nonneg_right apart place.le
  have near := abs_le.1 (show |q * (2 : ℚ) ^ t - r| ≤ 2 ^ t / 2 by linarith [h.close])
  have near' := abs_le.1 (show |q' * (2 : ℚ) ^ t - r'| ≤ 2 ^ t / 2 by linarith [h'.close])
  have tie : (q : ℚ) * 2 ^ t - r = 2 ^ t / 2 := by linarith
  have tie' : (q' : ℚ) * 2 ^ t - r' = -(2 ^ t / 2) := by linarith
  have even := h.even (by rw [tie, abs_of_pos (by linarith)]; ring)
  have even' := h'.even (by rw [tie', abs_neg, abs_of_pos (by linarith)]; ring)
  have next : (q : ℚ) = q' + 1 := by
    refine mul_right_cancel₀ place.ne' ?_
    linarith
  have : q = q' + 1 := by exact_mod_cast next
  omega

theorem Rounds.mono (h : Rounds spec r q t) (h' : Rounds spec r' q' t') (le : r ≤ r') :
    (q : ℚ) * 2 ^ t ≤ q' * 2 ^ t' := by
  rcases (h.place_le h' le).lt_or_eq with finer | rfl
  · have above : t' ≠ spec.minExponent := fun least => by have := h.least; omega
    calc (q : ℚ) * 2 ^ t ≤ 2 ^ spec.mantissaBits * 2 ^ t := h.le_whole
      _ ≤ 2 ^ spec.mantissaBitsWithoutImplicit * 2 ^ t' := whole_le_leading spec finer
      _ ≤ q' * 2 ^ t' := h'.leading_le above
  · exact mul_le_mul_of_nonneg_right (by exact_mod_cast h.quotient_le h' le) (by positivity)

end Rounds

/-! ## What is rounded -/

section Results

variable {spec : Float.Model.Format} {x y u u' : UnpackedFloat} {m : ℕ} {e : ℤ} {v w r r' : ℚ}

/-- A number is below the place after its leading bit. -/
theorem below_whole (spec : Float.Model.Format) (m : ℕ) (e : ℤ) :
    (m : ℚ) * 2 ^ e < 2 ^ spec.mantissaBits * 2 ^ lastPlace spec m e := by
  have place : totalExponent m e - spec.mantissaBits ≤ lastPlace spec m e := le_max_left ..
  have total : totalExponent m e = m.log2 + 1 + e := rfl
  calc (m : ℚ) * 2 ^ e
      < 2 ^ (m.log2 + 1) * 2 ^ e :=
        mul_lt_mul_of_pos_right (by exact_mod_cast Nat.lt_log2_self) (zpow_pos two_pos e)
    _ = 2 ^ totalExponent m e := by
        rw [total, ← zpow_natCast, ← zpow_add₀ two_ne_zero]
        push_cast
        rfl
    _ ≤ 2 ^ (spec.mantissaBits + lastPlace spec m e) :=
        zpow_le_zpow_right₀ one_le_two (by omega)
    _ = 2 ^ spec.mantissaBits * 2 ^ lastPlace spec m e := by
        rw [zpow_add₀ two_ne_zero, zpow_natCast]

theorem quotient_rounds (pos : 0 < m) :
    Rounds spec (m * 2 ^ e) (quotient spec m e) (lastPlace spec m e) := by
  let num := m * Nat.pow 2 (e - lastPlace spec m e).toNat
  let den := Nat.pow 2 (lastPlace spec m e - e).toNat
  obtain ⟨c, above, place, value⟩ : ∃ c : ℚ, 0 < c ∧ (2 : ℚ) ^ lastPlace spec m e = den * c ∧
    m * (2 : ℚ) ^ e = num * c := quotient_scale spec m e
  obtain ⟨close, even⟩ : 2 * |(quotient spec m e * den : ℤ) - num| ≤ den ∧
      (2 * |(quotient spec m e * den : ℤ) - num| = den → quotient spec m e % 2 = 0) :=
    divEven_close (Nat.two_pow_pos _)
  have distance : 2 * |(quotient spec m e : ℚ) * 2 ^ lastPlace spec m e - m * 2 ^ e|
      = (2 * |(quotient spec m e * den : ℤ) - num| : ℤ) * c := by
    rw [place, value, ← mul_assoc, ← sub_mul, abs_mul, abs_of_pos above, ← mul_assoc]
    push_cast
    rfl
  refine ⟨le_max_right .., ?_, below_whole spec m e, ?_, fun tie => even ?_⟩
  · by_cases least : lastPlace spec m e = spec.minExponent
    · exact .inr least
    · exact .inl (leading_le pos least)
  · rw [distance, place]
    exact mul_le_mul_of_nonneg_right (by exact_mod_cast close) above.le
  · rw [distance, place] at tie
    exact_mod_cast mul_right_cancel₀ above.ne' tie

/-- The result of rounding a number that is not negative. -/
structure Rounded (spec : Float.Model.Format) (r : ℚ) (u : UnpackedFloat) : Prop where
  canonical : Canonical spec u
  value : ∃ q t, Rounds spec r q t ∧ number u = some ((q : ℚ) * 2 ^ t)

/-- Results are compared by what was rounded, whichever operation they come from. -/
theorem Rounded.mono (h : Rounded spec r u) (h' : Rounded spec r' u') (le : r ≤ r') :
    rank u ≤ rank u' := by
  obtain ⟨q, t, rounds, value⟩ := h.value
  obtain ⟨q', t', rounds', value'⟩ := h'.value
  exact (rank_le_iff h.canonical h'.canonical value value').2 (rounds.mono rounds' le)

/-- What is not negative is a zero or has no sign. -/
theorem nonneg_canonical (h : Canonical spec u) (value : number u = some v) (nonneg : 0 ≤ v) :
    (∃ s, u = .zero s ∧ v = 0) ∨ ∃ m e pos, u = .finite .positive m e pos ∧ v = m * 2 ^ e := by
  cases u with
  | infinity => cases h
  | notANumber => cases h
  | zero s =>
    cases value
    exact .inl ⟨s, rfl, rfl⟩
  | finite s m e pos =>
    cases (number_finite ..).symm.trans value
    cases s with
    | negative =>
      have above : (0 : ℚ) < m * 2 ^ e := by positivity
      exact absurd nonneg (neg_lt_zero.2 above).not_ge
    | positive => exact .inr ⟨m, e, pos, rfl, rfl⟩

/-- A number of the format is rounded to itself. -/
theorem exact_rounded (h : Canonical spec u) (value : number u = some v) (nonneg : 0 ≤ v) :
    Rounded spec v u := by
  refine ⟨h, ?_⟩
  rcases nonneg_canonical h value nonneg with ⟨s, rfl, rfl⟩ | ⟨m, e, pos, rfl, rfl⟩
  · refine ⟨0, spec.minExponent, ⟨le_refl _, .inr rfl, by positivity, ?_, fun _ => rfl⟩, ?_⟩
    · simp only [Nat.cast_zero, zero_mul, sub_zero, abs_zero, mul_zero]
      positivity
    · simp [number]
  · have place : (0 : ℚ) < 2 ^ e := by positivity
    refine ⟨m, e, ⟨h.2.1, h.2.2.imp_left fun full => ?_, ?_, ?_, fun tie => ?_⟩, value⟩
    · exact mul_le_mul_of_nonneg_right (by exact_mod_cast full) place.le
    · exact mul_lt_mul_of_pos_right (by exact_mod_cast h.1) place
    · simpa using place.le
    · simp [place.ne] at tie

theorem round_rounded (pos : 0 < m) :
    Rounded spec (m * 2 ^ e) (UnpackedFloat.round spec .positive m e) := by
  have stores := @round_stores spec .positive m e pos
  exact ⟨stores.canonical, _, _, quotient_rounds pos, stores.number⟩

/-! ## Products -/

theorem minExponent_nonpos (spec : Float.Model.Format) : spec.minExponent ≤ 0 := by
  have bias : (1 : ℤ) ≤ 2 ^ (spec.exponentBits - 1) := one_le_pow₀ one_le_two
  have bits := spec.hm
  rw [Float.Model.Format.minExponent, Float.Model.Format.mantissaBits]
  omega

/-- A product of canonical mantissas has no fewer places than the format keeps. -/
theorem product_place {m' : ℕ} {e' : ℤ} {pos : 0 < m} {pos' : 0 < m'} {s s' : Sign}
    (hx : Canonical spec (.finite s m e pos)) (hy : Canonical spec (.finite s' m' e' pos')) :
    e + e' ≤ lastPlace spec (m * m') (e + e') := by
  have bits : spec.mantissaBits = 1 + spec.mantissaBitsWithoutImplicit := rfl
  have place : totalExponent (m * m') (e + e') - spec.mantissaBits
      ≤ lastPlace spec (m * m') (e + e') := le_max_left ..
  have least : spec.minExponent ≤ lastPlace spec (m * m') (e + e') := le_max_right ..
  have total : totalExponent (m * m') (e + e') = (m * m').log2 + 1 + (e + e') := rfl
  have wide (h : 2 ^ spec.mantissaBitsWithoutImplicit ≤ m * m') :
      spec.mantissaBitsWithoutImplicit ≤ (m * m').log2 :=
    (Nat.le_log2 (Nat.mul_pos pos pos').ne').2 h
  rcases hx.2.2 with full | rfl
  · have := wide (full.trans (Nat.le_mul_of_pos_right m pos'))
    omega
  · rcases hy.2.2 with full | rfl
    · have := wide (full.trans (Nat.le_mul_of_pos_left m' pos))
      omega
    · have := minExponent_nonpos spec
      omega

theorem mul_rounded (hx : Canonical spec x) (hy : Canonical spec y) (hv : number x = some v)
    (hw : number y = some w) (nonneg : 0 ≤ v) (nonneg' : 0 ≤ w) :
    Rounded spec (v * w) (UnpackedFloat.mul spec x y) := by
  rcases nonneg_canonical hx hv nonneg with ⟨s, rfl, rfl⟩ | ⟨m, e, pos, rfl, rfl⟩ <;>
    rcases nonneg_canonical hy hw nonneg' with ⟨s', rfl, rfl⟩ | ⟨m', e', pos', rfl, rfl⟩
  case inl.inl | inl.inr =>
    rw [zero_mul]
    exact exact_rounded trivial rfl le_rfl
  case inr.inl =>
    rw [mul_zero]
    exact exact_rounded trivial rfl le_rfl
  case inr.inr =>
    have product : (m : ℚ) * 2 ^ e * (m' * 2 ^ e') = (m * m' : ℕ) * 2 ^ (e + e') := by
      rw [zpow_add₀ two_ne_zero]
      push_cast
      ring
    -- The product has places to drop only, as a number has that is rounded from scratch.
    have kept : UnpackedFloat.mul spec (.finite .positive m e pos) (.finite .positive m' e' pos')
        = UnpackedFloat.round spec .positive (m * m') (e + e') := by
      rw [round_eq (Nat.mul_pos pos pos'), ← roundWithAccuracy_eq (product_place hx hy)]
      rfl
    rw [product, kept]
    exact round_rounded (Nat.mul_pos pos pos')

/-! ## Sums and differences -/

theorem normalize_rounded {n t : ℤ} (nonneg : 0 ≤ n) :
    Rounded spec (n * 2 ^ t) (UnpackedFloat.normalize spec n t .positive) := by
  rcases nonneg.eq_or_lt with rfl | pos
  · rw [Int.cast_zero, zero_mul]
    exact exact_rounded trivial rfl le_rfl
  · obtain ⟨m, rfl⟩ := Int.eq_ofNat_of_zero_le nonneg
    unfold UnpackedFloat.normalize
    rw [compare_gt_iff_gt.2 pos, Int.toNat_natCast]
    exact round_rounded (Int.natCast_pos.1 pos)

/-- The sign takes no part in rounding. -/
theorem round_abs (s : Sign) (pos : 0 < m) :
    (UnpackedFloat.round spec s m e).abs = UnpackedFloat.round spec .positive m e := by
  rw [round_eq pos, round_eq pos, carried, carried, signed, signed]
  split <;> rfl

theorem normalize_abs (n t : ℤ) (s : Sign) :
    (UnpackedFloat.normalize spec n t s).abs = UnpackedFloat.normalize spec |n| t .positive := by
  rcases lt_trichotomy n 0 with neg | rfl | pos
  · have magnitude : 0 < -n := by omega
    rw [abs_of_neg neg]
    unfold UnpackedFloat.normalize
    rw [compare_lt_iff_lt.2 neg, compare_gt_iff_gt.2 magnitude]
    exact round_abs _ (by omega)
  · rfl
  · rw [abs_of_pos pos]
    unfold UnpackedFloat.normalize
    rw [compare_gt_iff_gt.2 pos]
    exact round_abs _ (by omega)

/-- Brought to a smaller exponent, a number is the same. -/
theorem apply_shiftLeft {t : ℤ} (h : t ≤ e) (s : Sign) :
    (s.apply (m <<< (e - t).toNat : ℕ) : ℚ) * 2 ^ t = s.apply m * 2 ^ e := by
  have exponent : e = ((e - t).toNat : ℤ) + t := by omega
  conv_rhs => rw [exponent, zpow_add₀ two_ne_zero, zpow_natCast, ← mul_assoc]
  rw [Nat.shiftLeft_eq]
  cases s <;> simp only [Sign.apply] <;> push_cast <;> ring

theorem add_rounded (hx : Canonical spec x) (hy : Canonical spec y) (hv : number x = some v)
    (hw : number y = some w) (nonneg : 0 ≤ v) (nonneg' : 0 ≤ w) :
    Rounded spec (v + w) (UnpackedFloat.add spec x y) := by
  rcases nonneg_canonical hx hv nonneg with ⟨s, rfl, rfl⟩ | ⟨m, e, pos, rfl, rfl⟩ <;>
    rcases nonneg_canonical hy hw nonneg' with ⟨s', rfl, rfl⟩ | ⟨m', e', pos', rfl, rfl⟩
  case inl.inl =>
    rw [zero_add]
    cases s <;> cases s' <;> exact exact_rounded trivial rfl le_rfl
  case inl.inr =>
    rw [zero_add]
    exact exact_rounded hy hw nonneg'
  case inr.inl =>
    rw [add_zero]
    exact exact_rounded hx hv nonneg
  case inr.inr =>
    let n : ℤ := (m <<< (e - min e e').toNat : ℕ) + (m' <<< (e' - min e e').toNat : ℕ)
    have left := @apply_shiftLeft m e _ (min_le_left e e') .positive
    have right := @apply_shiftLeft m' e' _ (min_le_right e e') .positive
    have sum : (m : ℚ) * 2 ^ e + m' * 2 ^ e' = n * 2 ^ min e e' := by
      rw [Int.cast_add, add_mul]
      exact (congrArg₂ (· + ·) left right).symm
    rw [sum]
    exact normalize_rounded (by positivity)

/-- The number without its sign. -/
theorem number_abs (h : number u = some v) : number u.abs = some |v| := by
  cases u with
  | infinity => cases h
  | notANumber => cases h
  | zero s =>
    cases h
    simp [UnpackedFloat.abs, number]
  | finite s m e pos =>
    cases h
    have place : (0 : ℚ) < 2 ^ e := zpow_pos two_pos e
    rw [abs_mul, abs_of_pos place]
    cases s <;> simp [UnpackedFloat.abs, number, Sign.apply]

theorem canonical_abs : Canonical spec u.abs ↔ Canonical spec u := by
  cases u <;> exact Iff.rfl

theorem abs_rounded (h : Canonical spec u) (value : number u = some v) :
    Rounded spec |v| u.abs :=
  exact_rounded (canonical_abs.2 h) (number_abs value) (abs_nonneg v)

theorem sub_rounded (hx : Canonical spec x) (hy : Canonical spec y) (hv : number x = some v)
    (hw : number y = some w) : Rounded spec |v - w| (UnpackedFloat.sub spec x y).abs := by
  cases x with
  | infinity => cases hx
  | notANumber => cases hx
  | zero s =>
    cases hv
    rw [zero_sub, abs_neg]
    have magnitude := abs_rounded hy hw
    cases y with
    | infinity => cases hy
    | notANumber => cases hy
    | zero s' => cases s <;> cases s' <;> exact magnitude
    | finite => exact magnitude
  | finite s m e pos =>
    cases y with
    | infinity => cases hy
    | notANumber => cases hy
    | zero =>
      cases hw
      rw [sub_zero]
      exact abs_rounded hx hv
    | finite s' m' e' pos' =>
      cases hv
      cases hw
      let n : ℤ := s.apply (m <<< (e - min e e').toNat : ℕ)
        - s'.apply (m' <<< (e' - min e e').toNat : ℕ)
      have left := @apply_shiftLeft m e _ (min_le_left e e') s
      have right := @apply_shiftLeft m' e' _ (min_le_right e e') s'
      have place : (0 : ℚ) < 2 ^ min e e' := zpow_pos two_pos _
      have difference : |(s.apply m : ℚ) * 2 ^ e - s'.apply m' * 2 ^ e'|
          = (|n| : ℤ) * 2 ^ min e e' := by
        rw [← left, ← right, ← sub_mul, abs_mul, abs_of_pos place, ← Int.cast_sub, ← Int.cast_abs]
      have kept : (UnpackedFloat.sub spec (.finite s m e pos) (.finite s' m' e' pos')).abs
          = UnpackedFloat.normalize spec |n| (min e e') .positive := normalize_abs ..
      rw [difference, kept]
      exact normalize_rounded (abs_nonneg n)

/-- Numbers of a format are whole multiples of its least one. -/
theorem number_multiple (h : Canonical spec u) (value : number u = some v) :
    ∃ k : ℤ, v = k * 2 ^ spec.minExponent := by
  obtain ⟨k, e, -, least, rfl⟩ := number_canonical h value
  refine ⟨k * 2 ^ (e - spec.minExponent).toNat, ?_⟩
  have exponent : e = ((e - spec.minExponent).toNat : ℤ) + spec.minExponent := by omega
  conv_lhs => rw [exponent, zpow_add₀ two_ne_zero, zpow_natCast, ← mul_assoc]
  push_cast
  rfl

/-- Different numbers are no nearer than the least number of the format. -/
theorem least_le_sub (hx : Canonical spec x) (hy : Canonical spec y) (hv : number x = some v)
    (hw : number y = some w) (ne : v ≠ w) : (2 : ℚ) ^ spec.minExponent ≤ |v - w| := by
  obtain ⟨k, rfl⟩ := number_multiple hx hv
  obtain ⟨k', rfl⟩ := number_multiple hy hw
  have place : (0 : ℚ) < 2 ^ spec.minExponent := zpow_pos two_pos _
  have apart : k - k' ≠ 0 := fun same => ne (by rw [sub_eq_zero.1 same])
  rw [← sub_mul, abs_mul, abs_of_pos place]
  exact le_mul_of_one_le_left place.le (by exact_mod_cast Int.one_le_abs apart)

end Results

end Microbench
