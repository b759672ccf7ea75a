import Mathlib.Algebra.Order.Field.Basic
import Mathlib.Data.Rat.Cast.Order
import Mathlib.Tactic.Positivity
import Mathlib.Tactic.Ring
import Mathlib.Tactic.FieldSimp
import Mathlib.Tactic.Linarith
import Microbench.Decimal.Shortest

/-!
# The shortest decimal belongs to one number only

The decimal that is found lies in the interval of its number: a grid whose step is a quarter of the
last place has a point in every interval, and the search comes down to such a grid. The intervals of
two numbers of a format have at most an end in common, and never when both contain their ends,
since one of two neighbours is odd.

Results:

* `search_holds`: what is found lies in the interval.
* `around_unique`: the intervals of different numbers are disjoint.
* `ofFinite_injective`: the decimal determines the number.
-/
namespace Microbench

/-- A significand and an exponent as a format has them: significands without the leading bit go
with the smallest exponent only. -/
structure Binary.Format.Canonical (f : Binary.Format) (significand : Nat) (exponent : Int) :
    Prop where
  least : f.minExponent ≤ exponent
  leading : f.minExponent < exponent → Nat.pow 2 f.fractionBits ≤ significand
  bits : significand < 2 * Nat.pow 2 f.fractionBits

namespace Decimal

def Scientific.value (s : Scientific) : ℚ := s.digits * (10 : ℚ) ^ s.exponent

theorem zpow_eq_div {a : ℚ} (k : ℤ) : a ^ k = a ^ k.toNat / a ^ (-k).toNat := by
  rcases le_total 0 k with nonneg | nonpos
  · have none : (-k).toNat = 0 := by omega
    rw [none, pow_zero, div_one, ← zpow_natCast, Int.toNat_of_nonneg nonneg]
  · have none : k.toNat = 0 := by omega
    rw [none, pow_zero, one_div, ← zpow_natCast, Int.toNat_of_nonneg (by omega), zpow_neg, inv_inv]

namespace Interval

variable {i : Interval} {tie : Tie} {k : Int}

/-- The number lies in the interval, at an end only if the interval is closed. -/
structure Holds (i : Interval) (q : ℚ) : Prop where
  low : (i.low / i.denominator : ℚ) ≤ q
  high : q ≤ i.high / i.denominator
  inside : i.closed = false → (i.low / i.denominator : ℚ) < q ∧ q < i.high / i.denominator

section Contains

variable (pos : 0 < i.denominator) (digits : Nat) (a : Nat)

include pos

/-- Bounds of a grid point, over one denominator. -/
theorem le_value_iff : (a / i.denominator : ℚ) ≤ Scientific.value ⟨digits, k⟩ ↔
    a * Nat.pow 10 (-k).toNat ≤ digits * (i.denominator * Nat.pow 10 k.toNat) := by
  have den : (0 : ℚ) < i.denominator := by exact_mod_cast pos
  have unit : (0 : ℚ) < 10 ^ (-k).toNat := by positivity
  rw [Scientific.value, zpow_eq_div, ← mul_div_assoc, div_le_div_iff₀ den unit]
  norm_cast
  rw [Nat.mul_assoc, Nat.mul_comm _ i.denominator]
  rfl

theorem value_le_iff : Scientific.value ⟨digits, k⟩ ≤ (a / i.denominator : ℚ) ↔
    digits * (i.denominator * Nat.pow 10 k.toNat) ≤ a * Nat.pow 10 (-k).toNat := by
  have den : (0 : ℚ) < i.denominator := by exact_mod_cast pos
  have unit : (0 : ℚ) < 10 ^ (-k).toNat := by positivity
  rw [Scientific.value, zpow_eq_div, ← mul_div_assoc, div_le_div_iff₀ unit den]
  norm_cast
  rw [Nat.mul_assoc, Nat.mul_comm _ i.denominator]
  rfl

theorem contains_holds
    (h : i.contains (digits * (i.denominator * Nat.pow 10 k.toNat)) (Nat.pow 10 (-k).toNat)
      = true) :
    i.Holds (Scientific.value ⟨digits, k⟩) := by
  unfold contains at h
  split at h
  · next closed =>
    rw [Bool.and_eq_true, decide_eq_true_eq, decide_eq_true_eq] at h
    exact ⟨(le_value_iff pos digits _).2 h.1, (value_le_iff pos digits _).2 h.2,
      fun isOpen => absurd closed (by rw [isOpen]; decide)⟩
  · rw [Bool.and_eq_true, decide_eq_true_eq, decide_eq_true_eq] at h
    refine ⟨(le_value_iff pos digits _).2 h.1.le, (value_le_iff pos digits _).2 h.2.le, fun _ => ?_⟩
    rw [← not_le, ← not_le, value_le_iff pos, le_value_iff pos, not_le, not_le]
    exact h

end Contains

/-! ## The search -/

theorem onGrid_contains {digits : Nat} (h : i.onGrid tie k = some digits) :
    i.contains (digits * (i.denominator * Nat.pow 10 k.toNat)) (Nat.pow 10 (-k).toNat) = true := by
  unfold onGrid at h
  dsimp only at h
  split at h
  · next belowIn aboveIn =>
    split at h
    · cases h; exact belowIn
    · split at h
      · cases h; exact aboveIn
      · cases tie with
        | even =>
          dsimp only at h
          split at h
          · cases h; exact belowIn
          · cases h; exact aboveIn
        | up => cases h; exact aboveIn
  · next belowIn _ => cases h; exact belowIn
  · next _ aboveIn => cases h; exact aboveIn
  · cases h

/-- A grid whose step is less than the distance to the lower end has a point. -/
theorem onGrid_isSome (h : i.low * Nat.pow 10 (-k).toNat + i.denominator * Nat.pow 10 k.toNat
    < i.value * Nat.pow 10 (-k).toNat) (high : i.value < i.high) (pos : 0 < i.denominator) :
    (i.onGrid tie k).isSome := by
  have belowIn : i.contains (i.value * Nat.pow 10 (-k).toNat
      / (i.denominator * Nat.pow 10 k.toNat) * (i.denominator * Nat.pow 10 k.toNat))
      (Nat.pow 10 (-k).toNat) = true := by
    have step : 0 < i.denominator * Nat.pow 10 k.toNat :=
      Nat.mul_pos pos (Nat.pow_pos (by decide))
    have unit : 0 < Nat.pow 10 (-k).toNat := Nat.pow_pos (by decide)
    have up := Nat.lt_div_mul_add step (a := i.value * Nat.pow 10 (-k).toNat)
    have down := Nat.div_mul_le_self (i.value * Nat.pow 10 (-k).toNat)
      (i.denominator * Nat.pow 10 k.toNat)
    have top : i.value * Nat.pow 10 (-k).toNat < i.high * Nat.pow 10 (-k).toNat :=
      Nat.mul_lt_mul_of_pos_right high unit
    unfold contains
    split <;> (rw [Bool.and_eq_true, decide_eq_true_eq, decide_eq_true_eq]; omega)
  unfold onGrid
  dsimp only
  rw [belowIn]
  split
  · split
    · rfl
    · split
      · rfl
      · cases tie <;> rfl
  · rfl
  · next none _ => cases none
  · next none _ => cases none

/-- What the search finds lies in the interval, if one of the grids it tries has a point. -/
theorem search_holds (pos : 0 < i.denominator) {count : Nat} {k : Int}
    (h : ∃ j < count, (i.onGrid tie (k - j)).isSome) : i.Holds (i.search tie count k).value := by
  induction count generalizing k with
  | zero =>
    obtain ⟨j, none, -⟩ := h
    exact absurd none (Nat.not_lt_zero j)
  | succ count ih =>
    rw [search]
    split
    · next digits hit => exact contains_holds pos digits (onGrid_contains hit)
    · next miss =>
      refine ih ?_
      obtain ⟨j, hj, hit⟩ := h
      cases j with
      | zero =>
        rw [Nat.cast_zero, sub_zero, miss] at hit
        cases hit
      | succ j =>
        refine ⟨j, Nat.lt_of_succ_lt_succ hj, ?_⟩
        rwa [Nat.cast_succ, add_comm, ← sub_sub] at hit

/-! ## Intervals of a format -/

section Around

variable {f : Binary.Format} {significand significand' : Nat} {exponent exponent' : Int}

/-- Quarters of the last place between the number and the lower end. -/
def gap (f : Binary.Format) (significand : Nat) (exponent : Int) : Nat :=
  if significand == Nat.pow 2 f.fractionBits && f.minExponent < exponent then 1 else 2

theorem gap_le : 1 ≤ gap f significand exponent ∧ gap f significand exponent ≤ 2 := by
  unfold gap
  split <;> decide

theorem gap_power (h : f.minExponent < exponent) :
    gap f (Nat.pow 2 f.fractionBits) exponent = 1 := by
  rw [gap, if_pos]
  simpa using h

theorem around_denominator_pos : 0 < (around f significand exponent).denominator :=
  Nat.pow_pos (by decide)

theorem quarter_eq (a : Nat) :
    ((a * Nat.pow 2 (exponent - 2).toNat : Nat) / (around f significand exponent).denominator : ℚ)
      = a * 2 ^ (exponent - 2) := by
  have same : (2 - exponent : Int) = -(exponent - 2) := by ring
  rw [zpow_eq_div, around, same, mul_div_assoc']
  simp only [Nat.pow_eq]
  push_cast
  rfl

theorem around_low : ((around f significand exponent).low
      / (around f significand exponent).denominator : ℚ)
    = (4 * significand - gap f significand exponent : Nat) * 2 ^ (exponent - 2) := quarter_eq _

theorem around_high : ((around f significand exponent).high
      / (around f significand exponent).denominator : ℚ)
    = (4 * significand + 2 : Nat) * 2 ^ (exponent - 2) := quarter_eq _

/-- Of two numbers of a format the upper end of the smaller is no more than the lower end of the
larger, and where they meet one of the two is odd. -/
theorem ends_ordered (h : f.Canonical significand exponent)
    (h' : f.Canonical significand' exponent') (d : Nat) (later : exponent' = exponent + d)
    (less : d = 0 → significand < significand') :
    4 * significand + 2 < (4 * significand' - gap f significand' exponent') * Nat.pow 2 d ∨
      (4 * significand + 2 = (4 * significand' - gap f significand' exponent') * Nat.pow 2 d ∧
        (significand % 2 = 1 ∨ significand' % 2 = 1)) := by
  obtain ⟨one, two⟩ := @gap_le f significand' exponent'
  cases d with
  | zero =>
    have := less rfl
    rw [show Nat.pow 2 0 = 1 from rfl, Nat.mul_one]
    omega
  | succ d =>
    have above : f.minExponent < exponent' := by
      have := h.least
      omega
    have leading := h'.leading above
    have bits := h.bits
    have double : 2 ≤ Nat.pow 2 (d + 1) := by
      rw [Nat.pow_eq, pow_succ]
      have := Nat.one_le_two_pow (n := d)
      omega
    have scaled := Nat.mul_le_mul_left (4 * significand' - gap f significand' exponent') double
    rcases Nat.lt_or_eq_of_le leading with more | same
    · omega
    · subst same
      rw [gap_power above] at scaled ⊢
      omega

theorem not_holds_of_ordered (h : f.Canonical significand exponent)
    (h' : f.Canonical significand' exponent') (d : Nat) (later : exponent' = exponent + d)
    (less : d = 0 → significand < significand') {q : ℚ}
    (holds : (around f significand exponent).Holds q)
    (holds' : (around f significand' exponent').Holds q) : False := by
  have last : (0 : ℚ) < 2 ^ (exponent - 2) := zpow_pos (by norm_num) _
  have shift : (2 : ℚ) ^ (exponent' - 2) = 2 ^ d * 2 ^ (exponent - 2) := by
    rw [later, ← zpow_natCast, ← zpow_add₀ (by norm_num)]
    congr 1
    ring
  have closed {s : Nat} {e : Int} (odd : s % 2 = 1) : (around f s e).closed = false := by
    simp [around, odd]
  have high := holds.high
  have low := holds'.low
  rw [around_high] at high
  rw [around_low, shift, ← mul_assoc] at low
  rcases ends_ordered h h' d later less with apart | ⟨meet, odd | odd⟩
  · have apart : ((4 * significand + 2 : Nat) : ℚ)
        < (4 * significand' - gap f significand' exponent' : Nat) * 2 ^ d := by exact_mod_cast apart
    exact absurd (low.trans high) (not_le.2 (mul_lt_mul_of_pos_right apart last))
  · have meet : ((4 * significand + 2 : Nat) : ℚ)
        = (4 * significand' - gap f significand' exponent' : Nat) * 2 ^ d := by exact_mod_cast meet
    have strict := (holds.inside (closed odd)).2
    rw [around_high, meet] at strict
    exact absurd low (not_le.2 strict)
  · have meet : ((4 * significand + 2 : Nat) : ℚ)
        = (4 * significand' - gap f significand' exponent' : Nat) * 2 ^ d := by exact_mod_cast meet
    have strict := (holds'.inside (closed odd)).1
    rw [around_low, shift, ← mul_assoc, ← meet] at strict
    exact absurd high (not_le.2 strict)

/-- A number that lies in the intervals of two numbers of a format: they are the same. -/
theorem around_unique (h : f.Canonical significand exponent)
    (h' : f.Canonical significand' exponent') {q : ℚ}
    (holds : (around f significand exponent).Holds q)
    (holds' : (around f significand' exponent').Holds q) :
    significand = significand' ∧ exponent = exponent' := by
  rcases lt_trichotomy exponent exponent' with less | same | more
  · exact (not_holds_of_ordered h h' (exponent' - exponent).toNat (by omega) (by omega) holds
      holds').elim
  · subst same
    rcases lt_trichotomy significand significand' with less | same | more
    · exact (not_holds_of_ordered h h' 0 (by simp) (fun _ => less) holds holds').elim
    · exact ⟨same, rfl⟩
    · exact (not_holds_of_ordered h' h 0 (by simp) (fun _ => more) holds' holds).elim
  · exact (not_holds_of_ordered h' h (exponent - exponent').toNat (by omega) (by omega) holds'
      holds).elim

/-! ### Fine grids -/

/-- A step of less than a quarter of the last place. -/
def Fine (exponent k : Int) : Prop :=
  Nat.pow 2 (2 - exponent).toNat * Nat.pow 10 k.toNat
    < Nat.pow 2 (exponent - 2).toNat * Nat.pow 10 (-k).toNat

theorem Fine.mono {k k' : Int} (h : Fine exponent k) (le : k' ≤ k) : Fine exponent k' := by
  have coarse : Nat.pow 10 k'.toNat ≤ Nat.pow 10 k.toNat :=
    Nat.pow_le_pow_right (by decide) (by omega)
  have fine : Nat.pow 10 (-k).toNat ≤ Nat.pow 10 (-k').toNat :=
    Nat.pow_le_pow_right (by decide) (by omega)
  exact Nat.lt_of_le_of_lt (Nat.mul_le_mul_left _ coarse)
    (Nat.lt_of_lt_of_le h (Nat.mul_le_mul_left _ fine))

theorem Fine.onGrid {k : Int} (h : Fine exponent k) (pos : 0 < significand) (tie : Tie) :
    ((around f significand exponent).onGrid tie k).isSome := by
  obtain ⟨one, two⟩ := @gap_le f significand exponent
  have last : 0 < Nat.pow 2 (exponent - 2).toNat := Nat.pow_pos (by decide)
  refine onGrid_isSome ?_ ?_ around_denominator_pos
  · show (4 * significand - gap f significand exponent) * Nat.pow 2 (exponent - 2).toNat
        * Nat.pow 10 (-k).toNat + Nat.pow 2 (2 - exponent).toNat * Nat.pow 10 k.toNat
      < 4 * significand * Nat.pow 2 (exponent - 2).toNat * Nat.pow 10 (-k).toNat
    rw [Nat.mul_assoc, Nat.mul_assoc (4 * significand)]
    calc _ < (4 * significand - gap f significand exponent)
          * (Nat.pow 2 (exponent - 2).toNat * Nat.pow 10 (-k).toNat)
          + Nat.pow 2 (exponent - 2).toNat * Nat.pow 10 (-k).toNat := Nat.add_lt_add_left h _
      _ = (4 * significand - gap f significand exponent + 1)
          * (Nat.pow 2 (exponent - 2).toNat * Nat.pow 10 (-k).toNat) := (Nat.succ_mul ..).symm
      _ ≤ _ := Nat.mul_le_mul_right _ (by omega)
  · exact Nat.mul_lt_mul_of_pos_right (by omega) last

end Around

end Interval

/-! ## Double precision -/

/-- For every exponent of the format: ten to the power of the last grid that is tried, for the
largest significands, is less than a quarter of the last place. -/
theorem double_fine : ∀ n : Nat, n < 2046 →
    Interval.Fine ((n : Int) - 1074) (((n : Int) - 1074 + 53) * 30103 / 100000 - 22) := by
  unfold Interval.Fine
  decide +kernel

theorem double_minExponent : Binary.double.minExponent = -1074 := by decide

section Double

variable {significand significand' : Nat} {exponent exponent' : Int}

/-- What is found for a number of double precision lies in its interval. -/
theorem ofFinite_holds (tie : Tie) (pos : 0 < significand)
    (h : Binary.double.Canonical significand exponent) (greatest : exponent ≤ 971) :
    (Interval.around Binary.double significand exponent).Holds
      (ofFinite Binary.double tie significand exponent).value := by
  rw [ofFinite, if_neg (Nat.pos_iff_ne_zero.1 pos)]
  refine Interval.search_holds Interval.around_denominator_pos ⟨23, by decide, ?_⟩
  refine Interval.Fine.onGrid ?_ pos tie
  have least := h.least
  have bits : significand.log2 < 53 := (Nat.log2_lt (Nat.pos_iff_ne_zero.1 pos)).2 h.bits
  have fine := double_fine (exponent + 1074).toNat (by rw [double_minExponent] at least; omega)
  rw [double_minExponent] at least
  rw [show ((exponent + 1074).toNat : Int) - 1074 = exponent by omega] at fine
  refine fine.mono ?_
  rw [gridStart]
  omega

theorem ofFinite_pos (tie : Tie) (pos : 0 < significand)
    (h : Binary.double.Canonical significand exponent) (greatest : exponent ≤ 971) :
    0 < (ofFinite Binary.double tie significand exponent).value := by
  have low := (ofFinite_holds tie pos h greatest).low
  rw [Interval.around_low] at low
  have quarters : 0 < 4 * significand - Interval.gap Binary.double significand exponent := by
    have := (@Interval.gap_le Binary.double significand exponent).2
    omega
  refine lt_of_lt_of_le (mul_pos ?_ (zpow_pos (by norm_num) _)) low
  exact_mod_cast quarters

/-- The decimal determines the number. -/
theorem ofFinite_injective (tie : Tie) (h : Binary.double.Canonical significand exponent)
    (greatest : exponent ≤ 971) (h' : Binary.double.Canonical significand' exponent')
    (greatest' : exponent' ≤ 971)
    (same : (ofFinite Binary.double tie significand exponent).value
      = (ofFinite Binary.double tie significand' exponent').value) :
    significand = significand' ∧ exponent = exponent' := by
  -- Zero has the smallest exponent, as it has no leading bit.
  have least {e : Int} (h : Binary.double.Canonical 0 e) : e = Binary.double.minExponent := by
    by_contra other
    have := h.leading (lt_of_le_of_ne h.least (Ne.symm other))
    exact absurd this (by decide)
  have zero (e : Int) : (ofFinite Binary.double tie 0 e).value = 0 := by
    rw [ofFinite_zero, Scientific.value, Nat.cast_zero, zero_mul]
  rcases Nat.eq_zero_or_pos significand with rfl | pos
  · rcases Nat.eq_zero_or_pos significand' with rfl | pos'
    · exact ⟨rfl, (least h).trans (least h').symm⟩
    · rw [zero] at same
      exact absurd same (ofFinite_pos tie pos' h' greatest').ne
  · rcases Nat.eq_zero_or_pos significand' with rfl | pos'
    · rw [zero] at same
      exact absurd same.symm (ofFinite_pos tie pos h greatest).ne
    · have holds' := ofFinite_holds tie pos' h' greatest'
      rw [← same] at holds'
      exact Interval.around_unique h h' (ofFinite_holds tie pos h greatest) holds'

end Double

end Decimal

end Microbench
