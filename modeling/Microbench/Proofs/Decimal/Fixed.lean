import Microbench.Proofs.Decimal.Text
import Microbench.Proofs.Float.Rounding

/-!
# Numbers with a fixed number of places

A number is written with some places by rounding it to that many: the digits in front of the point
and behind it spell the whole number that is nearest to the number of units in the last place, or
the even one of two that are as near. The sign is that of the number, also where only zeros are left
of it.

Results:

* `scaledRatio_eq`: the ratio that is rounded.
* `fixed_hasPlaces`: what is written has the places asked for.
* `HasPlaces.determines`: no other text has them.
-/
namespace Microbench

open Json (IsDigits IsWhole)

/-! ## The nearest whole number -/

/-- A whole number that none is nearer to a ratio than. Of two that are as near it is the even
one. -/
structure Nearest (r : ℚ) (q : ℕ) : Prop where
  near : |(q : ℚ) - r| ≤ 1 / 2
  even : |(q : ℚ) - r| = 1 / 2 → q % 2 = 0

/-- Of two such numbers that differ both are halfway, and one is odd. -/
theorem Nearest.determines {r : ℚ} {q q' : ℕ} (h : Nearest r q) (h' : Nearest r q') : q = q' := by
  by_contra ne
  have apart : (1 : ℚ) ≤ |(q : ℚ) - q'| := by
    exact_mod_cast Int.one_le_abs (sub_ne_zero.2 (by exact_mod_cast ne : (q : ℤ) ≠ q'))
  have triangle := abs_sub_le (q : ℚ) r q'
  rw [abs_sub_comm r] at triangle
  have near := h.near
  have near' := h'.near
  have even := h.even (by linarith)
  have even' := h'.even (by linarith)
  have next : |(q : ℤ) - q'| = 1 := by
    have both : |(q : ℚ) - q'| = 1 := by linarith
    exact_mod_cast both
  rcases (abs_eq one_pos.le).1 next with up | down <;> omega

namespace Binary

theorem divEven_nearest_ratio {num den : ℕ} (pos : 0 < den) :
    Nearest (num / den) (divEven num den) := by
  have positive : (0 : ℚ) < den := Nat.cast_pos.2 pos
  have scaled : |(divEven num den : ℚ) - num / den|
      = |(((divEven num den * den : ℕ) : ℤ) - num : ℤ)| / den := by
    push_cast
    rw [eq_div_iff positive.ne']
    nth_rewrite 2 [← abs_of_pos positive]
    rw [← abs_mul, sub_mul, div_mul_cancel₀ _ positive.ne']
  obtain ⟨close, even⟩ := @divEven_close num den pos
  constructor
  · rw [scaled, div_le_div_iff₀ positive two_pos, mul_comm, one_mul]
    exact_mod_cast close
  · intro tie
    rw [scaled, div_eq_div_iff positive.ne' two_ne_zero, mul_comm, one_mul] at tie
    exact even (by exact_mod_cast tie)

theorem two_pow_toNat (e : ℤ) : (2 : ℚ) ^ e.toNat / 2 ^ (-e).toNat = 2 ^ e := by
  rw [← zpow_natCast, ← zpow_natCast, ← zpow_sub₀ two_ne_zero]
  congr 1
  omega

/-- The ratio, with the power of two among its parts. -/
theorem scaledRatio_eq (num den : ℕ) (shift : ℤ) :
    ((scaledRatio num den shift).1 : ℚ) / (scaledRatio num den shift).2
      = num / den * 2 ^ shift := by
  show ((num * 2 ^ shift.toNat : ℕ) : ℚ) / (den * 2 ^ (-shift).toNat : ℕ) = _
  push_cast
  rw [mul_div_mul_comm, two_pow_toNat]

end Binary

/-! ## Places -/

namespace Decimal

/-- The text of a number with places behind the point. The digits spell the number of units in the
last place. -/
inductive HasPlaces (places : ℕ) : Binary.Value → String → Prop where
  | nan : HasPlaces places .nan "NaN"
  | infinite (negative : Bool) :
      HasPlaces places (.infinite negative) (if negative then "-inf" else "inf")
  | finite {negative : Bool} {significand : ℕ} {exponent : ℤ} {whole behind : List Char}
      (left : IsWhole whole) (right : IsDigits behind) (length : behind.length = places)
      (nearest : Nearest (significand * 2 ^ exponent * 10 ^ places)
        (Nat.ofDigitChars 10 (whole ++ behind) 0)) :
      HasPlaces places (.finite negative significand exponent)
        ((if negative then "-" else "") ++ String.ofList (whole ++ '.' :: behind))

/-- What is written has the places asked for. -/
theorem fixed_hasPlaces {places : ℕ} (pos : 0 < places) (v : Binary.Value) :
    HasPlaces places v (fixed places v) := by
  cases v with
  | nan => exact .nan
  | infinite negative => cases negative <;> exact .infinite _
  | finite negative significand exponent =>
    let ratio := Binary.scaledRatio (significand * 10 ^ places) 1 exponent
    obtain ⟨whole, behind, zeros, text, digits, length, left, right⟩ :=
      pointed_chars (Binary.divEven ratio.1 ratio.2) pos
    have nearest : Nearest (significand * 2 ^ exponent * 10 ^ places)
        (Nat.ofDigitChars 10 (whole ++ behind) 0) := by
      have value : (ratio.1 : ℚ) / ratio.2 = significand * 2 ^ exponent * 10 ^ places := by
        rw [Binary.scaledRatio_eq]
        push_cast
        ring
      have positive : 0 < ratio.2 := Nat.mul_pos Nat.one_pos (Nat.two_pow_pos _)
      rw [digits, Nat.ofDigitChars_append, Nat.ofDigitChars_replicate_zero, Nat.mul_zero,
        Nat.ofDigitChars_ten_toDigits, ← value]
      exact Binary.divEven_nearest_ratio positive
    have written : fixed places (.finite negative significand exponent)
        = (if negative then "-" else "") ++ String.ofList (whole ++ '.' :: behind) := by
      rw [← text, String.ofList_toList]
      rfl
    rw [written]
    exact .finite left right length nearest

/-! ## One text only -/

section Digits

variable {ds es : List Char}

theorem ofDigitChars_cons_eq (c : Char) (ds : List Char) : Nat.ofDigitChars 10 (c :: ds) 0
    = 10 ^ ds.length * (c.toNat - '0'.toNat) + Nat.ofDigitChars 10 ds 0 := by
  rw [Nat.ofDigitChars_cons, Nat.mul_zero, Nat.zero_add, Nat.ofDigitChars_eq_ofDigitChars_zero]

theorem ofDigitChars_lt (digits : ∀ c ∈ ds, c.isDigit = true) :
    Nat.ofDigitChars 10 ds 0 < 10 ^ ds.length := by
  induction ds with
  | nil => exact Nat.one_pos
  | cons c ds ih =>
    obtain ⟨first, rest⟩ := List.forall_mem_cons.1 digits
    have digit : c.toNat - '0'.toNat ≤ 9 :=
      Nat.sub_le_sub_right (Char.isDigit_iff_toNat.1 first).2 _
    have head := Nat.mul_le_mul_left (10 ^ ds.length) digit
    have tail := ih rest
    rw [ofDigitChars_cons_eq, List.length_cons, Nat.pow_succ]
    omega

/-- What a block of digits and one behind it spell, taken apart. -/
theorem ofDigitChars_append_inj {ds' es' : List Char} (digits : ∀ c ∈ es, c.isDigit = true)
    (digits' : ∀ c ∈ es', c.isDigit = true) (length : es.length = es'.length)
    (same : Nat.ofDigitChars 10 (ds ++ es) 0 = Nat.ofDigitChars 10 (ds' ++ es') 0) :
    Nat.ofDigitChars 10 ds 0 = Nat.ofDigitChars 10 ds' 0 ∧
      Nat.ofDigitChars 10 es 0 = Nat.ofDigitChars 10 es' 0 := by
  have below := ofDigitChars_lt digits
  have below' := ofDigitChars_lt digits'
  rw [Nat.ofDigitChars_append, Nat.ofDigitChars_append, Nat.ofDigitChars_eq_ofDigitChars_zero,
    @Nat.ofDigitChars_eq_ofDigitChars_zero es'] at same
  rw [length] at below same
  have quotients := congrArg (· / 10 ^ es'.length) same
  simp only [Nat.mul_add_div (Nat.pow_pos (by decide : 0 < 10)), Nat.div_eq_of_lt below,
    Nat.div_eq_of_lt below', Nat.add_zero] at quotients
  rw [quotients] at same
  exact ⟨quotients, Nat.add_left_cancel same⟩

/-- Digits are determined by how many they are and by what they spell. -/
theorem digits_determined (digits : ∀ c ∈ ds, c.isDigit = true)
    (digits' : ∀ c ∈ es, c.isDigit = true) (length : ds.length = es.length)
    (same : Nat.ofDigitChars 10 ds 0 = Nat.ofDigitChars 10 es 0) : ds = es := by
  induction ds generalizing es with
  | nil => exact (List.length_eq_zero_iff.1 length.symm).symm
  | cons c ds ih =>
    cases es with
    | nil => cases length
    | cons d es =>
      obtain ⟨first, rest⟩ := List.forall_mem_cons.1 digits
      obtain ⟨first', rest'⟩ := List.forall_mem_cons.1 digits'
      have tails : ds.length = es.length := Nat.succ.inj length
      obtain ⟨heads, same⟩ := @ofDigitChars_append_inj [c] ds [d] es rest rest' tails same
      have lower := (Char.isDigit_iff_toNat.1 first).1
      have lower' := (Char.isDigit_iff_toNat.1 first').1
      rw [ofDigitChars_cons_eq, ofDigitChars_cons_eq] at heads
      have chars : c = d := Char.toNat_inj.1 (by simp at heads lower lower'; omega)
      rw [chars, ih rest rest' tails same]

/-- A number that is not zero begins with another digit. -/
theorem whole_value (h : IsWhole ds) :
    ds = ['0'] ∨ 10 ^ (ds.length - 1) ≤ Nat.ofDigitChars 10 ds 0 := by
  obtain ⟨c, ds, rfl⟩ := List.exists_cons_of_ne_nil h.nonempty
  by_cases zero : c = '0'
  · exact .inl (h.first (congrArg some zero))
  · right
    have lower := (Char.isDigit_iff_toNat.1 (h.digits c List.mem_cons_self)).1
    have digit : 1 ≤ c.toNat - '0'.toNat := by
      have differ : c.toNat ≠ '0'.toNat := fun same => zero (Char.toNat_inj.1 same)
      omega
    rw [ofDigitChars_cons_eq, List.length_cons, Nat.add_sub_cancel]
    exact Nat.le_add_right_of_le (Nat.le_mul_of_pos_right _ digit)

theorem whole_determined (h : IsWhole ds) (h' : IsWhole es)
    (same : Nat.ofDigitChars 10 ds 0 = Nat.ofDigitChars 10 es 0) : ds = es := by
  have positive := List.length_pos_iff.2 h.nonempty
  have positive' := List.length_pos_iff.2 h'.nonempty
  have pow (n : ℕ) : 0 < 10 ^ n := Nat.pow_pos (by decide)
  rcases whole_value h with rfl | lower <;> rcases whole_value h' with rfl | lower'
  · rfl
  · exact absurd (same ▸ lower') (Nat.not_le.2 (pow _))
  · exact absurd (same ▸ lower) (Nat.not_le.2 (pow _))
  · have below := (Nat.pow_lt_pow_iff_right (by decide : 1 < 10)).1
      (lower.trans_lt (same ▸ ofDigitChars_lt h'.digits))
    have below' := (Nat.pow_lt_pow_iff_right (by decide : 1 < 10)).1
      (lower'.trans_lt (same ▸ ofDigitChars_lt h.digits))
    exact digits_determined h.digits h'.digits (by omega) same

end Digits

/-- A number has one text only with these places. -/
theorem HasPlaces.determines {places : ℕ} {v : Binary.Value} {text text' : String}
    (h : HasPlaces places v text) (h' : HasPlaces places v text') : text = text' := by
  cases h with
  | nan => cases h'; rfl
  | infinite => cases h'; rfl
  | finite left right length nearest =>
    cases h' with
    | finite left' right' length' nearest' =>
      obtain ⟨wholes, rests⟩ := ofDigitChars_append_inj right.digits right'.digits
        (length.trans length'.symm) (nearest.determines nearest')
      rw [whole_determined left left' wholes,
        digits_determined right.digits right'.digits (length.trans length'.symm) rests]

end Decimal

end Microbench
