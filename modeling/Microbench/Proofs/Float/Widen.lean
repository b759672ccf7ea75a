import Microbench.Binary
import Microbench.Proofs.Float.Range

/-!
# Widened numbers

A number of single precision is far below the range of double precision, so widening it loses
nothing of its magnitude to an overflow.

Results:

* `decode_finite`: what finite numbers decode to.
* `nearest_field`: the exponent field of the nearest number of double precision.
* `widen_below`: widened numbers are far below the range of double precision.
-/
namespace Microbench

open Float.Model Float.Model.UnpackedFloat

theorem unpackExponent_toNat {spec : Float.Model.Format} (bits : BitVec spec.numBits) :
    (unpackExponent bits).toNat = bits.toNat / Nat.pow 2 spec.mantissaBitsWithoutImplicit
      % Nat.pow 2 spec.exponentBits := by
  have pos := spec.he
  unfold unpackExponent
  rw [BitVec.toNat_cast, BitVec.extractLsb_toNat, Nat.shiftRight_eq_div_pow]
  rw [show spec.mantissaBitsWithoutImplicit + spec.exponentBits - 1
    - spec.mantissaBitsWithoutImplicit + 1 = spec.exponentBits by omega]
  rfl

/-- The exponent field of a finite number is not all ones. -/
theorem single_field {x : Float32} (h : x.isFinite = true) :
    x.toBits.toNat / Nat.pow 2 23 % Nat.pow 2 8 ≠ 255 := by
  intro all
  have top : @unpackExponent Format.binary32 x.toModel.toBits.toBitVec = -1#_ := by
    refine BitVec.eq_of_toNat_eq ?_
    rw [unpackExponent_toNat]
    exact all
  have special : x.toModel.unpack.isFinite = false := by
    show (UnpackedFloat.unpack Format.binary32 x.toModel.toBits.toBitVec).isFinite = false
    unfold UnpackedFloat.unpack
    dsimp only
    rw [if_pos top]
    split <;> rfl
  exact Bool.false_ne_true (special.symm.trans h)

/-- What a finite number of single precision decodes to. -/
theorem decode_finite {x : Float32} (h : x.isFinite = true) : ∃ negative significand exponent,
    Binary.ofFloat32 x = .finite negative significand exponent ∧
      significand < Nat.pow 2 24 ∧ exponent ≤ 104 := by
  let bits := x.toBits.toNat
  have field : bits / Nat.pow 2 23 % Nat.pow 2 8 ≠ 255 := single_field h
  have fraction : bits % Nat.pow 2 23 < 8388608 := Nat.mod_lt _ (Nat.two_pow_pos 23)
  have range : bits / Nat.pow 2 23 % Nat.pow 2 8 < 256 := Nat.mod_lt _ (Nat.two_pow_pos 8)
  show ∃ negative significand exponent,
    Binary.single.decode bits = .finite negative significand exponent ∧ _
  unfold Binary.Format.decode
  dsimp only
  split
  · next all => exact absurd all field
  split
  · exact ⟨_, _, _, rfl, fraction.trans (by decide), by decide⟩
  · refine ⟨_, _, _, rfl, ?_, ?_⟩
    · show bits % Nat.pow 2 23 + 8388608 < 16777216
      omega
    · show (-149 : Int) + (bits / Nat.pow 2 23 % Nat.pow 2 8 - 1 : Nat) ≤ 104
      omega

theorem divEven_le (num den : Nat) : Binary.divEven num den ≤ num / den + 1 := by
  unfold Binary.divEven
  dsimp only
  split
  · exact Nat.le_succ _
  · exact Nat.le_refl _

theorem pow_two_add (a b : Nat) : Nat.pow 2 (a + b) = Nat.pow 2 a * Nat.pow 2 b :=
  Nat.pow_add 2 a b

/-- A quotient by a last place that is not too small fits into two bits more than a
significand. -/
theorem scaledRatio_lt {num den : Nat} (nonzero : den ≠ 0) {e : Int}
    (h : (num.log2 : Int) - den.log2 - 53 ≤ e) :
    (Binary.scaledRatio num den (-e)).1 / (Binary.scaledRatio num den (-e)).2 < Nat.pow 2 54 := by
  show num * Nat.pow 2 (-e).toNat / (den * Nat.pow 2 (- -e).toNat) < _
  refine Nat.div_lt_of_lt_mul ?_
  calc num * Nat.pow 2 (-e).toNat
      < Nat.pow 2 (num.log2 + 1) * Nat.pow 2 (-e).toNat :=
        Nat.mul_lt_mul_of_pos_right Nat.lt_log2_self (Nat.two_pow_pos _)
    _ = Nat.pow 2 (num.log2 + 1 + (-e).toNat) := (Nat.pow_add ..).symm
    _ ≤ Nat.pow 2 (den.log2 + (- -e).toNat + 54) := Nat.pow_le_pow_right (by decide) (by omega)
    _ = Nat.pow 2 den.log2 * Nat.pow 2 (- -e).toNat * Nat.pow 2 54 := by
        rw [pow_two_add, pow_two_add]
    _ ≤ den * Nat.pow 2 (- -e).toNat * Nat.pow 2 54 :=
        Nat.mul_le_mul_right _ (Nat.mul_le_mul_right _ (Nat.log2_self_le nonzero))

/-- The exponent field of the nearest number of double precision. -/
theorem nearest_field {num den : Nat} (nonzero : den ≠ 0) {limit : Int} (low : -1074 ≤ limit)
    (h : (num.log2 : Int) - den.log2 - 52 ≤ limit) :
    Binary.double.nearest num den / Nat.pow 2 52 ≤ (limit + 1078).toNat := by
  unfold Binary.Format.nearest
  split
  · exact Nat.zero_le _
  dsimp only
  let e := max (Binary.double.lastPlace num den) Binary.double.minExponent
  have place : (num.log2 : Int) - den.log2 - 53 ≤ Binary.double.lastPlace num den ∧
      Binary.double.lastPlace num den ≤ num.log2 - den.log2 - 52 := by
    have width : Binary.double.fractionBits = 52 := rfl
    unfold Binary.Format.lastPlace
    dsimp only
    split <;> omega
  have least : Binary.double.minExponent = -1074 := rfl
  have quotient : Binary.divEven (Binary.scaledRatio num den (-e)).1
      (Binary.scaledRatio num den (-e)).2 ≤ Nat.pow 2 54 :=
    (divEven_le _ _).trans (scaledRatio_lt nonzero (by omega))
  have steps : (e - Binary.double.minExponent).toNat ≤ (limit + 1074).toNat := by omega
  have sum : (e - Binary.double.minExponent).toNat * Nat.pow 2 52
      + Binary.divEven (Binary.scaledRatio num den (-e)).1 (Binary.scaledRatio num den (-e)).2
      ≤ (limit + 1078).toNat * Nat.pow 2 52 := by
    have four : (limit + 1078).toNat = (limit + 1074).toNat + 4 := by omega
    rw [four, Nat.add_mul]
    exact Nat.add_le_add (Nat.mul_le_mul_right _ steps) quotient
  refine (Nat.div_le_div_right ((Nat.min_le_left ..).trans sum)).trans ?_
  rw [Nat.mul_div_cancel _ (Nat.two_pow_pos 52)]

/-- The exponent field of what a finite number of single precision is encoded to. -/
theorem encode_field {significand : Nat} {exponent : Int} (small : significand < Nat.pow 2 24)
    (range : exponent ≤ 104) :
    Binary.double.nearest (Binary.scaledRatio significand 1 exponent).1
      (Binary.scaledRatio significand 1 exponent).2 / Nat.pow 2 52 ≤ 1153 := by
  let num := significand * Nat.pow 2 exponent.toNat
  let den := 1 * Nat.pow 2 (-exponent).toNat
  have large : num.log2 ≤ 127 := by
    by_cases zero : num = 0
    · rw [zero, Nat.log2_zero]
      decide
    · have total : num < Nat.pow 2 128 := by
        calc num
            < Nat.pow 2 24 * Nat.pow 2 exponent.toNat :=
              Nat.mul_lt_mul_of_pos_right small (Nat.two_pow_pos _)
          _ = Nat.pow 2 (24 + exponent.toNat) := (pow_two_add ..).symm
          _ ≤ Nat.pow 2 128 := Nat.pow_le_pow_right (by decide) (by omega)
      have := (Nat.log2_lt zero).2 total
      omega
  have nonzero : den ≠ 0 := Nat.mul_ne_zero Nat.one_ne_zero (Nat.two_pow_pos _).ne'
  have field : Binary.double.nearest num den / Nat.pow 2 52 ≤ ((75 : Int) + 1078).toNat :=
    nearest_field nonzero (by decide) (by omega)
  exact field

/-- Widened numbers are far below the range of double precision. -/
theorem widen_below {x : Float32} (h : x.isFinite = true) :
    Below 183 (Binary.widen x).toModel.unpack := by
  obtain ⟨negative, significand, exponent, decoded, small, range⟩ := decode_finite h
  let nearest := Binary.double.nearest (Binary.scaledRatio significand 1 exponent).1
    (Binary.scaledRatio significand 1 exponent).2
  let word := UInt64.ofNat (nearest + negative.toNat * Binary.double.signBit)
  have field : nearest / 4503599627370496 ≤ 1153 := encode_field small range
  have stored : (@unpackExponent Format.binary64 word.toBitVec).toNat ≤ 1153 := by
    rw [unpackExponent_toNat]
    have value : word.toNat
        = (nearest + negative.toNat * 9223372036854775808) % 18446744073709551616 :=
      UInt64.toNat_ofNat'
    show word.toNat / 4503599627370496 % 2048 ≤ 1153
    omega
  have bound := (unpack_below stored (by decide)).pack (by decide) (by decide)
  have wide : Binary.widen x = Float.ofBits word := by
    rw [Binary.widen, decoded]
    rfl
  rw [wide]
  exact bound

end Microbench
