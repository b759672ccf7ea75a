import Mathlib
import Microbench.Json
import Microbench.Proofs.Decimal.Text
import Microbench.Proofs.Float.Widen

/-!
# Numbers of double precision in a document

The bits of a finite number are its sign, its exponent field and its fraction, and the significand
and the exponent that it decodes to give the bits back. So the shortest decimal, which belongs to
one significand and exponent only, determines the number when it is written with its sign.

Results:

* `decode_double`: what a finite number decodes to, and its bits.
* `double_faithful`: the printer of numbers is one that determines them.
-/
namespace Microbench

open Float.Model Float.Model.UnpackedFloat

/-- The exponent field of a finite number is not all ones. -/
theorem double_field {x : Float} (h : x.isFinite = true) :
    x.toBits.toNat / Nat.pow 2 52 % Nat.pow 2 11 ≠ 2047 := by
  intro all
  have top : @unpackExponent Format.binary64 x.toModel.toBits.toBitVec = -1#_ := by
    refine BitVec.eq_of_toNat_eq ?_
    rw [unpackExponent_toNat]
    exact all
  have special : x.toModel.unpack.isFinite = false := by
    show (UnpackedFloat.unpack Format.binary64 x.toModel.toBits.toBitVec).isFinite = false
    unfold UnpackedFloat.unpack
    dsimp only
    rw [if_pos top]
    split <;> rfl
  exact Bool.false_ne_true (special.symm.trans h)

/-- The bits of a sign, a significand and an exponent: the leading bit of a significand stands for
one in the exponent field. -/
def bitsOf (negative : Bool) (significand : Nat) (exponent : Int) : Nat :=
  negative.toNat * Nat.pow 2 63 + ((exponent + 1074).toNat * Nat.pow 2 52 + significand)

/-- What a finite number decodes to, and its bits. -/
theorem decode_double {x : Float} (h : x.isFinite = true) : ∃ negative significand exponent,
    Binary.ofFloat x = .finite negative significand exponent
      ∧ Binary.double.Canonical significand exponent ∧ exponent ≤ 971
      ∧ x.toBits.toNat = bitsOf negative significand exponent := by
  let bits := x.toBits.toNat
  have field : bits / 4503599627370496 % 2048 ≠ 2047 := double_field h
  have fits : bits < 18446744073709551616 := x.toBits.toNat_lt
  have sign : ((bits / 9223372036854775808 % 2 == 1).toNat) = bits / 9223372036854775808 := by
    rcases (show bits / 9223372036854775808 = 0 ∨ bits / 9223372036854775808 = 1 by omega)
      with zero | one
    · rw [zero]; rfl
    · rw [one]; rfl
  show ∃ negative significand exponent,
    Binary.double.decode bits = .finite negative significand exponent ∧ _
  unfold Binary.Format.decode
  dsimp only
  split
  · next all => exact absurd all field
  split
  · next zero =>
    have zero : bits / 4503599627370496 % 2048 = 0 := zero
    refine ⟨_, _, _, rfl, ⟨le_refl _, fun more => absurd more (lt_irrefl _), ?_⟩, by decide, ?_⟩
    · show bits % 4503599627370496 < 9007199254740992
      omega
    · show bits = (bits / 9223372036854775808 % 2 == 1).toNat * 9223372036854775808
        + (((-1074 : Int) + 1074).toNat * 4503599627370496 + bits % 4503599627370496)
      rw [sign]
      omega
  · next normal =>
    have normal : bits / 4503599627370496 % 2048 ≠ 0 := normal
    refine ⟨_, _, _, rfl, ⟨?_, fun _ => ?_, ?_⟩, ?_, ?_⟩
    · show (-1074 : Int) ≤ -1074 + (bits / 4503599627370496 % 2048 - 1 : Nat)
      omega
    · exact Nat.le_add_left ..
    · show bits % 4503599627370496 + 4503599627370496 < 9007199254740992
      omega
    · show (-1074 : Int) + (bits / 4503599627370496 % 2048 - 1 : Nat) ≤ 971
      omega
    · show bits = (bits / 9223372036854775808 % 2 == 1).toNat * 9223372036854775808
        + (((-1074 : Int) + (bits / 4503599627370496 % 2048 - 1 : Nat) + 1074).toNat
            * 4503599627370496 + (bits % 4503599627370496 + 4503599627370496))
      rw [sign]
      omega

namespace Json

/-- What is asked of a printer of numbers: a finite one is printed as a number of a document that
determines it. -/
structure Faithful (number : Float → Json) : Prop where
  token : ∀ x, x.isFinite = true → ∃ lexeme, number x = .number lexeme ∧ IsNumber lexeme
  determines : ∀ x y, x.isFinite = true → y.isFinite = true → number x = number y → x = y

/-- What a finite number is printed as. -/
theorem double_spells {x : Float} (h : x.isFinite = true) :
    ∃ lexeme negative significand exponent, double x = .number lexeme
      ∧ Decimal.Spells lexeme negative
        (Decimal.ofFinite Binary.double .even significand exponent).value
      ∧ Binary.double.Canonical significand exponent ∧ exponent ≤ 971
      ∧ x.toBits.toNat = bitsOf negative significand exponent := by
  obtain ⟨negative, significand, exponent, decoded, canonical, greatest, bits⟩ := decode_double h
  have spells := Decimal.write_spells Decimal.doubleStyle negative
    (Decimal.ofFinite Binary.double .even significand exponent)
  refine ⟨_, negative, significand, exponent, ?_, spells, canonical, greatest, bits⟩
  rw [double, decoded]
  rfl

/-- The printer of numbers is one that determines them. -/
theorem double_faithful : Faithful double where
  token x h := by
    obtain ⟨lexeme, negative, significand, exponent, printed, spells, -⟩ := double_spells h
    exact ⟨lexeme, printed, spells.number⟩
  determines x y hx hy same := by
    obtain ⟨lexeme, negative, significand, exponent, printed, spells, canonical, greatest, bits⟩ :=
      double_spells hx
    obtain ⟨lexeme', negative', significand', exponent', printed', spells', canonical', greatest',
      bits'⟩ := double_spells hy
    obtain rfl : lexeme = lexeme' := Json.number.inj (printed.symm.trans (same.trans printed'))
    obtain ⟨rfl, value⟩ := spells.determines spells'
    obtain ⟨rfl, rfl⟩ :=
      Decimal.ofFinite_injective .even canonical greatest canonical' greatest' value
    exact Float.toBits_inj.1 (UInt64.toNat_inj.1 (bits.trans bits'.symm))

end Json

end Microbench
