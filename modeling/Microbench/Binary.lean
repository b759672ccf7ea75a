/-!
# Binary floating-point formats

A format has a field of exponent bits and a field of fraction bits. A bit pattern is decoded to a
sign, a whole significand and a power of two; a ratio of whole numbers is rounded to the nearest
pattern, a tie to the even significand.
-/
namespace Microbench.Binary

structure Format where
  fractionBits : Nat
  exponentBits : Nat
  deriving DecidableEq, Repr

def single : Format := ⟨23, 8⟩

def double : Format := ⟨52, 11⟩

inductive Value where
  | nan
  | infinite (negative : Bool)
  /-- The significand times two to the exponent. -/
  | finite (negative : Bool) (significand : Nat) (exponent : Int)
  deriving DecidableEq, Repr

namespace Format

/-- The power of two of the last place of the smallest numbers. -/
def minExponent (f : Format) : Int := 2 - (Nat.pow 2 (f.exponentBits - 1) : Nat) - f.fractionBits

/-- The pattern of positive infinity. -/
def infinity (f : Format) : Nat := (Nat.pow 2 f.exponentBits - 1) * Nat.pow 2 f.fractionBits

/-- The sign bit alone. -/
def signBit (f : Format) : Nat := Nat.pow 2 (f.exponentBits + f.fractionBits)

def decode (f : Format) (bits : Nat) : Value :=
  let fraction := bits % Nat.pow 2 f.fractionBits
  let field := bits / Nat.pow 2 f.fractionBits % Nat.pow 2 f.exponentBits
  let negative := bits / f.signBit % 2 == 1
  if field = Nat.pow 2 f.exponentBits - 1 then
    if fraction = 0 then .infinite negative else .nan
  else if field = 0 then
    .finite negative fraction f.minExponent
  else
    .finite negative (fraction + Nat.pow 2 f.fractionBits) (f.minExponent + (field - 1 : Nat))

end Format

/-- The quotient of two whole numbers rounded to the nearest, a tie to the even one. -/
def divEven (num den : Nat) : Nat :=
  let q := num / den
  let twice := 2 * (num % den)
  if twice < den || (twice == den && q % 2 == 0) then q else q + 1

/-- `num * 2 ^ shift / den`, with a negative shift as part of the divisor. -/
def scaledRatio (num den : Nat) (shift : Int) : Nat × Nat :=
  (num * Nat.pow 2 shift.toNat, den * Nat.pow 2 (-shift).toNat)

namespace Format

/-- The power of two of the last place of `num / den`, before any limit: the quotient by it lies
between `2 ^ fractionBits` and twice that. -/
def lastPlace (f : Format) (num den : Nat) : Int :=
  let guess : Int := (num.log2 : Int) - den.log2 - 1 - f.fractionBits
  let (a, b) := scaledRatio num den (-guess)
  if a / b < Nat.pow 2 (f.fractionBits + 1) then guess else guess + 1

/-- The pattern nearest to `num / den`. A significand that rounds up to the next power of two
carries into the exponent field; a pattern past the largest is infinity. -/
def nearest (f : Format) (num den : Nat) : Nat :=
  if num = 0 then
    0
  else
    let e := max (f.lastPlace num den) f.minExponent
    let (a, b) := scaledRatio num den (-e)
    min ((e - f.minExponent).toNat * Nat.pow 2 f.fractionBits + divEven a b) f.infinity

/-- The pattern nearest to a decoded value of any format; infinities keep their sign. -/
def encode (f : Format) : Value → Nat
  | .nan => f.infinity + Nat.pow 2 (f.fractionBits - 1)
  | .infinite negative => f.infinity + negative.toNat * f.signBit
  | .finite negative significand exponent =>
    let (a, b) := scaledRatio significand 1 exponent
    f.nearest a b + negative.toNat * f.signBit

end Format

/-! ## The machine's two formats -/

def ofFloat32 (x : Float32) : Value := single.decode x.toBits.toNat

def ofFloat (x : Float) : Value := double.decode x.toBits.toNat

def toFloat32 (v : Value) : Float32 := Float32.ofBits (UInt32.ofNat (single.encode v))

def toFloat (v : Value) : Float := Float.ofBits (UInt64.ofNat (double.encode v))

/-- The same number with the longer significand. -/
def widen (x : Float32) : Float := toFloat (ofFloat32 x)

/-- The nearest number with the shorter significand. -/
def narrow (x : Float) : Float32 := toFloat32 (ofFloat x)

/-- A power of ten, rounded to the nearest float. -/
def powerOfTen (n : Nat) : Float := Float.ofBits (UInt64.ofNat (double.nearest (Nat.pow 10 n) 1))

end Microbench.Binary
