import Microbench.Decimal.Shortest

/-!
# Decimal text

Three ways of writing a float: plainly with the fewest digits, with a fixed number of places,
and as a number of a JSON document. A sign is kept wherever the number has one, on zero too.
-/
namespace Microbench.Decimal

def zeros (n : Nat) : String := String.ofList (List.replicate n '0')

def signText (negative : Bool) : String := if negative then "-" else ""

/-- Spaces in front, up to a width. -/
def padLeft (width : Nat) (s : String) : String :=
  String.ofList (List.replicate (width - s.length) ' ') ++ s

/-- Digits with the last `places` of them after a point, with zeros in front where they are too
few. Without places there is no point. -/
def pointed (digits places : Nat) : String :=
  let text := toString digits
  let text := zeros (places + 1 - text.length) ++ text
  if places = 0 then text
  else
    (text.take (text.length - places)).toString ++ "."
      ++ (text.drop (text.length - places)).toString

/-! ## Plain -/

/-- All digits written out, never an exponent, and no point on a whole number. -/
def plain (s : Scientific) : String :=
  if s.exponent < 0 then pointed s.digits (-s.exponent).toNat
  else toString (s.digits * Nat.pow 10 s.exponent.toNat)

/-- The text of an element of a float buffer. Of two equally near decimals the larger is
written. -/
def display (x : Float32) : String :=
  match Binary.ofFloat32 x with
  | .nan => "NaN"
  | .infinite negative => signText negative ++ "inf"
  | .finite negative significand exponent =>
    signText negative ++ plain (ofFinite Binary.single .up significand exponent)

/-! ## Fixed places -/

/-- The exact value rounded to `places` places, a tie to the even last digit. -/
def fixed (places : Nat) : Binary.Value → String
  | .nan => "NaN"
  | .infinite negative => signText negative ++ "inf"
  | .finite negative significand exponent =>
    let (a, b) := Binary.scaledRatio (significand * Nat.pow 10 places) 1 exponent
    signText negative ++ pointed (Binary.divEven a b) places

/-! ## Numbers of a JSON document -/

/-- For which exponents of the leading digit a number is written without an exponent. -/
structure JsonStyle where
  least : Int
  greatest : Int
  deriving DecidableEq, Repr

def singleStyle : JsonStyle := ⟨-6, 12⟩

def doubleStyle : JsonStyle := ⟨-5, 15⟩

/-- One digit, the others after a point if there are any, and the exponent with its sign. -/
def exponential (s : Scientific) (leading : Int) : String :=
  let text := toString s.digits
  let mantissa :=
    if text.length = 1 then text else (text.take 1).toString ++ "." ++ (text.drop 1).toString
  mantissa ++ "e" ++ (if leading < 0 then "-" else "+") ++ toString leading.natAbs

/-- The fewest digits that read back, a tie to the even one; at least one place after the
point. -/
def JsonStyle.write (style : JsonStyle) (s : Scientific) : String :=
  let leading := s.exponent + (toString s.digits).length - 1
  if leading < style.least || style.greatest < leading then exponential s leading
  else if s.exponent < 0 then pointed s.digits (-s.exponent).toNat
  else plain s ++ ".0"

/-- The lexeme of a finite value; other values have none. -/
def jsonNumber? (f : Binary.Format) (style : JsonStyle) : Binary.Value → Option String
  | .finite negative significand exponent =>
    some (signText negative ++ style.write (ofFinite f .even significand exponent))
  | _ => none

end Microbench.Decimal
