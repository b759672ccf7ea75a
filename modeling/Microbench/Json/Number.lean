import Microbench.Json.Reader
import Microbench.Word

/-!
# Numbers of a document

A lexeme is split into its parts and read as a 64-bit word or as a float. A float is read in two
roundings: the digits that fit one word are taken as a float, and that is scaled by a power of
ten. A number past the largest float is refused.
-/
namespace Microbench.Json

/-- The parts of a number as written. -/
structure Lexeme where
  negative : Bool
  whole : List Char
  /-- `none` where there is no point. -/
  places : Option (List Char)
  /-- The sign and the digits of the exponent. -/
  exponent : Option (Bool × List Char)
  deriving DecidableEq, Repr

namespace Lexeme

def splitExponent : List Char → Option (Bool × List Char)
  | _ :: '+' :: digits => some (false, digits)
  | _ :: '-' :: digits => some (true, digits)
  | _ :: digits => some (false, digits)
  | [] => none

def splitUnsigned (negative : Bool) (cs : List Char) : Lexeme :=
  let (whole, rest) := scanDigits cs
  match rest with
  | '.' :: rest =>
    ⟨negative, whole, some (scanDigits rest).1, splitExponent (scanDigits rest).2⟩
  | rest => ⟨negative, whole, none, splitExponent rest⟩

def split (lexeme : String) : Lexeme :=
  match lexeme.toList with
  | '-' :: cs => splitUnsigned true cs
  | cs => splitUnsigned false cs

def digitValue (c : Char) : Nat := c.toNat - '0'.toNat

def valueOf (digits : List Char) : Nat := digits.foldl (fun n c => n * 10 + digitValue c) 0

/-- Takes digits as long as the value fits one word; the value, and the digits left over. -/
def absorb (value : Nat) : List Char → Nat × List Char
  | [] => (value, [])
  | c :: rest =>
    if value * 10 + digitValue c ≤ maxWord then absorb (value * 10 + digitValue c) rest
    else (value, c :: rest)

/-- The kept digits, and the power of ten they are to be scaled by. Digits of the whole part that
are left over count as tens; places that are left over do not count. -/
def significand (l : Lexeme) : Nat × Int :=
  let (value, left) := absorb 0 l.whole
  let places := l.places.getD []
  let (value, leftPlaces) := absorb value places
  (value, (left.length : Int) - (places.length - leftPlaces.length : Nat))

/-- Divides by `10 ^ n`, in steps of at most 308 places. -/
def scaleDown (x : Float) (n : Nat) : Float :=
  if n ≤ 308 then x / Binary.powerOfTen n
  else if x == 0 then x
  else scaleDown (x / Binary.powerOfTen 308) (n - 308)
termination_by n

/-- `value * 10 ^ exponent`, refused if it is too large. -/
def scale (value : Nat) (exponent : Int) : Option Float :=
  let x := (UInt64.ofNat value).toFloat
  if exponent < 0 then some (scaleDown x (-exponent).toNat)
  else if exponent ≤ 308 then
    let y := x * Binary.powerOfTen exponent.toNat
    if y.isInf then none else some y
  else if x == 0 then some x
  else none

/-- The largest exponent that is read as a number; beyond it only the sign counts. -/
def maxExponent : Nat := 0x7fffffff

/-- The magnitude of the number. -/
def magnitude (l : Lexeme) : Option Float :=
  let (value, places) := l.significand
  match l.exponent with
  | none => scale value places
  | some (down, digits) =>
    let exponent := valueOf digits
    if maxExponent < exponent then
      if value ≠ 0 && !down then none else some 0
    else
      scale value (if down then places - exponent else places + exponent)

def double? (l : Lexeme) : Option Float :=
  l.magnitude.map fun x => if l.negative then -x else x

/-- Written without a point and without an exponent. -/
def isWhole (l : Lexeme) : Bool := l.places.isNone && l.exponent.isNone

/-- A whole number that a 64-bit integer holds, signed if it is negative. -/
def isInteger (l : Lexeme) : Bool :=
  l.isWhole && (if l.negative then 0 < valueOf l.whole && valueOf l.whole ≤ Nat.pow 2 63
    else valueOf l.whole ≤ maxWord)

/-- An integer is rounded once, any other number after it has been read as a longer float. -/
def single? (l : Lexeme) : Option Float32 :=
  if l.isInteger then
    let x := (UInt64.ofNat (valueOf l.whole)).toFloat32
    some (if l.negative then -x else x)
  else
    l.double?.map Binary.narrow

/-- An unsigned integer of 64 bits. -/
def word? (l : Lexeme) : Option Nat :=
  if l.isInteger && !l.negative then some (valueOf l.whole) else none

end Lexeme

end Microbench.Json
