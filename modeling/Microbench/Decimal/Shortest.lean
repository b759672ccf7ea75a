import Microbench.Binary

/-!
# The shortest decimal that reads back

Every binary number has an interval of reals that round to it; the ends belong to it when its
significand is even. Among the decimals in the interval the ones with the fewest digits lie on
the coarsest grid of powers of ten that meets it, and of those the nearest to the number is
taken. All comparisons are made between whole numbers.

Results:

* `ofFinite_zero`: zero has the digit zero.
-/
namespace Microbench.Decimal

/-- The number `digits * 10 ^ exponent`. -/
structure Scientific where
  digits : Nat
  exponent : Int
  deriving DecidableEq, Repr

/-- Which of two equally near decimals is taken. -/
inductive Tie where
  | even
  | up
  deriving DecidableEq, Repr

/-- A positive number and the interval around it over one denominator. -/
structure Interval where
  value : Nat
  low : Nat
  high : Nat
  denominator : Nat
  closed : Bool
  deriving DecidableEq, Repr

namespace Interval

/-- The reals that round to `significand * 2 ^ exponent`. The gap below a power of two is half
as wide as the gap above it. -/
def around (f : Binary.Format) (significand : Nat) (exponent : Int) : Interval :=
  let narrowBelow := significand == Nat.pow 2 f.fractionBits && f.minExponent < exponent
  let scale := Nat.pow 2 (exponent - 2).toNat
  { value := 4 * significand * scale
    low := (4 * significand - (if narrowBelow then 1 else 2)) * scale
    high := (4 * significand + 2) * scale
    denominator := Nat.pow 2 (2 - exponent).toNat
    closed := significand % 2 == 0 }

/-- Whether `n / d` lies in the interval, for `n` over `step` times the common denominator. -/
def contains (i : Interval) (point unit : Nat) : Bool :=
  if i.closed then i.low * unit ≤ point && point ≤ i.high * unit
  else i.low * unit < point && point < i.high * unit

/-- The digits of the nearest point of the grid `10 ^ k` in the interval. Only the two neighbours
of the number can be nearest. -/
def onGrid (i : Interval) (tie : Tie) (k : Int) : Option Nat :=
  -- the grid point `d` is `d * step`, the number is `value * unit`, over one denominator
  let unit := Nat.pow 10 (-k).toNat
  let step := i.denominator * Nat.pow 10 k.toNat
  let below := i.value * unit / step
  let rest := i.value * unit % step
  let belowIn := i.contains (below * step) unit
  let aboveIn := i.contains ((below + 1) * step) unit
  match belowIn, aboveIn with
  | true, true =>
    if 2 * rest < step then some below
    else if step < 2 * rest then some (below + 1)
    else match tie with
      | .even => some (if below % 2 == 0 then below else below + 1)
      | .up => some (below + 1)
  | true, false => some below
  | false, true => some (below + 1)
  | false, false => none

/-- The first grid with a hit, from `10 ^ k` downwards through `count` grids; after those the
floor on the last grid. -/
def search (i : Interval) (tie : Tie) : Nat → Int → Scientific
  | 0, k => ⟨i.value * Nat.pow 10 (-k).toNat / (i.denominator * Nat.pow 10 k.toNat), k⟩
  | count + 1, k =>
    match i.onGrid tie k with
    | some digits => ⟨digits, k⟩
    | none => search i tie count (k - 1)

end Interval

/-- An exponent of ten no lower than that of the leading digit of `significand * 2 ^ exponent`:
two to the ten is a little more than a thousand. -/
def gridStart (significand : Nat) (exponent : Int) : Int :=
  ((significand.log2 : Int) + exponent + 1) * 30103 / 100000 + 1

/-- Grids tried before the search gives up; seventeen digits always suffice. -/
def gridCount : Nat := 24

/-- The shortest decimal for `significand * 2 ^ exponent`. -/
def ofFinite (f : Binary.Format) (tie : Tie) (significand : Nat) (exponent : Int) : Scientific :=
  if significand = 0 then ⟨0, 0⟩
  else
    (Interval.around f significand exponent).search tie gridCount (gridStart significand exponent)

theorem ofFinite_zero (f : Binary.Format) (tie : Tie) (e : Int) : ofFinite f tie 0 e = ⟨0, 0⟩ := rfl

end Microbench.Decimal
