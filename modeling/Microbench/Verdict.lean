import Microbench.Buffer
import Microbench.Decimal.Text

/-!
# Verdicts

A candidate's output is compared with the reference output element by element. Floats may differ
within a band, everything else has to be equal. Clashes of length or type are verdicts too, so a
comparison always has an outcome.

Results:

* `compare_of_size_ne`: outputs of different lengths fail whatever their types.
-/
namespace Microbench

/-! ## The acceptance band -/

/-- A pair of floats is accepted if it differs by no more than `absolute` plus `relative` times
the larger magnitude (`ToleranceSpec`). -/
structure Tolerance where
  absolute : Float32
  relative : Float32
  deriving BEq

namespace Tolerance

def standard : Tolerance := ⟨1e-4, 1e-4⟩

def strict : Tolerance := ⟨1e-6, 1e-6⟩

def exact : Tolerance := ⟨0, 0⟩

/-- The larger of two floats; one that is no number is ignored. -/
def larger (x y : Float32) : Float32 :=
  if x.isNaN then y else if y.isNaN then x else if x < y then y else x

def band (t : Tolerance) (expected actual : Float32) : Float32 :=
  t.absolute + t.relative * larger expected.abs actual.abs

/-- Equal floats are accepted whatever the band. -/
def accepts (t : Tolerance) (expected actual : Float32) : Bool :=
  expected == actual || decide ((expected - actual).abs ≤ t.band expected actual)

end Tolerance

/-! ## Verdicts -/

/-- One differing element, as text. -/
structure Mismatch where
  index : Nat
  expected : String
  actual : String
  deriving DecidableEq, Repr

inductive Verdict where
  | passed (maxAbsError : Float)
  /-- `mismatches` are the first few of `total` differing elements. -/
  | failed (reason : String) (mismatches : List Mismatch) (total : Nat)

namespace Verdict

/-- A failure that is not about elements. -/
def rejected (reason : String) : Verdict := .failed reason [] 0

def isPass : Verdict → Bool
  | .passed _ => true
  | .failed .. => false

def reason? : Verdict → Option String
  | .passed _ => none
  | .failed reason .. => some reason

end Verdict

/-! ## Comparing elements -/

/-- Differing elements seen so far: their number, and the first few of them. -/
structure Tally where
  total : Nat := 0
  kept : Array Mismatch := #[]

namespace Tally

/-- Counts a mismatch and keeps it as long as fewer than `limit` are kept. -/
@[inline] def note (limit : Nat) (t : Tally) (mismatch : Unit → Mismatch) : Tally :=
  { total := t.total + 1
    kept := if t.kept.size < limit then t.kept.push (mismatch ()) else t.kept }

/-- Tallies the indices at which two sequences differ. -/
@[specialize] def of {n : Nat} (differ : α → α → Bool) (text : α → String) (limit : Nat)
    (expected actual : Vector α n) : Tally :=
  Fin.foldl n (fun t i =>
    if differ (expected.get i) (actual.get i) then
      t.note limit fun _ => ⟨i, text (expected.get i), text (actual.get i)⟩
    else t) {}

/-- How many of how many elements differ, and the first of them if it was kept. -/
def reason (t : Tally) (size : Nat) : String :=
  let count := toString t.total ++ " of " ++ toString size ++ " elements differ"
  match t.kept[0]? with
  | some first =>
    count ++ "; first at [" ++ toString first.index ++ "]: expected " ++ first.expected ++ ", got "
      ++ first.actual
  | none => count

/-- Passed if nothing differs, with the given error. -/
def verdict (t : Tally) (size : Nat) (maxAbsError : Float) : Verdict :=
  if t.total = 0 then .passed maxAbsError else .failed (t.reason size) t.kept.toList t.total

end Tally

/-- The difference of two floats without its sign, taken with the longer significand. -/
def absError (expected actual : Float32) : Float :=
  (Binary.widen expected - Binary.widen actual).abs

/-- The largest finite error, zero if there is none. -/
def maxAbsError {n : Nat} (expected actual : Vector Float32 n) : Float :=
  Fin.foldl n (fun largest i =>
    let error := absError (expected.get i) (actual.get i)
    if error.isFinite && largest < error then error else largest) 0

/-! ## Comparing outputs -/

/-- How outputs are compared: the band for floats and how many mismatches are kept. -/
structure Verifier where
  tolerance : Tolerance := .standard
  maxReported : Nat := 8

namespace Verifier

variable {n : Nat}

/-- Every pair is tried, and the greatest finite error goes with a pass (`compare_f32`). -/
def compareFloats (v : Verifier) (expected actual : Vector Float32 n) : Verdict :=
  (Tally.of (fun e a => !v.tolerance.accepts e a) Decimal.display v.maxReported expected
    actual).verdict n (maxAbsError expected actual)

@[specialize] def compareExactly [BEq α] (v : Verifier) (text : α → String)
    (expected actual : Vector α n) : Verdict :=
  (Tally.of (· != ·) text v.maxReported expected actual).verdict n 0

/-- Lengths come before element types, and the elements last (`compare`). -/
def compare (v : Verifier) (reference candidate : Buffer) : Verdict :=
  if h : reference.size = candidate.size then
    match reference, candidate, h with
    | .f32 e, .f32 a, h => v.compareFloats ⟨e, h⟩ a.toVector
    | .i16 e, .i16 a, h => v.compareExactly (toString ·.toInt) ⟨e, h⟩ a.toVector
    | .i32 e, .i32 a, h => v.compareExactly (toString ·.toInt) ⟨e, h⟩ a.toVector
    | .bytes e, .bytes a, h => v.compareExactly (toString ·.toNat) ⟨e, h⟩ a.toVector
    | e, a, _ =>
      .rejected ("element type mismatch: reference is " ++ e.elementType.name ++ ", candidate is "
        ++ a.elementType.name)
  else
    .rejected ("shape mismatch: reference has " ++ toString reference.size
      ++ " elements, candidate has " ++ toString candidate.size)

theorem compare_of_size_ne (v : Verifier) {reference candidate : Buffer}
    (h : reference.size ≠ candidate.size) :
    v.compare reference candidate = .rejected ("shape mismatch: reference has "
      ++ toString reference.size ++ " elements, candidate has " ++ toString candidate.size) := by
  simp [compare, h]

end Verifier

end Microbench
