import Microbench.Stream

/-!
# The pseudo-random generator

A generator is one 64-bit word. A step adds an odd constant and folds the 128-bit product of the
new word with a masked copy of itself to 64 bits.

A draw of a float in `[0, 1)` may reject an output and take the next one. It ends from every
state, because the words of a run visit all 64-bit words in turn and the word zero is accepted.

Results:

* `distance_next`: a step from a nonzero word comes one step nearer to the word zero.
* `nextFraction_takes`: a draw of a float takes one output or more.
-/
namespace Microbench

structure Generator where
  word : UInt64
  deriving DecidableEq, Repr

namespace Generator

/-- The step between successive words. -/
def increment : UInt64 := 0x2d358dccaa6c78a5

/-- The inverse of the step modulo two to the 64. -/
def incrementInverse : UInt64 := 0x32e25c49d2beaf2d

def mask : UInt64 := 0x8bb84b93962eacc9

/-- The output at a word: the low half of a 128-bit product combined with the high half. -/
def mix (w : UInt64) : UInt64 :=
  let product := w.toNat * (w ^^^ mask).toNat
  UInt64.ofNat product ^^^ UInt64.ofNat (product >>> 64)

/-- The next 64-bit output. -/
def next (g : Generator) : UInt64 × Generator :=
  (mix (g.word + increment), ⟨g.word + increment⟩)

/-- An output read as a 63-bit fraction of one, rounded to the nearest float. Rounding can reach
one. -/
def fraction (output : UInt64) : Float32 :=
  (output >>> 1).toFloat32 * Float32.ofBits 0x20000000

/-- How many steps after the next one the word is zero. -/
def distance (g : Generator) : Nat := ((0 - (g.word + increment)) * incrementInverse).toNat

theorem fraction_zero_lt : fraction (mix 0) < 1 := by decide +kernel

theorem distance_next {g : Generator} (h : g.word + increment ≠ 0) :
    g.next.2.distance < g.distance := by
  have step : (0 - (g.word + increment + increment)) * incrementInverse
      = (0 - (g.word + increment)) * incrementInverse - 1 := by
    simp only [increment, incrementInverse]; grind
  have hne : (0 - (g.word + increment)) * incrementInverse ≠ 0 := by
    intro h0
    apply h
    have : (0 - (g.word + increment)) * incrementInverse * increment = 0 := by rw [h0]; rfl
    simp only [increment, incrementInverse] at this ⊢
    grind
  have hpos : 1 ≤ ((0 - (g.word + increment)) * incrementInverse).toNat := by
    rcases Nat.eq_zero_or_pos ((0 - (g.word + increment)) * incrementInverse).toNat with h0 | h0
    · exact absurd (UInt64.toNat_inj.1 (by simpa using h0)) hne
    · exact h0
  simp only [distance, next, step]
  rw [UInt64.toNat_sub_of_le]
  · have one : (1 : UInt64).toNat = 1 := rfl
    omega
  · simpa [UInt64.le_iff_toNat_le] using hpos

/-- A float in `[0, 1)`: the first output whose fraction stays below one. -/
def nextFraction (g : Generator) : Float32 × Generator :=
  if fraction g.next.1 < 1 then (fraction g.next.1, g.next.2) else nextFraction g.next.2
termination_by g.distance
decreasing_by
  rename_i h
  apply distance_next
  intro h0
  apply h
  simp only [next, h0]
  exact fraction_zero_lt

theorem nextFraction_takes (g : Generator) :
    ∃ outputs, 0 < outputs ∧ (nextFraction g).2 = after next outputs g := by
  induction g using nextFraction.induct with
  | case1 g accepted =>
    refine ⟨1, Nat.one_pos, ?_⟩
    rw [nextFraction.eq_def, if_pos accepted, after_cons, after_zero]
  | case2 g rejected ih =>
    obtain ⟨outputs, -, lands⟩ := ih
    refine ⟨outputs + 1, Nat.succ_pos _, ?_⟩
    rw [nextFraction.eq_def, if_neg rejected, lands, after_cons]

/-- The stream of this generator. -/
def stream : Stream Generator where
  seeded seed := ⟨seed⟩
  next := next
  fraction := nextFraction
  fraction_takes := nextFraction_takes

end Generator

end Microbench
