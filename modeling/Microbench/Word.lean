/-!
# Machine words

Counts of bytes and elements are 64-bit words. A count that does not fit has no value.

Results:

* `word?_eq_some`: a count has a value exactly if it fits, and then it is the count.
-/
namespace Microbench

/-- The largest 64-bit machine word. -/
def maxWord : Nat := 0xffffffffffffffff

/-- A count, if it fits a 64-bit machine word. -/
def word? (n : Nat) : Option Nat := if n ≤ maxWord then some n else none

theorem word?_eq_some {n k : Nat} : word? n = some k ↔ n = k ∧ n ≤ maxWord := by
  unfold word?
  split
  · simp; omega
  · simp; omega

end Microbench
