/-!
# Streams of random words

A stream is seeded with a word and gives 64-bit outputs one after another. Integers are cut from
single outputs, and bytes are the eight bytes of each output in turn. How a float is drawn is the
stream's own affair; a draw takes one output or more.

Results:

* `after_succ`: draws can be counted from either end.
-/
namespace Microbench

/-- The state after `count` draws. -/
def after (one : σ → α × σ) : Nat → σ → σ
  | 0, s => s
  | count + 1, s => after one count (one s).2

@[simp] theorem after_zero (one : σ → α × σ) (s : σ) : after one 0 s = s := rfl

@[simp] theorem after_cons (one : σ → α × σ) (count : Nat) (s : σ) :
    after one (count + 1) s = after one count (one s).2 := rfl

/-- A generator of 64-bit outputs, and how floats are drawn from it. -/
structure Stream (σ : Type) where
  seeded : UInt64 → σ
  next : σ → UInt64 × σ
  fraction : σ → Float32 × σ
  fraction_takes : ∀ s, ∃ outputs, 0 < outputs ∧ (fraction s).2 = after next outputs s

/-- `count` draws in a row, first draw first. -/
def drawn (one : σ → α × σ) (count : Nat) (s : σ) : Array α × σ :=
  Nat.fold count (fun _ _ (drawn, s) => let (x, s) := one s; (drawn.push x, s)) (#[], s)

namespace Stream

variable (d : Stream σ)

/-- The low 16 bits of the next output. -/
def int16 (s : σ) : Int16 × σ := ((d.next s).1.toUInt16.toInt16, (d.next s).2)

/-- The low 32 bits of the next output. -/
def int32 (s : σ) : Int32 × σ := ((d.next s).1.toUInt32.toInt32, (d.next s).2)

/-- The eight bytes of an output, lowest first. -/
def littleEndian (output : UInt64) : Array UInt8 :=
  Array.ofFn fun i : Fin 8 => (output >>> UInt64.ofNat (8 * i.val)).toUInt8

/-- `count` bytes, eight from each output; a last output may be used in part. -/
def bytes (count : Nat) (s : σ) : Array UInt8 × σ :=
  let (outputs, s) := drawn d.next ((count + 7) / 8) s
  ((outputs.flatMap littleEndian).extract 0 count, s)

end Stream

theorem after_succ (one : σ → α × σ) (count : Nat) (s : σ) :
    after one (count + 1) s = (one (after one count s)).2 := by
  induction count generalizing s with
  | zero => rfl
  | succ count ih => exact ih (one s).2

end Microbench
