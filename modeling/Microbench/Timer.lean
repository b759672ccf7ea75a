import Microbench.Failure
import Microbench.Text.Quoted

/-!
# Tick sources and timers

A tick source reads a counter of some width; readings wrap. A timer brackets a stretch of work
with two readings and reports the ticks in between, corrected for one wrap.

Results:

* `ticksBetween_toNat`: the ticks are the difference of the readings modulo two to the width.
-/
namespace Microbench

inductive Precision where
  /-- Processor cycle counter. -/
  | cycle
  /-- Monotonic wall clock, nanosecond ticks. -/
  | wall
  deriving DecidableEq, Repr

def Precision.all : List Precision := [.cycle, .wall]

def Precision.name : Precision → String
  | .cycle => "cycle"
  | .wall => "wall"

def Precision.title : Precision → String
  | .cycle => "Cycle"
  | .wall => "Wall"

/-- How long a hardware counter is watched to learn its rate, in milliseconds. -/
def calibrationMilliseconds : Nat := 10

/-- Ticks between two readings of a counter of the given width (`elapsed_ticks`). -/
def ticksBetween (start stop : UInt64) (bits : Nat) : UInt64 :=
  if 64 ≤ bits then stop - start else UInt64.ofNat ((stop - start).toNat % Nat.pow 2 bits)

theorem ticksBetween_toNat (start stop : UInt64) (bits : Nat) :
    (ticksBetween start stop bits).toNat = (stop - start).toNat % Nat.pow 2 (min bits 64) := by
  have hlt : (stop - start).toNat < Nat.pow 2 64 := (stop - start).toNat_lt
  unfold ticksBetween
  split
  · next h => rw [Nat.min_eq_right h, Nat.mod_eq_of_lt hlt]
  · next h =>
    rw [Nat.min_eq_left (by omega)]
    have := Nat.mod_le (stop - start).toNat (Nat.pow 2 bits)
    exact UInt64.toNat_ofNat_of_lt' (Nat.lt_of_le_of_lt this hlt)

structure Elapsed where
  ticks : UInt64
  ticksPerSecond : Float

namespace Elapsed

def zero (ticksPerSecond : Float) : Elapsed := ⟨0, ticksPerSecond⟩

/-- Zero unless the rate is positive. -/
def seconds (e : Elapsed) : Float :=
  if e.ticksPerSecond > 0 then e.ticks.toFloat / e.ticksPerSecond else 0

/-- Adds ticks, saturating at the largest word; the rate is that of the first. -/
def accumulate (e other : Elapsed) : Elapsed :=
  ⟨UInt64.ofNat (min (e.ticks.toNat + other.ticks.toNat) maxWord), e.ticksPerSecond⟩

end Elapsed

/-- A counter (`TickSource`). Reading it may have any other effect in `m`. -/
structure TickSource (m : Type → Type) where
  name : String
  precision : Precision
  ticksPerSecond : Float
  /-- Width of the counter; readings wrap at two to this. -/
  bits : Nat
  now : m UInt64

/-- The same source, read from within a larger monad. -/
def TickSource.lift [MonadLift m n] (source : TickSource m) : TickSource n :=
  { source with now := MonadLift.monadLift source.now }

def TickSource.elapsed (source : TickSource m) (start stop : UInt64) : Elapsed :=
  ⟨ticksBetween start stop source.bits, source.ticksPerSecond⟩

structure Timer (m : Type → Type) where
  source : TickSource m
  /-- The reading of the last start that no stop has taken. -/
  started : Option UInt64 := none

namespace Timer

variable {m : Type → Type} [Monad m]

def start (t : Timer m) : m (Timer m) := do
  let reading ← t.source.now
  return { t with started := some reading }

/-- The time since the pending start, which it takes. The reading is made in any case. -/
def stop (t : Timer m) : m (Except Failure Elapsed × Timer m) := do
  let reading ← t.source.now
  let elapsed :=
    match t.started with
    | some start => .ok (t.source.elapsed start reading)
    | none => .error .timerNotStarted
  return (elapsed, { t with started := none })

/-- Brackets an action with two readings of its own. -/
def time (t : Timer m) (action : m α) : m (α × Elapsed) := do
  let start ← t.source.now
  let value ← action
  let stop ← t.source.now
  return (value, t.source.elapsed start stop)

omit [Monad m] in
/-- Name, precision and whether a start is pending, on one line. -/
def describe (t : Timer m) : String :=
  "Timer \x7b source: " ++ Text.quote t.source.name ++ ", precision: " ++ t.source.precision.title
    ++ ", running: " ++ toString t.started.isSome ++ " \x7d"

omit [Monad m] in
/-- The same, one line per field. -/
def describeLong (t : Timer m) : String :=
  "Timer \x7b\n    source: " ++ Text.quote t.source.name ++ ",\n    precision: "
    ++ t.source.precision.title ++ ",\n    running: " ++ toString t.started.isSome ++ ",\n\x7d"

end Timer

end Microbench
