import Microbench.Sweep.Runner

/-!
# A simulated bench

A bench stands in for the machine where results have to be reproducible. Its clock is a counter
that advances by given steps whenever it is read, and its kernels follow scripts: they run other
kernels, change single elements, replace the output or fail, on every call or on a given one.
-/
namespace Microbench.Simulation

/-! ## The counter -/

structure Counter where
  raw : UInt64 := 0
  /-- Added after each reading, one after another and then again from the first. -/
  steps : List UInt64 := [10]
  /-- Readings made so far. -/
  readings : Nat := 0
  bits : Nat := 64
  deriving DecidableEq, Repr

namespace Counter

def reading (c : Counter) : UInt64 := ticksBetween 0 c.raw c.bits

/-- The current reading, and the counter after it. -/
def read (c : Counter) : UInt64 × Counter :=
  (c.reading,
    { c with
      raw := c.raw + (c.steps[c.readings % c.steps.length]?).getD 0
      readings := c.readings + 1 })

end Counter

/-- The counter, and how often each scripted kernel was called. -/
structure Bench where
  counter : Counter := {}
  calls : Array Nat := #[]
  deriving DecidableEq, Repr

namespace Bench

/-- Counts a call of a kernel; the number of the call, from one. -/
def call (b : Bench) (id : Nat) : Nat × Bench :=
  let number := (b.calls[id]?).getD 0 + 1
  (number, { b with calls := b.calls.setIfInBounds id number })

end Bench

/-- The clock of the bench under a name. -/
def source [MonadStateOf Bench m] (name : String) (precision : Precision) (ticksPerSecond : Float)
    (bits : Nat) : TickSource m where
  name
  precision
  ticksPerSecond
  bits
  now := modifyGet fun b => (b.counter.read.1, { b with counter := b.counter.read.2 })

/-! ## Scripted kernels -/

inductive Action (m : Type → Type) where
  /-- Runs another kernel; its failure ends the run. -/
  | delegate (kernel : Kernel m)
  /-- Adds to one element of the output, wrapping. -/
  | add (index : Nat) (delta : Int)
  | replace (buffer : Buffer)
  | fail (failure : Failure)

/-- An action, and the call it is limited to. -/
structure Cue (m : Type → Type) where
  action : Action m
  onCall : Option Nat := none

/-- A whole number as a float. -/
def floatOfInt (n : Int) : Float32 :=
  let x := (UInt64.ofNat n.natAbs).toFloat32
  if n < 0 then -x else x

/-- Adds to one element, if there is one at the index. -/
def addAt (index : Nat) (delta : Int) : Buffer → Buffer
  | .f32 data => .f32 (data.modify index (· + floatOfInt delta))
  | .i16 data => .i16 (data.modify index (· + Int16.ofInt delta))
  | .i32 data => .i32 (data.modify index (· + Int32.ofInt delta))
  | .bytes data => .bytes (data.modify index (· + (Int8.ofInt delta).toUInt8))

variable {m : Type → Type} [Monad m]

/-- Plays the cues of one call in order, up to the first failure. -/
def play (call : Nat) (inputs : Inputs) : List (Cue m) → Buffer → m (Except Failure Unit × Buffer)
  | [], output => pure (.ok (), output)
  | cue :: cues, output => do
    if (cue.onCall.getD call) ≠ call then
      play call inputs cues output
    else
      match cue.action with
      | .delegate kernel => do
        let (result, output) ← kernel.run inputs output
        match result with
        | .ok () => play call inputs cues output
        | .error failure => return (.error failure, output)
      | .add index delta => play call inputs cues (addAt index delta output)
      | .replace buffer => play call inputs cues buffer
      | .fail failure => return (.error failure, output)

/-- A kernel that plays its cues. It supports the given sizes, or every shape of its
capability. -/
def scripted [MonadStateOf Bench m] (id : Nat) (name : String) (capability : Capability)
    (variant : Variant) (sizes : Option (List Nat)) (cues : List (Cue m)) : Kernel m where
  name
  capability
  variant
  supports shape :=
    match sizes with
    | some sizes => sizes.contains shape.size
    | none => shape.capability == capability
  run inputs output := do
    let call ← modifyGet (·.call id)
    play call inputs cues output
  blockCopy := none

end Microbench.Simulation
