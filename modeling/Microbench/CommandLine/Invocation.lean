import Microbench.Sweep.Config

/-!
# What a command line asks for

A command with its own arguments, and the options that every command has.
-/
namespace Microbench.CommandLine

inductive Command where
  /-- Walk one working set. -/
  | cache (kilobytes steps : Nat) (kernels : List String)
  /-- Copy blocks. -/
  | memcpy (blocks : Nat) (trace : Bool) (kernels : List String)
  /-- Multiply two matrices. -/
  | matmul (n : Nat) (seed : Option Nat) (print : Bool) (kernels : List String)
  /-- Add two vectors. -/
  | vectorAdd (len : Nat) (print : Bool) (kernels : List String)
  /-- Walk working sets of several sizes. -/
  | sweep (sizes : List Nat) (steps : Nat) (kernels : List String)
  deriving DecidableEq, Repr

structure Invocation where
  json : Bool
  monotonic : Bool
  iterations : Nat
  command : Command
  deriving DecidableEq, Repr

/-- Switches of one run, taken from the options that every command has (`HarnessOptions`). -/
structure Options where
  json : Bool := false
  /-- Time with the monotonic clock whatever else there is. -/
  forceMonotonic : Bool := false
  iterations : Nat := 0
  deriving DecidableEq, Repr

namespace Options

/-- At least one. -/
def timedRuns (o : Options) : Nat := max o.iterations 1

def describe (o : Options) : String :=
  "HarnessOptions \x7b json: " ++ toString o.json ++ ", force_monotonic: "
    ++ toString o.forceMonotonic ++ ", iterations: " ++ toString o.iterations ++ " \x7d"

end Options

def Invocation.options (i : Invocation) : Options := ⟨i.json, i.monotonic, i.iterations⟩

namespace Command

/-- The sweep that the command runs (`sweep_config`). -/
def config : Command → Sweep.Config
  | .cache kilobytes steps _ => { capability := .modifyInPlace, sizes := [kilobytes], steps }
  | .memcpy blocks .. => { capability := .memoryCopy, sizes := [blocks] }
  | .matmul n seed .. =>
    { capability := .matrixMultiply
      sizes := [n]
      fill := match seed with
        | some seed => .seeded (UInt64.ofNat seed)
        | none => .sequential }
  | .vectorAdd len .. => { capability := .vectorAdd, sizes := [len] }
  | .sweep sizes steps _ => { capability := .modifyInPlace, sizes, steps }

/-- The kernels asked for by name; none means all (`kernel_filter`). -/
def kernels : Command → List String
  | .cache _ _ kernels => kernels
  | .memcpy _ _ kernels => kernels
  | .matmul _ _ _ kernels => kernels
  | .vectorAdd _ _ kernels => kernels
  | .sweep _ _ kernels => kernels

/-- Whether buffers are printed (`print_buffers`). -/
def prints : Command → Bool
  | .matmul _ _ print _ => print
  | .vectorAdd _ print _ => print
  | _ => false

/-- Whether measurements are printed as lines of a cache sweep. -/
def isCacheSweep : Command → Bool
  | .cache .. => true
  | .sweep .. => true
  | _ => false

/-- The number of blocks to trace. -/
def tracedBlocks? : Command → Option Nat
  | .memcpy blocks true _ => some blocks
  | _ => none

end Command

end Microbench.CommandLine
