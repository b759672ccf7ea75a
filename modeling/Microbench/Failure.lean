import Microbench.Shape

/-!
# Why a benchmark stops

One constructor per cause; the wording is `Failure.message`. A failed comparison is no failure
in this sense: it is recorded in the measurement of the kernel concerned.
-/
namespace Microbench

/-- Which buffer of a workload is meant. -/
inductive BufferRole where
  | output
  | input (index : Nat)
  deriving DecidableEq, Repr

def BufferRole.text : BufferRole → String
  | .output => "output"
  | .input i => "input " ++ toString i

/-- What stops a run or is recorded of a kernel (`BenchError`, and the errors made in place). -/
inductive Failure where
  /-- No kernel of the capability has the name asked for. -/
  | unknownKernel (capability : Capability) (name : String)
  /-- A buffer of this many bytes was refused. -/
  | allocation (bytes : Nat)
  | duplicateKernel (name : String)
  /-- A workload of size zero. -/
  | emptyWorkload (capability : Capability)
  /-- A kernel asked for input `index` of a workload with `count` inputs. -/
  | missingInput (capability : Capability) (count index : Nat)
  | elementType (buffer : BufferRole) (expected actual : ElementType)
  | missingReference (capability : Capability)
  | timerNotStarted
  /-- A kernel for one capability was given a workload of another. -/
  | wrongCapability (expected actual : Capability)
  | shapeOverflow (shape : Shape)
  | matrixSizes (lhs rhs out : Nat) (shape : Shape)
  | vectorSizes (lhs rhs out len : Nat)
  | copySizes (src dst len : Nat)
  | workingSetSize (actual expected : Nat)
  | notMemoryCopy (kernel : String)
  | noBlockAccess (kernel : String)
  /-- A block copy that needs equal lengths was given unequal ones. -/
  | unequalBlocks (dst src : Nat)
  /-- A cause reported from outside, with the contexts added to it, innermost first. -/
  | reported (cause : String) (contexts : List String)
  deriving DecidableEq, Repr

namespace Failure

/-- The contexts outermost first, then the cause, separated by colons. -/
def chain (cause : String) (contexts : List String) : String :=
  contexts.foldl (fun text context => context ++ ": " ++ text) cause

def message : Failure → String
  | .unknownKernel c name => "usage: unknown " ++ c.name ++ " kernel `" ++ name ++ "`"
  | .allocation bytes => "cannot allocate " ++ toString bytes ++ " bytes for workload buffers"
  | .duplicateKernel name => "kernel `" ++ name ++ "` is already registered"
  | .emptyWorkload c =>
    "invalid workload shape: " ++ c.name ++ " workload size must be at least 1"
  | .missingInput c count index =>
    "invalid workload shape: " ++ c.name ++ " workload has " ++ toString count
      ++ " inputs, kernel asked for input " ++ toString index
  | .elementType buffer expected actual =>
    buffer.text ++ " holds " ++ actual.name ++ " elements, expected " ++ expected.name
  | .missingReference c => "no reference kernel registered for " ++ c.name
  | .timerNotStarted => "timer stopped without a matching start"
  | .wrongCapability expected actual =>
    expected.name ++ " kernel cannot run a " ++ actual.name ++ " workload"
  | .shapeOverflow shape => "workload " ++ shape.text ++ " overflows usize"
  | .matrixSizes lhs rhs out shape =>
    "matmul buffers " ++ toString lhs ++ " / " ++ toString rhs ++ " / " ++ toString out
      ++ " do not match " ++ shape.text
  | .vectorSizes lhs rhs out len =>
    "vector buffers " ++ toString lhs ++ " / " ++ toString rhs ++ " / " ++ toString out
      ++ " do not match length " ++ toString len
  | .copySizes src dst len =>
    "copy buffers " ++ toString src ++ " / " ++ toString dst ++ " do not match "
      ++ toString len ++ " bytes"
  | .workingSetSize actual expected =>
    "modify-in-place buffer holds " ++ toString actual ++ " elements, expected "
      ++ toString expected
  | .notMemoryCopy kernel => kernel ++ " is not a memory-copy kernel"
  | .noBlockAccess kernel => kernel ++ " does not expose per-block copies"
  | .unequalBlocks dst src =>
    "block of " ++ toString dst ++ " bytes cannot take " ++ toString src ++ " bytes"
  | .reported cause contexts => chain cause contexts

/-- The command line named something that does not exist. -/
def isUsage : Failure → Bool
  | .unknownKernel .. => true
  | _ => false

def isAllocation : Failure → Bool
  | .allocation _ => true
  | _ => false

end Failure

end Microbench
