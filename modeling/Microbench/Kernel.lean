import Microbench.Workload

/-!
# Kernels

A kernel is one implementation of a capability. Running it reads inputs and changes the output
buffer; it may fail, and a failed run may have changed the output before. Kernels run in an
arbitrary monad `m`, so a kernel may keep state between runs.

The built-in kernels are operations without state that leave the output alone when they fail.
-/
namespace Microbench

/-- Copies a source block over a destination block of its own length or fails. -/
abbrev BlockCopy := (dst src : Array UInt8) → Except Failure (Array UInt8)

/-- One implementation of a capability (`Kernel`). -/
structure Kernel (m : Type → Type) where
  name : String
  capability : Capability
  variant : Variant
  /-- Fixed by the shape: unlike a run, the answer cannot follow what the kernel keeps in `m`. -/
  supports : Shape → Bool
  run : Inputs → Buffer → m (Except Failure Unit × Buffer)
  /-- Access block by block, for kernels that move memory blockwise; without state, too. -/
  blockCopy : Option BlockCopy

namespace Kernel

def isReference (k : Kernel m) : Bool := k.variant == .reference

/-- What a run of an operation leaves: its result, or the output as it was. -/
def applied (operation : Inputs → Buffer → Except Failure Buffer) (inputs : Inputs)
    (output : Buffer) : Except Failure Unit × Buffer :=
  match operation inputs output with
  | .ok result => (.ok (), result)
  | .error failure => (.error failure, output)

/-- A kernel without state that supports every shape of its capability. The work is done when
the run is performed, not when it is named. -/
def ofOperation [Monad m] (name : String) (capability : Capability) (variant : Variant)
    (operation : Inputs → Buffer → Except Failure Buffer) (blockCopy : Option BlockCopy := none) :
    Kernel m where
  name
  capability
  variant
  supports shape := shape.capability == capability
  run inputs output := pure () >>= fun () => pure (applied operation inputs output)
  blockCopy

end Kernel

/-- The shape belongs to the capability and its element count does not overflow
(`validate_shape`). -/
def Shape.check (shape : Shape) (expected : Capability) : Except Failure Nat :=
  if shape.capability ≠ expected then
    .error (.wrongCapability expected shape.capability)
  else
    match shape.elementCount with
    | some len => .ok len
    | none => .error (.shapeOverflow shape)

end Microbench
