import Microbench.Kernel.MatrixMultiply
import Microbench.Kernel.MemoryCopy
import Microbench.Kernel.ModifyInPlace
import Microbench.Kernel.VectorAdd
import Microbench.Text.Quoted

/-!
# The kernel registry

Kernels in the order of their registration. A name is taken once, across all capabilities, and a
registered kernel is never replaced. A selection is a registry of some kernels of one capability
that always keeps its references.

Results:

* `register_eq_ok`: a kernel whose name is not taken is added at the end.
-/
namespace Microbench

structure Registry (m : Type → Type) where
  kernels : List (Kernel m)

namespace Registry

variable {m : Type → Type}

def empty : Registry m := ⟨[]⟩

def size (r : Registry m) : Nat := r.kernels.length

def isEmpty (r : Registry m) : Bool := r.kernels.isEmpty

def names (r : Registry m) : List String := r.kernels.map (·.name)

def find? (r : Registry m) (name : String) : Option (Kernel m) :=
  r.kernels.find? (·.name == name)

/-- Adds a kernel whose name is not taken (`register_shared`). -/
def register (r : Registry m) (k : Kernel m) : Except Failure (Registry m) :=
  if (r.find? k.name).isSome then .error (.duplicateKernel k.name) else .ok ⟨r.kernels ++ [k]⟩

/-- Registers kernels in order, up to the first whose name is taken. -/
def registerAll (r : Registry m) (kernels : List (Kernel m)) : Except Failure (Registry m) :=
  kernels.foldlM register r

/-- The kernels of the capability, in order (`kernels_for`). -/
def kernelsFor (r : Registry m) (c : Capability) : List (Kernel m) :=
  r.kernels.filter (·.capability == c)

/-- The earliest reference kernel of the capability (`reference_for`). -/
def referenceFor (r : Registry m) (c : Capability) : Option (Kernel m) :=
  (r.kernelsFor c).find? Kernel.isReference

/-- The kernels of the capability apart from its reference, in order. -/
def candidatesFor (r : Registry m) (c : Capability) : List (Kernel m) :=
  (r.kernelsFor c).eraseP Kernel.isReference

/-- The kernels of the capability that are references or named, or all of them if no name is
given (`select`). Every name has to be among them. -/
def select (r : Registry m) (c : Capability) (names : List String) :
    Except Failure (Registry m) := do
  let wanted := (r.kernelsFor c).filter fun k =>
    names.isEmpty || k.isReference || names.contains k.name
  let selected ← empty.registerAll wanted
  match names.find? fun name => (selected.find? name).isNone with
  | some name => throw (.unknownKernel c name)
  | none => return selected

/-- The built-in kernels, the reference first within each capability (`with_default_kernels`). -/
def builtinKernels [Monad m] : List (Kernel m) :=
  [MatrixMultiply.reference, MatrixMultiply.blocked ⟨32, 64, 32⟩, MatrixMultiply.simd,
   VectorAdd.reference, VectorAdd.unrolled, VectorAdd.simd,
   MemoryCopy.reference, MemoryCopy.slice, MemoryCopy.simd,
   ModifyInPlace.reference, ModifyInPlace.wrapped]

def builtin [Monad m] : Except Failure (Registry m) := empty.registerAll builtinKernels

/-- The quoted names in order. -/
def describe (r : Registry m) : String := Text.quoteList r.names

theorem register_eq_ok {r : Registry m} {k : Kernel m} (h : r.find? k.name = none) :
    r.register k = .ok ⟨r.kernels ++ [k]⟩ := by simp [register, h]

end Registry

end Microbench
