import Microbench.Kernel
import Microbench.Span

/-!
# Modifying a working set in place

Two kernels walk the output cyclically. Each step multiplies one integer by ten and divides it
by ten again; the product wraps, so large values do not come back.
-/
namespace Microbench.ModifyInPlace

/-- A 32-bit integer times ten, wrapped, then divided by ten towards zero. -/
@[inline] def roundTrip (x : Int32) : Int32 := x * 10 / 10

structure Operands where
  n : Nat
  data : Vector Int32 n
  pos : 0 < n

/-- An output of the shape's element count, at least one element (`rmw_operands`). -/
def operands (inputs : Inputs) (output : Buffer) : Except Failure Operands := do
  let n ← inputs.shape.check .modifyInPlace
  let data ← output.requireI32 .output
  if h : data.size = n ∧ 0 < n then
    return ⟨n, ⟨data, h.1⟩, h.2⟩
  else
    throw (.workingSetSize data.size n)

/-- Step `s` visits index `s` modulo the length (`ReferenceRmw`). -/
def walk {n : Nat} (pos : 0 < n) (steps : Nat) (data : Vector Int32 n) : Vector Int32 n :=
  Nat.fold steps (fun step _ data =>
    let i : Fin n := ⟨step % n, Nat.mod_lt _ pos⟩
    data.set i (roundTrip (data.get i)) i.isLt) data

/-- Laps from the start of the working set, as long as steps remain; the last may be partial
(`WrappedRmw`). -/
def laps {n : Nat} (pos : 0 < n) (remaining : Nat) (data : Vector Int32 n) : Vector Int32 n :=
  if remaining = 0 then
    data
  else
    let lap : Span n := ⟨0, min remaining n, Nat.min_le_right ..⟩
    laps pos (remaining - min remaining n)
      (lap.foldl (fun data i => data.set i (roundTrip (data.get i)) i.isLt) data)
termination_by remaining
decreasing_by omega

def operation (touch : {n : Nat} → 0 < n → Nat → Vector Int32 n → Vector Int32 n)
    (inputs : Inputs) (output : Buffer) : Except Failure Buffer := do
  let o ← operands inputs output
  return .i32 (touch o.pos inputs.shape.steps o.data).toArray

variable {m : Type → Type} [Monad m]

def reference : Kernel m :=
  .ofOperation "rmw-reference" .modifyInPlace .reference (operation walk)

def wrapped : Kernel m :=
  .ofOperation "rmw-wrapped" .modifyInPlace .optimizedScalar (operation laps)

end Microbench.ModifyInPlace
