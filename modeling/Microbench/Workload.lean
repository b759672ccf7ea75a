import Microbench.Buffer
import Microbench.Generator

/-!
# Workloads

A workload is the inputs of one sweep point and an output of the same element type and length.
The inputs are filled by counting up or from a seed; one stream runs through all of them in order.
The output starts zeroed.
-/
namespace Microbench

/-- How inputs are filled (`FillPolicy`). -/
inductive Fill where
  /-- Element `i` is `i`, converted to the element type. -/
  | sequential
  /-- Pseudo-random elements from a seed; floats fall in `[0, 1)`. -/
  | seeded (seed : UInt64)
  deriving DecidableEq, Repr

/-- The buffers a kernel reads, with the shape they were made for (`KernelInputs`). -/
structure Inputs where
  shape : Shape
  buffers : List Buffer

structure Workload where
  inputs : Inputs
  output : Buffer

namespace Inputs

def input (inputs : Inputs) (index : Nat) : Except Failure Buffer :=
  match inputs.buffers[index]? with
  | some buffer => .ok buffer
  | none => .error (.missingInput inputs.shape.capability inputs.buffers.length index)

def f32 (inputs : Inputs) (index : Nat) : Except Failure (Array Float32) := do
  (← inputs.input index).requireF32 (.input index)

def i16 (inputs : Inputs) (index : Nat) : Except Failure (Array Int16) := do
  (← inputs.input index).requireI16 (.input index)

def bytes (inputs : Inputs) (index : Nat) : Except Failure (Array UInt8) := do
  (← inputs.input index).requireBytes (.input index)

end Inputs

/-! ## Filling -/

namespace Buffer

/-- Element `i` is `i`: rounded to the nearest float, or reduced to the width of the integer
(`populate` without a seed). -/
def counting (element : ElementType) (len : Nat) : Buffer :=
  match element with
  | .f32 => .f32 (Array.ofFn fun i : Fin len => (UInt64.ofNat i).toFloat32)
  | .i16 => .i16 (Array.ofFn fun i : Fin len => Int16.ofNat i)
  | .i32 => .i32 (Array.ofFn fun i : Fin len => Int32.ofNat i)
  | .bytes => .bytes (Array.ofFn fun i : Fin len => UInt8.ofNat i)

end Buffer

namespace Stream

variable (d : Stream σ)

/-- The next `len` elements of a stream, and its state after them (`populate` with a seed). -/
def buffer (element : ElementType) (len : Nat) (s : σ) : Buffer × σ :=
  match element with
  | .f32 => (drawn d.fraction len s).map .f32 id
  | .i16 => (drawn d.int16 len s).map .i16 id
  | .i32 => (drawn d.int32 len s).map .i32 id
  | .bytes => (d.bytes len s).map .bytes id

/-- One filled buffer, and the state for the buffers after it. Without a state the elements are
counted up. -/
def take (element : ElementType) (len : Nat) : Option σ → Buffer × Option σ
  | none => (.counting element len, none)
  | some s => (d.buffer element len s).map id some

def source : Fill → Option σ
  | .sequential => none
  | .seeded seed => some (d.seeded seed)

end Stream

/-! ## Generation -/

/-- What workloads are made of: memory, which may be refused, and a stream of random words. -/
structure Supply extends Allocator where
  {State : Type}
  stream : Stream State

namespace Supply

/-- Refuses every buffer of `limit` bytes or more. -/
def below (limit : Nat) : Supply := ⟨.below limit, Generator.stream⟩

def machine : Supply := ⟨.machine, Generator.stream⟩

end Supply

namespace Workload

def shape (w : Workload) : Shape := w.inputs.shape

def resetOutput (w : Workload) : Workload := { w with output := w.output.reset }

/-- `count` filled buffers in order. Each is allocated before it is filled. -/
def fillInputs (supply : Supply) (element : ElementType) (len : Nat) :
    Nat → Option supply.State → Except Failure (List Buffer)
  | 0, _ => .ok []
  | count + 1, source => do
    let _ ← Buffer.zeroed supply.toAllocator element len
    let (buffer, source) := supply.stream.take element len source
    return buffer :: (← fillInputs supply element len count source)

/-- Allocates and fills the inputs for a shape and a zeroed output (`generate`). A size of zero is
refused before any count is taken, an overflowing count before anything is allocated. -/
def generate (supply : Supply) (fill : Fill) (shape : Shape) : Except Failure Workload := do
  if shape.size = 0 then
    throw (.emptyWorkload shape.capability)
  let some len := shape.elementCount | throw (.allocation maxWord)
  if shape.footprintBytes.isNone then
    throw (.allocation maxWord)
  let buffers ← fillInputs supply shape.elementType len shape.inputCount
    (supply.stream.source fill)
  let output ← Buffer.zeroed supply.toAllocator shape.elementType len
  return ⟨⟨shape, buffers⟩, output⟩

end Workload

end Microbench
