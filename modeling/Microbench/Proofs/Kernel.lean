import Microbench.Kernel
import Microbench.Proofs.Workload

/-!
# Running operations

Results:

* `ok_of_bind`: what led up to a success.
* `requireF32_holds` and its like: a view of a buffer that is granted shows the buffer.
* `Kernel.ofOperation_applied`: a run of a kernel, by its operation.
* `Kernel.ofOperation_run`: a run of a kernel whose operation succeeds.
-/
namespace Microbench

theorem ok_of_bind {x : Except ε α} {f : α → Except ε β} {value : β}
    (h : (x >>= f) = .ok value) : ∃ first, x = .ok first ∧ f first = .ok value := by
  cases x with
  | error => cases h
  | ok first => exact ⟨first, rfl, h⟩

namespace Buffer

variable {b : Buffer} {role : BufferRole}

theorem require_ok {element : ElementType} {view : Buffer → Option α} {data : α}
    (h : require role element view b = .ok data) : view b = some data := by
  unfold require at h
  split at h
  · next found => cases h; exact found
  · cases h

theorem requireF32_holds {data : Array Float32} (h : b.requireF32 role = .ok data) :
    b.Holds .f32 data.size := by
  cases b <;> cases require_ok h
  exact ⟨rfl, rfl⟩

theorem requireI16_holds {data : Array Int16} (h : b.requireI16 role = .ok data) :
    b.Holds .i16 data.size := by
  cases b <;> cases require_ok h
  exact ⟨rfl, rfl⟩

theorem requireI32_holds {data : Array Int32} (h : b.requireI32 role = .ok data) :
    b.Holds .i32 data.size := by
  cases b <;> cases require_ok h
  exact ⟨rfl, rfl⟩

theorem requireBytes_holds {data : Array UInt8} (h : b.requireBytes role = .ok data) :
    b.Holds .bytes data.size := by
  cases b <;> cases require_ok h
  exact ⟨rfl, rfl⟩

theorem Holds.same {b' : Buffer} {element : ElementType} {len : Nat} (h : b.Holds element len)
    (h' : b'.Holds element len) : b.elementType = b'.elementType ∧ b.size = b'.size :=
  ⟨h.elementType.trans h'.elementType.symm, h.size.trans h'.size.symm⟩

end Buffer

namespace Kernel

variable {m : Type → Type} [Monad m] [LawfulMonad m]

theorem ofOperation_applied (name : String) (capability : Capability) (variant : Variant)
    (operation : Inputs → Buffer → Except Failure Buffer) (blockCopy : Option BlockCopy)
    (inputs : Inputs) (output : Buffer) :
    (ofOperation name capability variant operation blockCopy : Kernel m).run inputs output
      = pure (applied operation inputs output) := pure_bind ..

theorem ofOperation_run {operation : Inputs → Buffer → Except Failure Buffer} {inputs : Inputs}
    {output result : Buffer} (name : String) (capability : Capability) (variant : Variant)
    (blockCopy : Option BlockCopy) (h : operation inputs output = .ok result) :
    (ofOperation name capability variant operation blockCopy : Kernel m).run inputs output
      = pure (.ok (), result) := by
  rw [ofOperation_applied, applied, h]

end Kernel

end Microbench
