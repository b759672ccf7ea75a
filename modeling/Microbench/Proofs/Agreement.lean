import Microbench.Proofs.Builtin
import Microbench.Proofs.CheckedLoops
import Microbench.Proofs.Operands

/-!
# Kernels of one capability fail and succeed together

Beside each built-in kernel stand the runs it may make, with checked indices: one for each kind of
machine. A run checks its operands and then loops over them, so it has no value only where the loop
would leave an array, or would copy blocks of unequal length.

Results:

* `atomic_of_loops`: a kernel that computes what its loops have as their value, on any operands.
* `kernels_atomic`: all kernels of a capability make the same of their operands, never leave an
  array, and leave the output alone when they fail.
-/
namespace Microbench

/-- A run that checks its operands and then loops over them. -/
def checkedRun (operands : Inputs → Buffer → Except Failure σ) (loop : Shape → σ → Option Buffer)
    (inputs : Inputs) (output : Buffer) : Option (Except Failure Unit × Buffer) :=
  match operands inputs output with
  | .ok o => (loop inputs.shape o).map fun result => (.ok (), result)
  | .error failure => some (.error failure, output)

/-- A kernel beside the runs with checked indices that it may make. -/
structure CheckedKernel (m : Type → Type) where
  kernel : Kernel m
  runs : List (Inputs → Buffer → Option (Except Failure Unit × Buffer))

namespace CheckedKernel

variable {m : Type → Type} [Monad m]

/-- The kernel and all its runs come to the same result and leave the same output, of the type and
length it had, and just as it was if they fail. -/
structure Leaves (k : CheckedKernel m) (inputs : Inputs) (output : Buffer)
    (result : Except Failure Unit) (left : Buffer) : Prop where
  kernel : k.kernel.run inputs output = pure (result, left)
  runs : ∀ run ∈ k.runs, run inputs output = some (result, left)
  failed : ∀ failure, result = .error failure → left = output
  elementType : left.elementType = output.elementType
  size : left.size = output.size

/-- Nothing else comes of further inputs if there are as many as the capability reads. -/
def Atomic (k : CheckedKernel m) (c : Capability) (inputs : Inputs) (output : Buffer)
    (result : Except Failure Unit) : Prop :=
  ∃ left, k.Leaves inputs output result left ∧
    (c.inputCount ≤ inputs.buffers.length →
      ∀ extra, k.Leaves ⟨inputs.shape, inputs.buffers ++ extra⟩ output result left)

end CheckedKernel

section Runs

theorem bind_pure_eq_map {x : Except ε α} {f : α → β} : (x >>= fun a => pure (f a)) = x.map f :=
  (map_eq_pure_bind f x).symm

variable {m : Type → Type} [Monad m] [LawfulMonad m] {σ : Type} {c : Capability}
  {operands : Inputs → Buffer → Except Failure σ} (compute : Shape → σ → Buffer)
  {loops : List (Shape → σ → Option Buffer)} {operation : Inputs → Buffer → Except Failure Buffer}

theorem leaves_of_loops
    (computes : ∀ inputs output,
      operation inputs output = (operands inputs output).map (compute inputs.shape))
    (checked : ∀ {inputs output o}, operands inputs output = .ok o →
      ∀ loop ∈ loops, loop inputs.shape o = some (compute inputs.shape o))
    (holds : ∀ {inputs output result}, operation inputs output = .ok result →
      result.elementType = output.elementType ∧ result.size = output.size)
    (name : String) (variant : Variant) (copy : Option BlockCopy) (inputs : Inputs)
    (output : Buffer) :
    (CheckedKernel.mk (.ofOperation name c variant operation copy : Kernel m)
        (loops.map (checkedRun operands))).Leaves inputs output
      ((operands inputs output).map fun _ => ()) (Kernel.applied operation inputs output).2 := by
  have run : (Kernel.ofOperation name c variant operation copy : Kernel m).run inputs output
      = pure (Kernel.applied operation inputs output) := Kernel.ofOperation_applied ..
  have computed := computes inputs output
  cases accepted : operands inputs output with
  | error failure =>
    rw [accepted] at computed
    have left : Kernel.applied operation inputs output = (.error failure, output) := by
      rw [Kernel.applied, computed]
      rfl
    rw [left] at run ⊢
    refine ⟨run, List.forall_mem_map.2 fun loop _ => ?_, fun _ _ => rfl, rfl, rfl⟩
    rw [checkedRun, accepted]
    rfl
  | ok o =>
    rw [accepted] at computed
    have left : Kernel.applied operation inputs output = (.ok (), compute inputs.shape o) := by
      rw [Kernel.applied, computed]
      rfl
    obtain ⟨type, size⟩ := holds computed
    rw [left] at run ⊢
    refine ⟨run, List.forall_mem_map.2 fun loop hloop => ?_, fun _ failed => ?_, type, size⟩
    · rw [checkedRun, accepted]
      simp only [checked accepted loop hloop]
      rfl
    · cases failed

/-- A kernel that computes from its operands what its loops have as their value, where further
inputs play no part in what the operands are. -/
theorem atomic_of_loops
    (computes : ∀ inputs output,
      operation inputs output = (operands inputs output).map (compute inputs.shape))
    (checked : ∀ {inputs output o}, operands inputs output = .ok o →
      ∀ loop ∈ loops, loop inputs.shape o = some (compute inputs.shape o))
    (holds : ∀ {inputs output result}, operation inputs output = .ok result →
      result.elementType = output.elementType ∧ result.size = output.size)
    (append : ∀ {shape buffers output} extra, c.inputCount ≤ buffers.length →
      operands ⟨shape, buffers ++ extra⟩ output = operands ⟨shape, buffers⟩ output)
    (name : String) (variant : Variant) (copy : Option BlockCopy) (inputs : Inputs)
    (output : Buffer) :
    (CheckedKernel.mk (.ofOperation name c variant operation copy : Kernel m)
        (loops.map (checkedRun operands))).Atomic c inputs output
      ((operands inputs output).map fun _ => ()) := by
  have leaves := fun inputs : Inputs =>
    leaves_of_loops (m := m) (c := c) compute computes checked holds name variant copy inputs output
  refine ⟨_, leaves inputs, fun enough extra => ?_⟩
  have same : operands ⟨inputs.shape, inputs.buffers ++ extra⟩ output = operands inputs output :=
    append extra enough
  have computed : operation ⟨inputs.shape, inputs.buffers ++ extra⟩ output
      = operation inputs output := by
    rw [computes, computes, same]
  have more := leaves ⟨inputs.shape, inputs.buffers ++ extra⟩
  rw [same, Kernel.applied, computed] at more
  exact more

end Runs

/-! ## The built-in kernels -/

section Builtin

variable {m : Type → Type} [Monad m]

namespace MatrixMultiply

def checkedNest (nest : (n : Nat) → (lhs rhs out : Array Float32) → Option (Array Float32))
    (_ : Shape) (o : Operands) : Option Buffer :=
  (nest o.n o.lhs.flat o.rhs.flat o.out.flat).map .f32

def checked (k : Kernel m)
    (nests : List ((n : Nat) → (lhs rhs out : Array Float32) → Option (Array Float32))) :
    CheckedKernel m :=
  ⟨k, (nests.map checkedNest).map (checkedRun operands)⟩

end MatrixMultiply

namespace VectorAdd

def checkedLoop (loop : (lhs rhs out : Array Int16) → Option (Array Int16)) (_ : Shape)
    (o : Operands) : Option Buffer :=
  (loop o.lhs.toArray o.rhs.toArray o.out.toArray).map .i16

def checked (k : Kernel m) (loops : List ((lhs rhs out : Array Int16) → Option (Array Int16))) :
    CheckedKernel m :=
  ⟨k, (loops.map checkedLoop).map (checkedRun operands)⟩

end VectorAdd

namespace MemoryCopy

def checkedBlocks (copy : Words.CheckedCopy) (_ : Shape) (o : Operands) : Option Buffer :=
  (Words.blockwise copy o).map .bytes

def checked (k : Kernel m) (copies : List Words.CheckedCopy) : CheckedKernel m :=
  ⟨k, (copies.map checkedBlocks).map (checkedRun operands)⟩

end MemoryCopy

namespace ModifyInPlace

def checkedTouch (touch : (steps : Nat) → Array Int32 → Option (Array Int32)) (shape : Shape)
    (o : Operands) : Option Buffer :=
  (touch shape.steps o.data.toArray).map .i32

def checked (k : Kernel m) (touch : (steps : Nat) → Array Int32 → Option (Array Int32)) :
    CheckedKernel m :=
  ⟨k, [checkedRun operands (checkedTouch touch)]⟩

end ModifyInPlace

/-- The built-in kernels of a capability, with the loops they run where there are vector registers
and where there are none. -/
def checkedKernels (t : MatrixMultiply.Tiling) : Capability → List (CheckedKernel m)
  | .matrixMultiply =>
    open MatrixMultiply Square.Words in
    [checked MatrixMultiply.reference [Square.Words.reference],
     checked (MatrixMultiply.blocked t)
       [Square.Words.blocked (max t.rows 1) (max t.terms 1) (max t.columns 1)],
     checked simd [lanes 8, lanes 4, portable]]
  | .vectorAdd =>
    open VectorAdd in
    [checked VectorAdd.reference [Words.whole],
     checked unrolled [(Words.lanes · · · unrollCount)],
     checked simd [(Words.lanes · · · laneCount), (Words.lanes · · · 0)]]
  | .memoryCopy =>
    open MemoryCopy in
    [checked MemoryCopy.reference [Words.bytes],
     checked slice [Words.slice],
     checked simd [Words.registers registerBytes, Words.registers 0]]
  | .modifyInPlace =>
    open ModifyInPlace in
    [checked ModifyInPlace.reference Words.walk, checked wrapped Words.laps]

variable [LawfulMonad m] {inputs : Inputs} {output : Buffer}

/-! ### Accepted operands fit a word, so every loop over them has a value -/

theorem MatrixMultiply.operands_fit {o : Operands} (h : operands inputs output = .ok o) :
    o.n * o.n ≤ maxWord := by
  obtain ⟨len, accepts⟩ := operands_isOk_iff.1 ⟨o, h⟩
  rw [← (operands_holds h).size]
  exact accepts.output_fits

theorem VectorAdd.operands_fit {o : Operands} (h : operands inputs output = .ok o) :
    o.n ≤ maxWord := by
  obtain ⟨len, accepts⟩ := operands_isOk_iff.1 ⟨o, h⟩
  rw [← (operands_holds h).size]
  exact accepts.output_fits

theorem MemoryCopy.operands_fit {o : Operands} (h : operands inputs output = .ok o) :
    o.src.size ≤ maxWord := by
  obtain ⟨len, accepts⟩ := operands_isOk_iff.1 ⟨o, h⟩
  obtain ⟨holds, same⟩ := operands_holds h
  rw [← same, ← holds.size]
  exact accepts.output_fits

theorem MatrixMultiply.atomic (name : String) (variant : Variant)
    {add : {n : Nat} → (lhs rhs out : Square Float32 n) → Square Float32 n}
    {nests : List ((n : Nat) → (lhs rhs out : Array Float32) → Option (Array Float32))}
    (same : ∀ {n : Nat} (lhs rhs out : Square Float32 n), add lhs rhs out = lhs.addProduct rhs out)
    (h : ∀ nest ∈ nests, ∀ {n : Nat}, n * n ≤ maxWord → ∀ lhs rhs out : Square Float32 n,
      nest n lhs.flat rhs.flat out.flat = some (lhs.addProduct rhs out).flat) (inputs : Inputs)
    (output : Buffer) :
    (checked (.ofOperation name .matrixMultiply variant (operation add) : Kernel m) nests).Atomic
      .matrixMultiply inputs output (Capability.check .matrixMultiply inputs output) := by
  refine atomic_of_loops (m := m) (fun _ o => .f32 (add o.lhs o.rhs o.out).flat)
    (fun _ _ => bind_pure_eq_map) (fun accepted => List.forall_mem_map.2 ?_)
    operation_holds operands_append name variant none inputs output
  intro nest hnest
  rw [checkedNest, h nest hnest (operands_fit accepted), same]
  rfl

theorem VectorAdd.atomic (name : String) (variant : Variant) {cut : (n : Nat) → List (Span n)}
    {loops : List ((lhs rhs out : Array Int16) → Option (Array Int16))}
    (covers : ∀ n, Span.Covers (cut n))
    (h : ∀ loop ∈ loops, ∀ {n : Nat}, n ≤ maxWord → ∀ lhs rhs out : Vector Int16 n,
      ∃ pieces : List (Span n), Span.Covers pieces ∧
        loop lhs.toArray rhs.toArray out.toArray = some (writeSums pieces lhs rhs out).toArray)
    (inputs : Inputs) (output : Buffer) :
    (checked (.ofOperation name .vectorAdd variant (operation cut) : Kernel m) loops).Atomic
      .vectorAdd inputs output (Capability.check .vectorAdd inputs output) := by
  refine atomic_of_loops (m := m)
    (fun _ o => .i16 (writeSums (cut o.n) o.lhs o.rhs o.out).toArray)
    (fun _ _ => bind_pure_eq_map) (fun {_ _ o} accepted => List.forall_mem_map.2 ?_)
    operation_holds operands_append name variant none inputs output
  intro loop hloop
  obtain ⟨pieces, all, value⟩ := h loop hloop (operands_fit accepted) o.lhs o.rhs o.out
  rw [checkedLoop, value, writeSums_eq all, writeSums_eq (covers o.n)]
  rfl

theorem MemoryCopy.atomic (name : String) (variant : Variant) {copy : BlockCopy}
    (copies : Copies copy) {blocks : List Words.CheckedCopy}
    (h : ∀ block ∈ blocks, Words.Copies block) (inputs : Inputs) (output : Buffer) :
    (checked (kernel name variant copy : Kernel m) blocks).Atomic
      .memoryCopy inputs output (Capability.check .memoryCopy inputs output) := by
  refine atomic_of_loops (m := m) (fun _ o => .bytes o.src) (operation_granted copies)
    (fun accepted => List.forall_mem_map.2 ?_) (operation_holds copies) operands_append name variant
    (some copy) inputs output
  intro block hblock
  rw [checkedBlocks,
    Words.blockwise_eq (h block hblock) (operands_holds accepted).2 (operands_fit accepted)]
  rfl

theorem ModifyInPlace.atomic (name : String) (variant : Variant)
    {touch : {n : Nat} → 0 < n → Nat → Vector Int32 n → Vector Int32 n}
    {loop : (steps : Nat) → Array Int32 → Option (Array Int32)}
    (h : ∀ {n : Nat} (pos : 0 < n) (steps : Nat) (data : Vector Int32 n),
      loop steps data.toArray = some (touch pos steps data).toArray) (inputs : Inputs)
    (output : Buffer) :
    (checked (.ofOperation name .modifyInPlace variant (operation touch) : Kernel m) loop).Atomic
      .modifyInPlace inputs output (Capability.check .modifyInPlace inputs output) := by
  refine atomic_of_loops (m := m) (fun shape o => .i32 (touch o.pos shape.steps o.data).toArray)
    (fun _ _ => bind_pure_eq_map) (fun accepted => List.forall_mem_singleton.2 ?_)
    operation_holds (fun extra _ => operands_append extra) name variant none inputs output
  rw [checkedTouch, h]
  rfl

/-! ### All of them -/

theorem matrixKernels_atomic (t : MatrixMultiply.Tiling)
    (words : t.rows ≤ maxWord ∧ t.terms ≤ maxWord ∧ t.columns ≤ maxWord) :
    ∀ k ∈ (checkedKernels t .matrixMultiply : List (CheckedKernel m)),
      k.Atomic .matrixMultiply inputs output (Capability.check .matrixMultiply inputs output) := by
  have length {step : Nat} (h : step ≤ maxWord) : 0 < max step 1 ∧ max step 1 ≤ maxWord := by
    have : 1 ≤ maxWord := by decide
    omega
  intro k hk
  simp only [checkedKernels, List.mem_cons, List.not_mem_nil, or_false] at hk
  rcases hk with rfl | rfl | rfl
  · refine MatrixMultiply.atomic (m := m) _ _ (fun _ _ _ => rfl) ?_ inputs output
    refine List.forall_mem_singleton.2 fun fits lhs rhs out => ?_
    exact Square.Words.reference_eq lhs rhs out fits
  · refine MatrixMultiply.atomic (m := m) _ _ (MatrixMultiply.addTiled_eq t) ?_ inputs output
    refine List.forall_mem_singleton.2 fun fits lhs rhs out => ?_
    rw [Square.Words.blocked_eq lhs rhs out fits (length words.1) (length words.2.1)
      (length words.2.2)]
    exact congrArg (some ·.flat) (MatrixMultiply.addTiled_eq t lhs rhs out)
  · refine MatrixMultiply.atomic (m := m) _ _ MatrixMultiply.addLanes_eq ?_ inputs output
    have lanes (width : Nat) {n : Nat} (fits : n * n ≤ maxWord) (lhs rhs out : Square Float32 n) :
        Square.Words.lanes width n lhs.flat rhs.flat out.flat
          = some (lhs.addProduct rhs out).flat := by
      rw [Square.Words.lanes_eq lhs rhs out fits,
        Square.addProductRows_eq lhs rhs (Span.covers_lanes n width)]
    rw [List.forall_mem_cons, List.forall_mem_cons, List.forall_mem_singleton]
    refine ⟨lanes 8, lanes 4, fun fits lhs rhs out => ?_⟩
    rw [Square.Words.portable_eq lhs rhs out fits,
      Square.addProductRows_eq lhs rhs (Span.covers_whole _)]

theorem vectorKernels_atomic (t : MatrixMultiply.Tiling) :
    ∀ k ∈ (checkedKernels t .vectorAdd : List (CheckedKernel m)),
      k.Atomic .vectorAdd inputs output (Capability.check .vectorAdd inputs output) := by
  have lanes (width : Nat) {n : Nat} (fits : n ≤ maxWord) (lhs rhs out : Vector Int16 n) :
      ∃ pieces : List (Span n), Span.Covers pieces ∧
        VectorAdd.Words.lanes lhs.toArray rhs.toArray out.toArray width
          = some (VectorAdd.writeSums pieces lhs rhs out).toArray :=
    ⟨_, Span.covers_lanes n width, VectorAdd.Words.lanes_eq lhs rhs out fits width⟩
  intro k hk
  simp only [checkedKernels, List.mem_cons, List.not_mem_nil, or_false] at hk
  rcases hk with rfl | rfl | rfl
  · refine VectorAdd.atomic (m := m) _ _ Span.covers_whole ?_ inputs output
    refine List.forall_mem_singleton.2 fun _ lhs rhs out => ?_
    exact ⟨_, Span.covers_whole _, VectorAdd.Words.whole_eq lhs rhs out⟩
  · refine VectorAdd.atomic (m := m) _ _ (fun n => Span.covers_lanes n _) ?_ inputs output
    exact List.forall_mem_singleton.2 (lanes VectorAdd.unrollCount)
  · refine VectorAdd.atomic (m := m) _ _ (fun n => Span.covers_lanes n _) ?_ inputs output
    rw [List.forall_mem_cons, List.forall_mem_singleton]
    exact ⟨lanes VectorAdd.laneCount, lanes 0⟩

theorem copyKernels_atomic (t : MatrixMultiply.Tiling) :
    ∀ k ∈ (checkedKernels t .memoryCopy : List (CheckedKernel m)),
      k.Atomic .memoryCopy inputs output (Capability.check .memoryCopy inputs output) := by
  intro k hk
  simp only [checkedKernels, List.mem_cons, List.not_mem_nil, or_false] at hk
  rcases hk with rfl | rfl | rfl
  · refine MemoryCopy.atomic (m := m) _ _ MemoryCopy.copyBytes_copies ?_ inputs output
    exact List.forall_mem_singleton.2 MemoryCopy.Words.bytes_copies
  · refine MemoryCopy.atomic (m := m) _ _ MemoryCopy.copySlice_copies ?_ inputs output
    exact List.forall_mem_singleton.2 MemoryCopy.Words.slice_copies
  · refine MemoryCopy.atomic (m := m) _ _ MemoryCopy.copyRegisters_copies ?_ inputs output
    rw [List.forall_mem_cons, List.forall_mem_singleton]
    exact ⟨MemoryCopy.Words.registers_copies _, MemoryCopy.Words.registers_copies _⟩

theorem modifyKernels_atomic (t : MatrixMultiply.Tiling) :
    ∀ k ∈ (checkedKernels t .modifyInPlace : List (CheckedKernel m)),
      k.Atomic .modifyInPlace inputs output (Capability.check .modifyInPlace inputs output) := by
  intro k hk
  simp only [checkedKernels, List.mem_cons, List.not_mem_nil, or_false] at hk
  rcases hk with rfl | rfl
  · exact ModifyInPlace.atomic (m := m) _ _ ModifyInPlace.Words.walk_eq inputs output
  · exact ModifyInPlace.atomic (m := m) _ _ ModifyInPlace.Words.laps_eq inputs output

end Builtin

/-- Whatever the shape, the inputs and the output: the kernels of a capability, whatever the tiling
of one of them, come to one result, which is a success just on operands that the capability
accepts. None leaves an array, none changes the output when it fails, and none reads inputs beyond
those of the capability. -/
theorem kernels_atomic {m : Type → Type} [Monad m] [LawfulMonad m] (t : MatrixMultiply.Tiling)
    (words : t.rows ≤ maxWord ∧ t.terms ≤ maxWord ∧ t.columns ≤ maxWord) (c : Capability)
    (inputs : Inputs) (output : Buffer) :
    (∃ r : Registry m, Registry.builtin = .ok r ∧
      r.kernelsFor c = (checkedKernels ⟨32, 64, 32⟩ c).map (·.kernel)) ∧
    ∃ result, (result = .ok () ↔ ∃ len, c.Accepts inputs output len) ∧
      ∀ k ∈ (checkedKernels t c : List (CheckedKernel m)), k.Atomic c inputs output result := by
  refine ⟨⟨_, Registry.builtin_eq, ?_⟩, c.check inputs output, check_eq_ok, ?_⟩
  · cases c <;> rfl
  · cases c with
    | matrixMultiply => exact matrixKernels_atomic t words
    | vectorAdd => exact vectorKernels_atomic t
    | memoryCopy => exact copyKernels_atomic t
    | modifyInPlace => exact modifyKernels_atomic t

/-- Two matrices of one element with an input too many, in tiles of no rows and of as many terms as
a word allows: accepted with an output of one element, refused with an output of none. -/
theorem kernels_atomic_odd_tiles :
    let inputs : Inputs := ⟨⟨.matrixMultiply, 1, 0⟩, [.f32 #[2], .f32 #[3], .bytes #[7]]⟩
    (0 ≤ maxWord ∧ maxWord ≤ maxWord ∧ 3 ≤ maxWord) ∧
    (∀ k ∈ (checkedKernels ⟨0, 3, maxWord⟩ .matrixMultiply : List (CheckedKernel Id)),
      k.Atomic .matrixMultiply inputs (.f32 #[1]) (.ok ())) ∧
    ∃ failure, ∀ k ∈ (checkedKernels ⟨0, 3, maxWord⟩ .matrixMultiply : List (CheckedKernel Id)),
      k.Atomic .matrixMultiply inputs (.f32 #[]) (.error failure) := by
  intro inputs
  have words : 0 ≤ maxWord ∧ maxWord ≤ maxWord ∧ 3 ≤ maxWord := by decide
  have runs := fun output => (kernels_atomic (m := Id) ⟨0, 3, maxWord⟩ words .matrixMultiply
    inputs output).2
  refine ⟨words, ?_, ?_⟩
  · obtain ⟨result, accepts, atomic⟩ := runs (.f32 #[1])
    obtain rfl : result = .ok () := by
      refine accepts.2 ⟨1, rfl, by decide, fun index hindex => ?_, ⟨rfl, rfl⟩, nofun⟩
      obtain rfl | rfl : index = 0 ∨ index = 1 := by
        have : Capability.inputCount .matrixMultiply = 2 := rfl
        omega
      · exact ⟨_, rfl, rfl, rfl⟩
      · exact ⟨_, rfl, rfl, rfl⟩
    exact atomic
  · obtain ⟨result, accepts, atomic⟩ := runs (.f32 #[])
    cases result with
    | error failure => exact ⟨failure, atomic⟩
    | ok done =>
      obtain ⟨len, -, count, -, ⟨-, size⟩, -⟩ := accepts.1 rfl
      obtain rfl : len = 1 := (Shape.elementCount_square rfl count).trans (Nat.mul_one 1)
      cases size

end Microbench
