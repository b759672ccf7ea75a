import Microbench.Proofs.CheckedLoops

/-!
# A working set after its visits

Results:

* `walks_alike`: what both kernels make of any working set.
-/
namespace Microbench.ModifyInPlace

variable {m : Type → Type} [Monad m] [LawfulMonad m]

/-- A shape counts four bytes for each element. -/
theorem run_eq_visited {touch : {n : Nat} → 0 < n → Nat → Vector Int32 n → Vector Int32 n}
    (visits : Visits touch) (name : String) (variant : Variant) {kilobytes : Nat}
    (pos : 0 < kilobytes) (fits : kilobytes * kilobyte ≤ maxWord) (steps : Nat)
    (buffers : List Buffer) {data : Array Int32} (size : data.size = kilobytes * 256) :
    (Kernel.ofOperation name .modifyInPlace variant (operation touch) : Kernel m).run
        ⟨⟨.modifyInPlace, kilobytes, steps⟩, buffers⟩ (.i32 data)
      = pure (.ok (), .i32 (visited steps data)) := by
  have quarter : kilobytes * 256 = kilobytes * kilobyte / ElementType.i32.width := by
    show kilobytes * 256 = kilobytes * 1024 / 4
    omega
  have nonempty : 0 < kilobytes * kilobyte / ElementType.i32.width := by omega
  have left := operation_eq touch steps fits nonempty ⟨data, size.trans quarter⟩ buffers
  rw [visits] at left
  exact Kernel.ofOperation_run name .modifyInPlace variant none left

/-- Both kernels, on any working set of the length that the shape asks for and for any number of
steps, come to their end and leave the elements below the number of steps after a round trip and
all others as they were. A round trip is a multiplication by ten that wraps and a division by ten
towards zero. A second one changes nothing, and so do further laps. -/
theorem walks_alike {m : Type → Type} [Monad m] [LawfulMonad m] {kilobytes : Nat}
    (pos : 0 < kilobytes) (fits : kilobytes * kilobyte ≤ maxWord) (steps : Nat)
    (buffers : List Buffer) (data : Array Int32) (size : data.size = kilobytes * 256) :
    (∀ k ∈ [reference, wrapped], (k : Kernel m).run
        ⟨⟨.modifyInPlace, kilobytes, steps⟩, buffers⟩ (.i32 data)
      = pure (.ok (), .i32 (visited steps data))) ∧
    Words.walk steps data = some (visited steps data) ∧
    Words.laps steps data = some (visited steps data) ∧
    (data.size ≤ steps → visited steps data = data.map roundTrip) ∧
    ∀ x : Int32, (roundTrip x).toInt = ((10 * x.toInt).bmod Int32.size).tdiv 10 ∧
      roundTrip (roundTrip x) = roundTrip x ∧
      (roundTrip x = x ↔ -214748364 ≤ x.toInt ∧ x.toInt ≤ 214748364) := by
  have nonempty : 0 < data.size := by omega
  refine ⟨?_, ?_, ?_, visited_of_size_le, fun x =>
    ⟨roundTrip_toInt x, roundTrip_roundTrip x, roundTrip_eq_self_iff x⟩⟩
  · rw [List.forall_mem_cons, List.forall_mem_singleton]
    exact ⟨run_eq_visited walk_visits _ _ pos fits steps buffers size,
      run_eq_visited laps_visits _ _ pos fits steps buffers size⟩
  · have walked := walk_visits nonempty steps data.toVector
    rw [← walked]
    exact Words.walk_eq nonempty steps data.toVector
  · have lapped := laps_visits nonempty steps data.toVector
    rw [← lapped]
    exact Words.laps_eq nonempty steps data.toVector

/-- The largest integer is out of range: three of them come back as another. -/
theorem walks_alike_partly :
    let data := Array.replicate 256 (2147483647 : Int32)
    (0 < 1 ∧ 1 * kilobyte ≤ maxWord ∧ data.size = 1 * 256) ∧
    (∀ k ∈ [reference, wrapped], (k : Kernel Id).run ⟨⟨.modifyInPlace, 1, 3⟩, []⟩ (.i32 data)
      = pure (.ok (), .i32 (visited 3 data))) ∧
    (visited 3 data)[2]? = some (-1 : Int32) ∧
    (visited 3 data)[3]? = some (2147483647 : Int32) := by
  intro data
  have pos : 0 < 1 := by decide
  have fits : 1 * kilobyte ≤ maxWord := by decide
  have size : data.size = 1 * 256 := Array.size_replicate
  have turned : roundTrip 2147483647 = -1 := by decide
  have filled {i : Nat} (hi : i < 256) : data[i]? = some 2147483647 := by simp [data, hi]
  refine ⟨⟨pos, fits, size⟩, (walks_alike pos fits 3 [] data size).1, ?_, ?_⟩
  · simp only [visited, Array.getElem?_mapIdx, filled (i := 2) (by decide)]
    simp [turned]
  · simp only [visited, Array.getElem?_mapIdx, filled (i := 3) (by decide)]
    simp

end Microbench.ModifyInPlace
