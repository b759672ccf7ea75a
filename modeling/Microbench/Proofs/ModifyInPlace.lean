import Microbench.Kernel.ModifyInPlace
import Microbench.Proofs.Kernel
import Microbench.Proofs.Span

/-!
# What the walks through a working set leave

One walk takes the remainder of its step at every step, the other goes through whole laps and then
a part of one. Both come to an element exactly if its index is below the number of steps. How often
they come does not matter: a round trip brings every integer into a range in which round trips
change nothing.

Results:

* `roundTrip_eq_self_iff`: the integers that come back.
* `roundTrip_roundTrip`: a second round trip changes nothing.
* `walk_visits`, `laps_visits`: both walks, by the indices below the number of steps.
* `operation_holds`: the type and length of the output are kept.
* `operation_generated`: on a generated workload all walks succeed and leave the same.
-/
namespace Microbench.ModifyInPlace

/-! ## Round trips -/

theorem roundTrip_toInt (x : Int32) :
    (roundTrip x).toInt = ((10 * x.toInt).bmod Int32.size).tdiv 10 := by
  have tenfold : (x * 10).toInt = (10 * x.toInt).bmod Int32.size := by
    rw [Int32.toInt_mul, Int.mul_comm]
    rfl
  rw [roundTrip, Int32.toInt_div_of_ne_right _ _ (by decide), tenfold]
  rfl

/-- Whatever goes in, a tenth of a 32-bit integer comes out. -/
theorem roundTrip_range (x : Int32) :
    -214748364 ≤ (roundTrip x).toInt ∧ (roundTrip x).toInt ≤ 214748364 := by
  have low : -2147483648 ≤ (10 * x.toInt).bmod Int32.size := Int.le_bmod (by decide)
  have high : (10 * x.toInt).bmod Int32.size ≤ 2147483647 :=
    Int.le_of_lt_add_one (Int.bmod_lt (by decide))
  rw [roundTrip_toInt]
  exact ⟨Int.tdiv_le_tdiv (by decide) low, Int.tdiv_le_tdiv (by decide) high⟩

theorem roundTrip_eq_self_iff (x : Int32) :
    roundTrip x = x ↔ -214748364 ≤ x.toInt ∧ x.toInt ≤ 214748364 := by
  constructor
  · intro fixed
    rw [← fixed]
    exact roundTrip_range x
  · intro ⟨low, high⟩
    have size : (Int32.size : Int) = 4294967296 := rfl
    have unwrapped : (10 * x.toInt).bmod Int32.size = 10 * x.toInt :=
      Int.bmod_eq_of_le (by omega) (by omega)
    rw [← Int32.toInt_inj, roundTrip_toInt, unwrapped, Int.mul_tdiv_cancel_left _ (by decide)]

theorem roundTrip_roundTrip (x : Int32) : roundTrip (roundTrip x) = roundTrip x :=
  (roundTrip_eq_self_iff _).2 (roundTrip_range x)

/-! ## Visits -/

section Visits

variable {n : Nat}

/-- Some visits, in any order and repeated at will, change just the elements that are visited. -/
theorem visits_getElem (indices : List (Fin n)) (data : Vector Int32 n) {j : Nat} (hj : j < n) :
    (indices.foldl (fun data i => data.set i (roundTrip (data.get i)) i.isLt) data)[j]
      = if ⟨j, hj⟩ ∈ indices then roundTrip data[j] else data[j] := by
  induction indices generalizing data with
  | nil => simp
  | cons i indices ih =>
    rw [List.foldl_cons, ih]
    by_cases here : i.val = j
    · subst here
      have touched : (data.set i (roundTrip (data.get i)) i.isLt)[i.val] = roundTrip data[i.val] :=
        Vector.getElem_set_self _
      simp [touched, roundTrip_roundTrip]
    · have kept : (data.set i (roundTrip (data.get i)) i.isLt)[j] = data[j] :=
        Vector.getElem_set_ne _ hj here
      have other : (⟨j, hj⟩ : Fin n) ≠ i := fun same => here (congrArg Fin.val same).symm
      simp [kept, other]

theorem walk_getElem (pos : 0 < n) (steps : Nat) (data : Vector Int32 n) {j : Nat} (hj : j < n) :
    (walk pos steps data)[j] = if j < steps then roundTrip data[j] else data[j] := by
  let visit (step : Fin steps) : Fin n := ⟨step % n, Nat.mod_lt _ pos⟩
  have folded : walk pos steps data = ((List.finRange steps).map visit).foldl
      (fun data i => data.set i (roundTrip (data.get i)) i.isLt) data := by
    rw [walk, Nat.fold_eq_finRange_foldl, List.foldl_map]
  have visited : ⟨j, hj⟩ ∈ (List.finRange steps).map visit ↔ j < steps := by
    simp only [List.mem_map, List.mem_finRange, true_and, visit, Fin.mk.injEq]
    constructor
    · rintro ⟨step, rfl⟩
      exact Nat.lt_of_le_of_lt (Nat.mod_le _ _) step.isLt
    · intro lt
      exact ⟨⟨j, lt⟩, Nat.mod_eq_of_lt hj⟩
  rw [folded, visits_getElem]
  simp only [visited]

theorem lap_getElem (lap : Span n) (data : Vector Int32 n) {j : Nat} (hj : j < n) :
    (lap.foldl (fun data i => data.set i (roundTrip (data.get i)) i.isLt) data)[j]
      = if lap.lo ≤ j ∧ j < lap.hi then roundTrip data[j] else data[j] := by
  rw [Span.foldl_eq, visits_getElem]
  simp only [Span.mem_indices]

/-- By induction on the visits that remain: after a lap an element has been visited, or there were
too few visits to come to it and none remain. -/
theorem laps_getElem (pos : 0 < n) (remaining : Nat) (data : Vector Int32 n) {j : Nat}
    (hj : j < n) :
    (laps pos remaining data)[j] = if j < remaining then roundTrip data[j] else data[j] := by
  induction remaining using Nat.strongRecOn generalizing data with
  | ind remaining ih =>
    by_cases none : remaining = 0
    · have still : laps pos remaining data = data := by rw [laps, if_pos none]
      rw [still, if_neg (by omega)]
    · have step : laps pos remaining data = laps pos (remaining - min remaining n)
          ((Span.mk 0 (min remaining n) (Nat.min_le_right ..)).foldl
            (fun data i => data.set i (roundTrip (data.get i)) i.isLt) data) := by
        rw [laps, if_neg none]
      rw [step, ih _ (by omega), lap_getElem]
      dsimp only
      by_cases reached : j < remaining
      · have inside : 0 ≤ j ∧ j < min remaining n := by omega
        rw [if_pos inside, roundTrip_roundTrip, ite_self, if_pos reached]
      · have outside : ¬(0 ≤ j ∧ j < min remaining n) := by omega
        rw [if_neg outside, if_neg (by omega), if_neg reached]

end Visits

/-! ## A working set after its visits -/

/-- The elements that are reached in some steps have made a round trip. -/
def visited (steps : Nat) (data : Array Int32) : Array Int32 :=
  data.mapIdx fun i x => if i < steps then roundTrip x else x

theorem eq_visited {n steps : Nat} {data left : Vector Int32 n}
    (h : ∀ j (hj : j < n), left[j] = if j < steps then roundTrip data[j] else data[j]) :
    left.toArray = visited steps data.toArray := by
  apply Array.ext
  · simp [visited]
  · intro j hj _
    simpa [visited] using h j (by simpa using hj)

/-- A walk that comes to the elements below the number of its steps. -/
def Visits (touch : {n : Nat} → 0 < n → Nat → Vector Int32 n → Vector Int32 n) : Prop :=
  ∀ {n : Nat} (pos : 0 < n) (steps : Nat) (data : Vector Int32 n),
    (touch pos steps data).toArray = visited steps data.toArray

theorem walk_visits : Visits walk := fun pos steps data =>
  eq_visited fun _ hj => walk_getElem pos steps data hj

theorem laps_visits : Visits laps := fun pos steps data =>
  eq_visited fun _ hj => laps_getElem pos steps data hj

/-- A whole lap leaves nothing to be visited. -/
theorem visited_of_size_le {steps : Nat} {data : Array Int32} (h : data.size ≤ steps) :
    visited steps data = data.map roundTrip := by
  apply Array.ext
  · simp [visited]
  · intro j hj _
    have reached : j < steps := by
      rw [visited, Array.size_mapIdx] at hj
      omega
    simp [visited, reached]

/-! ## The kernels -/

theorem operands_eq {steps kilobytes : Nat} (fits : kilobytes * kilobyte ≤ maxWord)
    (pos : 0 < kilobytes * kilobyte / ElementType.i32.width)
    (data : Vector Int32 (kilobytes * kilobyte / ElementType.i32.width)) (buffers : List Buffer) :
    operands ⟨⟨.modifyInPlace, kilobytes, steps⟩, buffers⟩ (.i32 data.toArray)
      = .ok ⟨_, data, pos⟩ := by
  have count : word? (kilobytes * kilobyte) = some (kilobytes * kilobyte) :=
    word?_eq_some.2 ⟨rfl, fits⟩
  have check : Shape.check ⟨.modifyInPlace, kilobytes, steps⟩ .modifyInPlace
      = .ok (kilobytes * kilobyte / ElementType.i32.width) := by
    rw [Shape.check, Shape.elementCount, if_neg (fun h => h rfl)]
    simp only [count, Option.map_some]
  rw [operands, check]
  exact dif_pos ⟨data.size_toArray, pos⟩

theorem operation_eq (touch : {n : Nat} → 0 < n → Nat → Vector Int32 n → Vector Int32 n)
    (steps : Nat) {kilobytes : Nat} (fits : kilobytes * kilobyte ≤ maxWord)
    (pos : 0 < kilobytes * kilobyte / ElementType.i32.width)
    (data : Vector Int32 (kilobytes * kilobyte / ElementType.i32.width)) (buffers : List Buffer) :
    operation touch ⟨⟨.modifyInPlace, kilobytes, steps⟩, buffers⟩ (.i32 data.toArray)
      = .ok (.i32 (touch pos steps data).toArray) := by
  unfold operation
  rw [operands_eq fits pos]
  rfl

theorem operands_holds {inputs : Inputs} {output : Buffer} {o : Operands}
    (h : operands inputs output = .ok o) : output.Holds .i32 o.n := by
  obtain ⟨n, -, h⟩ := ok_of_bind h
  obtain ⟨data, typed, h⟩ := ok_of_bind h
  split at h
  · next sizes =>
    cases h
    exact sizes.1 ▸ Buffer.requireI32_holds typed
  · cases h

theorem operation_holds {touch : {n : Nat} → 0 < n → Nat → Vector Int32 n → Vector Int32 n}
    {inputs : Inputs} {output result : Buffer} (h : operation touch inputs output = .ok result) :
    result.elementType = output.elementType ∧ result.size = output.size := by
  obtain ⟨o, accepted, h⟩ := ok_of_bind h
  cases h
  exact Buffer.Holds.same ⟨rfl, Vector.size_toArray _⟩ (operands_holds accepted)

theorem operation_generated {a : Supply} {fill : Fill} {shape : Shape} {w : Workload}
    (capability : shape.capability = .modifyInPlace) (h : Workload.generate a fill shape = .ok w) :
    ∃ left, ∀ touch : {n : Nat} → 0 < n → Nat → Vector Int32 n → Vector Int32 n, Visits touch →
      operation touch w.inputs w.output = .ok (.i32 left) := by
  have size := Workload.generate_size_pos h
  obtain ⟨len, buffers, count, -, -, rfl⟩ := Workload.generate_holds h
  obtain ⟨c, kilobytes, steps⟩ := shape
  obtain rfl : c = .modifyInPlace := capability
  obtain ⟨bytes, known, rfl⟩ := Option.map_eq_some_iff.1 count
  obtain ⟨rfl, fits⟩ := word?_eq_some.1 known
  have pos : 0 < kilobytes * kilobyte / ElementType.i32.width := by
    have width : ElementType.i32.width = 4 := rfl
    rw [width, kilobyte]
    dsimp only at size
    omega
  let zeros : Vector Int32 (kilobytes * kilobyte / ElementType.i32.width) := .replicate _ 0
  refine ⟨visited steps zeros.toArray, fun touch visits => ?_⟩
  rw [← visits pos steps zeros]
  exact operation_eq touch steps fits pos zeros buffers

end Microbench.ModifyInPlace
