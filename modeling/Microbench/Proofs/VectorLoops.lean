import Microbench.Proofs.CheckedLoops
import Microbench.Proofs.Operands

/-!
# Loops over three slices

The loops of the vector kernels, with any way of combining an element of the output with those
beside it in place of addition. What is combined may take up what stood there before, so that it
shows how often an element is written and beside what.

Three loops run over flat arrays with checked indices: element by element; chunk by chunk, where
each of the three slices is cut on its own; and register by register, from the end of the last of
which the elements that are left over are taken one by one. Each goes through states in which the
first elements are combined and the rest is as it was.

Results:

* `combineAll_eq`: a loop over any cover of the range combines each element once.
* `elementwise_eq`, `chunkwise_eq`, `registerwise_eq`: so does each loop over flat arrays.
* `sums_alike`: the three vector kernels and all their loops.
-/
namespace Microbench.VectorAdd

variable {α β γ : Type} {n : Nat}

/-! ## States of a loop -/

section States

variable (combine : α → β → γ → γ) (lhs : Vector α n) (rhs : Vector β n) (out : Vector γ n)

/-- The first `k` elements are combined with those beside them. -/
def combinedTo (k : Nat) : Vector γ n :=
  Vector.ofFn fun i => if i < k then combine (lhs.get i) (rhs.get i) (out.get i) else out.get i

/-- All elements are. -/
def combined : Vector γ n := Vector.ofFn fun i => combine (lhs.get i) (rhs.get i) (out.get i)

theorem combinedTo_getElem {k j : Nat} (hj : j < n) :
    (combinedTo combine lhs rhs out k)[j]
      = if j < k then combine lhs[j] rhs[j] out[j] else out[j] := Vector.getElem_ofFn hj

theorem combinedTo_zero : combinedTo combine lhs rhs out 0 = out := by
  ext j hj
  rw [combinedTo_getElem _ _ _ _ hj, if_neg (Nat.not_lt_zero j)]

theorem combinedTo_all : combinedTo combine lhs rhs out n = combined combine lhs rhs out := by
  ext j hj
  rw [combinedTo_getElem _ _ _ _ hj, if_pos hj, combined, Vector.getElem_ofFn]
  rfl

theorem combinedTo_succ {k : Nat} (hk : k < n) :
    (combinedTo combine lhs rhs out k).set k (combine lhs[k] rhs[k] out[k])
      = combinedTo combine lhs rhs out (k + 1) := by
  ext j hj
  rw [Vector.getElem_set, combinedTo_getElem _ _ _ _ hj, combinedTo_getElem _ _ _ _ hj]
  by_cases here : k = j
  · subst here
    rw [if_pos rfl, if_pos (Nat.lt_succ_self k)]
  · have same : j < k + 1 ↔ j < k := by omega
    rw [if_neg here, if_congr same rfl rfl]

end States

/-! ## Loops over spans -/

/-- Combines at the indices of the given pieces. -/
def combineAll (combine : α → β → γ → γ) (pieces : List (Span n)) (lhs : Vector α n)
    (rhs : Vector β n) (out : Vector γ n) : Vector γ n :=
  Span.foldAll pieces
    (fun out i => out.set i (combine (lhs.get i) (rhs.get i) (out.get i)) i.isLt) out

theorem writeSums_eq_combineAll (pieces : List (Span n)) (lhs rhs out : Vector Int16 n) :
    writeSums pieces lhs rhs out = combineAll (fun a b _ => a + b) pieces lhs rhs out := rfl

/-! ## Loops over flat arrays -/

namespace Slices

open Square.Words

/-- Combines the elements `lo, …, hi - 1`. -/
def elements (combine : α → β → γ → γ) (lo hi : Nat) (lhs : Array α) (rhs : Array β)
    (out : Array γ) : Option (Array γ) :=
  each lo hi (fun out i => do
    let a ← lhs[i]?
    let b ← rhs[i]?
    update? out i (combine a b)) out

/-- Element by element, as far as the output reaches. -/
def elementwise (combine : α → β → γ → γ) (lhs : Array α) (rhs : Array β) (out : Array γ) :
    Option (Array γ) :=
  elements combine 0 out.size lhs rhs out

/-- The whole chunks of a slice in order. -/
def chunks (width : Nat) (data : Array α) : List (Array α) :=
  (List.range (data.size / width)).map fun k => data.extract (k * width) (k * width + width)

/-- What is left of a slice behind its chunks. -/
def remainder (width : Nat) (data : Array α) : Array α :=
  data.extract (data.size / width * width) data.size

/-- As long as each of the three slices has a chunk, its elements are combined one after another.
The remainders are combined as far as the shortest reaches. -/
def chunkwise (width : Nat) (combine : α → β → γ → γ) (lhs : Array α) (rhs : Array β)
    (out : Array γ) : Option (Array γ) := do
  let rounds := (chunks width out).zip ((chunks width lhs).zip (chunks width rhs))
  let heads ← rounds.mapM fun (c, a, b) => elements combine 0 width a b c
  let (c, a, b) := (remainder width out, remainder width lhs, remainder width rhs)
  let tail ← elements combine 0 (min c.size (min a.size b.size)) a b c
  return (heads ++ (chunks width out).drop rounds.length ++ [tail]).toArray.flatten

/-- Stores a register over the elements from `lo`. -/
def store? (out : Array γ) (lo : Nat) (register : Array γ) : Option (Array γ) := do
  let _ ← slice? out lo (lo + register.size)
  return out.extract 0 lo ++ register ++ out.extract (lo + register.size) out.size

/-- Loads a register from each slice for as many whole registers as fit. The elements from the end
of the last of them are combined one by one. -/
def registerwise (width : Nat) (combine : α → β → γ → γ) (lhs : Array α) (rhs : Array β)
    (out : Array γ) : Option (Array γ) := do
  let count := out.size / width
  let out ← each 0 count (fun out register => do
    let lo ← word? (register * width)
    let hi ← word? (lo + width)
    let a ← slice? lhs lo hi
    let b ← slice? rhs lo hi
    let c ← slice? out lo hi
    store? out lo (Array.zipWith (fun f c => f c) (Array.zipWith combine a b) c)) out
  elements combine (← word? (count * width)) out.size lhs rhs out

/-! ### Element by element -/

section Elements

variable (combine : α → β → γ → γ) (lhs : Vector α n) (rhs : Vector β n) (out : Vector γ n)

theorem each_succ {σ : Type} {lo hi : Nat} (h : lo ≤ hi) (body : σ → Nat → Option σ) (init : σ) :
    each lo (hi + 1) body init = each lo hi body init >>= fun c => body c hi := by
  have grown : hi + 1 - lo = hi - lo + 1 := by omega
  rw [each, each, grown, List.range'_1_concat, List.foldlM_append, Nat.add_sub_cancel' h]
  simp only [List.foldlM_cons, List.foldlM_nil, bind_pure]

theorem element_step {k : Nat} (hk : k < n) :
    (do
      let a ← lhs.toArray[k]?
      let b ← rhs.toArray[k]?
      update? (combinedTo combine lhs rhs out k).toArray k (combine a b))
      = some (combinedTo combine lhs rhs out (k + 1)).toArray := by
  have left : lhs.toArray[k]? = some lhs[k] :=
    Array.getElem?_eq_getElem (lhs.size_toArray.symm ▸ hk)
  have right : rhs.toArray[k]? = some rhs[k] :=
    Array.getElem?_eq_getElem (rhs.size_toArray.symm ▸ hk)
  have inside : k < (combinedTo combine lhs rhs out k).toArray.size := by rwa [Vector.size_toArray]
  have untouched : (combinedTo combine lhs rhs out k).toArray[k] = out[k] := by
    have read := combinedTo_getElem combine lhs rhs out (k := k) hk
    rwa [if_neg (Nat.lt_irrefl k)] at read
  rw [left, right, Option.bind_eq_bind, Option.bind_some, Option.bind_eq_bind, Option.bind_some,
    update?, dif_pos inside, untouched, ← combinedTo_succ combine lhs rhs out hk]
  rfl

theorem elements_eq {lo hi : Nat} (h : lo ≤ hi) (hn : hi ≤ n) :
    elements combine lo hi lhs.toArray rhs.toArray (combinedTo combine lhs rhs out lo).toArray
      = some (combinedTo combine lhs rhs out hi).toArray := by
  induction hi, h using Nat.le_induction with
  | base => rw [elements, each, Nat.sub_self]; rfl
  | succ hi h ih =>
    rw [elements, each_succ h, ← elements, ih (Nat.le_of_succ_le hn), Option.bind_eq_bind,
      Option.bind_some]
    exact element_step combine lhs rhs out hn

theorem elementwise_eq : elementwise combine lhs.toArray rhs.toArray out.toArray
    = some (combined combine lhs rhs out).toArray := by
  have whole := elements_eq combine lhs rhs out (Nat.zero_le n) (Nat.le_refl n)
  rw [combinedTo_zero, combinedTo_all] at whole
  rw [elementwise, out.size_toArray, whole]

/-- The loop over all elements, as a loop over a list of indices. -/
theorem elements_indices : elements combine 0 n lhs.toArray rhs.toArray out.toArray
    = some ((List.finRange n).foldl (fun out i =>
        out.set i (combine (lhs.get i) (rhs.get i) (out.get i)) i.isLt) out).toArray := by
  rw [elements, ← Fin.foldl_eq_finRange_foldl]
  refine each_all Vector.toArray (fun i c => ?_) out
  have left : lhs.toArray[i.val]? = some (lhs.get i) :=
    Array.getElem?_eq_getElem (lhs.size_toArray.symm ▸ i.isLt)
  have right : rhs.toArray[i.val]? = some (rhs.get i) :=
    Array.getElem?_eq_getElem (rhs.size_toArray.symm ▸ i.isLt)
  rw [left, right, Option.bind_eq_bind, Option.bind_some, Option.bind_eq_bind, Option.bind_some,
    update?, dif_pos (c.size_toArray.symm ▸ i.isLt)]
  rfl

end Elements

/-! ### Chunk by chunk -/

section Chunks

variable (combine : α → β → γ → γ) (lhs : Vector α n) (rhs : Vector β n) (out : Vector γ n)

/-- Combining a stretch of all three slices gives this stretch of what is combined. -/
theorem elements_extract {lo hi : Nat} (hn : hi ≤ n) :
    elements combine 0 (hi - lo) (lhs.toArray.extract lo hi) (rhs.toArray.extract lo hi)
        (out.toArray.extract lo hi)
      = some ((combined combine lhs rhs out).toArray.extract lo hi) := by
  have size {δ : Type} (v : Vector δ n) : (v.toArray.extract lo hi).size = hi - lo := by
    rw [Array.size_extract, v.size_toArray, Nat.min_eq_left hn]
  have stretch := elementwise_eq combine ⟨_, size lhs⟩ ⟨_, size rhs⟩ ⟨_, size out⟩
  rw [elementwise, size out] at stretch
  refine stretch.trans (congrArg some (Array.ext ?_ fun j hj _ => ?_))
  · rw [Vector.size_toArray, size]
  · simp [combined, Vector.get]

theorem chunks_eq (width : Nat) (v : Vector α n) : chunks width v.toArray
    = (List.range (n / width)).map fun k => v.toArray.extract (k * width) (k * width + width) := by
  rw [chunks, v.size_toArray]

theorem remainder_eq (width : Nat) (v : Vector α n) :
    remainder width v.toArray = v.toArray.extract (n / width * width) n := by
  rw [remainder, v.size_toArray]

/-- The chunks and what is left of a slice are the slice. -/
theorem chunks_flatten (width : Nat) (v : Vector α n) :
    (chunks width v.toArray ++ [remainder width v.toArray]).toArray.flatten = v.toArray := by
  have below := Nat.div_mul_le_self n width
  rw [chunks_eq, remainder_eq, ← List.append_toArray, Array.flatten_append, Span.flatten_pieces]
  simp [below]

/-- The three cuts have as many chunks, so each is combined with those at its own place. -/
theorem rounds_eq (width : Nat) :
    ((chunks width out.toArray).zip
        ((chunks width lhs.toArray).zip (chunks width rhs.toArray))).mapM
        (fun (c, a, b) => elements combine 0 width a b c)
      = some (chunks width (combined combine lhs rhs out).toArray) := by
  rw [chunks_eq, chunks_eq, chunks_eq, chunks_eq, List.zip_map', List.zip_map', List.mapM_map]
  refine (MemoryCopy.mapM_congr fun k hk => ?_).trans List.mapM_pure
  have inside : k * width + width ≤ n := vector_le (List.mem_range.1 hk)
  have stretch := @elements_extract α β γ n combine lhs rhs out (k * width) _ inside
  rwa [Nat.add_sub_cancel_left] at stretch

theorem tail_eq (width : Nat) :
    elements combine 0 (n - n / width * width) (remainder width lhs.toArray)
        (remainder width rhs.toArray) (remainder width out.toArray)
      = some (remainder width (combined combine lhs rhs out).toArray) := by
  rw [remainder_eq, remainder_eq, remainder_eq, remainder_eq]
  exact elements_extract combine lhs rhs out (Nat.le_refl n)

theorem chunkwise_eq (width : Nat) : chunkwise width combine lhs.toArray rhs.toArray out.toArray
    = some (combined combine lhs rhs out).toArray := by
  have size {δ : Type} (v : Vector δ n) :
      (remainder width v.toArray).size = n - n / width * width := by
    rw [remainder_eq, Array.size_extract, v.size_toArray, Nat.min_self]
  have none : (chunks width out.toArray).drop ((chunks width out.toArray).zip
      ((chunks width lhs.toArray).zip (chunks width rhs.toArray))).length = [] := by
    refine List.drop_of_length_le ?_
    simp [chunks_eq]
  rw [chunkwise, rounds_eq, Option.bind_eq_bind, Option.bind_some, size, size, size, Nat.min_self,
    Nat.min_self, tail_eq, Option.bind_eq_bind, Option.bind_some, none, List.append_nil]
  exact congrArg some (chunks_flatten width _)

end Chunks

/-! ### Register by register -/

section Registers

variable (combine : α → β → γ → γ) (lhs : Vector α n) (rhs : Vector β n) (out : Vector γ n)

theorem slice?_vector (v : Vector α n) {lo hi : Nat} (h : lo ≤ hi) (hn : hi ≤ n) :
    slice? v.toArray lo hi = some (v.toArray.extract lo hi) := by
  rw [slice?, v.size_toArray, if_pos ⟨h, hn⟩]

/-- The register that is stored holds what the elements under it are combined to. -/
theorem register_getElem {lo hi d : Nat} (hn : hi ≤ n) (hd : lo + d < hi) :
    (Array.zipWith (fun f c => f c)
        (Array.zipWith combine (lhs.toArray.extract lo hi) (rhs.toArray.extract lo hi))
        ((combinedTo combine lhs rhs out lo).toArray.extract lo hi))[d]?
      = some (combine lhs[lo + d] rhs[lo + d] out[lo + d]) := by
  have untouched : (combinedTo combine lhs rhs out lo)[lo + d] = out[lo + d] := by
    rw [combinedTo_getElem _ _ _ _ (by omega), if_neg (by omega)]
  have inside : d < hi - lo := by omega
  simp [inside, untouched, hn]

/-- A store is settled by what is in front of the register, under it and behind it. -/
theorem store?_eq {v after : Vector γ n} {register : Array γ} {lo width : Nat}
    (size : register.size = width) (h : lo + width ≤ n)
    (front : ∀ j (hj : j < lo), after[j] = v[j])
    (under : ∀ d (hd : d < width), after[lo + d] = register[d])
    (behind : ∀ j (hj : j < n), lo + width ≤ j → after[j] = v[j]) :
    store? v.toArray lo register = some after.toArray := by
  subst size
  rw [store?, slice?_vector v (Nat.le_add_right ..) h, Option.bind_eq_bind, Option.bind_some,
    v.size_toArray]
  have start : (v.toArray.extract 0 lo).size = lo := by
    rw [Array.size_extract, v.size_toArray]
    omega
  refine congrArg some (Array.ext ?_ fun j _ hj => ?_)
  · rw [Array.size_append, Array.size_append, start, Array.size_extract, v.size_toArray,
      Vector.size_toArray]
    omega
  rw [Vector.size_toArray] at hj
  show _ = after[j]
  rcases Nat.lt_or_ge j lo with less | more
  · rw [Array.getElem_append_left (by simp; omega), Array.getElem_append_left (by omega),
      front j less]
    simp
  rcases Nat.lt_or_ge j (lo + register.size) with less | far
  · obtain ⟨d, rfl⟩ := Nat.exists_eq_add_of_le more
    rw [Array.getElem_append_left (by simp; omega), Array.getElem_append_right (by omega),
      under d (by omega)]
    simp only [start, Nat.add_sub_cancel_left]
  · have place : lo + register.size + (j - (lo + register.size)) = j := by omega
    rw [Array.getElem_append_right (by simp; omega), behind j hj far]
    simp only [Array.getElem_extract, Array.size_append, start, place]
    rfl

theorem register_step {lo width : Nat} (h : lo + width ≤ n) :
    store? (combinedTo combine lhs rhs out lo).toArray lo (Array.zipWith (fun f c => f c)
        (Array.zipWith combine (lhs.toArray.extract lo (lo + width))
          (rhs.toArray.extract lo (lo + width)))
        ((combinedTo combine lhs rhs out lo).toArray.extract lo (lo + width)))
      = some (combinedTo combine lhs rhs out (lo + width)).toArray := by
  refine store?_eq (by simp [h]) h (fun j hj => ?_) (fun d hd => ?_) fun j hj far => ?_
  · rw [combinedTo_getElem _ _ _ _ (by omega), combinedTo_getElem _ _ _ _ (by omega),
      if_pos hj, if_pos (by omega)]
  · have offset : lo + d < lo + width := by omega
    obtain ⟨_, loaded⟩ := Array.getElem?_eq_some_iff.1
      (register_getElem combine lhs rhs out h offset)
    rw [loaded, combinedTo_getElem _ _ _ _ (by omega), if_pos offset]
  · rw [combinedTo_getElem _ _ _ _ hj, combinedTo_getElem _ _ _ _ hj, if_neg (by omega),
      if_neg (by omega)]

theorem registers_eq (fits : n ≤ maxWord) (width : Nat) {count : Nat} (h : count * width ≤ n) :
    each 0 count (fun out register => do
        let lo ← word? (register * width)
        let hi ← word? (lo + width)
        let a ← slice? lhs.toArray lo hi
        let b ← slice? rhs.toArray lo hi
        let c ← slice? out lo hi
        store? out lo (Array.zipWith (fun f c => f c) (Array.zipWith combine a b) c)) out.toArray
      = some (combinedTo combine lhs rhs out (count * width)).toArray := by
  induction count with
  | zero =>
    rw [Nat.zero_mul, combinedTo_zero]
    rfl
  | succ count ih =>
    rw [Nat.succ_mul] at h
    have start : word? (count * width) = some (count * width) := word?_of_le (by omega)
    have stop : word? (count * width + width) = some (count * width + width) :=
      word?_of_le (by omega)
    rw [each_succ (Nat.zero_le count), ih (by omega), Nat.succ_mul]
    simp only [Option.bind_eq_bind, Option.bind_some, start, stop,
      slice?_vector _ (Nat.le_add_right ..) h]
    exact register_step combine lhs rhs out h

theorem registerwise_eq (fits : n ≤ maxWord) (width : Nat) :
    registerwise width combine lhs.toArray rhs.toArray out.toArray
      = some (combined combine lhs rhs out).toArray := by
  have below := Nat.div_mul_le_self n width
  have tail := elements_eq combine lhs rhs out below (Nat.le_refl n)
  rw [combinedTo_all] at tail
  rw [registerwise, out.size_toArray, registers_eq combine lhs rhs out fits width below,
    Option.bind_eq_bind, Option.bind_some, word?_of_le (by omega), Option.bind_eq_bind,
    Option.bind_some, Vector.size_toArray, tail]

end Registers

end Slices

/-! ## All loops of the vector kernels -/

/-- Each index of a cover is visited once, so what stood there when the loop began is what is
combined. -/
theorem combineAll_eq {pieces : List (Span n)} (h : Span.Covers pieces)
    (combine : α → β → γ → γ) (lhs : Vector α n) (rhs : Vector β n) (out : Vector γ n) :
    combineAll combine pieces lhs rhs out = combined combine lhs rhs out := by
  have once := Slices.elements_eq combine lhs rhs out (Nat.zero_le n) (Nat.le_refl n)
  rw [combinedTo_zero, combinedTo_all, Slices.elements_indices] at once
  rw [combineAll, Span.foldAll_eq, show pieces.flatMap Span.indices = List.finRange n from h]
  exact Vector.toArray_inj.1 (Option.some.inj once)

/-- The vector kernels. -/
def kernels {m : Type → Type} [Monad m] : List (Kernel m) := [reference, unrolled, simd]

theorem mem_kernels {m : Type → Type} [Monad m] {k : Kernel m} (h : k ∈ kernels) :
    ∃ name variant cut, (∀ n, Span.Covers (cut n)) ∧
      k = .ofOperation name .vectorAdd variant (operation cut) := by
  simp only [kernels, List.mem_cons, List.not_mem_nil, or_false] at h
  rcases h with rfl | rfl | rfl
  · exact ⟨_, _, _, Span.covers_whole, rfl⟩
  · exact ⟨_, _, _, fun n => Span.covers_lanes n unrollCount, rfl⟩
  · exact ⟨_, _, _, fun n => Span.covers_lanes n laneCount, rfl⟩

/-- What an element is combined with is what was there before any of the loops, so each of them
writes each element once. With addition that takes no notice of the output, every kernel leaves
the same sums whatever the output held. Inputs behind the two vectors are not read. -/
theorem sums_alike (m : Type → Type) [Monad m] [LawfulMonad m] {n : Nat} (fits : n ≤ maxWord) :
    (∀ {α β γ : Type} (combine : α → β → γ → γ) (lhs : Vector α n) (rhs : Vector β n)
        (out : Vector γ n),
      (∀ pieces ∈ [[Span.whole n], Span.lanes n unrollCount, Span.lanes n laneCount],
        combineAll combine pieces lhs rhs out = combined combine lhs rhs out) ∧
      Slices.elementwise combine lhs.toArray rhs.toArray out.toArray
        = some (combined combine lhs rhs out).toArray ∧
      ∀ width,
        Slices.chunkwise width combine lhs.toArray rhs.toArray out.toArray
          = some (combined combine lhs rhs out).toArray ∧
        Slices.registerwise width combine lhs.toArray rhs.toArray out.toArray
          = some (combined combine lhs rhs out).toArray) ∧
    (∀ (pieces : List (Span n)) (lhs rhs out : Vector Int16 n),
      writeSums pieces lhs rhs out = combineAll (fun a b _ => a + b) pieces lhs rhs out) ∧
    ∀ lhs rhs : Vector Int16 n, ∃ sums : Vector Int16 n,
      (∀ i : Fin n, (sums.get i).toInt = ((lhs.get i).toInt + (rhs.get i).toInt).bmod 65536) ∧
      (∀ out : Vector Int16 n, combined (fun a b _ => a + b) lhs rhs out = sums) ∧
      ∀ (out : Vector Int16 n) (steps : Nat) (extra : List Buffer), ∀ k ∈ kernels (m := m),
        k.run ⟨⟨.vectorAdd, n, steps⟩, .i16 lhs.toArray :: .i16 rhs.toArray :: extra⟩
          (.i16 out.toArray) = pure (.ok (), .i16 sums.toArray) := by
  refine ⟨fun combine lhs rhs out => ⟨fun pieces hp => ?_, Slices.elementwise_eq _ _ _ _,
    fun width => ⟨Slices.chunkwise_eq _ _ _ _ width, Slices.registerwise_eq _ _ _ _ fits width⟩⟩,
    writeSums_eq_combineAll, fun lhs rhs => ⟨Vector.ofFn fun i => lhs.get i + rhs.get i,
      fun i => ?_, fun out => rfl, fun out steps extra k hk => ?_⟩⟩
  · simp only [List.mem_cons, List.not_mem_nil, or_false] at hp
    rcases hp with rfl | rfl | rfl
    · exact combineAll_eq (Span.covers_whole n) combine lhs rhs out
    · exact combineAll_eq (Span.covers_lanes n unrollCount) combine lhs rhs out
    · exact combineAll_eq (Span.covers_lanes n laneCount) combine lhs rhs out
  · have sum : (Vector.ofFn fun i => lhs.get i + rhs.get i).get i = lhs.get i + rhs.get i :=
      Vector.getElem_ofFn i.isLt
    rw [sum]
    exact Int16.toInt_add ..
  · obtain ⟨name, variant, cut, covers, rfl⟩ := mem_kernels hk
    refine Kernel.ofOperation_run name .vectorAdd variant none ?_
    have read := @operands_append ⟨.vectorAdd, n, steps⟩ [.i16 lhs.toArray, .i16 rhs.toArray]
      (.i16 out.toArray) extra (Nat.le_refl 2)
    exact (congrArg (· >>= _) read).trans (operation_eq covers fits steps lhs rhs out)

/-- One register and two chunks with an element left over: each element is counted once, and sums
wrap over an output that was in use. -/
theorem sums_alike_left_over :
    9 ≤ maxWord ∧
    Slices.chunkwise unrollCount (fun _ _ visits => visits + 1) (.replicate 9 ()) (.replicate 9 ())
        (.replicate 9 0) = some (.replicate 9 1) ∧
    Slices.registerwise laneCount (fun _ _ visits => visits + 1) (.replicate 9 ())
        (.replicate 9 ()) (.replicate 9 0) = some (.replicate 9 1) ∧
    ∀ k ∈ kernels (m := Id),
      k.run ⟨⟨.vectorAdd, 9, 0⟩, [.i16 (.replicate 9 32767), .i16 (.replicate 9 1)]⟩
          (.i16 (.replicate 9 5)) = pure (.ok (), .i16 (.replicate 9 (-32768))) := by
  have fits : 9 ≤ maxWord := by decide
  obtain ⟨loops, -, sums⟩ := sums_alike Id fits
  have counted := (loops (fun _ _ visits => visits + 1) (.replicate 9 ()) (.replicate 9 ())
    (.replicate 9 0)).2.2
  obtain ⟨_, -, plain, runs⟩ := sums (.replicate 9 32767) (.replicate 9 1)
  refine ⟨fits, (counted unrollCount).1.trans ?_, (counted laneCount).2.trans ?_, fun k hk => ?_⟩
  · decide
  · decide
  · refine (runs (.replicate 9 5) 0 [] k hk).trans ?_
    rw [← plain (.replicate 9 5)]
    exact congrArg (fun data => pure (Except.ok (), Buffer.i16 data)) (by decide)

end Microbench.VectorAdd
