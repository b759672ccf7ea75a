import Mathlib.Data.List.FinRange
import Microbench.Span

/-!
# Spans that cover a range

A loop over spans is a loop over the list of their indices. Spans cover the range below `n` if
these are `0, …, n - 1` in ascending order: every index once, none twice.

Results:

* `foldAll_eq`: a loop over spans, by their indices.
* `mem_indices`: which indices a span has.
* `covers_whole`, `covers_tiles`, `covers_lanes`: the three ways of cutting a range cover it,
  whatever the length of a piece.
* `Covers.pick`: one span of a cover has a given index.
* `Covers.foldAll_set`: what a loop over a cover that writes cell by cell leaves.
* `flatten_pieces`: an array that was cut into pieces is put together again.
-/
namespace Microbench.Span

variable {n : Nat} {β : Type}

/-- The indices of the span in ascending order. -/
def indices (s : Span n) : List (Fin n) :=
  (List.finRange (s.hi - s.lo)).map fun k : Fin (s.hi - s.lo) =>
    ⟨s.lo + k.val, by have := s.hi_le; omega⟩

theorem foldl_eq (s : Span n) (f : β → Fin n → β) (init : β) :
    s.foldl f init = s.indices.foldl f init := by
  rw [foldl, Nat.fold_eq_finRange_foldl, indices, List.foldl_map]

theorem foldAll_eq (spans : List (Span n)) (f : β → Fin n → β) (init : β) :
    foldAll spans f init = (spans.flatMap indices).foldl f init := by
  rw [foldAll, List.foldl_flatMap]
  simp only [foldl_eq]

theorem indices_val (s : Span n) : s.indices.map Fin.val = List.range' s.lo (s.hi - s.lo) := by
  rw [indices, List.map_map, List.range'_eq_map_range, ← List.map_coe_finRange_eq_range,
    List.map_map]
  rfl

theorem indices_nodup (s : Span n) : s.indices.Nodup := by
  refine List.Nodup.of_map Fin.val ?_
  rw [indices_val]
  exact List.nodup_range'

theorem mem_indices {s : Span n} {i : Fin n} : i ∈ s.indices ↔ s.lo ≤ i.val ∧ i.val < s.hi := by
  rw [← List.mem_map_of_injective Fin.val_injective, indices_val, List.mem_range'_1]
  omega

/-! ## Covers -/

def Covers (spans : List (Span n)) : Prop := spans.flatMap indices = List.finRange n

theorem covers_iff {spans : List (Span n)} :
    Covers spans ↔ spans.flatMap (fun s => List.range' s.lo (s.hi - s.lo)) = List.range n := by
  rw [Covers, ← List.map_inj_right Fin.val_injective, List.map_flatMap,
    List.map_coe_finRange_eq_range]
  simp only [indices_val]

theorem covers_whole (n : Nat) : Covers [whole n] := by
  rw [covers_iff, List.flatMap_singleton, List.range_eq_range']
  rfl

theorem range'_join (a b : Nat) :
    List.range' 0 a ++ List.range' a b = List.range' 0 (a + b) := by
  rw [← List.range'_append_1, Nat.zero_add]

/-- The first pieces of a length reach up to their common end, or to the end of the range. -/
theorem pieces_eq (n step count : Nat) :
    (List.range count).flatMap
        (fun t => List.range' (t * step) (min (t * step + step) n - t * step))
      = List.range (min (count * step) n) := by
  induction count with
  | zero => simp
  | succ count ih =>
    rw [List.range_succ, List.flatMap_append, ih, List.flatMap_singleton, List.range_eq_range',
      List.range_eq_range', Nat.succ_mul]
    have reach : min (count * step) n = count * step ∨
        min (count * step + step) n - count * step = 0 := by omega
    rcases reach with reach | reach
    · rw [reach]
      rw [range'_join]
      congr 1
      omega
    · rw [reach, List.range'_zero, List.append_nil]
      congr 1
      omega

theorem covers_tiles (n : Nat) {step : Nat} (h : 0 < step) : Covers (tiles n step) := by
  have enough : n ≤ (n + step - 1) / step * step := by
    have := Nat.lt_div_mul_add h (a := n + step - 1)
    omega
  rw [covers_iff, tiles, List.flatMap_map, pieces_eq, Nat.min_eq_right enough]

theorem covers_lanes (n width : Nat) : Covers (lanes n width) := by
  have below : n / width * width ≤ n := Nat.div_mul_le_self n width
  rw [covers_iff, lanes, List.flatMap_append, List.flatMap_map, pieces_eq, Nat.min_eq_left below,
    List.flatMap_singleton, List.range_eq_range', List.range_eq_range', range'_join]
  exact congrArg (List.range' 0) (Nat.add_sub_of_le below)

/-! ## Picking an index out of a cover -/

/-- A condition that does not depend on the round can be asked before the loop. -/
theorem flatMap_guard {ι : Type} (c : Prop) [Decidable c] (xs : List ι) (f : ι → List β) :
    xs.flatMap (fun x => if c then f x else []) = if c then xs.flatMap f else [] := by
  split
  · rfl
  · exact List.flatMap_eq_nil_iff.2 fun _ _ => rfl

theorem guard_comm (a b : Prop) [Decidable a] [Decidable b] (l : List β) :
    (if a then if b then l else [] else []) = if b then if a then l else [] else [] := by
  by_cases a <;> by_cases b <;> simp [*]

theorem pick_of_nodup {indices : List (Fin n)} (h : indices.Nodup) (i : Fin n) (l : List β) :
    indices.flatMap (fun k => if k = i then l else []) = if i ∈ indices then l else [] := by
  induction indices with
  | nil => rfl
  | cons k indices ih =>
    obtain ⟨fresh, rest⟩ := List.nodup_cons.1 h
    rw [List.flatMap_cons, ih rest]
    by_cases hk : k = i
    · subst hk
      rw [if_pos rfl, if_neg fresh, if_pos List.mem_cons_self, List.append_nil]
    · rw [if_neg hk, List.nil_append]
      have same : i ∈ k :: indices ↔ i ∈ indices := by
        rw [List.mem_cons, or_iff_right (Ne.symm hk)]
      rw [if_congr same rfl rfl]

theorem pick_all (i : Fin n) (l : List β) :
    (List.finRange n).flatMap (fun k => if k = i then l else []) = l := by
  rw [pick_of_nodup (List.nodup_finRange n), if_pos (List.mem_finRange i)]

theorem pick (s : Span n) (i : Fin n) (l : List β) :
    s.indices.flatMap (fun k => if k = i then l else []) = if i ∈ s.indices then l else [] :=
  pick_of_nodup s.indices_nodup i l

theorem Covers.pick {spans : List (Span n)} (h : Covers spans) (i : Fin n) (l : List β) :
    spans.flatMap (fun s => if i ∈ s.indices then l else []) = l := by
  simp only [← Span.pick]
  rw [← List.flatMap_assoc, h, pick_all]

/-! ## Writing at the indices of a cover -/

section Write

variable {α : Type} {m : Nat} (le : n ≤ m) (f : Fin n → α)

theorem foldl_set_of_notMem (indices : List (Fin n)) (out : Vector α m) {j : Nat} (hj : j < m)
    (h : ∀ i ∈ indices, i.val ≠ j) :
    (indices.foldl (fun out i => out.set i (f i) (Nat.lt_of_lt_of_le i.isLt le)) out)[j]
      = out[j] := by
  induction indices generalizing out with
  | nil => rfl
  | cons i indices ih =>
    rw [List.foldl_cons, ih _ fun i hi => h i (List.mem_cons_of_mem _ hi)]
    exact Vector.getElem_set_ne _ hj (h i List.mem_cons_self)

theorem foldl_set_of_mem (indices : List (Fin n)) (out : Vector α m) {i : Fin n} (hi : i.val < m)
    (h : i ∈ indices) :
    (indices.foldl (fun out i => out.set i (f i) (Nat.lt_of_lt_of_le i.isLt le)) out)[i.val]
      = f i := by
  induction indices generalizing out with
  | nil => cases h
  | cons k indices ih =>
    rw [List.foldl_cons]
    by_cases later : i ∈ indices
    · exact ih _ later
    · obtain rfl : i = k := (List.mem_cons.1 h).resolve_right later
      rw [foldl_set_of_notMem le f indices _ _ fun k hk same => later ((Fin.ext same : k = i) ▸ hk)]
      exact Vector.getElem_set_self _

/-- A loop over a cover writes every cell below `n` and leaves the cells after alone. -/
theorem Covers.foldAll_set {spans : List (Span n)} (h : Covers spans) (out : Vector α m) {j : Nat}
    (hj : j < m) :
    (foldAll spans (fun out i => out.set i (f i) (Nat.lt_of_lt_of_le i.isLt le)) out)[j]
      = if hn : j < n then f ⟨j, hn⟩ else out[j] := by
  rw [foldAll_eq, show spans.flatMap indices = List.finRange n from h]
  split
  · next hn => exact foldl_set_of_mem le f _ out hj (List.mem_finRange ⟨j, hn⟩)
  · next hn => exact foldl_set_of_notMem le f _ out hj fun i _ same => hn (same ▸ i.isLt)

end Write

/-! ## Cutting an array -/

/-- The first pieces of an array, put together, reach up to their common end. -/
theorem flatten_pieces {α : Type} (data : Array α) (step count : Nat) :
    ((List.range count).map fun b => data.extract (b * step) (b * step + step)).toArray.flatten
      = data.extract 0 (count * step) := by
  induction count with
  | zero => simp
  | succ count ih =>
    rw [List.range_succ, List.map_append, List.map_singleton, ← List.append_toArray,
      Array.flatten_append, ih, Nat.succ_mul]
    simp

end Microbench.Span
