import Microbench.Proofs.Span
import Microbench.Square

/-!
# Three ways to one product

What a loop nest does to one cell of the output is to add terms to it, in some order. The terms
of a loop are those of its rounds, one after another, so the terms a whole nest adds to a cell
are read off its loops. For all three nests they are the terms `0, …, n - 1` in ascending order:
the cell-by-cell nest by itself, the others because tiles and lanes cover the range.

No law of addition or multiplication is used.

Results:

* `addProduct_adds`, `addProductTiled_adds`, `addProductRows_adds`: the terms each nest adds.
* `addProductTiled_eq`, `addProductRows_eq`: both give what the cell-by-cell nest gives.
-/
namespace Microbench.Square

variable {α : Type} {n : Nat}

/-! ## Entries -/

theorem cell_inj {i j i' j' : Fin n} : cell i j = cell i' j' ↔ i = i' ∧ j = j' := by
  constructor
  · intro h
    have pos : 0 < n := Nat.lt_of_le_of_lt (Nat.zero_le _) i.isLt
    have h : i.val * n + j.val = i'.val * n + j'.val := congrArg Fin.val h
    have rows : (i.val * n + j.val) / n = (i'.val * n + j'.val) / n := by rw [h]
    rw [Nat.mul_comm, Nat.mul_add_div pos, Nat.div_eq_of_lt j.isLt, Nat.mul_comm,
      Nat.mul_add_div pos, Nat.div_eq_of_lt j'.isLt] at rows
    have same : i = i' := Fin.ext rows
    subst same
    exact ⟨rfl, Fin.ext (Nat.add_left_cancel h)⟩
  · intro h
    obtain ⟨rfl, rfl⟩ := h
    rfl

theorem entry_eq (m : Square α n) (i j : Fin n) : m.entry i j = m.cells[cell i j] := rfl

theorem entry_put (m : Square α n) (i j : Fin n) (x : α) (i' j' : Fin n) :
    (m.put i j x).entry i' j' = if i = i' ∧ j = j' then x else m.entry i' j' := by
  simp only [entry_eq, put, Fin.getElem_fin, Vector.getElem_set, ← Fin.ext_iff, cell_inj]

/-- Every place holds the entry of some row and column. -/
theorem ext_entry {a b : Square α n} (h : ∀ i j, a.entry i j = b.entry i j) : a = b := by
  obtain ⟨a⟩ := a
  obtain ⟨b⟩ := b
  congr
  ext x hx
  have pos : 0 < n := Nat.pos_of_mul_pos_left (Nat.lt_of_le_of_lt (Nat.zero_le x) hx)
  have same := h ⟨x / n, Nat.div_lt_of_lt_mul hx⟩ ⟨x % n, Nat.mod_lt x pos⟩
  have place : x / n * n + x % n = x := by rw [Nat.mul_comm]; exact Nat.div_add_mod x n
  have read (v : Vector α (n * n)) :
      (Square.mk v).entry ⟨x / n, Nat.div_lt_of_lt_mul hx⟩ ⟨x % n, Nat.mod_lt x pos⟩ = v[x] := by
    simp only [entry_eq, cell, Fin.getElem_fin, place]
  rwa [read, read] at same

/-! ## Terms added to a cell -/

section Terms

variable [Add α] [Mul α] {lhs rhs : Square α n} {i j : Fin n} {ι : Type}

/-- Adds one term of row `i` times column `j`. -/
def gain (lhs rhs : Square α n) (i j : Fin n) (sum : α) (k : Fin n) : α :=
  sum + lhs.entry i k * rhs.entry k j

/-- A piece of a program adds these terms to one cell, in this order. -/
def Adds (lhs rhs : Square α n) (i j : Fin n) (terms : List (Fin n))
    (p : Square α n → Square α n) : Prop :=
  ∀ out, (p out).entry i j = terms.foldl (gain lhs rhs i j) (out.entry i j)

/-- A loop adds the terms of its rounds one after another. -/
theorem Adds.list {terms : ι → List (Fin n)} {p : Square α n → ι → Square α n}
    (h : ∀ x, Adds lhs rhs i j (terms x) (p · x)) (xs : List ι) :
    Adds lhs rhs i j (xs.flatMap terms) (xs.foldl p ·) := by
  intro out
  induction xs generalizing out with
  | nil => rfl
  | cons x xs ih =>
    show (xs.foldl p (p out x)).entry i j = _
    rw [ih, h, List.flatMap_cons, List.foldl_append]

theorem Adds.span {terms : Fin n → List (Fin n)} {p : Square α n → Fin n → Square α n}
    (h : ∀ k, Adds lhs rhs i j (terms k) (p · k)) (s : Span n) :
    Adds lhs rhs i j (s.indices.flatMap terms) (s.foldl p ·) := by
  simp only [Span.foldl_eq]
  exact Adds.list h s.indices

theorem Adds.all {terms : Fin n → List (Fin n)} {p : Square α n → Fin n → Square α n}
    (h : ∀ k, Adds lhs rhs i j (terms k) (p · k)) :
    Adds lhs rhs i j ((List.finRange n).flatMap terms) (Fin.foldl n p ·) := by
  simp only [Fin.foldl_eq_finRange_foldl]
  exact Adds.list h (List.finRange n)

end Terms

/-! ## The three nests -/

section Nests

variable [Add α] [Mul α] (lhs rhs : Square α n) (i j : Fin n)

theorem put_adds (i' j' : Fin n) (terms : List (Fin n)) {value : Square α n → α}
    (h : ∀ out, value out = terms.foldl (gain lhs rhs i' j') (out.entry i' j')) :
    Adds lhs rhs i j (if j' = j then if i' = i then terms else [] else [])
      fun out => out.put i' j' (value out) := by
  intro out
  rw [entry_put]
  by_cases hi : i' = i
  · by_cases hj : j' = j
    · subst hi hj
      rw [if_pos ⟨rfl, rfl⟩, if_pos rfl, if_pos rfl]
      exact h out
    · rw [if_neg (fun h => hj h.2), if_neg hj]
      rfl
  · rw [if_neg (fun h => hi h.1), if_neg hi, ite_self]
    rfl

theorem addRow_adds (i' k : Fin n) (columns : Span n) :
    Adds lhs rhs i j (if j ∈ columns.indices then if i' = i then [k] else [] else [])
      (addRow lhs rhs i' k columns) := by
  rw [← Span.pick]
  exact Adds.span (fun j' => put_adds lhs rhs i j i' j' [k] fun _ => rfl) columns

theorem addProduct_adds : Adds lhs rhs i j (List.finRange n) (addProduct lhs rhs) := by
  have row (i' : Fin n) := Adds.all fun j' =>
    put_adds lhs rhs i j i' j' (List.finRange n) fun out =>
      Fin.foldl_eq_finRange_foldl (gain lhs rhs i' j') (out.entry i' j')
  simp only [Span.pick_all] at row
  have nest := Adds.all row
  rwa [Span.pick_all] at nest

/-- All the terms of a tile go to the cells in its rows and columns. -/
theorem tile_adds (is ks js : Span n) :
    Adds lhs rhs i j (if j ∈ js.indices then if i ∈ is.indices then ks.indices else [] else [])
      fun out => is.foldl (fun out i' => ks.foldl (fun out k => addRow lhs rhs i' k js out) out)
        out := by
  have row (i' : Fin n) : Adds lhs rhs i j
      (if i' = i then if j ∈ js.indices then ks.indices else [] else [])
      fun out => ks.foldl (fun out k => addRow lhs rhs i' k js out) out := by
    have terms := Adds.span (addRow_adds lhs rhs i j i' · js) ks
    rwa [Span.flatMap_guard, Span.flatMap_guard, List.flatMap_singleton', Span.guard_comm] at terms
  have tile := Adds.span row is
  rwa [Span.pick, Span.guard_comm] at tile

theorem addProductTiled_adds {rows terms columns : List (Span n)} (hr : Span.Covers rows)
    (ht : Span.Covers terms) (hc : Span.Covers columns) :
    Adds lhs rhs i j (List.finRange n) (addProductTiled rows terms columns lhs rhs) := by
  -- From the inside out: one span of columns and one of rows have the cell, and all terms count.
  have strip (is ks : Span n) := Adds.list (tile_adds lhs rhs i j is ks) columns
  simp only [hc.pick] at strip
  have band (is : Span n) := Adds.list (strip is) terms
  simp only [Span.flatMap_guard, show terms.flatMap Span.indices = List.finRange n from ht] at band
  have nest := Adds.list band rows
  rwa [hr.pick] at nest

theorem addProductRows_adds {columns : List (Span n)} (h : Span.Covers columns) :
    Adds lhs rhs i j (List.finRange n) (addProductRows columns lhs rhs) := by
  have term (i' k : Fin n) := Adds.list (addRow_adds lhs rhs i j i' k) columns
  simp only [h.pick] at term
  have row (i' : Fin n) := Adds.all (term i')
  simp only [Span.flatMap_guard, List.flatMap_singleton'] at row
  have nest := Adds.all row
  rwa [Span.pick_all] at nest

theorem addProductTiled_eq {rows terms columns : List (Span n)} (hr : Span.Covers rows)
    (ht : Span.Covers terms) (hc : Span.Covers columns) (out : Square α n) :
    addProductTiled rows terms columns lhs rhs out = addProduct lhs rhs out :=
  ext_entry fun i j => by rw [addProductTiled_adds lhs rhs i j hr ht hc, addProduct_adds]

theorem addProductRows_eq {columns : List (Span n)} (h : Span.Covers columns)
    (out : Square α n) : addProductRows columns lhs rhs out = addProduct lhs rhs out :=
  ext_entry fun i j => by rw [addProductRows_adds lhs rhs i j h, addProduct_adds]

end Nests

end Microbench.Square
