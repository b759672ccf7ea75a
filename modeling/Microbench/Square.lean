import Microbench.Span

/-!
# Square matrices

An `n × n` matrix is stored row by row. Three ways of adding a product to a matrix are given:
cell by cell, tile by tile, and row by row in lanes. They are stated for any two operations, so
nothing about them rests on a law of addition or multiplication.
-/
namespace Microbench

theorem cell_lt {n i j : Nat} (hi : i < n) (hj : j < n) : i * n + j < n * n :=
  calc i * n + j < i * n + n := Nat.add_lt_add_left hj _
    _ = (i + 1) * n := (Nat.succ_mul i n).symm
    _ ≤ n * n := Nat.mul_le_mul_right n hi

structure Square (α : Type) (n : Nat) where
  /-- Row by row. -/
  cells : Vector α (n * n)

namespace Square

variable {α : Type} {n : Nat}

/-- The place of row `i`, column `j`. -/
@[inline] def cell (i j : Fin n) : Fin (n * n) := ⟨i * n + j, cell_lt i.isLt j.isLt⟩

@[inline] def entry (m : Square α n) (i j : Fin n) : α := m.cells.get (cell i j)

@[inline] def put (m : Square α n) (i j : Fin n) (x : α) : Square α n :=
  ⟨m.cells.set (cell i j) x (cell i j).isLt⟩

/-- Adds `x` to one cell. -/
@[inline] def bump [Add α] (m : Square α n) (i j : Fin n) (x : α) : Square α n :=
  m.put i j (m.entry i j + x)

variable [Add α] [Mul α]

/-- Row `i` of `lhs` times column `j` of `rhs`, added term by term to `start` in the order of
the columns of `lhs`. -/
@[specialize] def dot (lhs rhs : Square α n) (i j : Fin n) (start : α) : α :=
  Fin.foldl n (fun sum k => sum + lhs.entry i k * rhs.entry k j) start

/-- Adds the product cell by cell. -/
@[specialize] def addProduct (lhs rhs out : Square α n) : Square α n :=
  Fin.foldl n (fun out i =>
    Fin.foldl n (fun out j => out.put i j (dot lhs rhs i j (out.entry i j))) out) out

/-- Row `i` of the result gains `lhs (i, k)` times row `k` of `rhs`, over the columns of a span. -/
@[inline] def addRow (lhs rhs : Square α n) (i k : Fin n) (columns : Span n) (out : Square α n) :
    Square α n :=
  let factor := lhs.entry i k
  columns.foldl (fun out j => out.bump i j (factor * rhs.entry k j)) out

/-- Adds the product tile by tile, given the tiles of the rows, of the terms and of the
columns. -/
@[specialize] def addProductTiled (rows terms columns : List (Span n)) (lhs rhs out : Square α n) :
    Square α n :=
  rows.foldl (fun out is =>
    terms.foldl (fun out ks =>
      columns.foldl (fun out js =>
        is.foldl (fun out i => ks.foldl (fun out k => addRow lhs rhs i k js out) out) out)
        out) out) out

/-- Adds the product row by row, each row update cut into the given pieces. -/
@[specialize] def addProductRows (columns : List (Span n)) (lhs rhs out : Square α n) :
    Square α n :=
  Fin.foldl n (fun out i =>
    Fin.foldl n (fun out k => columns.foldl (fun out js => addRow lhs rhs i k js out) out)
      out) out

end Square

end Microbench
