import Microbench.Proofs.Lines

/-!
# Printed matrices

A square matrix is printed row by row and closed with an empty line. An element has two places, in
six columns if these are enough, and a blank after it.

Results:

* `gridLines_grid`: what is printed of a matrix.
* `Grid.determines`: nothing else is.
-/
namespace Microbench

/-- The text of an element: two places, with blanks in front up to six columns, and a blank. -/
inductive Cell (x : Float32) : String → Prop where
  | padded {number : String} (two : Decimal.HasPlaces 2 (Binary.ofFloat32 x) number) :
      Cell x (String.ofList (List.replicate (6 - number.length) ' ') ++ number ++ " ")

/-- The lines of a matrix that is stored row by row: a line for each row, with a cell for each
element, and an empty line. -/
structure Grid (n : Nat) (data : Array Float32) (lines : List String) : Prop where
  size : data.size = n * n
  length : lines.length = n + 1
  row : ∀ i < n, ∃ cells : Fin n → String, lines[i]? = some (String.join (List.ofFn cells)) ∧
    ∀ j : Fin n, ∃ x, data[i * n + j]? = some x ∧ Cell x (cells j)
  last : lines[n]? = some ""

theorem Cell.determines {x : Float32} {text text' : String} (h : Cell x text) (h' : Cell x text') :
    text = text' := by
  obtain ⟨two⟩ := h
  obtain ⟨two'⟩ := h'
  rw [two.determines two']

theorem Grid.determines {n : Nat} {data : Array Float32} {lines lines' : List String}
    (h : Grid n data lines) (h' : Grid n data lines') : lines = lines' := by
  refine List.ext_getElem? fun i => ?_
  rcases Nat.lt_trichotomy i n with below | rfl | above
  · obtain ⟨cells, line, all⟩ := h.row i below
    obtain ⟨cells', line', all'⟩ := h'.row i below
    have same : cells = cells' := by
      funext j
      obtain ⟨x, here, cell⟩ := all j
      obtain ⟨x', here', cell'⟩ := all' j
      obtain rfl := Option.some.inj (here.symm.trans here')
      exact cell.determines cell'
    rw [line, line', same]
  · rw [h.last, h'.last]
  · rw [List.getElem?_eq_none (by rw [h.length]; exact above),
      List.getElem?_eq_none (by rw [h'.length]; exact above)]

theorem Cell.avoids {x : Float32} {text : String} (h : Cell x text) : Avoids '\n' text := by
  obtain ⟨two⟩ := h
  rw [avoids_append, avoids_append]
  refine ⟨⟨?_, two.avoids newline_foreign⟩, by decide⟩
  rw [Avoids, String.toList_ofList]
  exact fun among => absurd (List.eq_of_mem_replicate among) (by decide)

theorem avoids_join {c : Char} {parts : List String} (h : ∀ part ∈ parts, Avoids c part) :
    Avoids c (String.join parts) := by
  induction parts with
  | nil => exact List.not_mem_nil
  | cons part parts ih =>
    obtain ⟨first, rest⟩ := List.forall_mem_cons.1 h
    rw [String.join_cons, avoids_append]
    exact ⟨first, ih rest⟩

/-- Every line of a grid is one line. -/
theorem Grid.single {n : Nat} {data : Array Float32} {lines : List String} (h : Grid n data lines) :
    ∀ line ∈ lines, Avoids '\n' line := by
  intro line among
  obtain ⟨i, below, rfl⟩ := List.getElem_of_mem among
  have here := List.getElem?_eq_getElem below
  rcases Nat.lt_or_eq_of_le (Nat.le_of_lt_succ (h.length ▸ below)) with row | rfl
  · obtain ⟨cells, line, all⟩ := h.row i row
    obtain same := Option.some.inj (here.symm.trans line)
    rw [same]
    refine avoids_join fun part hpart => ?_
    obtain ⟨j, rfl⟩ := List.mem_ofFn.1 hpart
    obtain ⟨_, -, cell⟩ := all j
    exact cell.avoids
  · rw [Option.some.inj (here.symm.trans h.last)]
    decide

/-! ## What is printed of a matrix -/

namespace Report

/-- The lines that a grid is made of. -/
def gridLines (n : Nat) (data : Array Float32) : List String :=
  (rowsOf n n data).map (fun row => String.join (row.map cellText)) ++ [""]

theorem grid_eq (n : Nat) (data : Array Float32) :
    grid (rowsOf n n data) = unlines (gridLines n data) := by
  rw [grid, gridLines, unlines_append, unlines, List.map_map]
  rfl

theorem cellText_cell (x : Float32) : Cell x (cellText x) :=
  .padded (Decimal.fixed_hasPlaces Nat.two_pos _)

theorem gridLines_grid {n : Nat} {data : Array Float32} (size : data.size = n * n) :
    Grid n data (gridLines n data) where
  size := size
  length := by simp [gridLines, rowsOf]
  row i below := by
    have last : i * n + n ≤ data.size := by
      rw [size, ← Nat.succ_mul]
      exact Nat.mul_le_mul_right n below
    have element (j : Fin n) : data[i * n + j]? = some (data.getD (i * n + j) 0) := by
      have within : i * n + j < data.size := by omega
      simp [Array.getD, within]
    have cells : (data.extract (i * n) (i * n + n)).toList.map cellText
        = List.ofFn fun j : Fin n => cellText (data.getD (i * n + j) 0) := by
      refine List.ext_getElem (by simp; omega) fun j _ below => ?_
      have within : i * n + j < data.size := by
        rw [List.length_ofFn] at below
        omega
      simp [Array.getD, within]
    refine ⟨_, ?_, fun j => ⟨_, element j, cellText_cell _⟩⟩
    rw [gridLines, List.getElem?_append_left (by simp [rowsOf, below]), rowsOf, List.map_map,
      List.getElem?_map, List.getElem?_range below, ← cells]
    rfl
  last := by simp [gridLines, rowsOf]

end Report

theorem Grid.eq_gridLines {n : Nat} {data : Array Float32} {lines : List String}
    (h : Grid n data lines) : lines = Report.gridLines n data :=
  h.determines (Report.gridLines_grid h.size)

end Microbench
