import Mathlib.Data.List.Forall2
import Microbench.Proofs.Square.Product
import Microbench.Word

/-!
# The product on flat arrays and machine words

The loop nests again, on arrays of `n * n` elements and with every index computed as a machine
word. An index expression that does not fit a word, an element or a slice outside its array and a
slice that ends before it begins have no value, and a nest that meets one has none.

As long as `n * n` fits a word every nest has a value, which is that of the nest on squares. The
sums of a tile's start and length are the ones to look at: a length may be any word, but a tile
that does not start at zero is no longer than its start.

Results:

* `mem_tiles`: where the tiles of a range start and end.
* `reference_eq`, `blocked_eq`, `portable_eq`, `lanes_eq`: the value of each nest.
-/
namespace Microbench.Square

/-- The elements row by row, as a flat array. -/
abbrev flat (m : Square α n) : Array α := m.cells.toArray

namespace Words

/-! ## Checked indices, slices and loops -/

variable {α β : Type}

/-- The index `i * n + j`. -/
def place? (n i j : Nat) : Option Nat := do
  word? ((← word? (i * n)) + j)

def slice? (data : Array α) (lo hi : Nat) : Option (Array α) :=
  if lo ≤ hi ∧ hi ≤ data.size then some (data.extract lo hi) else none

def update? (data : Array α) (index : Nat) (f : α → α) : Option (Array α) :=
  if h : index < data.size then some (data.set index (f data[index])) else none

/-- The loop over `lo, …, hi - 1`. -/
def each (lo hi : Nat) (body : β → Nat → Option β) (init : β) : Option β :=
  (List.range' lo (hi - lo)).foldlM body init

/-- The loop over every index below `n` that is a multiple of `step`. -/
def stepped (n step : Nat) (body : β → Nat → Option β) (init : β) : Option β :=
  ((List.range n).filter (· % step == 0)).foldlM body init

/-! ## The nests -/

section Nests

variable [Add α] [Mul α]

/-- Adds `factor` times a row to the slice from `lo` to `hi`, as far as both reach. -/
def addZipped (factor : α) (lo hi : Nat) (row out : Array α) : Option (Array α) := do
  let target ← slice? out lo hi
  each 0 (min target.size row.size) (fun out d => do
    let term ← row[d]?
    update? out (lo + d) (· + factor * term)) out

def reference (n : Nat) (lhs rhs out : Array α) : Option (Array α) :=
  each 0 n (fun out i => each 0 n (fun out j => do
    let place ← place? n i j
    let start ← out[place]?
    let sum ← each 0 n (fun sum k => do
      return sum + (← lhs[← place? n i k]?) * (← rhs[← place? n k j]?)) start
    update? out place fun _ => sum) out) out

/-- In tiles of the given lengths over rows, terms and columns. -/
def blocked (rows terms columns n : Nat) (lhs rhs out : Array α) : Option (Array α) :=
  stepped n rows (fun out i₀ => do
    let iMax := min (← word? (i₀ + rows)) n
    stepped n terms (fun out k₀ => do
      let kMax := min (← word? (k₀ + terms)) n
      stepped n columns (fun out j₀ => do
        let jMax := min (← word? (j₀ + columns)) n
        each i₀ iMax (fun out i => do
          let lo ← place? n i j₀
          let hi ← place? n i jMax
          let _ ← slice? out lo hi
          each k₀ kMax (fun out k => do
            let factor ← lhs[← place? n i k]?
            let row ← slice? rhs (← place? n k j₀) (← place? n k jMax)
            addZipped factor lo hi row out) out) out) out) out) out

/-- Row by row, a whole row at a time. -/
def portable (n : Nat) (lhs rhs out : Array α) : Option (Array α) :=
  each 0 n (fun out i => do
    let lo ← word? (i * n)
    let hi ← word? ((← word? (i + 1)) * n)
    let _ ← slice? out lo hi
    each 0 n (fun out k => do
      let factor ← lhs[← place? n i k]?
      let row ← slice? rhs (← word? (k * n)) (← word? ((← word? (k + 1)) * n))
      addZipped factor lo hi row out) out) out

/-- Row by row, as many whole vectors of `width` lanes as fit and then element by element. -/
def lanes (width n : Nat) (lhs rhs out : Array α) : Option (Array α) :=
  each 0 n (fun out i => do
    let target ← word? (i * n)
    each 0 n (fun out k => do
      let factor ← lhs[← place? n i k]?
      let source ← word? (k * n)
      let out ← each 0 (n / width) (fun out chunk => do
        let offset ← word? (chunk * width)
        let lo ← word? (target + offset)
        let from' ← word? (source + offset)
        let row ← slice? rhs from' (← word? (from' + width))
        addZipped factor lo (← word? (lo + width)) row out) out
      each (← word? (n / width * width)) n (fun out j => do
        let term ← rhs[← word? (source + j)]?
        update? out (← word? (target + j)) (· + factor * term)) out) out) out

end Nests

/-! ## Loops that have a value -/

section Loops

variable {γ κ : Type} {n : Nat} (repr : γ → β) {body : β → Nat → Option β}

theorem foldlM_map (index : κ → Nat) {f : γ → κ → γ} {xs : List κ}
    (h : ∀ x ∈ xs, ∀ c, body (repr c) (index x) = some (repr (f c x))) (c : γ) :
    (xs.map index).foldlM body (repr c) = some (repr (xs.foldl f c)) := by
  induction xs generalizing c with
  | nil => rfl
  | cons x xs ih =>
    obtain ⟨here, rest⟩ := List.forall_mem_cons.1 h
    rw [List.map_cons, List.foldlM_cons, here, List.foldl_cons]
    exact ih rest (f c x)

theorem each_span (s : Span n) {f : γ → Fin n → γ}
    (h : ∀ k ∈ s.indices, ∀ c, body (repr c) k = some (repr (f c k))) (c : γ) :
    each s.lo s.hi body (repr c) = some (repr (s.foldl f c)) := by
  rw [each, ← s.indices_val, foldlM_map repr _ h, Span.foldl_eq]

theorem each_all {f : γ → Fin n → γ}
    (h : ∀ (k : Fin n) c, body (repr c) k = some (repr (f c k))) (c : γ) :
    each 0 n body (repr c) = some (repr (Fin.foldl n f c)) := by
  rw [each, Nat.sub_zero, ← List.range_eq_range', ← List.map_coe_finRange_eq_range,
    foldlM_map repr _ fun k _ => h k, Fin.foldl_eq_finRange_foldl]

theorem mem_tiles {step : Nat} (hstep : 0 < step) {s : Span n} (h : s ∈ Span.tiles n step) :
    s.lo < n ∧ s.hi = min (s.lo + step) n ∧ s.lo % step = 0 ∧ (s.lo = 0 ∨ step ≤ s.lo) := by
  obtain ⟨t, ht, rfl⟩ := List.mem_map.1 h
  have last : (t + 1) * step ≤ n + step - 1 :=
    (Nat.le_div_iff_mul_le hstep).1 (List.mem_range.1 ht)
  rw [Nat.succ_mul] at last
  refine ⟨?_, rfl, Nat.mul_mod_left t step, ?_⟩
  · show t * step < n
    omega
  · cases t with
    | zero => exact .inl (Nat.zero_mul step)
    | succ t => exact .inr (Nat.le_mul_of_pos_left step (Nat.succ_pos t))

/-- The multiples of the step are the starts of the tiles. -/
theorem starts_eq {step : Nat} (hstep : 0 < step) :
    (List.range n).filter (· % step == 0) = (Span.tiles n step).map (·.lo) := by
  rw [← Span.covers_iff.1 (Span.covers_tiles n hstep), List.filter_flatMap, List.map_eq_flatMap]
  -- Each tile holds one multiple of the step: its start.
  refine List.flatMap_congr fun s hs => ?_
  obtain ⟨below, stop, multiple, -⟩ := mem_tiles hstep hs
  obtain ⟨len, hlen⟩ : ∃ len, s.hi - s.lo = len + 1 := ⟨s.hi - s.lo - 1, by omega⟩
  rw [hlen, List.range'_succ, List.filter_cons_of_pos (by simpa using multiple)]
  congr 1
  rw [List.filter_eq_nil_iff]
  intro x hx
  rw [List.mem_range'_1] at hx
  have inside : x % step = x - s.lo := by
    obtain ⟨d, rfl⟩ : ∃ d, x = s.lo + d := ⟨x - s.lo, by omega⟩
    rw [Nat.add_mod, multiple, Nat.zero_add, Nat.mod_mod, Nat.mod_eq_of_lt (by omega)]
    omega
  rw [beq_iff_eq, inside]
  omega

theorem stepped_tiles {step : Nat} (hstep : 0 < step) {f : γ → Span n → γ}
    (h : ∀ s ∈ Span.tiles n step, ∀ c, body (repr c) s.lo = some (repr (f c s))) (c : γ) :
    stepped n step body (repr c) = some (repr ((Span.tiles n step).foldl f c)) := by
  rw [stepped, starts_eq hstep, foldlM_map repr _ h]

end Loops

/-! ## Reading and writing a square -/

section Flat

variable {n : Nat} (m : Square α n)

theorem word?_of_le {x : Nat} (h : x ≤ maxWord) : word? x = some x := word?_eq_some.2 ⟨rfl, h⟩

theorem row_le {i : Nat} (hi : i < n) {x : Nat} (hx : x ≤ n) : i * n + x ≤ n * n :=
  calc i * n + x ≤ i * n + n := Nat.add_le_add_left hx _
    _ = (i + 1) * n := (Nat.succ_mul i n).symm
    _ ≤ n * n := Nat.mul_le_mul_right n hi

theorem place?_eq (fits : n * n ≤ maxWord) {i : Nat} (hi : i < n) {x : Nat} (hx : x ≤ n) :
    place? n i x = some (i * n + x) := by
  have row := row_le hi hx
  rw [place?, word?_of_le (by omega)]
  exact word?_of_le (by omega)

theorem flat_entry (i j : Fin n) : m.flat[i.val * n + j.val]? = some (m.entry i j) := by
  have inside : i.val * n + j.val < m.flat.size := by
    rw [Vector.size_toArray]
    exact cell_lt i.isLt j.isLt
  rw [Array.getElem?_eq_getElem inside]
  rfl

theorem update?_flat (i j : Fin n) (f : α → α) :
    update? m.flat (i.val * n + j.val) f = some (m.put i j (f (m.entry i j))).flat := by
  have inside : i.val * n + j.val < m.flat.size := by
    rw [Vector.size_toArray]
    exact cell_lt i.isLt j.isLt
  rw [update?, dif_pos inside]
  rfl

theorem slice?_flat {i : Nat} (hi : i < n) {lo hi' : Nat} (h : lo ≤ hi') (hn : hi' ≤ n) :
    slice? m.flat (i * n + lo) (i * n + hi')
      = some (m.flat.extract (i * n + lo) (i * n + hi')) := by
  rw [slice?, if_pos]
  rw [Vector.size_toArray]
  exact ⟨Nat.add_le_add_left h _, row_le hi hn⟩

theorem slice_size {i : Nat} (hi : i < n) {lo hi' : Nat} (hn : hi' ≤ n) :
    (m.flat.extract (i * n + lo) (i * n + hi')).size = hi' - lo := by
  have row := row_le hi hn
  rw [Array.size_extract, Vector.size_toArray]
  omega

theorem slice_entry (i : Fin n) {lo hi d : Nat} (hd : lo + d < hi) (hn : hi ≤ n) :
    (m.flat.extract (i * n + lo) (i * n + hi))[d]? = some (m.entry i ⟨lo + d, by omega⟩) := by
  have inside : d < (m.flat.extract (i * n + lo) (i * n + hi)).size := by
    rw [slice_size m i.isLt hn]
    omega
  rw [Array.getElem?_extract, if_pos (by rwa [Array.size_extract] at inside), Nat.add_assoc]
  exact flat_entry m i ⟨lo + d, by omega⟩

end Flat

/-! ## The values of the nests -/

section Values

variable [Add α] [Mul α] {n : Nat} (lhs rhs out : Square α n)

theorem addZipped_eq (i k : Fin n) (columns : Span n) (h : columns.lo ≤ columns.hi) :
    addZipped (lhs.entry i k) (i * n + columns.lo) (i * n + columns.hi)
        (rhs.flat.extract (k * n + columns.lo) (k * n + columns.hi)) out.flat
      = some (addRow lhs rhs i k columns out).flat := by
  have target := slice?_flat out i.isLt h columns.hi_le
  have bound := columns.hi_le
  have body (d : Fin (columns.hi - columns.lo)) (c : Square α n) :
      (do
        let term ← (rhs.flat.extract (k * n + columns.lo) (k * n + columns.hi))[d.val]?
        update? c.flat (i * n + columns.lo + d) (· + lhs.entry i k * term))
      = some (c.bump i ⟨columns.lo + d, by omega⟩
          (lhs.entry i k * rhs.entry k ⟨columns.lo + d, by omega⟩)).flat := by
    rw [slice_entry rhs k (by omega) columns.hi_le, Nat.add_assoc, Option.bind_eq_bind,
      Option.bind_some]
    exact update?_flat c i ⟨columns.lo + d, by omega⟩ _
  rw [addZipped, target, addRow, Span.foldl_eq, Span.indices, List.foldl_map,
    ← Fin.foldl_eq_finRange_foldl]
  show each 0 (min (Array.size _) (Array.size _)) _ _ = _
  rw [slice_size out i.isLt columns.hi_le, slice_size rhs k.isLt columns.hi_le, Nat.min_self]
  exact each_all flat body out

variable (fits : n * n ≤ maxWord)

include fits

theorem reference_eq :
    reference n lhs.flat rhs.flat out.flat = some (addProduct lhs rhs out).flat := by
  refine each_all flat (fun i c => each_all flat (fun j c => ?_) c) out
  have place := place?_eq fits i.isLt (Nat.le_of_lt j.isLt)
  have sum (start : α) :
      each 0 n (fun sum k => do
        return sum + (← lhs.flat[← place? n i k]?) * (← rhs.flat[← place? n k j]?)) start
      = some (dot lhs rhs i j start) := by
    refine each_all id (fun k sum => ?_) start
    rw [place?_eq fits i.isLt (Nat.le_of_lt k.isLt), place?_eq fits k.isLt (Nat.le_of_lt j.isLt)]
    show (lhs.flat[_]? >>= fun x => rhs.flat[_]? >>= fun y => _) = _
    rw [flat_entry, flat_entry]
    rfl
  rw [place]
  show (c.flat[_]? >>= fun start => _ >>= fun sum => _) = _
  rw [flat_entry]
  show (each 0 n _ _ >>= fun sum => _) = _
  rw [sum]
  exact update?_flat c i j _

theorem two_mul_le : 2 * n ≤ maxWord := by
  by_cases h : 2 ≤ n
  · exact Nat.le_trans (Nat.mul_le_mul_right n h) fits
  · have : 4 ≤ maxWord := by decide
    omega

/-- The end of a tile is a word: a tile that does not start at zero is no longer than its start. -/
theorem tile_end {step : Nat} (hstep : 0 < step) (word : step ≤ maxWord) {s : Span n}
    (h : s ∈ Span.tiles n step) : word? (s.lo + step) = some (s.lo + step) := by
  obtain ⟨below, -, -, zero | short⟩ := mem_tiles hstep h
  · exact word?_of_le (by omega)
  · have := two_mul_le fits
    exact word?_of_le (by omega)

theorem blocked_eq {rows terms columns : Nat} (hr : 0 < rows ∧ rows ≤ maxWord)
    (ht : 0 < terms ∧ terms ≤ maxWord) (hc : 0 < columns ∧ columns ≤ maxWord) :
    blocked rows terms columns n lhs.flat rhs.flat out.flat
      = some (addProductTiled (Span.tiles n rows) (Span.tiles n terms) (Span.tiles n columns)
          lhs rhs out).flat := by
  refine stepped_tiles flat hr.1 (fun is his c => ?_) out
  obtain ⟨-, iMax, -⟩ := mem_tiles hr.1 his
  rw [tile_end fits hr.1 hr.2 his, Option.bind_eq_bind, Option.bind_some, ← iMax]
  refine stepped_tiles flat ht.1 (fun ks hks c => ?_) c
  obtain ⟨-, kMax, -⟩ := mem_tiles ht.1 hks
  rw [tile_end fits ht.1 ht.2 hks, Option.bind_eq_bind, Option.bind_some, ← kMax]
  refine stepped_tiles flat hc.1 (fun js hjs c => ?_) c
  obtain ⟨below, jMax, -⟩ := mem_tiles hc.1 hjs
  rw [tile_end fits hc.1 hc.2 hjs, Option.bind_eq_bind, Option.bind_some, ← jMax]
  have lo_le : js.lo ≤ n := Nat.le_of_lt below
  have ordered : js.lo ≤ js.hi := by omega
  refine each_span flat is (fun i _ c => ?_) c
  simp only [place?_eq fits i.isLt lo_le, place?_eq fits i.isLt js.hi_le, Option.bind_some,
    slice?_flat c i.isLt ordered js.hi_le]
  refine each_span flat ks (fun k _ c => ?_) c
  simp only [place?_eq fits i.isLt (Nat.le_of_lt k.isLt), place?_eq fits k.isLt lo_le,
    place?_eq fits k.isLt js.hi_le, Option.bind_some, flat_entry,
    slice?_flat rhs k.isLt ordered js.hi_le]
  exact addZipped_eq lhs rhs c i k js ordered

/-- The two ends of a row are words. -/
theorem row_ends (i : Fin n) : word? (i * n) = some (i * n + 0) ∧
    word? (i.val + 1) = some (i.val + 1) ∧ word? ((i.val + 1) * n) = some (i * n + n) := by
  have row := row_le i.isLt (Nat.le_refl n)
  have := two_mul_le fits
  have := i.isLt
  refine ⟨word?_of_le (by omega), word?_of_le (by omega), ?_⟩
  rw [Nat.succ_mul]
  exact word?_of_le (by omega)

theorem portable_eq :
    portable n lhs.flat rhs.flat out.flat
      = some (addProductRows [Span.whole n] lhs rhs out).flat := by
  refine each_all flat (fun i c => ?_) out
  obtain ⟨start, next, stop⟩ := row_ends fits i
  simp only [start, next, stop, Option.bind_eq_bind, Option.bind_some,
    slice?_flat c i.isLt (Nat.zero_le n) (Nat.le_refl n)]
  refine each_all flat (fun k c => ?_) c
  obtain ⟨start, next, stop⟩ := row_ends fits k
  simp only [start, next, stop, place?_eq fits i.isLt (Nat.le_of_lt k.isLt), Option.bind_some,
    flat_entry, slice?_flat rhs k.isLt (Nat.zero_le n) (Nat.le_refl n)]
  exact addZipped_eq lhs rhs c i k (Span.whole n) (Nat.zero_le n)

omit fits [Add α] [Mul α] in
theorem vector_le {width q : Nat} (h : q < n / width) : q * width + width ≤ n := by
  rw [← Nat.succ_mul]
  exact Nat.le_trans (Nat.mul_le_mul_right width h) (Nat.div_mul_le_self n width)

/-- The whole vectors of a row. -/
theorem vectors_eq (width : Nat) (i k : Fin n) (piece : Nat → Span n)
    (h : ∀ q < n / width, (piece q).lo = q * width ∧ (piece q).hi = q * width + width) :
    each 0 (n / width) (fun out q => do
        let offset ← word? (q * width)
        let lo ← word? (i * n + offset)
        let from' ← word? (k * n + offset)
        let row ← slice? rhs.flat from' (← word? (from' + width))
        addZipped (lhs.entry i k) lo (← word? (lo + width)) row out) out.flat
      = some ((List.range (n / width)).foldl
          (fun out q => addRow lhs rhs i k (piece q) out) out).flat := by
  rw [each, Nat.sub_zero, ← List.range_eq_range']
  refine Eq.trans (by rw [List.map_id]) (foldlM_map flat id (fun q hq c => ?_) out)
  obtain ⟨lo, hi⟩ := h q (List.mem_range.1 hq)
  have inside := vector_le (List.mem_range.1 hq)
  have target := row_le i.isLt inside
  have source := row_le k.isLt inside
  have n_le := two_mul_le fits
  have row := slice?_flat rhs k.isLt (Nat.le_add_right (q * width) width) inside
  have add := addZipped_eq lhs rhs c i k (piece q) (by omega)
  rw [lo, hi] at add
  rw [id, word?_of_le (x := q * width) (by omega)]
  simp only [Option.bind_eq_bind, Option.bind_some]
  rw [word?_of_le (by omega), word?_of_le (by omega)]
  simp only [Option.bind_some, Nat.add_assoc]
  rw [word?_of_le (by omega), word?_of_le (by omega)]
  simp only [Option.bind_some, row]
  exact add

theorem tail_eq (i k : Fin n) (tail : Span n) :
    each tail.lo tail.hi (fun out j => do
        let term ← rhs.flat[← word? (k * n + j)]?
        update? out (← word? (i * n + j)) (· + lhs.entry i k * term)) out.flat
      = some (addRow lhs rhs i k tail out).flat := by
  refine each_span flat tail (fun j _ c => ?_) out
  have target := row_le i.isLt (Nat.le_of_lt j.isLt)
  have source := row_le k.isLt (Nat.le_of_lt j.isLt)
  rw [word?_of_le (by omega), word?_of_le (by omega)]
  simp only [Option.bind_eq_bind, Option.bind_some, flat_entry]
  exact update?_flat c i j _

theorem lanes_eq (width : Nat) :
    lanes width n lhs.flat rhs.flat out.flat
      = some (addProductRows (Span.lanes n width) lhs rhs out).flat := by
  refine each_all flat (fun i c => ?_) out
  rw [(row_ends fits i).1, Option.bind_eq_bind, Option.bind_some, Nat.add_zero]
  refine each_all flat (fun k c => ?_) c
  rw [place?_eq fits i.isLt (Nat.le_of_lt k.isLt), (row_ends fits k).1, Nat.add_zero]
  simp only [Option.bind_eq_bind, Option.bind_some, flat_entry]
  have start : word? (n / width * width) = some (n / width * width) := by
    have := two_mul_le fits
    have := Nat.div_mul_le_self n width
    exact word?_of_le (by omega)
  have vectors := vectors_eq lhs rhs c fits width i k
    (fun q => ⟨q * width, min (q * width + width) n, Nat.min_le_right ..⟩)
    fun q hq => ⟨rfl, Nat.min_eq_left (vector_le hq)⟩
  simp only [Option.bind_eq_bind] at vectors
  rw [vectors, Option.bind_some, start, Option.bind_some, Span.lanes, List.foldl_append,
    List.foldl_map]
  exact tail_eq lhs rhs _ fits i k ⟨n / width * width, n, Nat.le_refl n⟩

end Values

end Words

end Microbench.Square
