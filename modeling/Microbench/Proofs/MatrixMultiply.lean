import Microbench.Kernel.MatrixMultiply
import Microbench.Proofs.Kernel
import Microbench.Proofs.Square.Words

/-!
# The matrix kernels agree

Results:

* `operands_eq`: matrices of the shape's dimension are accepted as they are.
* `operation_holds`: the type and length of the output are kept.
* `operation_generated`: all ways of adding a product agree on a generated workload.
* `products_agree`: every nest and every kernel succeeds with the same product.
-/
namespace Microbench

/-- Every entry of the product is a row times a column, added term by term to what stood there. -/
def Square.Product [Add α] [Mul α] (lhs rhs out product : Square α n) : Prop :=
  ∀ i j, product.entry i j
    = Fin.foldl n (fun sum k => sum + lhs.entry i k * rhs.entry k j) (out.entry i j)

theorem Square.addProduct_product [Add α] [Mul α] (lhs rhs out : Square α n) :
    lhs.Product rhs out (addProduct lhs rhs out) := by
  intro i j
  rw [addProduct_adds, Fin.foldl_eq_finRange_foldl]
  rfl

namespace MatrixMultiply

section Kernels

variable {m : Type → Type} [Monad m] [LawfulMonad m] {n : Nat}

theorem operands_eq (fits : n * n ≤ maxWord) (steps : Nat) (lhs rhs out : Square Float32 n) :
    operands ⟨⟨.matrixMultiply, n, steps⟩, [.f32 lhs.flat, .f32 rhs.flat]⟩ (.f32 out.flat)
      = .ok ⟨n, lhs, rhs, out⟩ := by
  have check : Shape.check ⟨.matrixMultiply, n, steps⟩ .matrixMultiply = .ok (n * n) := by
    rw [Shape.check, Shape.elementCount, if_neg (fun h => h rfl)]
    simp only [Square.Words.word?_of_le fits]
  have sizes : lhs.flat.size = n * n ∧ rhs.flat.size = n * n ∧ out.flat.size = n * n :=
    ⟨lhs.cells.size_toArray, rhs.cells.size_toArray, out.cells.size_toArray⟩
  rw [operands, check]
  exact dif_pos sizes

theorem operation_eq (fits : n * n ≤ maxWord) (steps : Nat) (lhs rhs out : Square Float32 n)
    (add : {n : Nat} → (lhs rhs out : Square Float32 n) → Square Float32 n) :
    operation add ⟨⟨.matrixMultiply, n, steps⟩, [.f32 lhs.flat, .f32 rhs.flat]⟩ (.f32 out.flat)
      = .ok (.f32 (add lhs rhs out).flat) := by
  rw [operation, operands_eq fits]
  rfl

theorem run_eq (fits : n * n ≤ maxWord) (steps : Nat) (lhs rhs out : Square Float32 n)
    (name : String) (variant : Variant)
    (add : {n : Nat} → (lhs rhs out : Square Float32 n) → Square Float32 n) :
    (Kernel.ofOperation name .matrixMultiply variant (operation add) : Kernel m).run
        ⟨⟨.matrixMultiply, n, steps⟩, [.f32 lhs.flat, .f32 rhs.flat]⟩ (.f32 out.flat)
      = pure (.ok (), .f32 (add lhs rhs out).flat) :=
  Kernel.ofOperation_run _ _ _ _ (operation_eq fits steps lhs rhs out add)

end Kernels

theorem addTiled_eq (t : Tiling) {n : Nat} (lhs rhs out : Square Float32 n) :
    addTiled t lhs rhs out = Square.addProduct lhs rhs out :=
  Square.addProductTiled_eq lhs rhs (Span.covers_tiles n (Nat.le_max_right ..))
    (Span.covers_tiles n (Nat.le_max_right ..)) (Span.covers_tiles n (Nat.le_max_right ..)) out

theorem addLanes_eq {n : Nat} (lhs rhs out : Square Float32 n) :
    addLanes lhs rhs out = Square.addProduct lhs rhs out :=
  Square.addProductRows_eq lhs rhs (Span.covers_lanes n laneCount) out

theorem operands_holds {inputs : Inputs} {output : Buffer} {o : Operands}
    (h : operands inputs output = .ok o) : output.Holds .f32 (o.n * o.n) := by
  obtain ⟨count, -, h⟩ := ok_of_bind h
  obtain ⟨lhs, -, h⟩ := ok_of_bind h
  obtain ⟨rhs, -, h⟩ := ok_of_bind h
  obtain ⟨out, typed, h⟩ := ok_of_bind h
  dsimp only at h
  split at h
  · next sizes =>
    cases h
    exact sizes.2.2 ▸ Buffer.requireF32_holds typed
  · cases h

theorem operation_holds {add : {n : Nat} → (lhs rhs out : Square Float32 n) → Square Float32 n}
    {inputs : Inputs} {output result : Buffer} (h : operation add inputs output = .ok result) :
    result.elementType = output.elementType ∧ result.size = output.size := by
  obtain ⟨o, accepted, h⟩ := ok_of_bind h
  cases h
  exact Buffer.Holds.same ⟨rfl, Vector.size_toArray _⟩ (operands_holds accepted)

/-- All ways of adding a product succeed on a generated workload. -/
theorem operation_generated {a : Supply} {fill : Fill} {shape : Shape} {w : Workload}
    (capability : shape.capability = .matrixMultiply)
    (h : Workload.generate a fill shape = .ok w) :
    ∃ product, ∀ add : {n : Nat} → (lhs rhs out : Square Float32 n) → Square Float32 n,
      (∀ {n : Nat} (lhs rhs out : Square Float32 n),
        add lhs rhs out = Square.addProduct lhs rhs out) →
      operation add w.inputs w.output = .ok (.f32 product) := by
  obtain ⟨len, buffers, count, length, holds, rfl⟩ := Workload.generate_holds h
  obtain ⟨c, n, steps⟩ := shape
  obtain rfl : c = .matrixMultiply := capability
  obtain ⟨rfl, fits⟩ := word?_eq_some.1 count
  obtain ⟨first, second, rfl⟩ := List.length_eq_two.1 length
  obtain ⟨lhs, rfl⟩ := (holds first (by simp)).f32
  obtain ⟨rhs, rfl⟩ := (holds second (by simp)).f32
  refine ⟨(Square.addProduct ⟨lhs⟩ ⟨rhs⟩ ⟨.replicate (n * n) 0⟩).flat, fun add same => ?_⟩
  rw [← same]
  exact operation_eq fits steps ⟨lhs⟩ ⟨rhs⟩ ⟨.replicate (n * n) 0⟩ add

end MatrixMultiply

open MatrixMultiply in
/-- Whatever the tiling, all nests and all kernels have a value and it is the same, for any two
operations in place of addition and multiplication. -/
theorem products_agree {m : Type → Type} [Monad m] [LawfulMonad m] {n : Nat}
    (fits : n * n ≤ maxWord) (t : Tiling)
    (words : t.rows ≤ maxWord ∧ t.terms ≤ maxWord ∧ t.columns ≤ maxWord) :
    (∀ {α : Type} [Add α] [Mul α] (lhs rhs out : Square α n), ∃ product,
      lhs.Product rhs out product ∧
      lhs.addProduct rhs out = product ∧
      Square.addProductTiled (Span.tiles n (max t.rows 1)) (Span.tiles n (max t.terms 1))
        (Span.tiles n (max t.columns 1)) lhs rhs out = product ∧
      (∀ width, Square.addProductRows (Span.lanes n width) lhs rhs out = product) ∧
      Square.Words.reference n lhs.flat rhs.flat out.flat = some product.flat ∧
      Square.Words.blocked (max t.rows 1) (max t.terms 1) (max t.columns 1) n
        lhs.flat rhs.flat out.flat = some product.flat ∧
      Square.Words.portable n lhs.flat rhs.flat out.flat = some product.flat ∧
      ∀ width, Square.Words.lanes width n lhs.flat rhs.flat out.flat = some product.flat) ∧
    ∀ (steps : Nat) (lhs rhs out : Square Float32 n), ∃ product,
      lhs.Product rhs out product ∧
      ∀ k ∈ ([reference, blocked t, simd] : List (Kernel m)),
        k.run ⟨⟨.matrixMultiply, n, steps⟩, [.f32 lhs.flat, .f32 rhs.flat]⟩ (.f32 out.flat)
          = pure (.ok (), .f32 product.flat) := by
  have length {step : Nat} (h : step ≤ maxWord) : 0 < max step 1 ∧ max step 1 ≤ maxWord := by
    have : 1 ≤ maxWord := by decide
    omega
  have rows := length words.1
  have terms := length words.2.1
  have columns := length words.2.2
  have tiled {α : Type} [Add α] [Mul α] (lhs rhs out : Square α n) :=
    Square.addProductTiled_eq lhs rhs (Span.covers_tiles n rows.1) (Span.covers_tiles n terms.1)
      (Span.covers_tiles n columns.1) out
  have rowwise {α : Type} [Add α] [Mul α] (lhs rhs out : Square α n) (width : Nat) :=
    Square.addProductRows_eq lhs rhs (Span.covers_lanes n width) out
  constructor
  · intro α _ _ lhs rhs out
    refine ⟨_, lhs.addProduct_product rhs out, rfl, tiled lhs rhs out, rowwise lhs rhs out,
      Square.Words.reference_eq lhs rhs out fits, ?_, ?_, fun width => ?_⟩
    · rw [Square.Words.blocked_eq lhs rhs out fits rows terms columns, tiled]
    · rw [Square.Words.portable_eq lhs rhs out fits,
        Square.addProductRows_eq lhs rhs (Span.covers_whole n)]
    · rw [Square.Words.lanes_eq lhs rhs out fits, rowwise]
  · intro steps lhs rhs out
    refine ⟨_, lhs.addProduct_product rhs out, fun k hk => ?_⟩
    simp only [List.mem_cons, List.not_mem_nil, or_false] at hk
    rcases hk with rfl | rfl | rfl
    · exact run_eq fits steps lhs rhs out _ _ Square.addProduct
    · refine (run_eq fits steps lhs rhs out _ _ (addTiled t)).trans ?_
      rw [addTiled, tiled]
    · refine (run_eq fits steps lhs rhs out _ _ addLanes).trans ?_
      rw [addLanes, rowwise]

open MatrixMultiply in
/-- Tiles that do not divide the dimension, of length zero and as long as a word allows. -/
theorem products_agree_odd_tiles :
    (3 * 3 ≤ maxWord ∧ 2 ≤ maxWord ∧ 0 ≤ maxWord ∧ maxWord ≤ maxWord) ∧
    (∃ product : Square Nat 3, product.flat = #[15, 18, 21, 42, 54, 66, 69, 90, 111] ∧
      Square.Words.blocked 2 1 maxWord 3 #[0, 1, 2, 3, 4, 5, 6, 7, 8] #[0, 1, 2, 3, 4, 5, 6, 7, 8]
        #[0, 0, 0, 0, 0, 0, 0, 0, 0] = some product.flat) ∧
    ∀ lhs rhs out : Square Float32 3, ∃ product, lhs.Product rhs out product ∧
      ∀ k ∈ ([reference, blocked ⟨2, maxWord, 0⟩, simd] : List (Kernel Id)),
        k.run ⟨⟨.matrixMultiply, 3, 0⟩, [.f32 lhs.flat, .f32 rhs.flat]⟩ (.f32 out.flat)
          = pure (.ok (), .f32 product.flat) := by
  have fits : 3 * 3 ≤ maxWord := by decide
  have words : 2 ≤ maxWord ∧ 0 ≤ maxWord ∧ maxWord ≤ maxWord := by decide
  obtain ⟨nests, kernels⟩ := products_agree (m := Id) fits ⟨2, maxWord, 0⟩ words
  let counting : Square Nat 3 := ⟨#v[0, 1, 2, 3, 4, 5, 6, 7, 8]⟩
  obtain ⟨product, -, rfl, -, -, -, value, -⟩ :=
    nests counting counting ⟨#v[0, 0, 0, 0, 0, 0, 0, 0, 0]⟩
  exact ⟨⟨fits, words⟩, ⟨_, by decide +kernel, value⟩, kernels 0⟩

end Microbench
