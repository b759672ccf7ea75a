import Microbench.Proofs.CommandLine.Execute
import Microbench.Proofs.Grid
import Microbench.Proofs.Sweep.Builtin
import Microbench.Proofs.Sweep.Observers

/-!
# What a command prints of its buffers

A command that prints has one size. While it sweeps it prints the matrices that are multiplied, and
of each kernel in order what it left: of matrices a grid, of vectors an element a line. The kernels
leave the same, each on the generated workload.

Results:

* `Visited.leaves`: what the built-in kernels leave at one size.
* `Prints.single`: what is printed has no line break inside a line.
* `prints_of_left`: what is printed at the only size of a command that prints.
-/
namespace Microbench

open Sweep Registry

/-! ## The built-in kernels at one size -/

section Points

variable {σ : Type} {s : Setup (StateM σ)} {reference : Kernel (StateM σ)}
  {others : List (Kernel (StateM σ))} {size : Nat} {p : Point (StateM σ)}

theorem Sweep.Truth.judge_singleLine (truth : Truth) (v : Verifier) (output : Buffer) :
    (truth.judge v output).SingleLine := by
  cases truth with
  | known expected => exact v.compare_singleLine expected output
  | lost => rintro _ ⟨⟩; decide
  | absent => rintro _ ⟨⟩; decide

/-- A turn of a steady kernel that answers the generated workload without failing. -/
theorem Turn.Lawful.leaves {judge : Buffer → Verdict} {generated w : Workload}
    {t : Turn (StateM σ)} {out : Buffer} (h : t.Lawful s judge w) (steady : t.kernel.Steady)
    (fresh : generated.Fresh w) (x : σ)
    (runs : t.kernel.run generated.inputs generated.output = pure (.ok (), out)) :
    t.record.kernel = t.kernel.name ∧ t.workload = { generated with output := out } ∧
      t.record.verdict = judge out := by
  have answer := h.answer_eq steady fresh x
  have verdict := h.judged_eq steady fresh x
  have here : t.kernel.answer x generated = (.ok (), out) := by rw [Kernel.answer, runs]; rfl
  rw [here] at answer verdict
  refine ⟨by rw [h.record]; rfl, ?_, verdict⟩
  rw [(Prod.mk.inj answer).2, ← h.inputs.trans fresh.inputs]

/-- What the built-in kernels leave at one size. -/
theorem Visited.leaves (h : Visited s reference others size p) (x : σ)
    (members : ∀ k ∈ reference :: others,
      k ∈ builtinKernels ∧ k.capability = s.config.capability) :
    ∃ out, out.Holds p.workload.output.elementType p.workload.output.size ∧
      (∀ k ∈ reference :: others,
        k.run p.workload.inputs p.workload.output = pure (.ok (), out)) ∧
      p.turns.map (·.kernel) = reference :: others ∧
      ∀ t ∈ p.turns, t.record.kernel = t.kernel.name ∧
        t.workload = { p.workload with output := out } ∧ t.record.verdict.SingleLine := by
  have supports := builtin_supports_shapeFor members size
  obtain ⟨generate, visit⟩ := h
  obtain ⟨out, -, answers⟩ := builtin_runs_alike members generate
  have steady : ∀ k ∈ reference :: others, k.Steady := fun k hk => builtin_steady k (members k hk).1
  have kernels : p.turns.map (·.kernel) = reference :: others := by
    rw [visit.kernels_eq, Workload.generate_shape generate, List.filter_eq_self.2 supports]
  obtain ⟨first, later⟩ := visit.lawful (I := p.workload.Fresh) (Workload.generate_fresh generate)
    fun _ _ t ht lawful fresh => lawful.fresh (steady t.kernel ht) fresh x
  have holds := (steady reference List.mem_cons_self).keeps p.workload.inputs p.workload.output x
  rw [answers reference List.mem_cons_self] at holds
  refine ⟨out, ⟨holds.1, holds.2⟩, answers, kernels, fun t ht => ?_⟩
  -- The turn of the reference passes whatever it leaves; the others are compared with that.
  have among : t.kernel ∈ reference :: others := kernels ▸ List.mem_map_of_mem ht
  rcases List.mem_append.1 ht with ht | ht
  · have lawful := first t (Option.mem_toList.1 ht)
    obtain ⟨name, left, verdict⟩ := lawful.leaves (steady _ among)
      (Workload.generate_fresh generate) x (answers _ among)
    exact ⟨name, left, by rw [verdict]; exact nofun⟩
  · obtain ⟨w, fresh, lawful⟩ := later t ht
    obtain ⟨name, left, verdict⟩ := lawful.leaves (steady _ among) fresh x (answers _ among)
    exact ⟨name, left, by rw [verdict]; exact p.truth.judge_singleLine _ _⟩

/-- What the printer writes when it is called at one size. -/
theorem Point.printed {kernels : List (Kernel (StateM σ))} {out : Buffer}
    (same : p.turns.map (·.kernel) = kernels)
    (left : ∀ t ∈ p.turns, t.record.kernel = t.kernel.name ∧
      t.workload = { p.workload with output := out }) :
    String.join (p.hooks.map CommandLine.printed) = CommandLine.inputGrids p.workload
      ++ String.join (kernels.map fun k =>
          CommandLine.outputText k.name { p.workload with output := out }) := by
  have outputs : p.turns.map (fun t => CommandLine.outputText t.record.kernel t.workload)
      = kernels.map fun k => CommandLine.outputText k.name { p.workload with output := out } := by
    rw [← same, List.map_map]
    refine List.map_congr_left fun t ht => ?_
    rw [(left t ht).1, (left t ht).2]
    rfl
  rw [← outputs, Point.hooks, List.map_cons, String.join_cons, List.map_map]
  rfl

end Points

/-! ## Printed buffers -/

namespace CommandLine

open Report

variable {σ : Type}

/-- The lines that a command prints of its buffers while it sweeps. Matrices are printed as grids,
first the two that are multiplied and then the product that each kernel left. Of vectors each
kernel's sums are printed, an element a line. -/
inductive Prints (a : Supply) (kernels : List (Kernel (StateM σ))) :
    Command → List String → Prop where
  | cache {kilobytes steps : Nat} {names : List String} :
      Prints a kernels (.cache kilobytes steps names) []
  | memcpy {blocks : Nat} {trace : Bool} {names : List String} :
      Prints a kernels (.memcpy blocks trace names) []
  | sweep {sizes : List Nat} {steps : Nat} {names : List String} :
      Prints a kernels (.sweep sizes steps names) []
  | matmul {n : Nat} {seed : Option Nat} {names : List String} :
      Prints a kernels (.matmul n seed false names) []
  | vectorAdd {len : Nat} {names : List String} : Prints a kernels (.vectorAdd len false names) []
  | grids {n : Nat} {seed : Option Nat} {names : List String} {w : Workload}
      {lhs rhs product : Array Float32} {A B C : List String}
      (generated : Workload.generate a
        (seed.elim .sequential fun seed => .seeded (UInt64.ofNat seed)) ⟨.matrixMultiply, n, 0⟩
          = .ok w)
      (inputs : w.inputs.buffers = [.f32 lhs, .f32 rhs])
      (left : ∀ k ∈ kernels, k.run w.inputs w.output = pure (.ok (), .f32 product))
      (first : Grid n lhs A) (second : Grid n rhs B) (last : Grid n product C) :
      Prints a kernels (.matmul n seed true names)
        ("A =" :: A ++ "B =" :: B
          ++ kernels.flatMap fun k => ("Using " ++ k.name ++ ", C =") :: C)
  | columns {len : Nat} {names : List String} {w : Workload} {sums : Array Int16}
      (generated : Workload.generate a .sequential ⟨.vectorAdd, len, 0⟩ = .ok w)
      (left : ∀ k ∈ kernels, k.run w.inputs w.output = pure (.ok (), .i16 sums))
      (size : sums.size = len) :
      Prints a kernels (.vectorAdd len true names)
        (kernels.flatMap fun k =>
          ("Using " ++ k.name ++ ":") :: sums.toList.map fun x => toString x.toInt)

theorem Prints.silent {a : Supply} {kernels : List (Kernel (StateM σ))} {c : Command}
    (h : c.prints = false) : Prints a kernels c [] := by
  cases c with
  | cache => exact .cache
  | memcpy => exact .memcpy
  | sweep => exact .sweep
  | matmul n seed print names =>
    obtain rfl : print = false := h
    exact .matmul
  | vectorAdd len print names =>
    obtain rfl : print = false := h
    exact .vectorAdd

/-- Every line is one line. -/
theorem Prints.single {a : Supply} {kernels : List (Kernel (StateM σ))} {c : Command}
    {lines : List String} (h : Prints a kernels c lines)
    (names : ∀ k ∈ kernels, Avoids '\n' k.name) : ∀ line ∈ lines, Avoids '\n' line := by
  cases h with
  | grids generated inputs left first second last =>
    refine List.forall_mem_append.2 ⟨List.forall_mem_append.2 ⟨?_, ?_⟩, ?_⟩
    · exact List.forall_mem_cons.2 ⟨by decide, first.single⟩
    · exact List.forall_mem_cons.2 ⟨by decide, second.single⟩
    · refine List.forall_mem_flatMap.2 fun k hk => List.forall_mem_cons.2 ⟨?_, last.single⟩
      exact avoids_append.2 ⟨avoids_append.2 ⟨by decide, names k hk⟩, by decide⟩
  | columns =>
    refine List.forall_mem_flatMap.2 fun k hk => List.forall_mem_cons.2 ⟨?_, ?_⟩
    · exact avoids_append.2 ⟨avoids_append.2 ⟨by decide, names k hk⟩, by decide⟩
    · exact List.forall_mem_map.2 fun x _ => avoids_int newline_foreign x.toInt
  | _ => exact nofun

theorem matrixRows?_eq {shape : Shape} (h : shape.capability = .matrixMultiply)
    {data : Array Float32} (size : data.size = shape.size * shape.size) :
    matrixRows? shape (.f32 data) = some (rowsOf shape.size shape.size data) := by
  simp [matrixRows?, h, Buffer.f32?, size]

theorem matrixRows?_none {shape : Shape} (h : shape.capability ≠ .matrixMultiply)
    (buffer : Buffer) : matrixRows? shape buffer = none := by
  simp [matrixRows?, h]

theorem inputGrids_matrices {shape : Shape} (h : shape.capability = .matrixMultiply)
    {lhs rhs : Array Float32} (left : lhs.size = shape.size * shape.size)
    (right : rhs.size = shape.size * shape.size) (output : Buffer) :
    inputGrids ⟨⟨shape, [.f32 lhs, .f32 rhs]⟩, output⟩
      = unlines ("A =" :: gridLines shape.size lhs ++ "B =" :: gridLines shape.size rhs) := by
  rw [unlines_append, unlines_cons, unlines_cons, ← grid_eq, ← grid_eq]
  simp [inputGrids, Workload.shape, matrixRows?_eq h left, matrixRows?_eq h right]

theorem inputGrids_none {w : Workload} (h : w.shape.capability ≠ .matrixMultiply) :
    inputGrids w = "" := by
  have nothing (n : Nat) : String.join (List.replicate n "") = "" := by
    induction n with
    | zero => rfl
    | succ n ih => rw [List.replicate_succ, String.join_cons, ih, String.append_empty]
  simp [inputGrids, matrixRows?_none h, nothing]

theorem outputText_matrix {inputs : Inputs} (h : inputs.shape.capability = .matrixMultiply)
    {product : Array Float32} (size : product.size = inputs.shape.size * inputs.shape.size)
    (kernel : String) : outputText kernel ⟨inputs, .f32 product⟩
      = unlines (("Using " ++ kernel ++ ", C =") :: gridLines inputs.shape.size product) := by
  have header : "Using " ++ kernel ++ ", C =" ++ "\n" = "Using " ++ kernel ++ ", C =\n" := by
    rw [String.append_assoc]
    rfl
  simp only [outputText, Workload.shape, matrixRows?_eq h size]
  rw [unlines_cons, ← grid_eq, header]

theorem outputText_vector {inputs : Inputs} (h : inputs.shape.capability ≠ .matrixMultiply)
    (sums : Array Int16) (kernel : String) : outputText kernel ⟨inputs, .i16 sums⟩
      = unlines (("Using " ++ kernel ++ ":") :: sums.toList.map fun x => toString x.toInt) := by
  have header : "Using " ++ kernel ++ ":" ++ "\n" = "Using " ++ kernel ++ ":\n" := by
    rw [String.append_assoc]
    rfl
  simp only [outputText, Workload.shape, matrixRows?_none h, Buffer.i16?]
  rw [unlines_cons, header, unlines, List.map_map]
  rfl

section Left

variable {a : Supply} {kernels : List (Kernel (StateM σ))} {n : Nat} {names : List String}
  {w : Workload} {out : Buffer}
  (holds : out.Holds w.output.elementType w.output.size)
  (left : ∀ k ∈ kernels, k.run w.inputs w.output = pure (.ok (), out))
include holds left

theorem prints_grids {seed : Option Nat}
    (generated : (Command.matmul n seed true names).config.workload a n = .ok w) :
    ∃ lines, Prints a kernels (.matmul n seed true names) lines ∧
      inputGrids w ++ String.join (kernels.map fun k => outputText k.name { w with output := out })
        = unlines lines := by
  let shape : Shape := ⟨.matrixMultiply, n, 0⟩
  have generated : Workload.generate a
      (seed.elim .sequential fun seed => .seeded (UInt64.ofNat seed)) shape = .ok w := by
    cases seed <;> exact generated
  obtain ⟨len, buffers, count, length, filled, rfl⟩ := Workload.generate_holds generated
  rw [Buffer.zeros_elementType, Buffer.zeros_size] at holds
  have capability : shape.capability = .matrixMultiply := rfl
  obtain ⟨rfl, -⟩ := word?_eq_some.1 (show word? (n * n) = some len from count)
  obtain ⟨first, second, rfl⟩ := List.length_eq_two.1 (show buffers.length = 2 from length)
  obtain ⟨lhs, rfl⟩ := Buffer.Holds.f32 (filled first (by simp))
  obtain ⟨rhs, rfl⟩ := Buffer.Holds.f32 (filled second (by simp))
  obtain ⟨product, rfl⟩ := Buffer.Holds.f32 holds
  let inputs : Inputs := ⟨shape, [.f32 lhs.toArray, .f32 rhs.toArray]⟩
  have outputs : (fun k : Kernel (StateM σ) => outputText k.name ⟨inputs, .f32 product.toArray⟩)
      = fun k => unlines (("Using " ++ k.name ++ ", C =") :: gridLines n product.toArray) :=
    funext fun k => outputText_matrix capability product.size_toArray k.name
  have grids := inputGrids_matrices capability lhs.size_toArray rhs.size_toArray
    (.zeros .f32 (n * n))
  refine ⟨_, .grids generated rfl left (gridLines_grid lhs.size_toArray)
    (gridLines_grid rhs.size_toArray) (gridLines_grid product.size_toArray), ?_⟩
  rw [unlines_append, unlines_flatMap]
  exact congrArg₂ (· ++ ·) grids (congrArg (fun f => String.join (kernels.map f)) outputs)

theorem prints_columns
    (generated : (Command.vectorAdd n true names).config.workload a n = .ok w) :
    ∃ lines, Prints a kernels (.vectorAdd n true names) lines ∧
      inputGrids w ++ String.join (kernels.map fun k => outputText k.name { w with output := out })
        = unlines lines := by
  obtain ⟨len, buffers, count, -, -, rfl⟩ := Workload.generate_holds generated
  rw [Buffer.zeros_elementType, Buffer.zeros_size] at holds
  let shape : Shape := ⟨.vectorAdd, n, 0⟩
  have capability : shape.capability ≠ .matrixMultiply := by rintro ⟨⟩
  obtain ⟨rfl, -⟩ := word?_eq_some.1 (show word? n = some len from count)
  obtain ⟨sums, rfl⟩ := Buffer.Holds.i16 holds
  have outputs : (fun k : Kernel (StateM σ) =>
        outputText k.name ⟨⟨shape, buffers⟩, .i16 sums.toArray⟩)
      = fun k => unlines (("Using " ++ k.name ++ ":")
        :: sums.toArray.toList.map fun x => toString x.toInt) :=
    funext fun k => outputText_vector capability sums.toArray k.name
  have grids : inputGrids ⟨⟨shape, buffers⟩, .zeros .i16 n⟩ = "" := inputGrids_none capability
  refine ⟨_, .columns generated left sums.size_toArray, ?_⟩
  rw [unlines_flatMap]
  refine (congrArg (· ++ _) grids).trans ((String.empty_append ..).trans ?_)
  exact congrArg (fun f => String.join (kernels.map f)) outputs

/-- What is printed at the only size of a command that prints. -/
theorem prints_of_left {c : Command} {size : Nat} (prints : c.prints = true)
    (sizes : c.config.sizes = [size]) (generated : c.config.workload a size = .ok w) :
    ∃ lines, Prints a kernels c lines ∧
      inputGrids w ++ String.join (kernels.map fun k => outputText k.name { w with output := out })
        = unlines lines := by
  cases c with
  | matmul n seed print names =>
    obtain rfl : print = true := prints
    obtain rfl : n = size := (List.cons.inj sizes).1
    exact prints_grids holds left generated
  | vectorAdd n print names =>
    obtain rfl : print = true := prints
    obtain rfl : n = size := (List.cons.inj sizes).1
    exact prints_columns holds left generated
  | _ => cases prints

end Left

end CommandLine

end Microbench
