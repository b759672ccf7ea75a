import Microbench.Proofs.Sweep.Order
import Microbench.Simulation.Bench

/-!
# What a run is handed

One output goes through all runs of a size. Before each run its elements are zeroed; its type and
its length are those that the run before left. So every run is handed nothing but zeros, and they
have the shape of the size as long as no run before it, of whichever kernel, has put something of
another shape in their place.

Results:

* `Trials.handed`, `Turns.handed`, `Visit.handed`: how the output goes from run to run.
* `Handed.given_eq`: what a run is handed, by the runs before it.
* `runs_handed_zeros`: what the runs of a sweep are handed.
* `short_output_handed_on`: a kernel that is handed an output too short for its size.
-/
namespace Microbench

open Sweep

variable {σ : Type} {m : Type → Type}

/-- The output passes from run to run: each is handed the zeroed output that the one before left. -/
inductive Handed : Buffer → List (Run m) → Buffer → Prop where
  | done {output} : Handed output [] output
  | ran {output run runs last} (given : run.given = output.reset)
      (rest : Handed run.left runs last) : Handed output (run :: runs) last

/-- The output as the last of some runs left it. -/
def leftAfter (output : Buffer) (runs : List (Run m)) : Buffer :=
  (runs.getLast?.map (·.left)).getD output

/-- The run left an output of the type and length it was handed. -/
def Run.Keeps (run : Run m) : Prop := run.left.Holds run.given.elementType run.given.size

/-! ## Outputs that are handed on -/

namespace Buffer

variable {b : Buffer} {element : ElementType} {len : Nat}

theorem zeros_holds (element : ElementType) (len : Nat) : (zeros element len).Holds element len :=
  ⟨zeros_elementType .., zeros_size ..⟩

theorem reset_eq_zeros_iff : b.reset = zeros element len ↔ b.Holds element len := by
  constructor
  · intro zeroed
    have type := b.reset_elementType
    have size := b.reset_size
    rw [zeroed] at type size
    exact ⟨type.symm.trans (zeros_elementType ..), size.symm.trans (zeros_size ..)⟩
  · rintro ⟨rfl, rfl⟩
    rfl

end Buffer

theorem leftAfter_cons (output : Buffer) (run : Run m) (runs : List (Run m)) :
    leftAfter output (run :: runs) = leftAfter run.left runs := by
  rw [leftAfter, leftAfter, List.getLast?_cons]
  cases runs.getLast? <;> rfl

namespace Handed

variable {output middle last : Buffer} {runs runs' before after : List (Run m)} {run : Run m}

theorem append (h : Handed output runs middle) (h' : Handed middle runs' last) :
    Handed output (runs ++ runs') last := by
  induction h with
  | done => exact h'
  | ran given _ ih => exact .ran given (ih h')

/-- By induction on the runs before. -/
theorem given_eq (h : Handed output (before ++ run :: after) last) :
    run.given = (leftAfter output before).reset := by
  induction before generalizing output with
  | nil =>
    cases h with
    | ran given => exact given
  | cons first before ih =>
    cases h with
    | ran _ rest =>
      rw [leftAfter_cons]
      exact ih rest

/-- As long as every run keeps type and length, the output that is handed on has them. -/
theorem leftAfter_holds {element : ElementType} {len : Nat} (hb : output.Holds element len)
    (h : Handed output (before ++ after) last) (keeps : ∀ run ∈ before, run.Keeps) :
    (leftAfter output before).Holds element len := by
  induction before generalizing output with
  | nil => exact hb
  | cons run before ih =>
    obtain ⟨here, later⟩ := List.forall_mem_cons.1 keeps
    cases h with
    | ran given rest =>
      rw [leftAfter_cons]
      refine ih ?_ rest later
      rw [Run.Keeps, given, Buffer.reset_elementType, Buffer.reset_size, hb.elementType,
        hb.size] at here
      exact here

end Handed

/-! ## From run to run -/

section Runs

variable {s : Setup (StateM σ)}

theorem Trials.handed {source : TickSource (StateM σ)} {kernel : Kernel (StateM σ)}
    {inputs : Inputs} {n : Nat} {total : Elapsed} {output last : Buffer}
    {trials : List (Trial (StateM σ))} {outcome : Except Failure Elapsed}
    (h : Trials source kernel inputs n total output trials outcome last) :
    Handed output (trials.map (·.run)) last := by
  induction h with
  | done => exact .done
  | failed => exact .ran rfl .done
  | passed _ _ ih => exact .ran rfl ih

theorem Turn.Lawful.handed {judge : Buffer → Verdict} {w : Workload} {t : Turn (StateM σ)}
    (h : t.Lawful s judge w) : Handed w.output t.runs t.workload.output :=
  h.trials.handed

/-- A candidate that declines the shape leaves the output to the next one. -/
theorem Turns.handed {truth : Truth} {kernels : List (Kernel (StateM σ))} {w : Workload}
    {turns : List (Turn (StateM σ))} {stop : Option Failure}
    (h : Turns s truth kernels w turns stop) :
    ∃ last, Handed w.output (turns.flatMap Turn.runs) last := by
  induction h with
  | done => exact ⟨_, .done⟩
  | declined _ _ ih => exact ih
  | refused _ lawful =>
    rw [List.flatMap_singleton]
    exact ⟨_, lawful.handed⟩
  | taken _ lawful _ _ ih =>
    obtain ⟨last, rest⟩ := ih
    exact ⟨last, lawful.handed.append rest⟩

/-- The runs of a point, over all its kernels and iterations. -/
def Point.runs (p : Point m) : List (Run m) := p.turns.flatMap Turn.runs

theorem Visit.handed {reference : Kernel (StateM σ)} {candidates : List (Kernel (StateM σ))}
    {w : Workload} {p : Point (StateM σ)} {stop : Stop}
    (h : Visit s reference candidates w p stop) : ∃ last, Handed w.output p.runs last := by
  cases h with
  | untold => exact ⟨_, .done⟩
  | @refused turn _ _ _ _ lawful =>
    refine ⟨turn.workload.output, ?_⟩
    rw [Point.runs, show Point.turns _ = [turn] from rfl, List.flatMap_singleton]
    exact lawful.handed
  | referred _ _ _ lawful _ rest =>
    obtain ⟨last, rest⟩ := rest.handed
    exact ⟨last, lawful.handed.append rest⟩
  | declined _ _ rest => exact rest.handed

theorem Visit.inputs_eq {reference : Kernel (StateM σ)} {candidates : List (Kernel (StateM σ))}
    {w : Workload} {p : Point (StateM σ)} {stop : Stop}
    (h : Visit s reference candidates w p stop) : ∀ run ∈ p.runs, run.inputs = w.inputs := by
  obtain ⟨first, later⟩ := h.lawful (I := fun w' => w'.inputs = w.inputs) rfl
    fun _ _ _ _ lawful same => lawful.inputs.trans same
  have turn {judge w' t} (lawful : Turn.Lawful s judge w' t) (same : w'.inputs = w.inputs) :
      ∀ run ∈ t.runs, run.inputs = w.inputs := by
    intro run hrun
    obtain ⟨trial, ht, rfl⟩ := List.mem_map.1 hrun
    exact (lawful.trials.runs trial ht).2.trans same
  intro run hrun
  obtain ⟨t, ht, hrun⟩ := List.mem_flatMap.1 hrun
  rcases List.mem_append.1 ht with ht | ht
  · exact turn (first t (Option.mem_toList.1 ht)) rfl run hrun
  · obtain ⟨w', same, lawful⟩ := later t ht
    exact turn lawful same run hrun

end Runs

/-! ## What the runs of a size are handed -/

/-- The runs of a size read the inputs that were generated for it and are handed zeros. -/
structure Point.Hands (c : Config) (a : Supply) (size : Nat) (p : Point m) : Prop where
  generated : c.workload a size = .ok p.workload
  count : (c.shapeFor size).elementCount = some (c.shapeFor size).elements
  inputs : ∀ run ∈ p.runs, run.inputs = p.workload.inputs
  zeroed : ∀ run ∈ p.runs, run.given = .zeros run.given.elementType run.given.size
  /-- They are those of the shape exactly if the run before left an output of its type and
  length. -/
  clean_iff : ∀ before run after, p.runs = before ++ run :: after →
    (run.given = .zeros (c.shapeFor size).elementType (c.shapeFor size).elements ↔
      ∀ last, before.getLast? = some last →
        last.left.Holds (c.shapeFor size).elementType (c.shapeFor size).elements)
  /-- They are as long as all earlier runs have kept type and length. -/
  clean : ∀ before run after, p.runs = before ++ run :: after → (∀ run ∈ before, run.Keeps) →
    run.given = .zeros (c.shapeFor size).elementType (c.shapeFor size).elements

theorem Visit.hands {s : Setup (StateM σ)} {reference : Kernel (StateM σ)}
    {candidates : List (Kernel (StateM σ))} {size : Nat} {w : Workload} {p : Point (StateM σ)}
    {stop : Stop} (generated : s.config.workload s.supply size = .ok w)
    (h : Visit s reference candidates w p stop) : p.Hands s.config s.supply size := by
  obtain rfl := h.workload_eq
  obtain ⟨last, handed⟩ := h.handed
  obtain ⟨len, buffers, count, -, -, made⟩ := Workload.generate_holds generated
  obtain rfl := Shape.elementCount_eq_some count
  have start : p.workload.output.Holds (s.config.shapeFor size).elementType
      (s.config.shapeFor size).elements := by
    rw [made]
    exact Buffer.zeros_holds ..
  refine ⟨generated, count, h.inputs_eq, ?_, ?_, ?_⟩
  · intro run hrun
    obtain ⟨before, after, split⟩ := List.append_of_mem hrun
    rw [split] at handed
    rw [handed.given_eq, Buffer.reset_elementType, Buffer.reset_size]
    rfl
  · intro before run after split
    rw [split] at handed
    rw [handed.given_eq, Buffer.reset_eq_zeros_iff, leftAfter]
    cases before.getLast? with
    | none => simpa using start
    | some last => simp
  · intro before run after split keeps
    rw [split] at handed
    rw [handed.given_eq, Buffer.reset_eq_zeros_iff]
    exact handed.leftAfter_holds start keeps

/-- The points of a tour belong to the first of its sizes. -/
theorem Tour.hands {s : Setup (StateM σ)} {reference : Kernel (StateM σ)}
    {candidates : List (Kernel (StateM σ))} {sizes : List Nat} {points : List (Point (StateM σ))}
    {stop : Stop} (h : Tour s reference candidates sizes points stop) :
    List.Forall₂ (Point.Hands s.config s.supply) (sizes.take points.length) points := by
  induction h with
  | done => exact .nil
  | ungenerated => exact .nil
  | stopped generated visit => exact .cons (visit.hands generated) .nil
  | visited generated visit _ ih => exact .cons (visit.hands generated) ih

/-! ## What the runs of a sweep are handed -/

/-- Whatever the kernels and the observer do, every run of a sweep is handed an output of zeros.
At each size that is reached the first run gets one of the type and element count of the shape;
a later one does exactly if the run before it left one of that type and length, and so as long as
all runs at that size have kept what they were handed. -/
theorem runs_handed_zeros (r : Runner (StateM σ)) (a : Supply) (c : Config)
    (o : Observer (StateM σ)) (s : σ) : ∃ points : List (Point (StateM σ)),
      Journal.runs (r.journal a c o s) = points.flatMap Point.runs ∧
      List.Forall₂ (Point.Hands c a) (c.sizes.take points.length) points := by
  cases found : r.registry.referenceFor c.capability with
  | none =>
    refine ⟨[], ?_, .nil⟩
    rw [r.journal_missing a c o found]
    rfl
  | some reference =>
    obtain ⟨points, stop, tour, -, wrote⟩ := r.sweep_tour a c o found s
    refine ⟨points, ?_, tour.hands⟩
    rw [wrote, points_runs, List.flatMap_assoc]
    rfl

section Short

open Simulation

/-- The second kernel leaves an output of one element. -/
def shortBench : Runner (StateM Bench) where
  registry := ⟨[VectorAdd.reference,
    scripted 0 "vadd-short" .vectorAdd .optimizedScalar none [⟨.replace (.zeros .i16 1), none⟩],
    VectorAdd.simd]⟩
  timer := ⟨source "bench" .cycle 1 64, none⟩

def shortConfig : Config where
  capability := .vectorAdd
  sizes := [2]

/-- The third kernel is handed that output, one element short of its size, and fails on it. -/
theorem short_output_handed_on :
    (shortConfig.shapeFor 2).elementCount = some 2 ∧
    ((Journal.runs (shortBench.journal .machine shortConfig .silent { calls := #[0] })).map
        fun run => (run.kernel.name, run.given.elementType, run.given.size,
          run.failure?.map Failure.message))
      = [("vadd-reference", .i16, 2, none), ("vadd-short", .i16, 2, none),
        ("vadd-simd", .i16, 1, some "vector buffers 2 / 2 / 1 do not match length 2")] ∧
    ¬∀ run ∈ Journal.runs (shortBench.journal .machine shortConfig .silent { calls := #[0] }),
      run.given.Holds (shortConfig.shapeFor 2).elementType 2 := by
  have handed : ((Journal.runs
      (shortBench.journal .machine shortConfig .silent { calls := #[0] })).map
        fun run => (run.kernel.name, run.given.elementType, run.given.size,
          run.failure?.map Failure.message))
      = [("vadd-reference", .i16, 2, none), ("vadd-short", .i16, 2, none),
        ("vadd-simd", .i16, 1, some "vector buffers 2 / 2 / 1 do not match length 2")] := by
    decide +kernel
  refine ⟨rfl, handed, fun clean => ?_⟩
  obtain ⟨_, _, runs, -, rest⟩ := List.map_eq_cons_iff.1 handed
  obtain ⟨_, _, rfl, -, rest⟩ := List.map_eq_cons_iff.1 rest
  obtain ⟨third, _, rfl, short, -⟩ := List.map_eq_cons_iff.1 rest
  have size : third.given.size = 1 := congrArg (·.2.2.1) short
  have full := (clean third (by rw [runs]; simp)).size
  omega

end Short

end Microbench
