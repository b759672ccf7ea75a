import Microbench.Proofs.Registry
import Microbench.Proofs.Sweep.Tours
import Microbench.Proofs.Workload

/-!
# What a sweep runs, in which order, and what ends it

The agenda of a sweep lists the kernels that are due: size by size, the reference and then the
other kernels of the capability as they were registered, as far as they support the shape. A sweep
works off its agenda. Only a missing reference or a workload that cannot be generated ends it
early; no kernel can.

Results:

* `Visited.turns`: the turns of a point are those of the kernels due at its size.
* `sweep_course`: when a sweep fails, what it has run by then, and what it returns otherwise.
-/
namespace Microbench

open Sweep

/-! ## Agendas -/

namespace Sweep.Config

/-- The workload of one size, if it can be generated. -/
abbrev workload (c : Config) (a : Supply) (size : Nat) : Except Failure Workload :=
  Workload.generate a c.fill (c.shapeFor size)

/-- The kernels due at one size. -/
def due (c : Config) (kernels : List (Kernel m)) (size : Nat) : List (Kernel m × Nat) :=
  (kernels.filter (·.supports (c.shapeFor size))).map (·, size)

def agenda (c : Config) (kernels : List (Kernel m)) (sizes : List Nat) : List (Kernel m × Nat) :=
  sizes.flatMap (c.due kernels)

theorem shapeFor_size (c : Config) (size : Nat) : (c.shapeFor size).size = size := by
  unfold shapeFor
  split <;> rfl

theorem shapeFor_capability (c : Config) (size : Nat) :
    (c.shapeFor size).capability = c.capability := by
  unfold shapeFor
  split
  · next capability => exact capability.symm
  · rfl

end Sweep.Config

/-- What is recorded of a kernel that was due, whatever came of it. -/
structure Measurement.Heading (timer : Timer m) (c : Config) (due : Kernel m × Nat)
    (r : Measurement) : Prop where
  kernel : r.kernel = due.1.name
  variant : r.variant = due.1.variant
  capability : r.capability = c.capability
  size : r.size = due.2
  shape : r.shape = (c.shapeFor due.2).text
  iterations : r.iterations = max c.iterations 1
  precision : r.precision = timer.source.precision

/-- What is run of a kernel that was due. -/
structure Block (c : Config) (due : Kernel m × Nat) (runs : List (Run m)) : Prop where
  ne_nil : runs ≠ []
  length_le : runs.length ≤ max c.iterations 1
  run : ∀ run ∈ runs, run.kernel = due.1 ∧ run.inputs.shape = c.shapeFor due.2

/-! ## Runs in a journal -/

def Entry.run? : Entry m → Option (Run m)
  | .ran run => some run
  | _ => none

def Journal.runs (journal : Journal m) : List (Run m) := journal.filterMap Entry.run?

/-- The runs of a journal are a block for each kernel of an agenda, and nothing else. -/
def Journal.Performs (journal : Journal m) (c : Config) (agenda : List (Kernel m × Nat)) : Prop :=
  ∃ blocks, journal.runs = blocks.flatten ∧ List.Forall₂ (Block c) agenda blocks

def Turn.runs (t : Turn m) : List (Run m) := t.trials.map (·.run)

theorem Turn.entries_runs (t : Turn m) : Journal.runs t.entries = t.runs := by
  have trial (t : Trial m) : t.entries.filterMap Entry.run? = [t.run] := rfl
  rw [Journal.runs, entries, List.filterMap_append, List.filterMap_flatMap, runs,
    List.map_eq_flatMap]
  simp only [trial]
  exact List.append_nil _

theorem Point.entries_runs (p : Point m) : Journal.runs p.entries = p.turns.flatMap Turn.runs := by
  rw [Journal.runs, entries, List.filterMap_cons_none rfl, List.filterMap_flatMap]
  exact congrArg (List.flatMap · _) (funext Turn.entries_runs)

theorem points_runs (points : List (Point m)) :
    Journal.runs (points.flatMap Point.entries)
      = (points.flatMap Point.turns).flatMap Turn.runs := by
  rw [Journal.runs, List.filterMap_flatMap, List.flatMap_assoc]
  exact congrArg (List.flatMap · _) (funext Point.entries_runs)

/-! ## The turns of a sweep -/

section Turns

variable {σ : Type} {s : Setup (StateM σ)} {reference : Kernel (StateM σ)}
  {candidates : List (Kernel (StateM σ))} {sizes : List Nat} {size : Nat}
  {p : Point (StateM σ)} {points : List (Point (StateM σ))}

/-- The turn is that of the kernel due. -/
structure Turn.Took (s : Setup (StateM σ)) (due : Kernel (StateM σ) × Nat) (t : Turn (StateM σ)) :
    Prop where
  heading : t.record.Heading s.timer s.config due
  block : Block s.config due t.runs

theorem Turn.Lawful.took {judge : Buffer → Verdict} {w : Workload} {t : Turn (StateM σ)}
    (h : t.Lawful s judge w) (shape : w.shape = s.config.shapeFor size) :
    t.Took s (t.kernel, size) := by
  refine ⟨?_, ?_, ?_, ?_⟩
  · rw [h.record, shape]
    exact ⟨rfl, rfl, rfl, s.config.shapeFor_size size, rfl, rfl, rfl⟩
  · exact fun none => h.ne_nil (List.map_eq_nil_iff.1 none)
  · rw [Turn.runs, List.length_map]
    exact h.trials.length_le
  · intro run hrun
    obtain ⟨trial, ht, rfl⟩ := List.mem_map.1 hrun
    obtain ⟨kernel, inputs⟩ := h.trials.runs trial ht
    exact ⟨kernel, by rw [inputs]; exact shape⟩

theorem Visited.turns (h : Visited s reference candidates size p) :
    List.Forall₂ (Turn.Took s) (s.config.due (reference :: candidates) size) p.turns := by
  obtain ⟨generate, visit⟩ := h
  have shape := Workload.generate_shape generate
  obtain ⟨first, later⟩ := visit.lawful (I := fun w => w.shape = s.config.shapeFor size) shape
    fun _ _ _ _ lawful hw => lawful.shape.trans hw
  have took : ∀ t ∈ p.turns, t.Took s (t.kernel, size) := by
    intro t ht
    rcases List.mem_append.1 ht with ht | ht
    · exact (first t (Option.mem_toList.1 ht)).took shape
    · obtain ⟨w, hw, lawful⟩ := later t ht
      exact lawful.took hw
  rw [Config.due, ← shape, ← visit.kernels_eq, List.map_map,
    List.forall₂_map_left_iff, List.forall₂_same]
  exact took

theorem tour_turns (h : List.Forall₂ (Visited s reference candidates) sizes points) :
    List.Forall₂ (Turn.Took s) (s.config.agenda (reference :: candidates) sizes)
      (points.flatMap Point.turns) :=
  List.rel_flatMap h fun _ _ visited => visited.turns

theorem tour_performs (h : List.Forall₂ (Visited s reference candidates) sizes points) :
    Journal.Performs (points.flatMap Point.entries) s.config
      (s.config.agenda (reference :: candidates) sizes) := by
  refine ⟨(points.flatMap Point.turns).map Turn.runs, ?_, ?_⟩
  · rw [points_runs, List.flatMap_def]
  · exact List.forall₂_map_right_iff.2 ((tour_turns h).imp fun _ _ took => took.block)

theorem tour_records (h : List.Forall₂ (Visited s reference candidates) sizes points) :
    List.Forall₂ (Measurement.Heading s.timer s.config)
      (s.config.agenda (reference :: candidates) sizes) (points.flatMap Point.records) := by
  have records : points.flatMap Point.records = (points.flatMap Point.turns).map (·.record) := by
    rw [List.map_flatMap]
    rfl
  rw [records, List.forall₂_map_right_iff]
  exact (tour_turns h).imp fun _ _ took => took.heading

theorem tour_generates (h : List.Forall₂ (Visited s reference candidates) sizes points) :
    ∀ size ∈ sizes, ∃ w, s.config.workload s.supply size = .ok w := by
  induction h with
  | nil => simp
  | cons visited _ ih => exact List.forall_mem_cons.2 ⟨⟨_, visited.1⟩, ih⟩

end Turns

/-! ## The course of a sweep -/

/-- A sweep fails exactly if its capability has no reference or the workload of some size cannot
be generated. Without a reference nothing is run and no clock is read; the first workload that
cannot be generated ends the sweep after all kernels due before it. Otherwise there is one
measurement for each kernel due, in the order of the agenda. -/
theorem sweep_course {σ : Type} (r : Runner (StateM σ)) (a : Supply) (c : Config) (s : σ) :
    ((∃ failure, (r.sweep a c .silent s).1.1 = .error failure) ↔
      (∀ k ∈ r.registry.kernels, k.capability = c.capability → k.variant ≠ .reference) ∨
        ∃ size ∈ c.sizes, ∃ failure, c.workload a size = .error failure) ∧
    (((∀ k ∈ r.registry.kernels, k.capability = c.capability → k.variant ≠ .reference) ∧
        r.sweep a c .silent s
          = ((.error (.missingReference c.capability), { r with phase := .idle }), s) ∧
        r.journal a c .silent s = []) ∨
      ∃ reference others, r.registry.Lineup c.capability reference others ∧
        ((∃ before size after failure, c.sizes = before ++ size :: after ∧
            (∀ earlier ∈ before, ∃ w, c.workload a earlier = .ok w) ∧
            c.workload a size = .error failure ∧
            (r.sweep a c .silent s).1.1 = .error failure ∧
            (r.journal a c .silent s).Performs c (c.agenda (reference :: others) before)) ∨
          (∀ size ∈ c.sizes, ∃ w, c.workload a size = .ok w) ∧
            ∃ ms, (r.sweep a c .silent s).1.1 = .ok ms ∧
              List.Forall₂ (Measurement.Heading r.timer c)
                (c.agenda (reference :: others) c.sizes) ms ∧
              (r.journal a c .silent s).Performs c (c.agenda (reference :: others) c.sizes))) := by
  cases hr : r.registry.referenceFor c.capability with
  | none =>
    have missing := Registry.referenceFor_eq_none.1 hr
    have fails := r.sweep_missing a c .silent hr s
    exact ⟨⟨fun _ => .inl missing, fun _ => ⟨_, by rw [fails]⟩⟩,
      .inl ⟨missing, fails, r.journal_missing a c .silent hr s⟩⟩
  | some reference =>
    have present : ¬∀ k ∈ r.registry.kernels, k.capability = c.capability →
        k.variant ≠ .reference := by
      rw [← Registry.referenceFor_eq_none, hr]
      exact Option.some_ne_none _
    obtain ⟨points, stop, tour, out, wrote⟩ := r.sweep_tour a c .silent hr s
    rw [wrote, out]
    obtain ⟨rfl, visits⟩ | ⟨before, size, after, failure, sizes, rfl, visits, fails⟩ :=
      tour.ends Observer.silent_agrees
    · have generates := tour_generates visits
      refine ⟨⟨fun ⟨_, h⟩ => (by cases h), ?_⟩,
        .inr ⟨reference, _, Registry.lineup_iff.2 ⟨hr, rfl⟩, .inr ⟨generates, _, rfl,
          tour_records visits, tour_performs visits⟩⟩⟩
      intro h
      rcases h with missing | ⟨size, hsize, failure, fails⟩
      · exact absurd missing present
      · obtain ⟨w, generated⟩ := generates size hsize
        cases fails.symm.trans generated
    · have here : size ∈ c.sizes := by
        rw [show c.sizes = _ from sizes]
        simp
      exact ⟨⟨fun _ => .inr ⟨size, here, failure, fails⟩, fun _ => ⟨failure, rfl⟩⟩,
        .inr ⟨reference, _, Registry.lineup_iff.2 ⟨hr, rfl⟩, .inl ⟨before, size, after, failure,
          sizes, tour_generates visits, fails, rfl, tour_performs visits⟩⟩⟩

end Microbench
