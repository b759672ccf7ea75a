import Microbench.Proofs.Sweep.Tours
import Microbench.Simulation.Bench

/-!
# Verdicts are decided by the runs at their own size

The verdict of a measurement depends on nothing but the runs of its own kernel and of the
reference at its own size: which run failed first, and what the last runs left. No earlier size,
no other candidate and no earlier sweep has a part in it.

Results:

* `Visit.judged`: the verdicts of one point.
* `verdicts_of_runs`: the verdicts of a sweep.
-/
namespace Microbench

open Sweep

variable {σ : Type}

/-! ## No time has passed in a turn that failed -/

section Float

open Float.Model Float.Model.UnpackedFloat

theorem unpack_zero : (0 : Float).toModel.unpack = .zero .positive := rfl

theorem unpack_toFloat_zero : (UInt64.toFloat 0).toModel.unpack = .zero .positive := rfl

theorem ofModel_pack_zero : Float.ofModel (Float.Model.pack (.zero .positive)) = 0 := by
  decide +kernel

theorem div_of_zero_lt {x : UnpackedFloat}
    (h : UnpackedFloat.compare (.zero .positive) x = some .lt) :
    UnpackedFloat.div Format.binary64 (.zero .positive) x = .zero .positive := by
  cases x with
  | infinity sign => cases sign <;> first | rfl | cases h
  | notANumber => cases h
  | zero => cases h
  | finite sign => cases sign <;> first | rfl | cases h

/-- No ticks take no time at any positive rate, an infinite one included. -/
theorem zero_div_of_pos {rate : Float} (h : 0 < rate) : UInt64.toFloat 0 / rate = 0 := by
  have lt : (UnpackedFloat.compare (Float.toModel 0).unpack rate.toModel.unpack == some .lt) :=
    of_decide_eq_true h
  rw [unpack_zero, beq_iff_eq] at lt
  show Float.ofModel (Float.Model.pack (UnpackedFloat.div Format.binary64
    (UInt64.toFloat 0).toModel.unpack rate.toModel.unpack)) = 0
  rw [unpack_toFloat_zero, div_of_zero_lt lt, ofModel_pack_zero]

end Float

theorem Elapsed.zero_seconds (rate : Float) : (Elapsed.zero rate).seconds = 0 := by
  unfold seconds
  split
  · next h => exact zero_div_of_pos h
  · rfl

/-! ## The verdicts of one point -/

/-- Every verdict of a point is the one its runs decide. -/
structure Point.Judged (v : Verifier) (p : Point m) : Prop where
  /-- The first run that failed names the reason, and no time is recorded. -/
  failed : ∀ t ∈ p.turns, ∀ failure, t.failure? = some failure →
    t.record.verdict = .failed ("kernel error: " ++ failure.message) [] 0 ∧
      t.record.ticks = 0 ∧ t.record.seconds = 0
  reference : ∀ t, p.reference = some t → t.failure? = none → t.record.verdict = .passed 0
  /-- Outputs of last runs are compared. -/
  compared : ∀ r, p.reference = some r → r.failure? = none →
    ∀ t ∈ p.candidates, t.failure? = none → ∃ expected actual,
      r.left? = some expected ∧ t.left? = some actual ∧
        t.record.verdict = v.compare expected actual
  lost : ∀ r failure, p.reference = some r → r.failure? = some failure →
    ∀ t ∈ p.candidates, t.failure? = none →
      t.record.verdict = .failed "reference kernel failed; nothing to compare against" [] 0
  absent : p.reference = none → ∀ t ∈ p.candidates, t.failure? = none →
    t.record.verdict = .failed "reference kernel did not run" [] 0

section Judged

variable {s : Setup (StateM σ)} {judge : Buffer → Verdict} {w : Workload} {t : Turn (StateM σ)}

theorem failureOf_eq_some {outcome : Except Failure α} {failure : Failure}
    (h : failureOf outcome = some failure) : outcome = .error failure := by
  cases outcome with
  | ok => cases h
  | error => cases h; rfl

theorem failureOf_eq_none {outcome : Except Failure α} (h : failureOf outcome = none) :
    ∃ value, outcome = .ok value := by
  cases outcome with
  | ok value => exact ⟨value, rfl⟩
  | error => cases h

theorem Turn.Lawful.failed (h : t.Lawful s judge w) {failure : Failure}
    (hf : t.failure? = some failure) :
    t.record.verdict = .failed ("kernel error: " ++ failure.message) [] 0 ∧
      t.record.ticks = 0 ∧ t.record.seconds = 0 := by
  rw [h.failure?_eq] at hf
  rw [h.record, failureOf_eq_some hf]
  exact ⟨rfl, rfl, Elapsed.zero_seconds _⟩

theorem Turn.Lawful.verdict_eq (h : t.Lawful s judge w) (hf : t.failure? = none) :
    t.record.verdict = judge t.workload.output := by
  rw [h.failure?_eq] at hf
  obtain ⟨elapsed, ho⟩ := failureOf_eq_none hf
  rw [h.record, ho]
  rfl

theorem Turn.Lawful.truth_known (h : t.Lawful s judge w) (hf : t.failure? = none) :
    t.truth = .known t.workload.output := by
  rw [h.failure?_eq] at hf
  obtain ⟨elapsed, ho⟩ := failureOf_eq_none hf
  rw [Turn.truth, ho]
  rfl

theorem Turn.Lawful.truth_lost (h : t.Lawful s judge w) {failure : Failure}
    (hf : t.failure? = some failure) : t.truth = .lost := by
  rw [h.failure?_eq] at hf
  rw [Turn.truth, failureOf_eq_some hf]
  rfl

variable {reference : Kernel (StateM σ)} {candidates : List (Kernel (StateM σ))}
  {p : Point (StateM σ)}

theorem Visit.judged {stop : Stop} (h : Visit s reference candidates w p stop) :
    p.Judged s.config.verifier := by
  obtain ⟨href, hcand⟩ := h.lawful (I := fun _ => True) trivial fun _ _ _ _ _ _ => trivial
  refine ⟨?_, ?_, ?_, ?_, ?_⟩
  · intro t ht failure hf
    rcases List.mem_append.1 ht with ht | ht
    · exact (href t (Option.mem_toList.1 ht)).failed hf
    · obtain ⟨w, -, lawful⟩ := hcand t ht
      exact lawful.failed hf
  · intro t ht hf
    exact (href t ht).verdict_eq hf
  · intro r hr hrf t ht hf
    obtain ⟨w, -, lawful⟩ := hcand t ht
    refine ⟨_, _, (href r hr).left?_eq, lawful.left?_eq, ?_⟩
    rw [lawful.verdict_eq hf, Point.truth_some hr, (href r hr).truth_known hrf]
    rfl
  · intro r failure hr hrf t ht hf
    obtain ⟨w, -, lawful⟩ := hcand t ht
    rw [lawful.verdict_eq hf, Point.truth_some hr, (href r hr).truth_lost hrf]
    rfl
  · intro hr t ht hf
    obtain ⟨w, -, lawful⟩ := hcand t ht
    rw [lawful.verdict_eq hf, Point.truth_none hr]
    rfl

end Judged

/-! ## The verdicts of a sweep -/

/-- The runs of a point are those of the reference and the candidates that support its shape,
each at least once and on the inputs of the point. -/
structure Point.RunBy (reference : Kernel m) (candidates : List (Kernel m)) (p : Point m) :
    Prop where
  reference : p.reference.map (·.kernel)
    = if reference.supports p.workload.shape then some reference else none
  candidates : p.candidates.map (·.kernel) = candidates.filter (·.supports p.workload.shape)
  runs : ∀ t ∈ p.turns, t.trials ≠ [] ∧
    ∀ trial ∈ t.trials, trial.run.kernel = t.kernel ∧ trial.run.inputs = p.workload.inputs

theorem Visit.runBy {s : Setup (StateM σ)} {reference : Kernel (StateM σ)}
    {candidates : List (Kernel (StateM σ))} {p : Point (StateM σ)}
    (h : Visit s reference candidates p.workload p none) : p.RunBy reference candidates := by
  refine ⟨h.reference_kernel, h.candidates_kernel, fun t ht => ?_⟩
  obtain ⟨href, hcand⟩ := h.lawful (I := fun w => w.inputs = p.workload.inputs) rfl
    fun _ _ _ _ lawful hw => lawful.inputs.trans hw
  rcases List.mem_append.1 ht with ht | ht
  · have lawful := href t (Option.mem_toList.1 ht)
    exact ⟨lawful.ne_nil, lawful.trials.runs⟩
  · obtain ⟨w, hw, lawful⟩ := hcand t ht
    exact ⟨lawful.ne_nil, hw ▸ lawful.trials.runs⟩

/-- The verdicts of a sweep that returns are decided, size by size, by the runs in its journal. -/
theorem verdicts_of_runs (r : Runner (StateM σ)) (a : Supply) (c : Config) (s : σ)
    {ms : List Measurement} (h : (r.sweep a c .silent s).1.1 = .ok ms) :
    ∃ reference points,
      r.registry.referenceFor c.capability = some reference ∧
      r.recorded.sweep a c Observer.silent.recorded [] s
        = (((.ok ms, (r.sweep a c .silent s).1.2.recorded), points.flatMap Point.entries),
            (r.sweep a c .silent s).2) ∧
      ms = points.flatMap Point.records ∧
      List.Forall₂ (fun size p => Workload.generate a c.fill (c.shapeFor size) = .ok p.workload ∧
        p.RunBy reference (r.registry.candidatesFor c.capability) ∧
        p.Judged ⟨c.tolerance, c.maxReported⟩) c.sizes points := by
  obtain ⟨reference, points, found, visits, records, wrote⟩ :=
    r.sweep_ok a c Observer.silent_agrees s h
  refine ⟨reference, points, found, ?_, records, ?_⟩
  · rw [r.sweep_recorded a c .silent [] s, h, wrote]
    rfl
  · exact visits.imp fun _ _ visit => ⟨visit.1, visit.2.runBy, visit.2.judged⟩

open Simulation in
/-- The reference stands last and has size one only; the other kernel gets stuck in its third
run. -/
def stickyBench : Runner (StateM Bench) where
  registry := ⟨[
    scripted 0 "sticky" .vectorAdd .simd none
      [⟨.delegate VectorAdd.simd, none⟩, ⟨.fail (.reported "stuck" []), some 3⟩],
    scripted 1 "plain" .vectorAdd .reference (some [1]) [⟨.delegate VectorAdd.reference, none⟩]]⟩
  timer := ⟨source "bench" .cycle 1 64, none⟩

def stickyConfig : Config where
  capability := .vectorAdd
  sizes := [1, 2]
  iterations := 2

theorem verdicts_of_sticky_runs : ∃ ms,
    (stickyBench.sweep .machine stickyConfig .silent { calls := #[0, 0] }).1.1 = .ok ms ∧
    ms.map (·.verdict.reason?) = [none, none, some "kernel error: stuck"] ∧
    ∃ reference points,
      stickyBench.registry.referenceFor .vectorAdd = some reference ∧
      ms = points.flatMap Point.records ∧
      List.Forall₂ (fun size p =>
        Workload.generate .machine .sequential ⟨.vectorAdd, size, 0⟩ = .ok p.workload ∧
          p.RunBy reference (stickyBench.registry.candidatesFor .vectorAdd) ∧
          p.Judged ⟨.standard, 8⟩) [1, 2] points := by
  have reasons : ((stickyBench.sweep .machine stickyConfig .silent
      { calls := #[0, 0] }).1.1.toOption.map (·.map (·.verdict.reason?)))
      = some [none, none, some "kernel error: stuck"] := by
    decide +kernel
  cases h : (stickyBench.sweep .machine stickyConfig .silent { calls := #[0, 0] }).1.1 with
  | error failure => rw [h] at reasons; cases reasons
  | ok ms =>
    rw [h] at reasons
    obtain ⟨reference, points, found, -, records, judged⟩ := verdicts_of_runs _ _ _ _ h
    exact ⟨ms, rfl, Option.some.inj reasons, reference, points, found, records, judged⟩

end Microbench
