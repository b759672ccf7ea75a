import Microbench.Proofs.Sweep.Order
import Microbench.Proofs.Sweep.Shadows
import Microbench.Proofs.Sweep.Verdicts

/-!
# What an observer sees, and what its refusal ends

A passive observer refuses nothing and touches nothing but its own state. A sweep cannot tell it
from no observer at all, and what it is told is what the points of the sweep show. The same observer
may be made to refuse one of its calls: the sweep is then the same up to that call, and ends there.

Results:

* `Visited.shows`: what is shown of one size.
* `points_hooks`: the calls of an observer, from the points of a sweep.
* `observed_sweep`: a watched sweep against the one on its own, with each call it may end at.
-/
namespace Microbench

open Sweep

variable {σ τ : Type}

/-! ## Observers that refuse nothing, or one call -/

/-- The observer refuses nothing and touches nothing but its own state. -/
def Observer.Passive (o : Observer (StateT τ (StateM σ))) : Prop :=
  ∀ hook t s, ∃ t', o.call hook t s = ((.ok (), t'), s)

/-- A call of an observer that refuses call number `n`, counted from zero. -/
def Observer.callUnless (o : Observer (StateT τ (StateM σ))) (n : Nat)
    (refusal : Hook → StateT τ (StateM σ) Failure) (hook : Hook) :
    StateT (Nat × τ) (StateM σ) (Except Failure Unit) := fun (k, t) => do
  let (answer, t) ← (if k = n then Except.error <$> refusal hook else o.call hook) t
  return (answer, (k + 1, t))

/-- The same observer, but for one call, which is refused whatever else that takes. -/
def Observer.refusingAt (o : Observer (StateT τ (StateM σ))) (n : Nat)
    (refusal : Hook → StateT τ (StateM σ) Failure) : Observer (StateT (Nat × τ) (StateM σ)) where
  onWorkload w := o.callUnless n refusal (.workload w)
  onMeasurement record w := o.callUnless n refusal (.measurement record w)

namespace Observer.Passive

variable {o : Observer (StateT τ (StateM σ))} (passive : o.Passive)
include passive

theorem follows : o.Follows (fun _ _ => True) fun _ => False := by
  intro hook before t s _
  obtain ⟨t', out⟩ := passive hook t s
  exact .inl ⟨t', trivial, out⟩

/-- The count of its calls is right and has not passed the one to be refused. -/
theorem follows_refusingAt (n : Nat) (refusal : Hook → StateT τ (StateM σ) Failure) :
    (o.refusingAt n refusal).Follows (fun before t => t.1 = before.length ∧ before.length ≤ n)
      (·.length = n) := by
  rintro hook before ⟨k, t⟩ s ⟨rfl, le⟩
  have call : (o.refusingAt n refusal).call hook = o.callUnless n refusal hook := by
    cases hook <;> rfl
  rw [call, Observer.callUnless]
  by_cases here : before.length = n
  · exact .inr ⟨here, (refusal hook t s).1.1, (before.length + 1, (refusal hook t s).1.2),
      (refusal hook t s).2, by rw [if_pos here]; rfl⟩
  · obtain ⟨t', out⟩ := passive hook t s
    have more : (before ++ [hook]).length = before.length + 1 := List.length_append
    refine .inl ⟨(before.length + 1, t'), ⟨more.symm, ?_⟩, ?_⟩
    · rw [more]
      exact Nat.lt_of_le_of_ne le here
    · rw [if_neg here]
      exact congrArg (fun x => ((x.1.1, (before.length + 1, x.1.2)), x.2)) out

end Observer.Passive

/-! ## What is shown of a size -/

/-- The workload is shown as it was generated, with zeros for output, and after each turn with the
same inputs and the output that the last run left. -/
structure Point.Shows (c : Config) (a : Supply) (size : Nat) (p : Point m) : Prop where
  generated : c.workload a size = .ok p.workload
  zeroed : p.workload.output = .zeros p.workload.shape.elementType p.workload.shape.elements
  turns : ∀ t ∈ p.turns, t.workload.inputs = p.workload.inputs ∧
    t.left? = some t.workload.output

/-- The calls of a point: its workload, then every measurement with the workload its turn left. -/
def Point.hooks (p : Point m) : List Hook :=
  .workload p.workload :: p.turns.map fun t => .measurement t.record t.workload

theorem Visited.shows {s : Setup (StateM σ)} {reference : Kernel (StateM σ)}
    {candidates : List (Kernel (StateM σ))} {size : Nat} {p : Point (StateM σ)}
    (h : Visited s reference candidates size p) : p.Shows s.config s.supply size := by
  obtain ⟨generated, visit⟩ := h
  refine ⟨generated, ?_, ?_⟩
  · obtain ⟨len, buffers, count, -, -, made⟩ := Workload.generate_holds generated
    rw [made, Shape.elementCount_eq_some count]
    rfl
  · obtain ⟨first, later⟩ := visit.lawful (I := fun w => w.inputs = p.workload.inputs) rfl
      fun _ _ _ _ lawful same => lawful.inputs.trans same
    intro t ht
    rcases List.mem_append.1 ht with ht | ht
    · have lawful := first t (Option.mem_toList.1 ht)
      exact ⟨lawful.inputs, lawful.left?_eq⟩
    · obtain ⟨w, same, lawful⟩ := later t ht
      exact ⟨lawful.inputs.trans same, lawful.left?_eq⟩

theorem Turn.entries_hooks (t : Turn m) :
    Journal.hooks t.entries = [.measurement t.record t.workload] := by
  have trial (t : Trial m) : t.entries.filterMap Entry.hook? = [] := rfl
  rw [Journal.hooks, entries, List.filterMap_append, List.filterMap_flatMap]
  simp only [trial]
  rw [List.flatMap_eq_nil_iff.2 fun _ _ => rfl]
  rfl

theorem Point.entries_hooks (p : Point m) : Journal.hooks p.entries = p.hooks := by
  have told : Entry.hook? (.told p.workload p.answer : Entry m) = some (.workload p.workload) := rfl
  rw [Journal.hooks, entries, List.filterMap_cons_some told, List.filterMap_flatMap, hooks,
    List.map_eq_flatMap]
  exact congrArg (fun f => Hook.workload p.workload :: List.flatMap f p.turns)
    (funext Turn.entries_hooks)

theorem Journal.hooks_cut (front : Journal m) (hook : Hook) (answer : Except Failure Unit)
    (rest : Journal m) :
    hooks (front ++ hook.entry answer :: rest) = front.hooks ++ hook :: rest.hooks := by
  rw [hooks_append]
  cases hook <;> rfl

theorem points_hooks (points : List (Point m)) :
    Journal.hooks (points.flatMap Point.entries) = points.flatMap Point.hooks := by
  rw [Journal.hooks, List.filterMap_flatMap]
  exact congrArg (points.flatMap ·) (funext Point.entries_hooks)

/-- The points of a sweep without observer show the sizes that it reached. -/
theorem Runner.silent_shows (r : Runner (StateM σ)) (a : Supply) (c : Config) (s : σ) :
    ∃ points reached, r.journal a c .silent s = points.flatMap Point.entries ∧
      reached <+: c.sizes ∧ List.Forall₂ (Point.Shows c a) reached points ∧
      ∀ ms, (r.sweep a c .silent s).1.1 = .ok ms →
        reached = c.sizes ∧ ms = points.flatMap Point.records := by
  cases found : r.registry.referenceFor c.capability with
  | none =>
    refine ⟨[], [], r.journal_missing a c .silent found s, List.nil_prefix, .nil, fun ms h => ?_⟩
    rw [r.sweep_missing a c .silent found] at h
    cases h
  | some reference =>
    obtain ⟨points, stop, tour, out, wrote⟩ := r.sweep_tour a c .silent found s
    rw [out]
    obtain ⟨rfl, visits⟩ | ⟨before, size, after, failure, sizes, rfl, visits, -⟩ :=
      tour.ends Observer.silent_agrees
    · refine ⟨points, c.sizes, wrote, List.prefix_refl _, visits.imp fun _ _ v => v.shows, ?_⟩
      exact fun ms h => ⟨rfl, (Except.ok.inj h).symm⟩
    · exact ⟨points, before, wrote, ⟨_, sizes.symm⟩, visits.imp fun _ _ v => v.shows, nofun⟩

/-! ## Watched sweeps -/

namespace Runner

variable (r : Runner (StateM σ)) (a : Supply) (c : Config) {o : Observer (StateT τ (StateM σ))}
  (passive : o.Passive) (t : τ) (s : σ)
include passive

/-- A passive observer makes no difference. -/
theorem sweep_watched : ∃ t', r.lift.Sweeps a c o t s
    ((r.sweep a c .silent s).1.1, (r.sweep a c .silent s).1.2.lift)
    (Journal.lift (r.journal a c .silent s)) t' (r.sweep a c .silent s).2 := by
  obtain ⟨t', -, same⟩ | ⟨_, _, _, _, _, _, -, no, -⟩ :=
    r.sweep_shadows passive.follows (t := t) trivial s
  · exact ⟨t', same⟩
  · exact no.elim

/-- A refused call is the last thing that happens. -/
theorem sweep_refused {before after : List Hook} {hook : Hook}
    (split : Journal.hooks (r.journal a c .silent s) = before ++ hook :: after)
    (refusal : Hook → StateT τ (StateM σ) Failure) :
    ∃ (front rest : Journal (StateM σ)) (failure : Failure) (t' : Nat × τ) (s' : σ),
      r.journal a c .silent s = front ++ hook.entry (.ok ()) :: rest ∧
      Journal.hooks front = before ∧
      r.lift.Sweeps a c (o.refusingAt before.length refusal) (0, t) s
        (.error failure, { r.lift with phase := hook.phase })
        (Journal.lift front ++ [hook.entry (.error failure)]) t' s' := by
  obtain ⟨t', ⟨-, le⟩, -⟩ | ⟨front, hook', rest, failure, t', s', cut, number, watched⟩ :=
    r.sweep_shadows (passive.follows_refusingAt before.length refusal) (t := (0, t))
      ⟨rfl, Nat.zero_le _⟩ s
  · rw [split, List.length_append, List.length_cons] at le
    omega
  · rw [cut, Journal.hooks_cut] at split
    obtain ⟨rfl, same⟩ := List.append_inj split number
    obtain ⟨rfl, -⟩ := List.cons.inj same
    exact ⟨front, rest, failure, t', s', cut, rfl, watched⟩

/-- A call that is never made is not refused. -/
theorem sweep_unrefused {n : Nat} (le : (Journal.hooks (r.journal a c .silent s)).length ≤ n)
    (refusal : Hook → StateT τ (StateM σ) Failure) :
    ∃ t', r.lift.Sweeps a c (o.refusingAt n refusal) (0, t) s
      ((r.sweep a c .silent s).1.1, (r.sweep a c .silent s).1.2.lift)
      (Journal.lift (r.journal a c .silent s)) t' (r.sweep a c .silent s).2 := by
  obtain ⟨t', -, same⟩ | ⟨front, hook, rest, failure, t', s', cut, number, -⟩ :=
    r.sweep_shadows (passive.follows_refusingAt n refusal) (t := (0, t)) ⟨rfl, Nat.zero_le _⟩ s
  · exact ⟨t', same⟩
  · rw [cut, Journal.hooks_cut, List.length_append, List.length_cons] at le
    omega

end Runner

/-- A sweep that a passive observer watches gives the same result and leaves runner, kernels and
clock the same as the one on its own. Its journal is that of its points: for each size that is
reached, the workload as it was generated, then kernel after kernel, each with the measurement that
is returned of it and what its last run left. If the observer refuses call number `n` instead, the
sweep has done exactly the same up to that call, does nothing more, and fails with what the observer
said, in the phase of the call; if it makes no more than `n` calls, it is the same sweep. -/
theorem observed_sweep (r : Runner (StateM σ)) (a : Supply) (c : Config)
    (o : Observer (StateT τ (StateM σ))) (passive : o.Passive) (t : τ) (s : σ) :
    let alone := r.sweep a c .silent s
    ∃ points reached, r.journal a c .silent s = points.flatMap Point.entries ∧
      reached <+: c.sizes ∧ List.Forall₂ (Point.Shows c a) reached points ∧
      (∀ ms, alone.1.1 = .ok ms → reached = c.sizes ∧ ms = points.flatMap Point.records) ∧
      (∃ t', r.lift.Sweeps a c o t s (alone.1.1, alone.1.2.lift)
        (Journal.lift (points.flatMap Point.entries)) t' alone.2) ∧
      (∀ before hook after, points.flatMap Point.hooks = before ++ hook :: after → ∀ refusal,
        ∃ (front rest : Journal (StateM σ)) (failure : Failure) (t' : Nat × τ) (s' : σ),
          points.flatMap Point.entries = front ++ hook.entry (.ok ()) :: rest ∧
          Journal.hooks front = before ∧
          r.lift.Sweeps a c (o.refusingAt before.length refusal) (0, t) s
            (.error failure, { r.lift with phase := hook.phase })
            (Journal.lift front ++ [hook.entry (.error failure)]) t' s') ∧
      ∀ n, (points.flatMap Point.hooks).length ≤ n → ∀ refusal, ∃ t',
        r.lift.Sweeps a c (o.refusingAt n refusal) (0, t) s (alone.1.1, alone.1.2.lift)
          (Journal.lift (points.flatMap Point.entries)) t' alone.2 := by
  obtain ⟨points, reached, wrote, front, shows, records⟩ := r.silent_shows a c s
  refine ⟨points, reached, wrote, front, shows, records, ?_, ?_, ?_⟩
  · rw [← wrote]
    exact r.sweep_watched a c passive t s
  · intro before hook after split refusal
    rw [← points_hooks, ← wrote] at split
    rw [← wrote]
    exact r.sweep_refused a c passive t s split refusal
  · intro n le refusal
    rw [← points_hooks, ← wrote] at le
    rw [← wrote]
    exact r.sweep_unrefused a c passive t s le refusal

/-! ### An observer that counts -/

section Counted

open Simulation

def counting : Observer (StateT Nat (StateM Bench)) where
  onWorkload _ := do modify (· + 1); return .ok ()
  onMeasurement _ _ := do modify (· + 1); return .ok ()

theorem counting_passive : counting.Passive := fun hook t s => ⟨t + 1, by cases hook <;> rfl⟩

/-- The two kernels of `stickyBench` are measured at size one, one of them at size two. Without the
fourth call the sweep ends at the second size. -/
theorem observed_sweep_counted :
    let start : Bench := { calls := #[0, 0] }
    ∃ ms left last, ∃ points : List (Point (StateM Bench)),
      stickyBench.sweep .machine stickyConfig .silent start = ((.ok ms, left), last) ∧
      List.Forall₂ (Point.Shows stickyConfig .machine) [1, 2] points ∧
      (points.flatMap Point.hooks).map Hook.phase
        = [.generatingWorkload, .recording, .recording, .generatingWorkload, .recording] ∧
      stickyBench.lift.Sweeps .machine stickyConfig counting 0 start
        (.ok ms, left.lift) (Journal.lift (points.flatMap Point.entries)) 5 last ∧
      ∀ refusal, ∃ entries failure t' s',
        stickyBench.lift.Sweeps .machine stickyConfig (counting.refusingAt 3 refusal) (0, 0) start
          (.error failure, { stickyBench.lift with phase := .generatingWorkload }) entries t'
          s' := by
  intro start
  have returned : (stickyBench.sweep .machine stickyConfig .silent start).1.1.isOk = true := by
    decide +kernel
  have phases :
      (Journal.hooks (stickyBench.journal .machine stickyConfig .silent start)).map Hook.phase
        = [.generatingWorkload, .recording, .recording, .generatingWorkload, .recording] := by
    decide +kernel
  have calls : (stickyBench.lift.sweep .machine stickyConfig counting 0 start).1.2 = 5 := by
    decide +kernel
  obtain ⟨points, reached, wrote, -, shows, records, ⟨t', same⟩, cut, -⟩ :=
    observed_sweep stickyBench .machine stickyConfig counting counting_passive 0 start
  rw [wrote, points_hooks] at phases
  rw [same.plain] at calls
  obtain rfl : t' = 5 := calls
  obtain ⟨⟨⟨result, left⟩, last⟩, out⟩ :
    ∃ out, stickyBench.sweep .machine stickyConfig .silent start = out := ⟨_, rfl⟩
  rw [out] at returned records same
  cases result with
  | error failure => cases returned
  | ok ms =>
    obtain ⟨rfl, -⟩ := records ms rfl
    refine ⟨ms, left, last, points, out, shows, phases, same, fun refusal => ?_⟩
    generalize points.flatMap Point.hooks = hooks at phases cut
    obtain ⟨_, _, rfl, -, phases⟩ := List.map_eq_cons_iff.1 phases
    obtain ⟨_, _, rfl, -, phases⟩ := List.map_eq_cons_iff.1 phases
    obtain ⟨_, _, rfl, -, phases⟩ := List.map_eq_cons_iff.1 phases
    obtain ⟨fourth, _, rfl, phase, -⟩ := List.map_eq_cons_iff.1 phases
    obtain ⟨front, _, failure, t', s', -, -, ended⟩ := cut [_, _, _] fourth _ rfl refusal
    rw [phase] at ended
    exact ⟨_, failure, t', s', ended⟩

end Counted

end Microbench
