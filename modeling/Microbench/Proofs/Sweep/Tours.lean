import Mathlib.Data.List.Forall2
import Microbench.Proofs.Sweep.Points

/-!
# What tours have in common

Facts about trials, turns, points and tours that do not depend on what is asked of a sweep: how
the outcome of a turn shows in its trials, which kernels take turns, and how a tour ends when the
observer refuses nothing.

Results:

* `Trials.failure?_eq`, `Trials.left?_eq`: the trials of a turn show its failure and its output.
* `Visit.kernels_eq`: the kernels that take turns at a size are those that support its shape.
* `Visit.lawful`: what one turn preserves holds before every turn of a point.
* `Tour.ends`: unless the observer refuses something, a tour visits every size, or every size
  before the first whose workload cannot be generated.
* `Runner.sweep_ok`: a sweep that returns has visited every size.
-/
namespace Microbench

open Sweep

variable {σ : Type} {s : Setup (StateM σ)}

theorem forall₂_mem_right {R : α → β → Prop} {l : List α} {l' : List β} (h : List.Forall₂ R l l')
    {b : β} (hb : b ∈ l') : ∃ a ∈ l, R a b := by
  obtain ⟨i, hi, rfl⟩ := List.getElem_of_mem hb
  have bound : i < l.length := h.length_eq ▸ hi
  exact ⟨l[i], List.getElem_mem bound, h.get bound hi⟩

/-! ## Trials -/

def failureOf : Except Failure α → Option Failure
  | .ok _ => none
  | .error failure => some failure

def Run.failure? (r : Run m) : Option Failure := failureOf r.result

namespace Turn

/-- The failure of the first run that failed. -/
def failure? (t : Turn m) : Option Failure := t.trials.findSome? (·.run.failure?)

/-- What the last run left. -/
def left? (t : Turn m) : Option Buffer := t.trials.getLast?.map (·.run.left)

end Turn

namespace Trials

variable {source : TickSource (StateM σ)} {kernel : Kernel (StateM σ)} {inputs : Inputs} {n : Nat}
  {total : Elapsed} {output last : Buffer} {trials : List (Trial (StateM σ))}
  {outcome : Except Failure Elapsed}

theorem failure?_eq (h : Trials source kernel inputs n total output trials outcome last) :
    trials.findSome? (·.run.failure?) = failureOf outcome := by
  induction h with
  | done => rfl
  | failed => rfl
  | passed _ _ ih => exact ih

theorem left?_eq (h : Trials source kernel inputs n total output trials outcome last) :
    (trials.getLast?.map (·.run.left)).getD output = last := by
  induction h with
  | done => rfl
  | failed => rfl
  | @passed n _ _ _ _ left trials _ last _ _ ih =>
    rw [List.getLast?_cons]
    rw [← ih]
    cases trials.getLast? <;> rfl

theorem ne_nil (h : Trials source kernel inputs n total output trials outcome last) (hn : 0 < n) :
    trials ≠ [] := by
  cases h with
  | done => exact absurd hn (Nat.lt_irrefl 0)
  | failed => exact List.cons_ne_nil _ _
  | passed => exact List.cons_ne_nil _ _

theorem length_le (h : Trials source kernel inputs n total output trials outcome last) :
    trials.length ≤ n := by
  induction h with
  | done => exact Nat.le_refl 0
  | failed => exact Nat.succ_le_succ (Nat.zero_le _)
  | passed _ _ ih => exact Nat.succ_le_succ ih

/-- Every trial runs the same kernel on the same inputs. -/
theorem runs (h : Trials source kernel inputs n total output trials outcome last) :
    ∀ t ∈ trials, t.run.kernel = kernel ∧ t.run.inputs = inputs := by
  induction h with
  | done => simp
  | failed => simp
  | passed _ _ ih => simpa using ih

end Trials

namespace Turn.Lawful

variable {judge : Buffer → Verdict} {w : Workload} {t : Turn (StateM σ)}

theorem shape (h : t.Lawful s judge w) : t.workload.shape = w.shape :=
  congrArg Inputs.shape h.inputs

theorem failure?_eq (h : t.Lawful s judge w) : t.failure? = failureOf t.outcome :=
  h.trials.failure?_eq

theorem ne_nil (h : t.Lawful s judge w) : t.trials ≠ [] :=
  h.trials.ne_nil (Nat.lt_of_lt_of_le Nat.zero_lt_one (Nat.le_max_right ..))

theorem left?_eq (h : t.Lawful s judge w) : t.left? = some t.workload.output := by
  have last := h.trials.left?_eq
  unfold Turn.left?
  cases left : t.trials.getLast? with
  | none => exact absurd (List.getLast?_eq_none_iff.1 left) h.ne_nil
  | some trial => rw [left] at last; exact congrArg some last

end Turn.Lawful

/-! ## Points -/

/-- What the point tells of the right output. -/
def Point.truth (p : Point m) : Truth :=
  match p.reference with
  | some turn => turn.truth
  | none => .absent

theorem Point.truth_some {p : Point m} {t : Turn m} (h : p.reference = some t) :
    p.truth = t.truth := by
  rw [truth, h]

theorem Point.truth_none {p : Point m} (h : p.reference = none) : p.truth = .absent := by
  rw [truth, h]

variable {truth : Truth} {reference : Kernel (StateM σ)}
  {candidates kernels : List (Kernel (StateM σ))} {w : Workload} {turns : List (Turn (StateM σ))}
  {p : Point (StateM σ)}

theorem Turns.kernels_eq (h : Turns s truth kernels w turns none) :
    turns.map (·.kernel) = kernels.filter (·.supports w.shape) := by
  generalize hstop : (none : Option Failure) = stop at h
  induction h with
  | done => rfl
  | declined supports _ ih => simp [supports, ih hstop]
  | refused => cases hstop
  | taken supports lawful _ _ ih => simp [supports, ih hstop, lawful.shape]

theorem Visit.candidates_kernel (h : Visit s reference candidates w p none) :
    p.candidates.map (·.kernel) = candidates.filter (·.supports w.shape) := by
  generalize hstop : (none : Stop) = stop at h
  cases h with
  | untold => cases hstop
  | refused => cases hstop
  | @referred turn turns stop _ kernel supports lawful _ rest =>
    obtain rfl := Option.map_eq_none_iff.1 hstop.symm
    rw [rest.kernels_eq, lawful.shape]
  | @declined turns stop _ supports rest =>
    obtain rfl := Option.map_eq_none_iff.1 hstop.symm
    exact rest.kernels_eq

theorem Visit.reference_kernel (h : Visit s reference candidates w p none) :
    p.reference.map (·.kernel) = if reference.supports w.shape then some reference else none := by
  generalize hstop : (none : Stop) = stop at h
  cases h with
  | untold => cases hstop
  | refused => cases hstop
  | referred _ kernel supports => simp [supports, kernel]
  | declined _ supports => simp [supports]

theorem Visit.reference_taken (h : Visit s reference candidates w p none) {t : Turn (StateM σ)}
    (ht : p.reference = some t) : t.kernel = reference ∧ reference.supports w.shape = true := by
  have taken := h.reference_kernel
  rw [ht] at taken
  split at taken
  · next supports => exact ⟨Option.some.inj taken, supports⟩
  · cases taken

theorem Visit.reference_absent (h : Visit s reference candidates w p none)
    (hr : p.reference = none) : ¬reference.supports w.shape = true := by
  have taken := h.reference_kernel
  rw [hr] at taken
  split at taken
  · cases taken
  · assumption

/-- The kernels that take turns are those that support the shape, the reference first. -/
theorem Visit.kernels_eq (h : Visit s reference candidates w p none) :
    p.turns.map (·.kernel) = (reference :: candidates).filter (·.supports w.shape) := by
  have first := h.reference_kernel
  rw [Point.turns, List.map_append, h.candidates_kernel, List.filter_cons]
  cases hr : p.reference <;> rw [hr] at first <;> split at first <;> simp_all

/-- What one turn preserves holds before each of the candidates' turns. -/
theorem Turns.lawful {I : Workload → Prop} {stop : Option Failure}
    (h : Turns s truth kernels w turns stop) (hw : I w)
    (step : ∀ judge w (t : Turn (StateM σ)), t.kernel ∈ kernels → t.Lawful s judge w → I w →
      I t.workload) :
    ∀ t ∈ turns, ∃ w, I w ∧ t.Lawful s (truth.judge s.config.verifier) w := by
  induction h with
  | done => simp
  | declined _ _ ih => exact ih hw fun judge w t ht => step judge w t (List.mem_cons_of_mem _ ht)
  | refused _ lawful => simpa using ⟨_, hw, lawful⟩
  | taken _ lawful _ _ ih =>
    refine List.forall_mem_cons.2 ⟨⟨_, hw, lawful⟩, ih ?_ ?_⟩
    · exact step _ _ _ List.mem_cons_self lawful hw
    · exact fun judge w t ht => step judge w t (List.mem_cons_of_mem _ ht)

/-- What one turn preserves holds before every turn of a point. -/
theorem Visit.lawful {I : Workload → Prop} {stop : Stop}
    (h : Visit s reference candidates w p stop) (hw : I w)
    (step : ∀ judge w (t : Turn (StateM σ)), t.kernel ∈ reference :: candidates →
      t.Lawful s judge w → I w → I t.workload) :
    (∀ t, p.reference = some t → t.Lawful s (fun _ => .passed 0) w) ∧
      ∀ t ∈ p.candidates, ∃ w, I w ∧ t.Lawful s (p.truth.judge s.config.verifier) w := by
  cases h with
  | untold => simp
  | refused _ _ _ lawful => simpa using lawful
  | referred _ kernel _ lawful _ rest =>
    refine ⟨by simpa using lawful, rest.lawful ?_ ?_⟩
    · exact step _ _ _ (by simp [kernel]) lawful hw
    · exact fun judge w t ht => step judge w t (List.mem_cons_of_mem _ ht)
  | declined _ _ rest =>
    exact ⟨by simp, rest.lawful hw fun judge w t ht => step judge w t (List.mem_cons_of_mem _ ht)⟩

/-! ## Tours that nothing stops but a workload -/

/-- The observer refuses nothing. -/
structure Observer.Agrees (o : Observer (StateM σ)) : Prop where
  workload : ∀ w answer, Gives (o.onWorkload w) answer → answer = .ok ()
  measurement : ∀ r w answer, Gives (o.onMeasurement r w) answer → answer = .ok ()

theorem Observer.silent_agrees : (Observer.silent : Observer (StateM σ)).Agrees where
  workload _ _ := fun ⟨_, h⟩ => h.symm
  measurement _ _ _ := fun ⟨_, h⟩ => h.symm

theorem Turns.stop_eq {stop : Option Failure} (agrees : s.observer.Agrees)
    (h : Turns s truth kernels w turns stop) : stop = none := by
  induction h with
  | done => rfl
  | declined _ _ ih => exact ih
  | refused _ lawful answer =>
    cases answer.symm.trans (agrees.measurement _ _ _ lawful.answer)
  | taken _ _ _ _ ih => exact ih

theorem Visit.stop_eq {stop : Stop} (agrees : s.observer.Agrees)
    (h : Visit s reference candidates w p stop) : stop = none := by
  cases h with
  | untold told => cases agrees.workload _ _ told
  | refused _ _ _ lawful answer =>
    cases answer.symm.trans (agrees.measurement _ _ _ lawful.answer)
  | referred _ _ _ _ _ rest => rw [rest.stop_eq agrees]; rfl
  | declined _ _ rest => rw [rest.stop_eq agrees]; rfl

/-- The workload of a size is generated and all its kernels take their turns. -/
def Visited (s : Setup (StateM σ)) (reference : Kernel (StateM σ))
    (candidates : List (Kernel (StateM σ))) (size : Nat) (p : Point (StateM σ)) : Prop :=
  Workload.generate s.supply s.config.fill (s.config.shapeFor size) = .ok p.workload ∧
    Visit s reference candidates p.workload p none

theorem Visit.workload_eq {stop : Stop} (h : Visit s reference candidates w p stop) :
    p.workload = w := by
  cases h <;> rfl

/-- How a tour ends that no observer stops: it visits all sizes, or all before the first size
whose workload cannot be generated. -/
theorem Tour.ends {sizes : List Nat} {points : List (Point (StateM σ))} {stop : Stop}
    (agrees : s.observer.Agrees) (h : Tour s reference candidates sizes points stop) :
    (stop = none ∧ List.Forall₂ (Visited s reference candidates) sizes points) ∨
      ∃ before size after failure, sizes = before ++ size :: after ∧
        stop = some (failure, .generatingWorkload) ∧
        List.Forall₂ (Visited s reference candidates) before points ∧
        Workload.generate s.supply s.config.fill (s.config.shapeFor size) = .error failure := by
  -- By induction on the tour: an agreeing observer rules out the stops of a visit.
  induction h with
  | done => exact .inl ⟨rfl, .nil⟩
  | ungenerated generate => exact .inr ⟨[], _, _, _, rfl, rfl, .nil, generate⟩
  | stopped _ visit => cases visit.stop_eq agrees
  | visited generate visit _ ih =>
    have here := visit.workload_eq ▸ And.intro generate visit
    obtain ⟨rfl, rest⟩ | ⟨before, size, after, failure, rfl, rfl, rest, fails⟩ := ih
    · exact .inl ⟨rfl, .cons here rest⟩
    · exact .inr ⟨_ :: before, size, after, failure, rfl, rfl, .cons here rest, fails⟩

/-- A tour all of whose workloads can be generated visits all sizes. -/
theorem Tour.completes {sizes : List Nat} {points : List (Point (StateM σ))} {stop : Stop}
    (agrees : s.observer.Agrees) (h : Tour s reference candidates sizes points stop)
    (generates : ∀ size ∈ sizes, ∃ w,
      Workload.generate s.supply s.config.fill (s.config.shapeFor size) = .ok w) :
    stop = none ∧ List.Forall₂ (Visited s reference candidates) sizes points := by
  rcases h.ends agrees with visits | ⟨before, size, after, failure, rfl, -, -, fails⟩
  · exact visits
  · obtain ⟨w, generated⟩ := generates size (by simp)
    cases fails.symm.trans generated

/-- What a sweep that returns has visited, unless the observer refuses something. -/
theorem Runner.sweep_ok (r : Runner (StateM σ)) (a : Supply) (c : Config)
    {o : Observer (StateM σ)} (agrees : o.Agrees) (x : σ) {ms : List Measurement}
    (h : (r.sweep a c o x).1.1 = .ok ms) : ∃ reference points,
      r.registry.referenceFor c.capability = some reference ∧
      List.Forall₂
        (Visited ⟨a, r.timer, c, o⟩ reference (r.registry.candidatesFor c.capability))
        c.sizes points ∧
      ms = points.flatMap Point.records ∧
      r.journal a c o x = points.flatMap Point.entries := by
  cases hr : r.registry.referenceFor c.capability with
  | none => rw [r.sweep_missing a c o hr] at h; cases h
  | some reference =>
    obtain ⟨points, stop, tour, out, wrote⟩ := r.sweep_tour a c o hr x
    rw [out] at h
    obtain ⟨rfl, visits⟩ | ⟨_, _, _, _, _, rfl, _⟩ := tour.ends agrees
    · exact ⟨reference, points, rfl, visits, (Except.ok.inj h).symm, wrote⟩
    · cases h

end Microbench
