import Microbench.Proofs.Sweep.Points

/-!
# Sweeping some sizes and then others

A sweep takes nothing from one size to the next but the state of its kernels, clock and observer.
So its sizes can be split anywhere: the sweep of a list is the sweep of its first part and then,
on the runner that part left, the sweep of the rest. A first part that fails is the end of it.

Results:

* `measureSizes_append`: the steps of a sweep, split between two sizes.
* `Runner.sweep_append`: the sweep itself, for kernels in any lawful monad.
* `sweep_over_append`: what comes out in each of the three cases, and what stands in the journal.
-/
namespace Microbench

open Sweep

/-- The same sweep over other sizes. -/
def Sweep.Config.over (c : Config) (sizes : List Nat) : Config := { c with sizes }

variable {m : Type → Type} [Monad m]

/-! ## Steps -/

namespace Sweep

section Over

variable {a : Supply} {t : Timer m} {c : Config} {o : Observer m} {sizes : List Nat}
  {reference : Kernel m} {candidates : List (Kernel m)}

theorem measureCandidates_over (truth : Truth) (kernels : List (Kernel m)) (w : Workload) :
    measureCandidates ⟨a, t, c.over sizes, o⟩ truth kernels w
      = measureCandidates ⟨a, t, c, o⟩ truth kernels w := by
  induction kernels generalizing w with
  | nil => rfl
  | cons kernel kernels ih =>
    simp only [measureCandidates, ih]
    rfl

/-- The sizes of the configuration are not looked at on the way. -/
theorem measureSizes_over (xs : List Nat) :
    measureSizes ⟨a, t, c.over sizes, o⟩ reference candidates xs
      = measureSizes ⟨a, t, c, o⟩ reference candidates xs := by
  induction xs with
  | nil => rfl
  | cons size xs ih =>
    simp only [measureSizes, measureSize, measureCandidates_over, ih]
    rfl

end Over

theorem measureSizes_append [LawfulMonad m] (s : Setup m) (reference : Kernel m)
    (candidates : List (Kernel m)) (xs ys : List Nat) :
    measureSizes s reference candidates (xs ++ ys) = do
      let first ← measureSizes s reference candidates xs
      let second ← measureSizes s reference candidates ys
      return first ++ second := by
  induction xs with
  | nil => simp [measureSizes]
  | cons size xs ih =>
    simp only [List.cons_append, measureSizes, ih, bind_assoc, pure_bind, List.append_assoc]

/-- A step and what follows it, from some phase. -/
theorem step_bind [LawfulMonad m] (step : Step m α) (next : α → Step m β) (phase : Phase) :
    (step >>= next) phase = step phase >>= fun out =>
      match out.1 with
      | .ok value => next value out.2
      | .error failure => pure (.error failure, out.2) := by
  show (step phase >>= fun out => ExceptT.bindCont next out.1 out.2) = _
  refine bind_congr fun out => ?_
  obtain ⟨result, last⟩ := out
  cases result <;> rfl

end Sweep

/-! ## Sweeps -/

namespace Runner

/-- What a runner makes of the steps of a sweep, with earlier measurements in front. -/
def close (r : Runner m) (earlier : List Measurement) (steps : Step m (List Measurement))
    (phase : Phase) : m (Except Failure (List Measurement) × Runner m) := do
  let (result, last) ← steps.run phase
  return r.finish (result.map (earlier ++ ·)) last

theorem sweep_eq_close (r : Runner m) (a : Supply) (c : Config) (o : Observer m)
    {reference : Kernel m} (h : r.registry.referenceFor c.capability = some reference)
    (sizes : List Nat) :
    r.sweep a (c.over sizes) o = r.close [] (measureSizes ⟨a, r.timer, c, o⟩ reference
      (r.registry.candidatesFor c.capability) sizes) .idle := by
  have nothing_earlier (result : Except Failure (List Measurement)) :
      result.map ([] ++ ·) = result := by
    cases result <;> rfl
  have h' : r.registry.referenceFor (c.over sizes).capability = some reference := h
  simp only [sweep, h', close, nothing_earlier, measureSizes_over]
  rfl

variable [LawfulMonad m] (r : Runner m)

/-- The first size enters a phase of its own, and a sweep without sizes is done at once. So the
phase before makes no difference. -/
theorem close_phase (earlier : List Measurement) (s : Setup m) (reference : Kernel m)
    (candidates : List (Kernel m)) (sizes : List Nat) (phase : Phase) :
    r.close earlier (measureSizes s reference candidates sizes) phase
      = r.close earlier (measureSizes s reference candidates sizes) .idle := by
  cases sizes with
  | nil =>
    show (pure (Except.ok [], phase) >>= _) = (pure (Except.ok [], Phase.idle) >>= _)
    simp only [pure_bind]
    rfl
  | cons => rfl

theorem close_append (first second : Step m (List Measurement)) (phase : Phase) :
    r.close [] (first >>= fun xs => second >>= fun ys => pure (xs ++ ys)) phase
      = first phase >>= fun out =>
        match out.1 with
        | .ok xs => r.close xs second out.2
        | .error failure => pure (r.finish (.error failure) out.2) := by
  show (first >>= _) phase >>= _ = _
  rw [step_bind, bind_assoc]
  refine bind_congr fun out => ?_
  obtain ⟨result, last⟩ := out
  cases result with
  | error failure => exact pure_bind _ _
  | ok xs =>
    show (second >>= _) last >>= _ = second last >>= _
    rw [step_bind, bind_assoc]
    refine bind_congr fun out => ?_
    obtain ⟨result, last⟩ := out
    cases result <;> exact pure_bind _ _

theorem sweep_append (a : Supply) (c : Config) (o : Observer m) (xs ys : List Nat) :
    r.sweep a (c.over (xs ++ ys)) o = do
      let (first, r) ← r.sweep a (c.over xs) o
      match first with
      | .error failure => return (.error failure, r)
      | .ok ms =>
        let (second, r) ← r.sweep a (c.over ys) o
        return (second.map (ms ++ ·), r) := by
  cases h : r.registry.referenceFor c.capability with
  | none =>
    have missing (sizes : List Nat) : r.sweep a (c.over sizes) o
        = pure (.error (.missingReference c.capability), { r with phase := .idle }) :=
      r.sweep_unfound a (c.over sizes) o h
    simp only [missing, pure_bind]
  | some reference =>
    rw [sweep_eq_close r a c o h, sweep_eq_close r a c o h, measureSizes_append, close_append]
    simp only [close, bind_assoc, pure_bind]
    refine bind_congr fun out => ?_
    obtain ⟨result, last⟩ := out
    cases result with
    | error failure => rfl
    | ok ms =>
      -- The whole goes on from the last phase of the first part, the second sweep begins anew.
      show r.close ms _ last = { r with phase := .done }.sweep a (c.over ys) o >>= _
      rw [sweep_eq_close { r with phase := .done } a c o h, close_phase]
      simp only [close, bind_assoc, pure_bind]
      refine bind_congr fun out => ?_
      obtain ⟨result, last⟩ := out
      cases result <;> rfl

end Runner

/-! ## The three cases -/

variable {σ : Type}

theorem Runner.journal_append (r : Runner (StateM σ)) (a : Supply) (c : Config)
    (o : Observer (StateM σ)) (xs ys : List Nat) (s : σ) :
    r.journal a (c.over (xs ++ ys)) o s = r.journal a (c.over xs) o s ++
      match r.sweep a (c.over xs) o s with
      | ((.error _, _), _) => []
      | ((.ok _, r'), s') => r'.journal a (c.over ys) o s' := by
  have first := r.sweep_recorded a (c.over xs) o [] s
  obtain ⟨⟨⟨result, r'⟩, s'⟩, out⟩ : ∃ out, r.sweep a (c.over xs) o s = out := ⟨_, rfl⟩
  rw [out] at first ⊢
  rw [journal, sweep_append]
  simp only [bind, StateT.bind, first]
  cases result with
  | error failure => exact (List.append_nil _).symm
  | ok ms =>
    have second := r'.sweep_recorded a (c.over ys) o (r.journal a (c.over xs) o s) s'
    simp only [List.nil_append, StateT.bind, bind, second]
    rfl

/-- Sweeping two lists of sizes in a row gives the measurements of both, or the first failure; it
leaves the runner and the state of kernels, clock and observer as the last sweep of the two left
them, and it does nothing that the two do not do. -/
theorem sweep_over_append (r : Runner (StateM σ)) (a : Supply) (c : Config)
    (o : Observer (StateM σ)) (xs ys : List Nat) (s : σ) :
    match r.sweep a (c.over xs) o s with
    | ((.error failure, r'), s') =>
      r.sweep a (c.over (xs ++ ys)) o s = ((.error failure, r'), s') ∧
      r.journal a (c.over (xs ++ ys)) o s = r.journal a (c.over xs) o s
    | ((.ok ms, r'), s') =>
      r.journal a (c.over (xs ++ ys)) o s
        = r.journal a (c.over xs) o s ++ r'.journal a (c.over ys) o s' ∧
      match r'.sweep a (c.over ys) o s' with
      | ((.error failure, r''), s'') =>
        r.sweep a (c.over (xs ++ ys)) o s = ((.error failure, r''), s'')
      | ((.ok ns, r''), s'') =>
        r.sweep a (c.over (xs ++ ys)) o s = ((.ok (ms ++ ns), r''), s'') := by
  have whole := congrFun (r.sweep_append a c o xs ys) s
  have journal := r.journal_append a c o xs ys s
  simp only [bind, StateT.bind] at whole
  obtain ⟨⟨⟨first, r'⟩, s'⟩, out⟩ : ∃ out, r.sweep a (c.over xs) o s = out := ⟨_, rfl⟩
  rw [out] at whole journal ⊢
  cases first with
  | error failure => exact ⟨whole, by rw [journal, List.append_nil]⟩
  | ok ms =>
    refine ⟨journal, ?_⟩
    obtain ⟨⟨⟨second, r''⟩, s''⟩, out'⟩ : ∃ out, r'.sweep a (c.over ys) o s' = out := ⟨_, rfl⟩
    simp only [StateT.bind, bind, out'] at whole ⊢
    cases second <;> exact whole

end Microbench
