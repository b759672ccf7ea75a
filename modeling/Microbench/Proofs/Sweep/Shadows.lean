import Microbench.Proofs.Sweep.Points

/-!
# Sweeps that someone watches

An observer has a state of its own, next to that of the kernels and the clock. A sweep that it
watches is compared with the same sweep on its own: as long as the observer refuses nothing it
leaves the same behind, and the first refusal cuts it off at that call.

Of the watched sweep two versions are followed at once, the plain one and the one that keeps a
journal.

Results:

* `execute_lifted`: the runs of a kernel are the same in either world.
* `Shadows.bind`: two steps in a row follow the ones on their own up to the first refusal.
* `measureSizes_shadows`: so do the steps of a sweep.
* `Runner.sweep_shadows`: a watched sweep is the one on its own, or it ends at a refusal.
-/
namespace Microbench

open Sweep

/-! ## The same kernels and clock in a larger world -/

section Lift

variable {m n : Type → Type} [MonadLift m n]

def Kernel.lift (k : Kernel m) : Kernel n :=
  { k with run := fun inputs output => MonadLift.monadLift (k.run inputs output) }

@[simp] theorem Kernel.lift_supports (k : Kernel m) (shape : Shape) :
    (k.lift : Kernel n).supports shape = k.supports shape := rfl

def Timer.lift (t : Timer m) : Timer n := ⟨t.source.lift, t.started⟩

def Registry.lift (r : Registry m) : Registry n := ⟨r.kernels.map Kernel.lift⟩

def Runner.lift (r : Runner m) : Runner n := ⟨r.registry.lift, r.timer.lift, r.phase⟩

def Entry.lift : Entry m → Entry n
  | .reading ticks => .reading ticks
  | .ran ⟨kernel, inputs, given, result, left⟩ => .ran ⟨kernel.lift, inputs, given, result, left⟩
  | .told w answer => .told w answer
  | .heard record w answer => .heard record w answer

def Journal.lift (journal : Journal m) : Journal n := journal.map Entry.lift

theorem Registry.referenceFor_lift (r : Registry m) (c : Capability) :
    (r.lift : Registry n).referenceFor c = (r.referenceFor c).map Kernel.lift := by
  simp only [referenceFor, kernelsFor, lift, List.filter_map, List.find?_map]
  rfl

theorem Registry.candidatesFor_lift (r : Registry m) (c : Capability) :
    (r.lift : Registry n).candidatesFor c = (r.candidatesFor c).map Kernel.lift := by
  simp only [candidatesFor, kernelsFor, lift, List.filter_map, List.eraseP_map]
  rfl

end Lift

/-! ## Calls of an observer -/

inductive Hook where
  | workload (w : Workload)
  | measurement (record : Measurement) (w : Workload)

/-- The phase in which the call is made. -/
def Hook.phase : Hook → Phase
  | .workload _ => .generatingWorkload
  | .measurement .. => .recording

def Hook.entry (answer : Except Failure Unit) : Hook → Entry m
  | .workload w => .told w answer
  | .measurement record w => .heard record w answer

def Observer.call (o : Observer m) : Hook → m (Except Failure Unit)
  | .workload w => o.onWorkload w
  | .measurement record w => o.onMeasurement record w

def Entry.hook? : Entry m → Option Hook
  | .told w _ => some (.workload w)
  | .heard record w _ => some (.measurement record w)
  | _ => none

/-- The calls in a journal, in order. -/
def Journal.hooks (journal : Journal m) : List Hook := journal.filterMap Entry.hook?

theorem Journal.hooks_append (a b : Journal m) : Journal.hooks (a ++ b) = a.hooks ++ b.hooks :=
  List.filterMap_append

variable {σ τ α β : Type}

/-- How an observer goes on after some calls in a state that satisfies the invariant: it agrees and
touches nothing but its own state, or, after calls after which it may, it refuses. -/
def Observer.Follows (o : Observer (StateT τ (StateM σ))) (I : List Hook → τ → Prop)
    (refusable : List Hook → Prop) : Prop :=
  ∀ hook before t s, I before t →
    (∃ t', I (before ++ [hook]) t' ∧ o.call hook t s = ((.ok (), t'), s)) ∨
      refusable before ∧ ∃ failure t' s', o.call hook t s = ((.error failure, t'), s')

/-! ## One action in both worlds -/

/-- What an action gives, writes and leaves, whatever stands in the journal already. -/
def Wrote (action : Recorder (StateM σ) α) (s : σ) (value : α) (entries : Journal (StateM σ))
    (s' : σ) : Prop :=
  ∀ journal, action journal s = ((value, journal ++ entries), s')

/-- The same of an action in the larger world, with the journal and without. -/
structure Comes (plain : StateT τ (StateM σ) α) (kept : Recorder (StateT τ (StateM σ)) α) (t : τ)
    (s : σ) (value : α) (entries : Journal (StateT τ (StateM σ))) (t' : τ) (s' : σ) : Prop where
  plain : plain t s = ((value, t'), s')
  kept : ∀ journal, kept journal t s = (((value, journal ++ entries), t'), s')

theorem Wrote.pure (a : α) (s : σ) : Wrote (Pure.pure a) s a [] s := fun journal => by
  rw [List.append_nil]
  rfl

theorem Wrote.bind {p : Recorder (StateM σ) α} {f : α → Recorder (StateM σ) β} {s s' s'' : σ}
    {a : α} {b : β} {es es' : Journal (StateM σ)} (hp : Wrote p s a es s')
    (hf : Wrote (f a) s' b es' s'') : Wrote (p >>= f) s b (es ++ es') s'' := by
  intro journal
  show f (p journal s).1.1 (p journal s).1.2 (p journal s).2 = _
  rw [hp, ← List.append_assoc]
  exact hf _

theorem Comes.pure (a : α) (t : τ) (s : σ) : Comes (Pure.pure a) (Pure.pure a) t s a [] t s where
  plain := rfl
  kept journal := by rw [List.append_nil]; rfl

theorem Comes.bind {p : StateT τ (StateM σ) α} {p' : Recorder (StateT τ (StateM σ)) α}
    {f : α → StateT τ (StateM σ) β} {g : α → Recorder (StateT τ (StateM σ)) β} {t t' t'' : τ}
    {s s' s'' : σ} {a : α} {b : β} {es es' : Journal (StateT τ (StateM σ))}
    (hp : Comes p p' t s a es t' s') (hf : Comes (f a) (g a) t' s' b es' t'' s'') :
    Comes (p >>= f) (p' >>= g) t s b (es ++ es') t'' s'' where
  plain := by
    show f (p t s).1.1 (p t s).1.2 (p t s).2 = _
    rw [hp.plain]
    exact hf.plain
  kept journal := by
    show g (p' journal t s).1.1.1 (p' journal t s).1.1.2 (p' journal t s).1.2 (p' journal t s).2
      = _
    rw [hp.kept, ← List.append_assoc]
    exact hf.kept _

/-! ## Clock and kernels -/

/-- An action of clock and kernels: it is the same in the larger world and calls no observer. -/
def Lifted (base : Recorder (StateM σ) α) (plain : StateT τ (StateM σ) α)
    (kept : Recorder (StateT τ (StateM σ)) α) : Prop :=
  ∀ s, ∃ value entries s', Journal.hooks entries = [] ∧ Wrote base s value entries s' ∧
    ∀ t, Comes plain kept t s value (Journal.lift entries) t s'

namespace Lifted

variable {base : Recorder (StateM σ) α} {plain : StateT τ (StateM σ) α}
  {kept : Recorder (StateT τ (StateM σ)) α}

theorem pure (a : α) : Lifted (τ := τ) (σ := σ) (Pure.pure a) (Pure.pure a) (Pure.pure a) :=
  fun s => ⟨a, [], s, rfl, .pure a s, fun t => .pure a t s⟩

theorem bind {f : α → Recorder (StateM σ) β} {g : α → StateT τ (StateM σ) β}
    {g' : α → Recorder (StateT τ (StateM σ)) β} (h : Lifted base plain kept)
    (hf : ∀ a, Lifted (f a) (g a) (g' a)) :
    Lifted (base >>= f) (plain >>= g) (kept >>= g') := by
  intro s
  obtain ⟨a, es, s', none, wrote, comes⟩ := h s
  obtain ⟨b, es', s'', none', wrote', comes'⟩ := hf a s'
  refine ⟨b, es ++ es', s'', ?_, wrote.bind wrote', fun t => ?_⟩
  · rw [Journal.hooks_append, none, none']
    rfl
  · rw [Journal.lift, List.map_append]
    exact (comes t).bind (comes' t)

/-- A recorded action whose entry is no call of the observer. -/
theorem of_record (entry : α → Entry (StateM σ)) (quiet : ∀ a, (entry a).hook? = none)
    (action : StateM σ α) :
    Lifted (record entry action) (MonadLift.monadLift action : StateT τ (StateM σ) α)
      (record (fun a => (entry a).lift) (MonadLift.monadLift action)) := by
  intro s
  refine ⟨(action s).1, [entry (action s).1], (action s).2, ?_, fun _ => rfl,
    fun t => ⟨rfl, fun _ => rfl⟩⟩
  rw [Journal.hooks, List.filterMap_cons_none (quiet _)]
  rfl

end Lifted

theorem time_lifted (timer : Timer (StateM σ)) (kernel : Kernel (StateM σ)) (inputs : Inputs)
    (given : Buffer) :
    Lifted (timer.recorded.time (kernel.recorded.run inputs given))
      ((timer.lift : Timer (StateT τ (StateM σ))).time (kernel.lift.run inputs given))
      ((timer.lift : Timer (StateT τ (StateM σ))).recorded.time
        (kernel.lift.recorded.run inputs given)) := by
  have clock := Lifted.of_record (τ := τ) .reading (fun _ => rfl) timer.source.now
  refine clock.bind fun start => ?_
  refine (Lifted.of_record _ (fun _ => rfl) (kernel.run inputs given)).bind fun out => ?_
  exact clock.bind fun stop => .pure _

/-- By induction on the runs still to come: each starts from what the one before left. -/
theorem execute_lifted (timer : Timer (StateM σ)) (kernel : Kernel (StateM σ)) (inputs : Inputs)
    (n : Nat) (total : Elapsed) (output : Buffer) :
    Lifted (execute timer.recorded kernel.recorded inputs n total output)
      (execute (timer.lift : Timer (StateT τ (StateM σ))) kernel.lift inputs n total output)
      (execute (timer.lift : Timer (StateT τ (StateM σ))).recorded kernel.lift.recorded inputs n
        total output) := by
  induction n generalizing total output with
  | zero => exact .pure _
  | succ n ih =>
    refine (time_lifted timer kernel inputs output.reset).bind fun ⟨⟨result, left⟩, elapsed⟩ => ?_
    cases result with
    | ok => exact ih _ left
    | error failure => exact .pure _

/-! ## Steps in both worlds -/

theorem Observer.recorded_call {m : Type → Type} [Monad m] (o : Observer m) (hook : Hook) :
    o.recorded.call hook = record hook.entry (o.call hook) := by
  cases hook <;> rfl

section Shadows

variable {I : List Hook → τ → Prop} {refusable : List Hook → Prop}

/-- A watched step, with some calls of the observer behind it, gives and writes the same as the one
on its own. -/
def Agreed (I : List Hook → τ → Prop) (plain : StateT τ (StateM σ) (Except Failure α × Phase))
    (kept : Recorder (StateT τ (StateM σ)) (Except Failure α × Phase)) (before : List Hook) (t : τ)
    (s : σ) (out : Except Failure α × Phase) (entries : Journal (StateM σ)) (s' : σ) : Prop :=
  ∃ t', I (before ++ Journal.hooks entries) t' ∧
    Comes plain kept t s out (Journal.lift entries) t' s'

/-- Its entries end at a call that was refused. -/
def Refused (refusable : List Hook → Prop)
    (plain : StateT τ (StateM σ) (Except Failure α × Phase))
    (kept : Recorder (StateT τ (StateM σ)) (Except Failure α × Phase)) (before : List Hook) (t : τ)
    (s : σ) (entries : Journal (StateM σ)) : Prop :=
  ∃ (front : Journal (StateM σ)) (hook : Hook) (rest : Journal (StateM σ)) (failure : Failure)
    (t' : τ) (s' : σ), entries = front ++ hook.entry (.ok ()) :: rest ∧
      refusable (before ++ Journal.hooks front) ∧
      Comes plain kept t s (.error failure, hook.phase)
        (Journal.lift front ++ [hook.entry (.error failure)]) t' s'

/-- A watched step follows the one on its own up to the first call that is refused. -/
def Shadows (I : List Hook → τ → Prop) (refusable : List Hook → Prop)
    (base : Recorder (StateM σ) (Except Failure α × Phase))
    (plain : StateT τ (StateM σ) (Except Failure α × Phase))
    (kept : Recorder (StateT τ (StateM σ)) (Except Failure α × Phase)) : Prop :=
  ∀ s, ∃ out entries s', Wrote base s out entries s' ∧ ∀ before t, I before t →
    Agreed I plain kept before t s out entries s' ∨ Refused refusable plain kept before t s entries

section Bind

variable {q : Step (StateT τ (StateM σ)) α} {q' : Step (Recorder (StateT τ (StateM σ))) α}
  {g : α → Step (StateT τ (StateM σ)) β} {g' : α → Step (Recorder (StateT τ (StateM σ))) β}
  {phase phase' : Phase} {before : List Hook} {t t' : τ} {s s' : σ} {es : Journal (StateM σ)}

theorem Comes.bindStep {a : α} {out : Except Failure β × Phase} {t'' : τ} {s'' : σ}
    {es es' : Journal (StateT τ (StateM σ))}
    (h : Comes (q phase) (q' phase) t s (.ok a, phase') es t' s')
    (hg : Comes (g a phase') (g' a phase') t' s' out es' t'' s'') :
    Comes ((q >>= g) phase) ((q' >>= g') phase) t s out (es ++ es') t'' s'' :=
  Comes.bind (f := fun out : Except Failure α × Phase => ExceptT.bindCont g out.1 out.2)
    (g := fun out => ExceptT.bindCont g' out.1 out.2) h hg

theorem Comes.stop {failure : Failure} {es : Journal (StateT τ (StateM σ))}
    (h : Comes (q phase) (q' phase) t s (.error failure, phase') es t' s') :
    Comes ((q >>= g) phase) ((q' >>= g') phase) t s (.error failure, phase') es t' s' := by
  rw [← List.append_nil es]
  exact Comes.bind (f := fun out : Except Failure α × Phase => ExceptT.bindCont g out.1 out.2)
    (g := fun out => ExceptT.bindCont g' out.1 out.2) h (.pure _ t' s')

theorem Agreed.stop {failure : Failure}
    (h : Agreed I (q phase) (q' phase) before t s (.error failure, phase') es s') :
    Agreed I ((q >>= g) phase) ((q' >>= g') phase) before t s (.error failure, phase') es s' := by
  obtain ⟨t', hI, comes⟩ := h
  exact ⟨t', hI, comes.stop⟩

theorem Refused.stop (h : Refused refusable (q phase) (q' phase) before t s es)
    (es' : Journal (StateM σ)) :
    Refused refusable ((q >>= g) phase) ((q' >>= g') phase) before t s (es ++ es') := by
  obtain ⟨front, hook, rest, failure, t', s', rfl, may, comes⟩ := h
  exact ⟨front, hook, rest ++ es', failure, t', s', List.append_assoc .., may, comes.stop⟩

/-- A first part that ran to its end comes before all that the second part does. -/
theorem Agreed.bind {a : α} {out : Except Failure β × Phase} {s'' : σ} {es' : Journal (StateM σ)}
    (h : Agreed I (q phase) (q' phase) before t s (.ok a, phase') es s')
    (hg : ∀ before t, I before t → Agreed I (g a phase') (g' a phase') before t s' out es' s'' ∨
      Refused refusable (g a phase') (g' a phase') before t s' es') :
    Agreed I ((q >>= g) phase) ((q' >>= g') phase) before t s out (es ++ es') s'' ∨
      Refused refusable ((q >>= g) phase) ((q' >>= g') phase) before t s (es ++ es') := by
  obtain ⟨t', hI, comes⟩ := h
  obtain ⟨t'', hI', comes'⟩ | ⟨front, hook, rest, failure, t'', s₂, rfl, may, comes'⟩ := hg _ _ hI
  · refine .inl ⟨t'', ?_, ?_⟩
    · rwa [Journal.hooks_append, ← List.append_assoc]
    · rw [Journal.lift, List.map_append]
      exact comes.bindStep comes'
  · refine .inr ⟨es ++ front, hook, rest, failure, t'', s₂, (List.append_assoc ..).symm, ?_, ?_⟩
    · rwa [Journal.hooks_append, ← List.append_assoc]
    · rw [Journal.lift, List.map_append, List.append_assoc]
      exact comes.bindStep comes'

end Bind

namespace Shadows

theorem pure (out : Except Failure α × Phase) :
    Shadows (σ := σ) I refusable (Pure.pure out) (Pure.pure out) (Pure.pure out) :=
  fun s => ⟨out, [], s, .pure out s, fun before t h =>
    .inl ⟨t, (List.append_nil before).symm ▸ h, .pure out t s⟩⟩

theorem perform {base : Recorder (StateM σ) α} {plain : StateT τ (StateM σ) α}
    {kept : Recorder (StateT τ (StateM σ)) α} (h : Lifted base plain kept) (phase : Phase) :
    Shadows I refusable (Sweep.perform base phase) (Sweep.perform plain phase)
      (Sweep.perform kept phase) := by
  intro s
  obtain ⟨a, es, s', none, wrote, comes⟩ := h.bind (fun a => .pure (Except.ok a, phase)) s
  refine ⟨a, es, s', wrote, fun before t hI => .inl ⟨t, ?_, comes t⟩⟩
  rwa [none, List.append_nil]

/-- A call of the observer, and of one that agrees to everything. -/
theorem call {o : Observer (StateT τ (StateM σ))} (h : o.Follows I refusable) (hook : Hook) :
    Shadows I refusable (attempt (Observer.silent.recorded.call hook) hook.phase)
      (attempt (o.call hook) hook.phase) (attempt (o.recorded.call hook) hook.phase) := by
  intro s
  have said {answer t t' s s'} (out : o.call hook t s = ((answer, t'), s')) :
      Comes (attempt (o.call hook) hook.phase) (attempt (o.recorded.call hook) hook.phase) t s
        (answer, hook.phase) [hook.entry answer] t' s' := by
    rw [o.recorded_call]
    have once : Comes (o.call hook) (record hook.entry (o.call hook)) t s answer
        [hook.entry answer] t' s' := by
      refine ⟨out, fun journal => ?_⟩
      show ((((o.call hook t s).1.1, journal ++ [hook.entry (o.call hook t s).1.1]),
        (o.call hook t s).1.2), (o.call hook t s).2) = _
      rw [out]
    exact once.bind (.pure _ t' s')
  refine ⟨(.ok (), hook.phase), [hook.entry (.ok ())], s, fun _ => by cases hook <;> rfl, ?_⟩
  intro before t hI
  obtain ⟨t', hI', out⟩ | ⟨may, failure, t', s', out⟩ := h hook before t s hI
  · refine .inl ⟨t', ?_, ?_⟩
    · cases hook <;> exact hI'
    · have comes := said out
      cases hook <;> exact comes
  · refine .inr ⟨[], hook, [], failure, t', s', rfl, ?_, said out⟩
    rwa [Journal.hooks, List.filterMap_nil, List.append_nil]

variable {p : Step (Recorder (StateM σ)) α} {q : Step (StateT τ (StateM σ)) α}
  {q' : Step (Recorder (StateT τ (StateM σ))) α} {f : α → Step (Recorder (StateM σ)) β}
  {g : α → Step (StateT τ (StateM σ)) β} {g' : α → Step (Recorder (StateT τ (StateM σ))) β}
  {phase : Phase}

theorem bind (h : Shadows I refusable (p phase) (q phase) (q' phase))
    (hf : ∀ a phase, Shadows I refusable (f a phase) (g a phase) (g' a phase)) :
    Shadows I refusable ((p >>= f) phase) ((q >>= g) phase) ((q' >>= g') phase) := by
  intro s
  obtain ⟨⟨result, phase'⟩, es, s', wrote, first⟩ := h s
  cases result with
  | error failure =>
    refine ⟨(.error failure, phase'), es ++ [], s', ?_, fun before t hI => ?_⟩
    · exact Wrote.bind (f := fun out : Except Failure α × Phase => ExceptT.bindCont f out.1 out.2)
        wrote (.pure _ s')
    rw [List.append_nil]
    rcases first before t hI with agreed | refused
    · exact .inl agreed.stop
    · exact .inr (List.append_nil es ▸ refused.stop [])
  | ok a =>
    obtain ⟨out, es', s'', wrote', second⟩ := hf a phase' s'
    refine ⟨out, es ++ es', s'', ?_, fun before t hI => ?_⟩
    · exact Wrote.bind (f := fun out : Except Failure α × Phase => ExceptT.bindCont f out.1 out.2)
        wrote wrote'
    rcases first before t hI with agreed | refused
    · exact agreed.bind second
    · exact .inr (refused.stop es')

theorem enter {next : Phase} {f : Unit → Step (Recorder (StateM σ)) β}
    {g : Unit → Step (StateT τ (StateM σ)) β} {g' : Unit → Step (Recorder (StateT τ (StateM σ))) β}
    (h : Shadows I refusable (f () next) (g () next) (g' () next)) :
    Shadows I refusable ((Sweep.enter next >>= f) phase) ((Sweep.enter next >>= g) phase)
      ((Sweep.enter next >>= g') phase) := h

/-- What is known beforehand needs no action. -/
theorem given (a : α) (h : Shadows I refusable (f a phase) (g a phase) (g' a phase)) :
    Shadows I refusable ((attempt (Pure.pure (.ok a)) >>= f) phase)
      ((attempt (Pure.pure (.ok a)) >>= g) phase)
      ((attempt (Pure.pure (.ok a)) >>= g') phase) := h

end Shadows

/-! ## The parts of a sweep -/

variable {o : Observer (StateT τ (StateM σ))} (follows : o.Follows I refusable)
  (timer : Timer (StateM σ)) (a : Supply) (c : Config)
include follows

theorem measure_shadows (kernel : Kernel (StateM σ)) (judge : Buffer → Verdict) (w : Workload)
    (phase : Phase) :
    Shadows I refusable
      (measure (Setup.recorded ⟨a, timer, c, .silent⟩) kernel.recorded judge w phase)
      (measure ⟨a, timer.lift, c, o⟩ kernel.lift judge w phase)
      (measure (Setup.recorded ⟨a, timer.lift, c, o⟩) kernel.lift.recorded judge w phase) := by
  refine .enter ?_
  refine .bind (.perform (execute_lifted timer kernel w.inputs _ _ w.output) _) ?_
  rintro ⟨outcome, output⟩ _
  let left := { w with output }
  let record := measurement (Setup.mk a timer c .silent) kernel judge w.shape outcome output
  refine .enter (.enter (.bind (.call follows (.measurement record left)) fun _ phase => ?_))
  exact .pure (.ok (record, outcome.isOk, left), phase)

theorem measureReference_shadows (reference : Kernel (StateM σ)) (w : Workload) (phase : Phase) :
    Shadows I refusable
      (measureReference (Setup.recorded ⟨a, timer, c, .silent⟩) reference.recorded w phase)
      (measureReference ⟨a, timer.lift, c, o⟩ reference.lift w phase)
      (measureReference (Setup.recorded ⟨a, timer.lift, c, o⟩) reference.lift.recorded w
        phase) := by
  cases supports : reference.supports w.shape with
  | true =>
    simp only [measureReference, Kernel.recorded_supports, Kernel.lift_supports, supports, if_true]
    exact .bind (measure_shadows follows timer a c reference _ w phase) fun _ _ => .pure _
  | false =>
    simp only [measureReference, Kernel.recorded_supports, Kernel.lift_supports, supports,
      Bool.false_eq_true, if_false]
    exact .pure _

theorem measureCandidates_shadows (truth : Truth) (kernels : List (Kernel (StateM σ)))
    (w : Workload) (phase : Phase) :
    Shadows I refusable
      (measureCandidates (Setup.recorded ⟨a, timer, c, .silent⟩) truth
        (kernels.map Kernel.recorded) w phase)
      (measureCandidates ⟨a, timer.lift, c, o⟩ truth (kernels.map Kernel.lift) w phase)
      (measureCandidates (Setup.recorded ⟨a, timer.lift, c, o⟩) truth
        ((kernels.map Kernel.lift).map Kernel.recorded) w phase) := by
  induction kernels generalizing w phase with
  | nil => exact .pure _
  | cons kernel kernels ih =>
    cases supports : kernel.supports w.shape with
    | true =>
      simp only [List.map_cons, measureCandidates, Kernel.recorded_supports, Kernel.lift_supports,
        supports, if_true]
      refine .bind (measure_shadows follows timer a c kernel _ w phase) ?_
      rintro ⟨record, succeeded, left⟩ _
      exact .bind (ih left _) fun _ _ => .pure _
    | false =>
      simp only [List.map_cons, measureCandidates, Kernel.recorded_supports, Kernel.lift_supports,
        supports, Bool.false_eq_true, if_false]
      exact ih w phase

/-- The workload is generated before the observer is told of it. -/
theorem measureSize_shadows (reference : Kernel (StateM σ)) (candidates : List (Kernel (StateM σ)))
    (size : Nat) (phase : Phase) :
    Shadows I refusable
      (measureSize (Setup.recorded ⟨a, timer, c, .silent⟩) reference.recorded
        (candidates.map Kernel.recorded) size phase)
      (measureSize ⟨a, timer.lift, c, o⟩ reference.lift (candidates.map Kernel.lift) size phase)
      (measureSize (Setup.recorded ⟨a, timer.lift, c, o⟩) reference.lift.recorded
        ((candidates.map Kernel.lift).map Kernel.recorded) size phase) := by
  simp only [measureSize, Setup.recorded]
  cases Workload.generate a c.fill (c.shapeFor size) with
  | error failure => exact .pure (.error failure, .generatingWorkload)
  | ok w =>
    refine .enter (.given w (.bind (.call follows (.workload w)) fun _ _ => ?_))
    refine .bind (measureReference_shadows follows timer a c reference w _) ?_
    rintro ⟨first, truth, left⟩ _
    exact .bind (measureCandidates_shadows follows timer a c truth candidates left _)
      fun _ _ => .pure _

theorem measureSizes_shadows (reference : Kernel (StateM σ)) (candidates : List (Kernel (StateM σ)))
    (sizes : List Nat) (phase : Phase) :
    Shadows I refusable
      (measureSizes (Setup.recorded ⟨a, timer, c, .silent⟩) reference.recorded
        (candidates.map Kernel.recorded) sizes phase)
      (measureSizes ⟨a, timer.lift, c, o⟩ reference.lift (candidates.map Kernel.lift) sizes phase)
      (measureSizes (Setup.recorded ⟨a, timer.lift, c, o⟩) reference.lift.recorded
        ((candidates.map Kernel.lift).map Kernel.recorded) sizes phase) := by
  induction sizes generalizing phase with
  | nil => exact .pure _
  | cons size sizes ih =>
    refine .bind (measureSize_shadows follows timer a c reference candidates size phase) ?_
    intro here _
    exact .bind (ih _) fun _ _ => .pure _

end Shadows

/-! ## Whole sweeps -/

namespace Runner

/-- What a watched sweep gives, writes and leaves, with a journal and without. -/
structure Sweeps (r : Runner (StateT τ (StateM σ))) (a : Supply) (c : Config)
    (o : Observer (StateT τ (StateM σ))) (t : τ) (s : σ)
    (out : Except Failure (List Measurement) × Runner (StateT τ (StateM σ)))
    (entries : Journal (StateT τ (StateM σ))) (t' : τ) (s' : σ) : Prop where
  plain : r.sweep a c o t s = ((out, t'), s')
  kept : ∀ journal, r.recorded.sweep a c o.recorded journal t s
    = ((((out.1, out.2.recorded), journal ++ entries), t'), s')

variable {o : Observer (StateT τ (StateM σ))} {a : Supply} {c : Config} {t t' : τ} {s s' : σ}

theorem sweeps_unfound {r : Runner (StateT τ (StateM σ))}
    (unfound : r.registry.referenceFor c.capability = none) :
    r.Sweeps a c o t s (.error (.missingReference c.capability), { r with phase := .idle }) [] t s
    where
  plain := by
    rw [r.sweep_unfound a c o unfound]
    rfl
  kept journal := by
    rw [r.sweep_unfound_recorded a c o unfound, List.append_nil]
    rfl

theorem sweeps_of_comes {r : Runner (StateT τ (StateM σ))}
    {reference : Kernel (StateT τ (StateM σ))} {out : Except Failure (List Measurement) × Phase}
    {entries : Journal (StateT τ (StateM σ))}
    (found : r.registry.referenceFor c.capability = some reference)
    (comes : Comes
      (measureSizes ⟨a, r.timer, c, o⟩ reference (r.registry.candidatesFor c.capability) c.sizes
        .idle)
      (measureSizes (Setup.recorded ⟨a, r.timer, c, o⟩) reference.recorded
        ((r.registry.candidatesFor c.capability).map Kernel.recorded) c.sizes .idle)
      t s out entries t' s') :
    r.Sweeps a c o t s (r.finish out.1 out.2) entries t' s' where
  plain := by
    rw [r.sweep_found a c o found]
    exact congrArg (fun x => ((r.finish x.1.1.1 x.1.1.2, x.1.2), x.2)) comes.plain
  kept journal := by
    rw [r.sweep_found_recorded a c o found, ← r.finish_recorded]
    exact congrArg (fun x => (((r.recorded.finish x.1.1.1.1 x.1.1.1.2, x.1.1.2), x.1.2), x.2))
      (comes.kept journal)

theorem finish_lift (r : Runner (StateM σ)) (result : Except Failure α) (last : Phase) :
    (r.lift : Runner (StateT τ (StateM σ))).finish result last
      = ((r.finish result last).1, (r.finish result last).2.lift) := by
  cases result <;> rfl

/-- What a sweep on its own gives, leaves and does, by its steps. -/
theorem silent_of_wrote (r : Runner (StateM σ)) {reference : Kernel (StateM σ)}
    {out : Except Failure (List Measurement) × Phase} {entries : Journal (StateM σ)}
    (found : r.registry.referenceFor c.capability = some reference)
    (wrote : Wrote
      (measureSizes (Setup.recorded ⟨a, r.timer, c, .silent⟩) reference.recorded
        ((r.registry.candidatesFor c.capability).map Kernel.recorded) c.sizes .idle)
      s out entries s') :
    r.sweep a c .silent s = (r.finish out.1 out.2, s') ∧ r.journal a c .silent s = entries := by
  obtain ⟨_, -, same⟩ := measureSizes_records ⟨a, r.timer, c, .silent⟩ reference
    (r.registry.candidatesFor c.capability) c.sizes .idle s
  have twice := (same []).symm.trans (wrote [])
  refine ⟨?_, ?_⟩
  · rw [r.sweep_found a c .silent found]
    exact congrArg (fun x => (r.finish x.1.1.1 x.1.1.2, x.2)) twice
  · rw [journal, r.sweep_found_recorded a c .silent found]
    exact congrArg (fun x => x.1.2) (wrote [])

/-- A watched sweep gives, leaves and does the same as the one on its own, or it ends at a call
that the observer refused. -/
theorem sweep_shadows {I : List Hook → τ → Prop} {refusable : List Hook → Prop}
    (follows : o.Follows I refusable) (r : Runner (StateM σ)) (h : I [] t) (s : σ) :
    (∃ t', I (Journal.hooks (r.journal a c .silent s)) t' ∧
      r.lift.Sweeps a c o t s
        ((r.sweep a c .silent s).1.1, (r.sweep a c .silent s).1.2.lift)
        (Journal.lift (r.journal a c .silent s)) t' (r.sweep a c .silent s).2) ∨
    ∃ (front : Journal (StateM σ)) (hook : Hook) (rest : Journal (StateM σ)) (failure : Failure)
      (t' : τ) (s' : σ), r.journal a c .silent s = front ++ hook.entry (.ok ()) :: rest ∧
        refusable (Journal.hooks front) ∧
        r.lift.Sweeps a c o t s (.error failure, { r.lift with phase := hook.phase })
          (Journal.lift front ++ [hook.entry (.error failure)]) t' s' := by
  have lifted : (r.lift : Runner (StateT τ (StateM σ))).registry.referenceFor c.capability
      = (r.registry.referenceFor c.capability).map Kernel.lift := r.registry.referenceFor_lift _
  cases found : r.registry.referenceFor c.capability with
  | none =>
    rw [found] at lifted
    rw [r.sweep_missing a c .silent found, r.journal_missing a c .silent found]
    exact .inl ⟨t, h, sweeps_unfound lifted⟩
  | some reference =>
    rw [found] at lifted
    have others : (r.lift : Runner (StateT τ (StateM σ))).registry.candidatesFor c.capability
        = (r.registry.candidatesFor c.capability).map Kernel.lift :=
      r.registry.candidatesFor_lift _
    obtain ⟨out, entries, s', wrote, watched⟩ := measureSizes_shadows follows r.timer a c reference
      (r.registry.candidatesFor c.capability) c.sizes .idle s
    obtain ⟨plain, rfl⟩ := r.silent_of_wrote found wrote
    rw [plain]
    rw [← others] at watched
    rcases watched [] t h with
      ⟨t', hI, comes⟩ | ⟨front, hook, rest, failure, t', s', split, may, comes⟩
    · refine .inl ⟨t', hI, ?_⟩
      rw [← r.finish_lift]
      exact sweeps_of_comes lifted comes
    · exact .inr ⟨front, hook, rest, failure, t', s', split, may, sweeps_of_comes lifted comes⟩

end Runner

end Microbench
