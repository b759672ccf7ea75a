import Microbench.Proofs.Sweep.Journal

/-!
# The points of a sweep

The journal of a sweep falls into points, one per size. A point is the workload, the turn of the
reference and the turns of the candidates; a turn is the trials of one kernel and what was
recorded of them; a trial is one run between two readings of the clock.

The relations below say what a trial, a turn, a point and a whole tour of the sizes may look
like. They follow the recursions of the sweep and hold for every observer: one that refuses a
workload or a measurement stops the tour there.

Results:

* `execute_records`, `measure_records`, `measureCandidates_records`, `measureSize_records`,
  `measureSizes_records`: what each part of a sweep writes.
* `sweep_records`: a recorded sweep does what the sweep does, and its journal is the points of a
  tour.
-/
namespace Microbench

open Sweep

variable {σ : Type}

/-! ## Trials and turns -/

structure Trial (m : Type → Type) where
  start : UInt64
  run : Run m
  stop : UInt64

def Trial.entries (t : Trial m) : Journal m := [.reading t.start, .ran t.run, .reading t.stop]

/-- The trials of a kernel: at most a given number of runs, each from the zeroed output of the
one before, up to the first that fails. -/
inductive Trials (source : TickSource (StateM σ)) (kernel : Kernel (StateM σ)) (inputs : Inputs) :
    Nat → Elapsed → Buffer → List (Trial (StateM σ)) → Except Failure Elapsed → Buffer → Prop where
  | done {total output} : Trials source kernel inputs 0 total output [] (.ok total) output
  | failed {n total output start stop failure left}
      (run : Gives (kernel.run inputs output.reset) (.error failure, left)) :
      Trials source kernel inputs (n + 1) total output
        [⟨start, ⟨kernel, inputs, output.reset, .error failure, left⟩, stop⟩] (.error failure) left
  | passed {n total output start stop left trials outcome last}
      (run : Gives (kernel.run inputs output.reset) (.ok (), left))
      (rest : Trials source kernel inputs n (total.accumulate (source.elapsed start stop)) left
        trials outcome last) :
      Trials source kernel inputs (n + 1) total output
        (⟨start, ⟨kernel, inputs, output.reset, .ok (), left⟩, stop⟩ :: trials) outcome last

structure Turn (m : Type → Type) where
  kernel : Kernel m
  trials : List (Trial m)
  outcome : Except Failure Elapsed
  /-- With the output the last trial left. -/
  workload : Workload
  record : Measurement
  /-- What the observer said to the measurement. -/
  answer : Except Failure Unit

def Turn.entries (t : Turn m) : Journal m :=
  t.trials.flatMap Trial.entries ++ [.heard t.record t.workload t.answer]

/-- What a turn on the workload `w` may look like. -/
structure Turn.Lawful (s : Setup (StateM σ)) (judge : Buffer → Verdict) (w : Workload)
    (t : Turn (StateM σ)) : Prop where
  trials : Trials s.timer.source t.kernel w.inputs (max s.config.iterations 1)
    (Elapsed.zero s.timer.source.ticksPerSecond) w.output t.trials t.outcome t.workload.output
  inputs : t.workload.inputs = w.inputs
  record : t.record = measurement s t.kernel judge w.shape t.outcome t.workload.output
  answer : Gives (s.observer.onMeasurement t.record t.workload) t.answer

/-- What the turn of the reference tells of the right output. -/
def Turn.truth (t : Turn m) : Truth := if t.outcome.isOk then .known t.workload.output else .lost

/-- The turns of the candidates, and the failure of the observer if one ended them. -/
inductive Turns (s : Setup (StateM σ)) (truth : Truth) :
    List (Kernel (StateM σ)) → Workload → List (Turn (StateM σ)) → Option Failure → Prop where
  | done {w} : Turns s truth [] w [] none
  | declined {kernel kernels w turns stop} (supports : kernel.supports w.shape = false)
      (rest : Turns s truth kernels w turns stop) : Turns s truth (kernel :: kernels) w turns stop
  | refused {kernels w failure} {turn : Turn (StateM σ)}
      (supports : turn.kernel.supports w.shape = true)
      (lawful : turn.Lawful s (truth.judge s.config.verifier) w)
      (answer : turn.answer = .error failure) :
      Turns s truth (turn.kernel :: kernels) w [turn] (some failure)
  | taken {kernels w turns stop} {turn : Turn (StateM σ)}
      (supports : turn.kernel.supports w.shape = true)
      (lawful : turn.Lawful s (truth.judge s.config.verifier) w)
      (answer : turn.answer = .ok ()) (rest : Turns s truth kernels turn.workload turns stop) :
      Turns s truth (turn.kernel :: kernels) w (turn :: turns) stop

/-! ## Points and tours -/

structure Point (m : Type → Type) where
  /-- As it was generated. -/
  workload : Workload
  /-- What the observer said to the workload. -/
  answer : Except Failure Unit
  reference : Option (Turn m)
  candidates : List (Turn m)

namespace Point

def turns (p : Point m) : List (Turn m) := p.reference.toList ++ p.candidates

def entries (p : Point m) : Journal m :=
  .told p.workload p.answer :: p.turns.flatMap Turn.entries

def records (p : Point m) : List Measurement := p.turns.map (·.record)

end Point

/-- Where and why a tour ended early. -/
abbrev Stop := Option (Failure × Phase)

/-- How steps come out that were stopped, or gave the records of all they did. -/
def Stop.Outcome (stop : Stop) (records : List Measurement)
    (out : Except Failure (List Measurement) × Phase) : Prop :=
  match stop with
  | none => out.1 = .ok records
  | some (failure, phase) => out = (.error failure, phase)

theorem Stop.outcome_ok {stop : Stop} {records rs : List Measurement} {phase : Phase} :
    stop.Outcome records (.ok rs, phase) ↔ stop = none ∧ rs = records := by
  cases stop <;> simp [Outcome]

theorem Stop.outcome_error {stop : Stop} {records : List Measurement} {failure : Failure}
    {phase : Phase} :
    stop.Outcome records (.error failure, phase) ↔ stop = some (failure, phase) := by
  cases stop <;> simp [Outcome, Prod.ext_iff, eq_comm]

/-- What a point may look like, given the workload. -/
inductive Visit (s : Setup (StateM σ)) (reference : Kernel (StateM σ))
    (candidates : List (Kernel (StateM σ))) (w : Workload) : Point (StateM σ) → Stop → Prop where
  | untold {failure} (told : Gives (s.observer.onWorkload w) (.error failure)) :
      Visit s reference candidates w ⟨w, .error failure, none, []⟩
        (some (failure, .generatingWorkload))
  | refused {turn : Turn (StateM σ)} {failure} (told : Gives (s.observer.onWorkload w) (.ok ()))
      (kernel : turn.kernel = reference) (supports : reference.supports w.shape = true)
      (lawful : turn.Lawful s (fun _ => .passed 0) w) (answer : turn.answer = .error failure) :
      Visit s reference candidates w ⟨w, .ok (), some turn, []⟩ (some (failure, .recording))
  | referred {turn : Turn (StateM σ)} {turns stop}
      (told : Gives (s.observer.onWorkload w) (.ok ())) (kernel : turn.kernel = reference)
      (supports : reference.supports w.shape = true)
      (lawful : turn.Lawful s (fun _ => .passed 0) w) (answer : turn.answer = .ok ())
      (rest : Turns s turn.truth candidates turn.workload turns stop) :
      Visit s reference candidates w ⟨w, .ok (), some turn, turns⟩ (stop.map (·, .recording))
  | declined {turns stop} (told : Gives (s.observer.onWorkload w) (.ok ()))
      (supports : reference.supports w.shape = false)
      (rest : Turns s .absent candidates w turns stop) :
      Visit s reference candidates w ⟨w, .ok (), none, turns⟩ (stop.map (·, .recording))

/-- The points of a sweep over some sizes. -/
inductive Tour (s : Setup (StateM σ)) (reference : Kernel (StateM σ))
    (candidates : List (Kernel (StateM σ))) :
    List Nat → List (Point (StateM σ)) → Stop → Prop where
  | done : Tour s reference candidates [] [] none
  | ungenerated {size sizes failure}
      (generate : Workload.generate s.supply s.config.fill (s.config.shapeFor size)
        = .error failure) :
      Tour s reference candidates (size :: sizes) [] (some (failure, .generatingWorkload))
  | stopped {size sizes w point stop}
      (generate : Workload.generate s.supply s.config.fill (s.config.shapeFor size) = .ok w)
      (visit : Visit s reference candidates w point (some stop)) :
      Tour s reference candidates (size :: sizes) [point] (some stop)
  | visited {size sizes w point points stop}
      (generate : Workload.generate s.supply s.config.fill (s.config.shapeFor size) = .ok w)
      (visit : Visit s reference candidates w point none)
      (rest : Tour s reference candidates sizes points stop) :
      Tour s reference candidates (size :: sizes) (point :: points) stop

/-! ## What the parts of a sweep write -/

theorem answered_ok {answer : Except Failure Unit} {f : Unit → α} {value : α}
    (h : .ok value = answer.map f) : answer = .ok () ∧ value = f () := by
  cases answer with
  | ok => exact ⟨rfl, Except.ok.inj h⟩
  | error => cases h

theorem answered_error {answer : Except Failure Unit} {f : Unit → α} {failure : Failure}
    (h : .error failure = answer.map f) : answer = .error failure := by
  cases answer with
  | ok => cases h
  | error => cases h; rfl

theorem time_records (timer : Timer (StateM σ)) (kernel : Kernel (StateM σ)) (inputs : Inputs)
    (given : Buffer) :
    Records (timer.recorded.time (kernel.recorded.run inputs given))
      (timer.time (kernel.run inputs given)) fun out es => ∃ start stop,
        Gives (kernel.run inputs given) out.1 ∧ out.2 = timer.source.elapsed start stop ∧
          es = Trial.entries ⟨start, ⟨kernel, inputs, given, out.1.1, out.1.2⟩, stop⟩ := by
  refine .bind (.of_action .reading timer.source.now) ?_
  intro start _ fit
  obtain ⟨-, rfl⟩ := fit
  refine .bind (.of_action _ (kernel.run inputs given)) ?_
  intro out _ fit
  obtain ⟨run, rfl⟩ := fit
  refine .bind (.of_action .reading timer.source.now) ?_
  intro stop _ fit
  obtain ⟨-, rfl⟩ := fit
  exact .pure ⟨start, stop, run, rfl, rfl⟩

theorem execute_records (timer : Timer (StateM σ)) (kernel : Kernel (StateM σ)) (inputs : Inputs)
    (n : Nat) (total : Elapsed) (output : Buffer) :
    Records (execute timer.recorded kernel.recorded inputs n total output)
      (execute timer kernel inputs n total output) fun out es =>
        ∃ trials, es = trials.flatMap Trial.entries ∧
          Trials timer.source kernel inputs n total output trials out.1 out.2 := by
  induction n generalizing total output with
  | zero => exact .pure ⟨[], rfl, .done⟩
  | succ n ih =>
    refine .bind (time_records timer kernel inputs output.reset) ?_
    intro ⟨⟨result, left⟩, elapsed⟩ _ fit
    obtain ⟨start, stop, run, rfl, rfl⟩ := fit
    cases result with
    | error failure => exact .pure ⟨[⟨start, _, stop⟩], by simp, .failed run⟩
    | ok =>
      refine (ih _ _).imp ?_
      intro out _ fit
      obtain ⟨trials, rfl, rest⟩ := fit
      exact ⟨_ :: trials, rfl, .passed run rest⟩

theorem measure_records (s : Setup (StateM σ)) (kernel : Kernel (StateM σ))
    (judge : Buffer → Verdict) (w : Workload) (phase : Phase) :
    Records (measure s.recorded kernel.recorded judge w phase) (measure s kernel judge w phase)
      fun out es => ∃ turn : Turn (StateM σ), turn.kernel = kernel ∧ es = turn.entries ∧
        turn.Lawful s judge w ∧ out.2 = .recording ∧
          out.1 = turn.answer.map fun _ => (turn.record, turn.outcome.isOk, turn.workload) := by
  refine .enter (.bindStep (.perform (execute_records s.timer kernel w.inputs _ _ w.output)) ?_ ?_)
  · intro ⟨outcome, output⟩ _ _ fit
    obtain ⟨_, ⟨⟩, trials, rfl, run⟩ := fit
    let turn : Except Failure Unit → Turn (StateM σ) := fun answer =>
      ⟨kernel, trials, outcome, { w with output },
        measurement s kernel judge w.shape outcome output, answer⟩
    refine .enter (.enter (.bindStep (.attempt (.of_action (.heard _ _) _)) ?_ ?_))
    · intro answer ph _ fit
      obtain ⟨rfl, heard, rfl⟩ := fit
      exact .pure ⟨turn (.ok answer), rfl, rfl, ⟨run, rfl, rfl, heard⟩, rfl, rfl⟩
    · intro failure ph _ fit
      obtain ⟨rfl, heard, rfl⟩ := fit
      exact ⟨turn (.error failure), rfl, rfl, ⟨run, rfl, rfl, heard⟩, rfl, rfl⟩
  · intro failure _ _ fit
    obtain ⟨_, ⟨⟩, _⟩ := fit

/-- Putting earlier records in front of what a step gives. -/
theorem Records.gather {p : Step (Recorder (StateM σ)) (List Measurement)}
    {q : Step (StateM σ) (List Measurement)} {phase : Phase}
    {P : Except Failure (List Measurement) × Phase → Journal (StateM σ) → Prop}
    (first : List Measurement) (h : Records (p phase) (q phase) P) :
    Records ((p >>= fun rest => Pure.pure (first ++ rest)) phase)
      ((q >>= fun rest => Pure.pure (first ++ rest)) phase) fun out es =>
        ∃ out', P out' es ∧
          ∀ (stop : Stop) records, stop.Outcome records out' →
            stop.Outcome (first ++ records) out := by
  refine .bindStep h ?_ ?_
  · intro rest ph es hP
    refine .pure ⟨_, by rw [List.append_nil]; exact hP, fun stop records ho => ?_⟩
    rw [Stop.outcome_ok] at ho ⊢
    exact ⟨ho.1, by rw [ho.2]⟩
  · intro failure ph es hP
    refine ⟨_, hP, fun stop records ho => ?_⟩
    rw [Stop.outcome_error] at ho ⊢
    exact ho

theorem measureCandidates_records (s : Setup (StateM σ)) (truth : Truth)
    (kernels : List (Kernel (StateM σ))) (w : Workload) (phase : Phase) :
    Records (measureCandidates s.recorded truth (kernels.map Kernel.recorded) w phase)
      (measureCandidates s truth kernels w phase) fun out es =>
        ∃ turns stop, es = turns.flatMap Turn.entries ∧ Turns s truth kernels w turns stop ∧
          Stop.Outcome (stop.map (·, .recording)) (turns.map (·.record)) out := by
  induction kernels generalizing w phase with
  | nil => exact .pure ⟨[], none, rfl, .done, rfl⟩
  | cons kernel kernels ih =>
    simp only [List.map_cons, measureCandidates]
    rw [kernel.recorded_supports]
    cases supports : kernel.supports w.shape with
    | false =>
      refine (ih w phase).imp ?_
      intro out _ fit
      obtain ⟨turns, stop, rfl, rest, h⟩ := fit
      exact ⟨turns, stop, rfl, .declined supports rest, h⟩
    | true =>
      refine .bindStep (measure_records s kernel _ w phase) ?_ ?_
      · intro _ ph _ fit
        obtain ⟨turn, rfl, rfl, lawful, -, given⟩ := fit
        obtain ⟨answer, rfl⟩ := answered_ok given
        -- The next candidate gets the workload as this turn left it.
        refine (Records.gather [turn.record] (ih turn.workload ph)).imp ?_
        intro out _ fit
        obtain ⟨_, ⟨turns, stop, rfl, rest, h⟩, front⟩ := fit
        exact ⟨turn :: turns, stop, by simp, .taken supports lawful answer rest, front _ _ h⟩
      · intro failure ph _ fit
        obtain ⟨turn, rfl, rfl, lawful, rfl, given⟩ := fit
        exact ⟨[turn], some failure, by simp, .refused supports lawful (answered_error given), rfl⟩

theorem measureReference_records (s : Setup (StateM σ)) (reference : Kernel (StateM σ))
    (w : Workload) (phase : Phase) (supports : reference.supports w.shape = true) :
    Records (measureReference s.recorded reference.recorded w phase)
      (measureReference s reference w phase) fun out es =>
        ∃ turn : Turn (StateM σ), turn.kernel = reference ∧ es = turn.entries ∧
          turn.Lawful s (fun _ => .passed 0) w ∧ out.2 = .recording ∧
            out.1 = turn.answer.map fun _ => ([turn.record], turn.truth, turn.workload) := by
  simp only [measureReference, Kernel.recorded_supports, supports, if_true]
  refine .bindStep (measure_records s reference _ w phase) ?_ ?_
  · intro _ ph _ fit
    obtain ⟨turn, rfl, rfl, lawful, rfl, given⟩ := fit
    obtain ⟨answer, rfl⟩ := answered_ok given
    exact .pure ⟨turn, rfl, by simp, lawful, rfl, by rw [answer]; rfl⟩
  · intro failure ph _ fit
    obtain ⟨turn, rfl, rfl, lawful, rfl, given⟩ := fit
    exact ⟨turn, rfl, rfl, lawful, rfl, by rw [answered_error given]; rfl⟩

theorem measureReference_declined (s : Setup (StateM σ)) (reference : Kernel (StateM σ))
    (w : Workload) (phase : Phase) (supports : reference.supports w.shape = false) :
    Records (measureReference s.recorded reference.recorded w phase)
      (measureReference s reference w phase) fun out es =>
        out = (.ok ([], .absent, w), phase) ∧ es = [] := by
  simp only [measureReference, Kernel.recorded_supports, supports, Bool.false_eq_true, if_false]
  exact .pure ⟨rfl, rfl⟩

theorem measureSize_records (s : Setup (StateM σ)) (reference : Kernel (StateM σ))
    (candidates : List (Kernel (StateM σ))) (size : Nat) (phase : Phase) {w : Workload}
    (generate : Workload.generate s.supply s.config.fill (s.config.shapeFor size) = .ok w) :
    Records
      (measureSize s.recorded reference.recorded (candidates.map Kernel.recorded) size phase)
      (measureSize s reference candidates size phase) fun out es =>
        ∃ point stop, es = point.entries ∧ Visit s reference candidates w point stop ∧
          stop.Outcome point.records out := by
  refine .enter (.bindStep
    (.attempt (P := fun out es => out = .ok w ∧ es = []) (.pure ⟨generate, rfl⟩)) ?_ ?_)
  · intro _ ph _ fit
    obtain ⟨rfl, ⟨⟩, rfl⟩ := fit
    refine .bindStep (.attempt (.of_action (.told w) (s.observer.onWorkload w))) ?_ ?_
    · intro _ ph _ fit
      obtain ⟨rfl, told, rfl⟩ := fit
      cases supports : reference.supports w.shape with
      | true =>
        refine .bindStep (measureReference_records s reference w _ supports) ?_ ?_
        · intro _ ph _ fit
          obtain ⟨turn, rfl, rfl, lawful, rfl, given⟩ := fit
          obtain ⟨answer, ⟨⟩⟩ := answered_ok given
          refine (Records.gather _ (measureCandidates_records s turn.truth candidates
            turn.workload _)).imp ?_
          intro out _ fit
          obtain ⟨_, ⟨turns, stop, rfl, rest, h⟩, front⟩ := fit
          exact ⟨_, _, by simp [Point.entries, Point.turns],
            .referred told rfl supports lawful answer rest, front _ _ h⟩
        · intro failure ph _ fit
          obtain ⟨turn, rfl, rfl, lawful, rfl, given⟩ := fit
          exact ⟨_, _, by simp [Point.entries, Point.turns],
            .refused told rfl supports lawful (answered_error given), rfl⟩
      | false =>
        refine .bindStep (measureReference_declined s reference w _ supports) ?_ ?_
        · intro _ ph _ fit
          obtain ⟨⟨⟩, rfl⟩ := fit
          refine (Records.gather [] (measureCandidates_records s .absent candidates w _)).imp ?_
          intro out _ fit
          obtain ⟨_, ⟨turns, stop, rfl, rest, h⟩, front⟩ := fit
          exact ⟨_, _, by simp [Point.entries, Point.turns], .declined told supports rest,
            front _ _ h⟩
        · intro failure ph _ fit
          obtain ⟨⟨⟩, rfl⟩ := fit
    · intro failure ph _ fit
      obtain ⟨rfl, told, rfl⟩ := fit
      exact ⟨_, _, rfl, .untold told, rfl⟩
  · intro failure ph _ fit
    obtain ⟨rfl, ⟨⟩, rfl⟩ := fit

theorem measureSize_ungenerated (s : Setup (StateM σ)) (reference : Kernel (StateM σ))
    (candidates : List (Kernel (StateM σ))) (size : Nat) (phase : Phase) {failure : Failure}
    (generate :
      Workload.generate s.supply s.config.fill (s.config.shapeFor size) = .error failure) :
    Records
      (measureSize s.recorded reference.recorded (candidates.map Kernel.recorded) size phase)
      (measureSize s reference candidates size phase) fun out es =>
        out = (.error failure, .generatingWorkload) ∧ es = [] := by
  refine .enter (.bindStep
    (.attempt (P := fun out es => out = .error failure ∧ es = []) (.pure ⟨generate, rfl⟩)) ?_ ?_)
  · intro _ ph _ fit
    obtain ⟨rfl, ⟨⟩, rfl⟩ := fit
  · intro _ ph _ fit
    obtain ⟨rfl, ⟨⟩, rfl⟩ := fit
    exact ⟨rfl, rfl⟩

theorem measureSizes_records (s : Setup (StateM σ)) (reference : Kernel (StateM σ))
    (candidates : List (Kernel (StateM σ))) (sizes : List Nat) (phase : Phase) :
    Records
      (measureSizes s.recorded reference.recorded (candidates.map Kernel.recorded) sizes phase)
      (measureSizes s reference candidates sizes phase) fun out es =>
        ∃ points stop, es = points.flatMap Point.entries ∧
          Tour s reference candidates sizes points stop ∧
            Stop.Outcome stop (points.flatMap Point.records) out := by
  induction sizes generalizing phase with
  | nil => exact .pure ⟨[], none, rfl, .done, rfl⟩
  | cons size sizes ih =>
    cases generate : Workload.generate s.supply s.config.fill (s.config.shapeFor size) with
    | error failure =>
      refine .bindStep (measureSize_ungenerated s reference candidates size phase generate) ?_ ?_
      · intro _ ph _ fit
        obtain ⟨⟨⟩, rfl⟩ := fit
      · intro _ ph _ fit
        obtain ⟨⟨⟩, rfl⟩ := fit
        exact ⟨[], _, rfl, .ungenerated generate, rfl⟩
    | ok w =>
      refine .bindStep (measureSize_records s reference candidates size phase generate) ?_ ?_
      · intro here ph _ fit
        obtain ⟨point, stop, rfl, visit, h⟩ := fit
        obtain ⟨rfl, rfl⟩ := Stop.outcome_ok.1 h
        refine (Records.gather _ (ih ph)).imp ?_
        intro out _ fit
        obtain ⟨_, ⟨points, stop, rfl, rest, h⟩, front⟩ := fit
        exact ⟨point :: points, stop, by simp, .visited generate visit rest, front _ _ h⟩
      · intro failure ph _ fit
        obtain ⟨point, stop, rfl, visit, h⟩ := fit
        obtain rfl := Stop.outcome_error.1 h
        exact ⟨[point], _, by simp, .stopped generate visit, rfl⟩

/-! ## The journal of a sweep -/

/-- All that a sweep did, by the runner that keeps a journal. -/
def Runner.journal (r : Runner (StateM σ)) (supply : Supply) (config : Config)
    (observer : Observer (StateM σ)) (s : σ) : Journal (StateM σ) :=
  (r.recorded.sweep supply config observer.recorded [] s).1.2

theorem Registry.referenceFor_recorded {m : Type → Type} [Monad m] (r : Registry m)
    (c : Capability) : r.recorded.referenceFor c = (r.referenceFor c).map Kernel.recorded := by
  simp only [referenceFor, kernelsFor, recorded, List.filter_map, List.find?_map]
  rfl

theorem Registry.candidatesFor_recorded {m : Type → Type} [Monad m] (r : Registry m)
    (c : Capability) : r.recorded.candidatesFor c = (r.candidatesFor c).map Kernel.recorded := by
  simp only [candidatesFor, kernelsFor, recorded, List.filter_map, List.eraseP_map]
  rfl

namespace Runner

section Found

variable {m : Type → Type} [Monad m] (r : Runner m) (a : Supply) (c : Config) (o : Observer m)

theorem finish_recorded (result : Except Failure α) (last : Phase) :
    r.recorded.finish result last
      = ((r.finish result last).1, (r.finish result last).2.recorded) := by
  cases result <;> rfl

theorem sweep_found {reference : Kernel m}
    (found : r.registry.referenceFor c.capability = some reference) :
    r.sweep a c o
      = measureSizes ⟨a, r.timer, c, o⟩ reference (r.registry.candidatesFor c.capability) c.sizes
          .idle >>= fun out => pure (r.finish out.1 out.2) := by
  simp only [sweep, found]
  rfl

theorem sweep_found_recorded {reference : Kernel m}
    (found : r.registry.referenceFor c.capability = some reference) :
    r.recorded.sweep a c o.recorded
      = measureSizes (Setup.recorded ⟨a, r.timer, c, o⟩) reference.recorded
          ((r.registry.candidatesFor c.capability).map Kernel.recorded) c.sizes .idle
        >>= fun out => pure (r.recorded.finish out.1 out.2) := by
  have recorded : r.recorded.registry.referenceFor c.capability = some reference.recorded := by
    rw [Runner.recorded, Registry.referenceFor_recorded, found]
    rfl
  rw [sweep_found _ _ _ _ recorded, ← Registry.candidatesFor_recorded]
  rfl

/-- Without a reference nothing is done. -/
theorem sweep_unfound (unfound : r.registry.referenceFor c.capability = none) :
    r.sweep a c o
      = pure (.error (.missingReference c.capability), { r with phase := .idle }) := by
  simp only [sweep, unfound]
  rfl

theorem sweep_unfound_recorded (unfound : r.registry.referenceFor c.capability = none) :
    r.recorded.sweep a c o.recorded
      = pure (.error (.missingReference c.capability), { r with phase := .idle }.recorded) := by
  rw [sweep_unfound]
  · rfl
  · rw [Runner.recorded, Registry.referenceFor_recorded, unfound]
    rfl

end Found

variable (r : Runner (StateM σ)) (a : Supply) (c : Config) (o : Observer (StateM σ))

/-- How the runner is left by a sweep that was stopped, or gave its records. -/
def ended (stop : Stop) (records : List Measurement) :
    Except Failure (List Measurement) × Runner (StateM σ) :=
  match stop with
  | none => (.ok records, { r with phase := .done })
  | some (failure, phase) => (.error failure, { r with phase })

theorem finish_of_outcome {stop : Stop} {records : List Measurement}
    {out : Except Failure (List Measurement) × Phase} (h : stop.Outcome records out) :
    r.finish out.1 out.2 = r.ended stop records := by
  cases stop with
  | none => simp only [Stop.Outcome] at h; rw [h]; rfl
  | some stop => simp only [Stop.Outcome] at h; rw [h]; rfl

theorem sweep_missing (h : r.registry.referenceFor c.capability = none) (s : σ) :
    r.sweep a c o s
      = ((.error (.missingReference c.capability), { r with phase := .idle }), s) := by
  rw [r.sweep_unfound a c o h]
  rfl

theorem sweep_missing_recorded (h : r.registry.referenceFor c.capability = none)
    (journal : Journal (StateM σ)) (s : σ) :
    r.recorded.sweep a c o.recorded journal s
      = (((.error (.missingReference c.capability), { r with phase := .idle }.recorded), journal),
        s) := by
  rw [r.sweep_unfound_recorded a c o h]
  rfl

/-- A sweep that finds a reference makes a tour of its sizes. -/
theorem sweep_records {reference : Kernel (StateM σ)}
    (h : r.registry.referenceFor c.capability = some reference) (s : σ) : ∃ points stop,
      Tour ⟨a, r.timer, c, o⟩ reference (r.registry.candidatesFor c.capability) c.sizes points
        stop ∧
      (r.sweep a c o s).1 = r.ended stop (points.flatMap Point.records) ∧
      ∀ journal, r.recorded.sweep a c o.recorded journal s
        = ((((r.sweep a c o s).1.1, (r.sweep a c o s).1.2.recorded),
            journal ++ points.flatMap Point.entries), (r.sweep a c o s).2) := by
  obtain ⟨_, ⟨points, stop, rfl, tour, outcome⟩, wrote⟩ :=
    measureSizes_records ⟨a, r.timer, c, o⟩ reference (r.registry.candidatesFor c.capability)
      c.sizes .idle s
  have plain : r.sweep a c o s
      = (fun x => (r.finish x.1.1 x.1.2, x.2))
        (measureSizes ⟨a, r.timer, c, o⟩ reference (r.registry.candidatesFor c.capability) c.sizes
          .idle s) := by
    rw [r.sweep_found a c o h]
    rfl
  refine ⟨points, stop, tour, ?_, fun journal => ?_⟩
  · rw [plain]
    exact r.finish_of_outcome outcome
  · rw [r.sweep_found_recorded a c o h, plain]
    simp only [← finish_recorded]
    exact congrArg (fun x => ((r.recorded.finish x.1.1.1 x.1.1.2, x.1.2), x.2)) (wrote journal)

theorem sweep_tour {reference : Kernel (StateM σ)}
    (h : r.registry.referenceFor c.capability = some reference) (s : σ) : ∃ points stop,
      Tour ⟨a, r.timer, c, o⟩ reference (r.registry.candidatesFor c.capability) c.sizes points
        stop ∧
      (r.sweep a c o s).1 = r.ended stop (points.flatMap Point.records) ∧
      r.journal a c o s = points.flatMap Point.entries := by
  obtain ⟨points, stop, tour, out, wrote⟩ := r.sweep_records a c o h s
  exact ⟨points, stop, tour, out, by rw [journal, wrote]; rfl⟩

theorem journal_missing (h : r.registry.referenceFor c.capability = none) (s : σ) :
    r.journal a c o s = [] := by
  rw [journal, sweep_missing_recorded r a c o h]

/-- Keeping a journal changes neither the result, nor the runner left, nor the state. -/
theorem sweep_recorded (journal : Journal (StateM σ)) (s : σ) :
    r.recorded.sweep a c o.recorded journal s
      = ((((r.sweep a c o s).1.1, (r.sweep a c o s).1.2.recorded), journal ++ r.journal a c o s),
          (r.sweep a c o s).2) := by
  cases h : r.registry.referenceFor c.capability with
  | none =>
    rw [journal_missing r a c o h, sweep_missing_recorded r a c o h, sweep_missing r a c o h,
      List.append_nil]
  | some reference =>
    obtain ⟨points, stop, -, -, wrote⟩ := r.sweep_records a c o h s
    rw [wrote, Runner.journal, wrote]
    rfl

end Runner

end Microbench
