import Microbench.Sweep.Runner

/-!
# Keeping a journal

What a sweep does to the world outside it is read a clock, run kernels and speak to an observer.
A recorded runner does the same things and writes each of them down, in order, together with what
came back. Nothing else is written: the journal is made by the clock, the kernels and the
observer, not by the sweep.

Kernels, clock and observer are arbitrary actions on a common state `σ`, so they may remember
earlier calls and share what they remember.

Results:

* `Records.bind`, `Records.bindStep`: what a composed action writes, from what its parts write.
-/
namespace Microbench

/-- One run of a kernel: what it was given, what it answered and the output it left. -/
structure Run (m : Type → Type) where
  kernel : Kernel m
  inputs : Inputs
  given : Buffer
  result : Except Failure Unit
  left : Buffer

inductive Entry (m : Type → Type) where
  | reading (ticks : UInt64)
  | ran (run : Run m)
  /-- The observer was told of a workload. -/
  | told (workload : Workload) (answer : Except Failure Unit)
  /-- The observer was told of a measurement. -/
  | heard (record : Measurement) (workload : Workload) (answer : Except Failure Unit)

abbrev Journal (m : Type → Type) := List (Entry m)

abbrev Recorder (m : Type → Type) := StateT (Journal m) m

section Recording

variable {m : Type → Type} [Monad m]

/-- Performs an action and writes down what it gave. -/
def record (entry : α → Entry m) (action : m α) : Recorder m α := fun journal => do
  let value ← action
  return (value, journal ++ [entry value])

def Kernel.recorded (k : Kernel m) : Kernel (Recorder m) :=
  { k with
    run := fun inputs given =>
      record (fun out => .ran ⟨k, inputs, given, out.1, out.2⟩) (k.run inputs given) }

@[simp] theorem Kernel.recorded_supports (k : Kernel m) (shape : Shape) :
    k.recorded.supports shape = k.supports shape := rfl

def TickSource.recorded (source : TickSource m) : TickSource (Recorder m) :=
  { source with now := record .reading source.now }

def Timer.recorded (t : Timer m) : Timer (Recorder m) := ⟨t.source.recorded, t.started⟩

def Observer.recorded (o : Observer m) : Observer (Recorder m) where
  onWorkload w := record (.told w) (o.onWorkload w)
  onMeasurement r w := record (.heard r w) (o.onMeasurement r w)

def Registry.recorded (r : Registry m) : Registry (Recorder m) :=
  ⟨r.kernels.map Kernel.recorded⟩

def Runner.recorded (r : Runner m) : Runner (Recorder m) :=
  ⟨r.registry.recorded, r.timer.recorded, r.phase⟩

def Sweep.Setup.recorded (s : Sweep.Setup m) : Sweep.Setup (Recorder m) :=
  ⟨s.supply, s.timer.recorded, s.config, s.observer.recorded⟩

end Recording

/-! ## What recorded actions write -/

variable {σ : Type} {α β : Type}

/-- Some state makes the action give this value. -/
def Gives (action : StateM σ α) (value : α) : Prop := ∃ s, (action s).1 = value

/-- The recorded action gives the value and the state of the plain one and adds entries that fit
the value; which ones does not depend on what stands in the journal already. -/
def Records (recorded : Recorder (StateM σ) α) (action : StateM σ α)
    (fit : α → Journal (StateM σ) → Prop) : Prop :=
  ∀ s, ∃ entries, fit (action s).1 entries ∧
    ∀ journal, recorded journal s = (((action s).1, journal ++ entries), (action s).2)

namespace Records

variable {p : Recorder (StateM σ) α} {q : StateM σ α} {f : α → Recorder (StateM σ) β}
  {g : α → StateM σ β} {P P' : α → Journal (StateM σ) → Prop} {Q : β → Journal (StateM σ) → Prop}

theorem of_action (entry : α → Entry (StateM σ)) (action : StateM σ α) :
    Records (record entry action) action fun a es => Gives action a ∧ es = [entry a] :=
  fun s => ⟨[entry (action s).1], ⟨⟨s, rfl⟩, rfl⟩, fun _ => rfl⟩

theorem pure {a : α} (h : P a []) : Records (Pure.pure a) (Pure.pure a) P :=
  fun _ => ⟨[], h, fun journal => by rw [List.append_nil]; rfl⟩

theorem imp (h : Records p q P) (hP : ∀ a es, P a es → P' a es) : Records p q P' := by
  intro s
  obtain ⟨es, hfit, hes⟩ := h s
  exact ⟨es, hP _ _ hfit, hes⟩

theorem bind (hp : Records p q P)
    (hf : ∀ a es, P a es → Records (f a) (g a) fun b es' => Q b (es ++ es')) :
    Records (p >>= f) (q >>= g) Q := by
  intro s
  obtain ⟨es, hfit, hes⟩ := hp s
  obtain ⟨es', hfit', hes'⟩ := hf _ es hfit (q s).2
  refine ⟨es ++ es', hfit', fun journal => ?_⟩
  show f (p journal s).1.1 (p journal s).1.2 (p journal s).2 = _
  rw [hes, ← List.append_assoc]
  exact hes' _

end Records

/-! ## What recorded steps of a sweep write -/

section Steps

open Sweep

variable {p : Step (Recorder (StateM σ)) α} {q : Step (StateM σ) α}
  {f : α → Step (Recorder (StateM σ)) β} {g : α → Step (StateM σ) β} {phase : Phase}
  {P : Except Failure α × Phase → Journal (StateM σ) → Prop}
  {Q : Except Failure β × Phase → Journal (StateM σ) → Prop}

/-- A step that fails ends what it stands in. -/
theorem Records.bindStep (hp : Records (p phase) (q phase) P)
    (ok : ∀ a ph es, P (.ok a, ph) es → Records (f a ph) (g a ph) fun b es' => Q b (es ++ es'))
    (error : ∀ e ph es, P (.error e, ph) es → Q (.error e, ph) es) :
    Records ((p >>= f) phase) ((q >>= g) phase) Q := by
  show Records (p phase >>= fun out => ExceptT.bindCont f out.1 out.2)
    (q phase >>= fun out => ExceptT.bindCont g out.1 out.2) Q
  refine Records.bind hp fun ⟨result, ph⟩ es h => ?_
  cases result with
  | ok a => exact ok a ph es h
  | error e => exact Records.pure (by rw [List.append_nil]; exact error e ph es h)

theorem Records.enter {next : Phase} {f : Unit → Step (Recorder (StateM σ)) β}
    {g : Unit → Step (StateM σ) β} (h : Records (f () next) (g () next) Q) :
    Records ((Sweep.enter next >>= f) phase) ((Sweep.enter next >>= g) phase) Q := h

theorem Records.attempt {action : Recorder (StateM σ) (Except Failure α)}
    {plain : StateM σ (Except Failure α)} {P : Except Failure α → Journal (StateM σ) → Prop}
    (h : Records action plain P) :
    Records (Sweep.attempt action phase) (Sweep.attempt plain phase)
      fun out es => out.2 = phase ∧ P out.1 es :=
  Records.bind h fun _ _ hP => Records.pure ⟨rfl, by rw [List.append_nil]; exact hP⟩

theorem Records.perform {action : Recorder (StateM σ) α} {plain : StateM σ α}
    {P : α → Journal (StateM σ) → Prop} (h : Records action plain P) :
    Records (Sweep.perform action phase) (Sweep.perform plain phase)
      fun out es => ∃ a, out = (.ok a, phase) ∧ P a es :=
  Records.bind h fun a _ hP => Records.pure ⟨a, rfl, by rw [List.append_nil]; exact hP⟩

end Steps

end Microbench
