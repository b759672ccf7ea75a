import Microbench.Registry
import Microbench.Sweep.Config
import Microbench.Sweep.Measurement

/-!
# Running a sweep

A runner holds a registry and a timer. At each size it generates a workload and runs the
reference, then the other kernels of the capability. A kernel is timed a number of times, each
time from a zeroed output, and what it leaves is compared with what the reference left.

A kernel that fails, or whose output differs, is recorded and the sweep carries on. A workload
that cannot be generated, or an observer that fails, ends it. The phase of the runner tells how
far it came.
-/
namespace Microbench

inductive Phase where
  | idle
  | generatingWorkload
  | executingKernel
  | verifying
  | recording
  | done
  deriving DecidableEq, Repr

def Phase.all : List Phase :=
  [.idle, .generatingWorkload, .executingKernel, .verifying, .recording, .done]

def Phase.name : Phase → String
  | .idle => "Idle"
  | .generatingWorkload => "GeneratingWorkload"
  | .executingKernel => "ExecutingKernel"
  | .verifying => "Verifying"
  | .recording => "Recording"
  | .done => "Done"

/-- Is told of every workload before it is used and of every measurement while its buffers are
alive (`SweepObserver`). It may fail. -/
structure Observer (m : Type → Type) where
  onWorkload : Workload → m (Except Failure Unit)
  onMeasurement : Measurement → Workload → m (Except Failure Unit)

/-- Hears everything and does nothing. -/
def Observer.silent [Monad m] : Observer m := ⟨fun _ => pure (.ok ()), fun _ _ => pure (.ok ())⟩

namespace Sweep

/-- What a sweep needs besides its sizes. -/
structure Setup (m : Type → Type) where
  supply : Supply
  timer : Timer m
  config : Config
  observer : Observer m

/-- Steps of a sweep: they move the phase and may end the sweep. -/
abbrev Step (m : Type → Type) := ExceptT Failure (StateT Phase m)

variable {m : Type → Type} [Monad m]

def enter (phase : Phase) : Step m Unit := fun _ => pure (.ok (), phase)

/-- An action of the underlying monad that may end the sweep. -/
def attempt (action : m (Except Failure α)) : Step m α := fun phase =>
  action >>= fun result => pure (result, phase)

/-- An action that cannot end the sweep. -/
def perform (action : m α) : Step m α := fun phase =>
  action >>= fun value => pure (.ok value, phase)

/-- Times `iterations` runs, each from a zeroed output, up to the first that fails (`execute`). The
output is the one the last run left. -/
def execute (timer : Timer m) (kernel : Kernel m) (inputs : Inputs) :
    Nat → Elapsed → Buffer → m (Except Failure Elapsed × Buffer)
  | 0, total, output => pure (.ok total, output)
  | iterations + 1, total, output => do
    let ((result, output), elapsed) ← timer.time (kernel.run inputs output.reset)
    match result with
    | .ok () => execute timer kernel inputs iterations (total.accumulate elapsed) output
    | .error failure => return (.error failure, output)

/-- What is known of the right output at one size. -/
inductive Truth where
  | known (output : Buffer)
  /-- The reference failed. -/
  | lost
  /-- The reference does not support the shape. -/
  | absent

/-- The verdict on a candidate that ran. -/
def Truth.judge (truth : Truth) (verifier : Verifier) (output : Buffer) : Verdict :=
  match truth with
  | .known expected => verifier.compare expected output
  | .lost => .rejected "reference kernel failed; nothing to compare against"
  | .absent => .rejected "reference kernel did not run"

/-- What is recorded of a kernel. A failure takes the place of ticks and verdict. -/
def measurement (s : Setup m) (kernel : Kernel m) (judge : Buffer → Verdict) (shape : Shape)
    (outcome : Except Failure Elapsed) (output : Buffer) : Measurement :=
  let elapsed :=
    match outcome with
    | .ok elapsed => elapsed
    | .error _ => Elapsed.zero s.timer.source.ticksPerSecond
  { kernel := kernel.name
    variant := kernel.variant
    capability := s.config.capability
    size := shape.size
    shape := shape.text
    ticks := elapsed.ticks
    seconds := elapsed.seconds
    iterations := max s.config.iterations 1
    precision := s.timer.source.precision
    verdict :=
      match outcome with
      | .ok _ => judge output
      | .error failure => .rejected ("kernel error: " ++ failure.message) }

/-- Runs one kernel and records it, the body of the innermost loop of `run_sweep_observed`; the
outcome and the workload it left. -/
def measure (s : Setup m) (kernel : Kernel m) (judge : Buffer → Verdict) (w : Workload) :
    Step m (Measurement × Bool × Workload) := do
  enter .executingKernel
  let (outcome, output) ← perform <|
    execute s.timer kernel w.inputs (max s.config.iterations 1)
      (Elapsed.zero s.timer.source.ticksPerSecond) w.output
  enter .verifying
  let w := { w with output }
  let record := measurement s kernel judge w.shape outcome output
  enter .recording
  attempt (s.observer.onMeasurement record w)
  return (record, outcome.isOk, w)

/-- The reference, if it supports the shape: its measurement, what it says about the right
output, and the workload it left. -/
def measureReference (s : Setup m) (reference : Kernel m) (w : Workload) :
    Step m (List Measurement × Truth × Workload) := do
  if reference.supports w.shape then
    let (record, succeeded, w) ← measure s reference (fun _ => .passed 0) w
    return ([record], if succeeded then .known w.output else .lost, w)
  else
    return ([], .absent, w)

/-- The candidates that support the shape, in order. -/
def measureCandidates (s : Setup m) (truth : Truth) :
    List (Kernel m) → Workload → Step m (List Measurement)
  | [], _ => pure []
  | kernel :: kernels, w => do
    if kernel.supports w.shape then
      let (record, _, w) ← measure s kernel (truth.judge s.config.verifier) w
      return record :: (← measureCandidates s truth kernels w)
    else
      measureCandidates s truth kernels w

/-- All kernels at one size, the body of the outer loop of `run_sweep_observed`. -/
def measureSize (s : Setup m) (reference : Kernel m) (candidates : List (Kernel m)) (size : Nat) :
    Step m (List Measurement) := do
  enter .generatingWorkload
  let w ← attempt (pure (Workload.generate s.supply s.config.fill (s.config.shapeFor size)))
  attempt (s.observer.onWorkload w)
  let (first, truth, w) ← measureReference s reference w
  return first ++ (← measureCandidates s truth candidates w)

/-- All sizes in order. -/
def measureSizes (s : Setup m) (reference : Kernel m) (candidates : List (Kernel m)) :
    List Nat → Step m (List Measurement)
  | [] => pure []
  | size :: sizes => do
    let here ← measureSize s reference candidates size
    return here ++ (← measureSizes s reference candidates sizes)

end Sweep

structure Runner (m : Type → Type) where
  registry : Registry m
  timer : Timer m
  phase : Phase := .idle

namespace Runner

variable {m : Type → Type} [Monad m]

/-- The phase after a sweep whose steps ended in `last`. -/
def finish (r : Runner m) (result : Except Failure α) (last : Phase) :
    Except Failure α × Runner m :=
  match result with
  | .ok value => (.ok value, { r with phase := .done })
  | .error failure => (.error failure, { r with phase := last })

/-- Measures every kernel of the configured capability at every configured size
(`run_sweep_observed`). -/
def sweep (r : Runner m) (supply : Supply) (config : Sweep.Config) (observer : Observer m) :
    m (Except Failure (List Measurement) × Runner m) := do
  match r.registry.referenceFor config.capability with
  | none => return r.finish (.error (.missingReference config.capability)) .idle
  | some reference =>
    let candidates := r.registry.candidatesFor config.capability
    let (result, last) ←
      (Sweep.measureSizes ⟨supply, r.timer, config, observer⟩ reference candidates
        config.sizes).run .idle
    return r.finish result last

end Runner

end Microbench
