import Microbench.Codec
import Microbench.CommandLine.Arguments
import Microbench.Sweep.BlockCopies

/-!
# Running a command

A command selects kernels, runs its sweep and writes a report. The text written so far is kept
when a run fails. Nothing here depends on which clock is read or on which monad it is read in.

Results:

* `outcome_exitCode`: the program ends with zero if nothing failed, and with one otherwise.
-/
namespace Microbench.CommandLine

/-! ## Printing buffers -/

/-- The grids of the input matrices. -/
def inputGrids (w : Workload) : String :=
  String.join <| (["A", "B"].zip w.inputs.buffers).map fun (label, buffer) =>
    match Report.matrixRows? w.shape buffer with
    | some rows => label ++ " =\n" ++ Report.grid rows
    | none => ""

/-- The grid or the column that a kernel left. -/
def outputText (kernel : String) (w : Workload) : String :=
  match Report.matrixRows? w.shape w.output with
  | some rows => "Using " ++ kernel ++ ", C =\n" ++ Report.grid rows
  | none =>
    match w.output.i16? with
    | some values => "Using " ++ kernel ++ ":\n" ++ Report.column values
    | none => ""

/-- A monad with the text written so far. -/
abbrev Writing (m : Type → Type) := StateT String m

variable {m : Type → Type} [Monad m]

def write (text : String) : Writing m Unit := modify (· ++ text)

/-- Prints the inputs of every workload and the output of every measurement (`BufferPrinter`). -/
def printer : Observer (Writing m) where
  onWorkload w := do
    write (inputGrids w)
    return .ok ()
  onMeasurement record w := do
    write (outputText record.kernel w)
    return .ok ()

/-! ## Reports -/

/-- One line per measurement, one section per block trace, and the closing line. -/
def reportLines (c : Command) (r : Report) : List String :=
  r.measurements.map (if c.isCacheSweep then Report.cacheLine else Report.measurementLine)
    ++ r.blockTrace.flatMap (fun t => (t.kernel ++ ":") :: t.samples.map Report.sampleLine)
    ++ [r.summary]

def reportText (i : Invocation) (r : Report) : String :=
  if i.json then Codec.reportText r ++ "\n"
  else String.join ((reportLines i.command r).map (· ++ "\n"))

/-! ## Execution -/

/-- Traces the kernels in order on one workload, up to the first failure. -/
def traceAll (r : Runner m) (w : Workload) :
    List (Kernel m) → m (Except Failure (List BlockTrace))
  | [] => pure (.ok [])
  | kernel :: kernels => do
    let (samples, w, r) ← r.traceBlockCopies kernel w
    match samples with
    | .error failure => return .error failure
    | .ok samples =>
      return (← traceAll r w kernels).map fun traces => ⟨kernel.name, samples⟩ :: traces

/-- The block traces that the command asks for. -/
def blockTraces (supply : Supply) (r : Runner m) (c : Command) :
    m (Except Failure (List BlockTrace)) :=
  match c.tracedBlocks? with
  | none => pure (.ok [])
  | some blocks =>
    match Workload.generate supply c.config.fill ⟨.memoryCopy, blocks, 0⟩ with
    | .error failure => pure (.error failure)
    | .ok w => traceAll r w r.registry.kernels

/-- Runs an invocation with a clock (`execute`). -/
def execute (supply : Supply) (source : TickSource m) (i : Invocation) :
    Writing m (Except Failure Unit) := do
  let config := i.command.config.withIterations i.options.timedRuns
  match Registry.builtin >>= fun registry =>
    registry.select config.capability i.command.kernels with
  | .error failure => return .error failure
  | .ok registry =>
    let runner : Runner (Writing m) := { registry, timer := { source := source.lift } }
    let observer := if i.command.prints && !i.json then printer else Observer.silent
    let (result, runner) ← runner.sweep supply config observer
    match result with
    | .error failure => return .error failure
    | .ok measurements =>
      match ← blockTraces supply runner i.command with
      | .error failure => return .error failure
      | .ok blockTrace =>
        let report := Report.ofSource config.capability source measurements
        write (reportText i { report with blockTrace })
        return .ok ()

/-! ## The program -/

structure Outcome where
  exitCode : Nat
  stdout : String
  stderr : String
  deriving DecidableEq, Repr

/-- A refusal goes to standard output, a complaint with its usage line and a hint after it.
Suggestions of other arguments are left out. -/
def refused (args : List String) (r : Refusal) : Outcome :=
  if r.isText then ⟨r.exitCode, r.message, ""⟩
  else
    let (level, args) := refusedLevel args
    let paragraphs := [r.message] ++ (r.usage? level (Parse.readable level {} args)).toList
      ++ ["For more information, try '--help'.\n"]
    ⟨r.exitCode, String.intercalate "\n\n" paragraphs, ""⟩

example : refused ["cache", "--steps", "9"] (.missingArgument "<KB>")
    = ⟨1, "error: the following required arguments were not provided:\n  <KB>\n\n"
        ++ "Usage: cyclebench cache --steps <STEPS> <KB>\n\n"
        ++ "For more information, try '--help'.\n", ""⟩ := by
  decide +kernel

/-- How the program ends. Mistakes on the command line go to standard output, what else goes wrong
to standard error. -/
def outcome (result : Except Failure Unit) (written : String) : Outcome :=
  match result with
  | .ok () => ⟨0, written, ""⟩
  | .error failure =>
    if failure.isUsage then
      ⟨1, written ++ "error: " ++ failure.message ++ "\n\n" ++ usageText ++ "\n", ""⟩
    else if failure.isAllocation then
      ⟨1, written, "cyclebench: " ++ failure.message ++ "; try a smaller size\n"⟩
    else ⟨1, written, "cyclebench: " ++ failure.message ++ "\n"⟩

/-- The whole program, given the clock for an invocation (`main`). -/
def program (supply : Supply) (clock : Invocation → TickSource m) (args : List String) :
    m Outcome :=
  match parse args with
  | .error refusal => pure (refused args refusal)
  | .ok i => do
    let (result, written) ← (execute supply (clock i) i).run ""
    return outcome result written

omit [Monad m] in
theorem outcome_exitCode (result : Except Failure Unit) (written : String) :
    (outcome result written).exitCode = if result.isOk then 0 else 1 := by
  unfold outcome
  split
  · rfl
  · split
    · rfl
    · split <;> rfl

end Microbench.CommandLine
