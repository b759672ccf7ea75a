import Microbench.CommandLine.Execute
import Microbench.Proofs.Builtin
import Microbench.Proofs.CommandLine.Arguments
import Microbench.Proofs.Sweep.BlockCopies
import Microbench.Proofs.Sweep.Isolation
import Microbench.Proofs.Sweep.Order
import Microbench.Proofs.Sweep.Shadows
import Microbench.Simulation.Bench

/-!
# A command does all or nothing

A command can fail in two ways: a name is no built-in kernel of its capability, or the workload of
one of its sizes does not fit into memory. Nothing has been written by then. A command that prints
while it sweeps has one size, so it prints nothing before its only workload is there.

Results:

* `execute_eq`: a command as a selection, a sweep and what follows it.
* `execute_stopped`, `execute_returned`: it ends like its sweep, without a word or with a report.
* `execute_ends`: the three ways in which a command ends.
* `execute_all_or_nothing`: how a command ends and what it has written, by its arguments.
-/
namespace Microbench.CommandLine

open Sweep Registry

variable {σ : Type}

/-! ## What a command is made of -/

namespace Command

/-- The kernels asked for are built-in kernels of the capability. -/
def Known (c : Command) : Prop :=
  ∀ name ∈ c.request.names, name ∈ builtinNames c.request.capability

/-- The workloads of all sizes fit into memory. -/
def Fits (a : Supply) (c : Command) : Prop :=
  ∀ size ∈ c.request.sizes, Shape.Fits a.toAllocator ⟨c.request.capability, size, 0⟩

/-- The first name that no built-in kernel of the capability has. -/
def unknown? (c : Command) : Option String :=
  c.kernels.find? fun name => decide (name ∉ builtinNames c.config.capability)

theorem unknown?_eq_none {c : Command} : c.unknown? = none ↔ c.Known := by
  rw [unknown?, List.find?_eq_none, Known, kernels_eq, config_capability]
  simp only [decide_eq_true_eq, not_not]

/-- The steps of a shape take no memory. -/
theorem shapeFor_fits {c : Command} {a : Allocator} {size : Nat} :
    (c.config.shapeFor size).Fits a ↔ Shape.Fits a ⟨c.request.capability, size, 0⟩ := by
  cases c <;> exact ⟨fun h => ⟨h.footprint, h.granted⟩, fun h => ⟨h.footprint, h.granted⟩⟩

theorem prints_sizes {c : Command} (h : c.prints = true) : ∃ size, c.config.sizes = [size] := by
  cases c with
  | matmul n => exact ⟨n, rfl⟩
  | vectorAdd n => exact ⟨n, rfl⟩
  | _ => cases h

theorem traced {c : Command} {blocks : Nat} (h : c.tracedBlocks? = some blocks) :
    c.config.capability = .memoryCopy ∧ c.config.sizes = [blocks] ∧
      c.config.shapeFor blocks = ⟨.memoryCopy, blocks, 0⟩ := by
  cases c with
  | memcpy n trace =>
    cases trace with
    | true => cases h; exact ⟨rfl, rfl, rfl⟩
    | false => cases h
  | _ => cases h

end Command

namespace Invocation

def config (i : Invocation) : Config := i.command.config.withIterations i.options.timedRuns

/-- Whether buffers are printed while the sweep runs. -/
def prints (i : Invocation) : Bool := i.command.prints && !i.json

def observer (i : Invocation) : Observer (Writing (StateM σ)) :=
  if i.prints then printer else .silent

/-- The runner of the command, if it has the kernels asked for. -/
def runner (i : Invocation) (source : TickSource (StateM σ)) : Runner (StateM σ) :=
  ⟨⟨(⟨builtinKernels⟩ : Registry (StateM σ)).wanted i.config.capability i.command.kernels⟩,
    ⟨source, none⟩, .idle⟩

end Invocation

theorem wanted_lift (c : Capability) (names : List String) :
    (⟨(⟨builtinKernels⟩ : Registry (Writing (StateM σ))).wanted c names⟩ :
      Registry (Writing (StateM σ)))
        = Registry.lift ⟨(⟨builtinKernels⟩ : Registry (StateM σ)).wanted c names⟩ := by
  have same : (builtinKernels : List (Kernel (Writing (StateM σ))))
      = (builtinKernels : List (Kernel (StateM σ))).map Kernel.lift := rfl
  simp only [wanted, kernelsFor, Registry.lift, same, List.filter_map]
  rfl

/-! ## The course of a command -/

section Course

variable (a : Supply) (source : TickSource (StateM σ)) (i : Invocation)

/-- What follows the sweep of a command. -/
def conclude (out : Except Failure (List Measurement) × Runner (Writing (StateM σ))) :
    Writing (StateM σ) (Except Failure Unit) :=
  match out.1 with
  | .error failure => return .error failure
  | .ok measurements => do
    match ← blockTraces a out.2 i.command with
    | .error failure => return .error failure
    | .ok blockTrace =>
      let report := Report.ofSource i.config.capability source measurements
      write (reportText i { report with blockTrace })
      return .ok ()

/-- A command selects its kernels, sweeps and writes its report. -/
theorem execute_eq :
    execute a source i =
      match i.command.unknown? with
      | some name => pure (.error (.unknownKernel i.command.config.capability name))
      | none => (i.runner source).lift.sweep a i.config i.observer >>= conclude a source i := by
  have select := builtin_select (m := Writing (StateM σ))
    (i.command.config.withIterations i.options.timedRuns).capability i.command.kernels
  have unknown : i.command.unknown? = i.command.kernels.find? fun name => decide
    (name ∉ builtinNames (i.command.config.withIterations i.options.timedRuns).capability) := rfl
  unfold execute
  dsimp only
  rw [select, unknown]
  cases i.command.kernels.find? _ with
  | some name => rfl
  | none =>
    dsimp only
    rw [wanted_lift]
    rfl

/-- Block traces that succeed and write nothing are followed by the report. -/
theorem conclude_traced {r : Runner (Writing (StateM σ))} {ms : List Measurement}
    {traces : List BlockTrace} {text : String} {s s' : σ}
    (run : blockTraces a r i.command text s = ((.ok traces, text), s')) :
    conclude a source i (.ok ms, r) text s
      = ((.ok (), text ++ reportText i
          { Report.ofSource i.config.capability source ms with blockTrace := traces }), s') := by
  simp only [conclude, bind, StateT.bind, run]
  rfl

end Course

/-! ## The sweep of a command -/

/-- What the printer writes when it is called. -/
def printed : Hook → String
  | .workload w => inputGrids w
  | .measurement record w => outputText record.kernel w

/-- What a command writes when its observer is called. -/
def Invocation.shown (i : Invocation) (hooks : List Hook) : String :=
  if i.prints then String.join (hooks.map printed) else ""

theorem Invocation.observer_follows (i : Invocation) (text : String) :
    (i.observer : Observer (Writing (StateM σ))).Follows
      (fun hooks written => written = text ++ i.shown hooks) fun _ => False := by
  rintro hook before _ s rfl
  refine .inl ⟨_, rfl, ?_⟩
  unfold observer shown
  cases i.prints with
  | false => cases hook <;> rfl
  | true =>
    simp only [if_true, List.map_append, List.map_cons, List.map_nil, String.join_append,
      String.join_cons, String.join_nil, String.append_empty, ← String.append_assoc]
    cases hook <;> rfl

/-- A sweep that finds its reference and that nobody watches ends only for want of a workload. -/
theorem silent_ends (r : Runner (StateM σ)) (a : Supply) (c : Config) (s : σ)
    {reference : Kernel (StateM σ)}
    (found : r.registry.referenceFor c.capability = some reference) :
    (∃ ms, (r.sweep a c .silent s).1.1 = .ok ms ∧
        ∀ size ∈ c.sizes, ∃ w, c.workload a size = .ok w) ∨
      ∃ before size after failure, c.sizes = before ++ size :: after ∧
        (r.sweep a c .silent s).1.1 = .error failure ∧ c.workload a size = .error failure ∧
        (before = [] → r.journal a c .silent s = []) := by
  obtain ⟨points, stop, tour, out, wrote⟩ := r.sweep_tour a c .silent found s
  rw [out, wrote]
  obtain ⟨rfl, visits⟩ | ⟨before, size, after, failure, sizes, rfl, visits, fails⟩ :=
    tour.ends Observer.silent_agrees
  · exact .inl ⟨_, rfl, tour_generates visits⟩
  · refine .inr ⟨before, size, after, failure, sizes, rfl, fails, ?_⟩
    rintro rfl
    cases visits
    rfl

/-- One workload is traced with kernel after kernel. -/
theorem traceAll_always {r : Runner (StateT τ (StateM σ))} {source : TickSource (StateM σ)}
    (clock : r.timer.source = source.lift) (kernels : List (Kernel (StateT τ (StateM σ))))
    (access : ∀ k ∈ kernels, k.capability = .memoryCopy ∧
      ∃ copy, k.blockCopy = some copy ∧ MemoryCopy.Copies copy)
    {n : Nat} {src : Array UInt8} {w : Workload} (h : Runner.Traceable n src w) :
    Always (fun traces => ∃ list, traces = .ok list ∧
      List.Forall₂ (BlockTrace.Covers n) kernels list) (traceAll r w kernels) := by
  induction kernels generalizing r w with
  | nil => exact .pure ⟨[], rfl, .nil⟩
  | cons kernel kernels ih =>
    obtain ⟨⟨capability, copy, blocks, copies⟩, rest⟩ := List.forall_mem_cons.1 access
    refine (Runner.traceBlockCopies_always clock capability blocks copies h).bind ?_
    rintro ⟨_, w, r⟩ ⟨⟨samples, whole, rfl⟩, traceable, clock⟩
    refine (ih clock rest traceable).bind ?_
    rintro _ ⟨list, rfl, covers⟩
    exact .pure ⟨_, rfl, .cons ⟨rfl, whole⟩ covers⟩

/-- The block traces of a command: one for each kernel if copies are traced. -/
def Command.Traced (kernels : List (Kernel m)) : Command → List BlockTrace → Prop
  | .memcpy blocks true _, traces => List.Forall₂ (BlockTrace.Covers blocks) kernels traces
  | _, traces => traces = []

theorem Command.traced_none {c : Command} {kernels : List (Kernel m)}
    (h : c.tracedBlocks? = none) : c.Traced kernels [] := by
  cases c with
  | memcpy blocks trace =>
    cases trace with
    | true => cases h
    | false => rfl
  | _ => rfl

theorem Command.traced_some {c : Command} {kernels : List (Kernel m)} {blocks : Nat}
    {traces : List BlockTrace} (h : c.tracedBlocks? = some blocks)
    (covers : List.Forall₂ (BlockTrace.Covers blocks) kernels traces) :
    c.Traced kernels traces := by
  cases c with
  | memcpy blocks trace =>
    cases trace with
    | true => cases h; exact covers
    | false => cases h
  | _ => cases h

section Known

variable (a : Supply) (source : TickSource (StateM σ)) {i : Invocation}
  (known : i.command.unknown? = none)
include known

theorem reference_found : ∃ reference,
    (i.runner source).registry.referenceFor i.config.capability = some reference := by
  have select := builtin_select (m := StateM σ) i.config.capability i.command.kernels
  have none : (i.command.kernels.find? fun name =>
    decide (name ∉ builtinNames i.config.capability)) = none := known
  rw [none] at select
  obtain ⟨full, registered, selected⟩ := ok_of_bind select
  obtain ⟨reference, others, lineup⟩ := (Shipped.selected registered selected).lineup
  exact ⟨reference, (lineup_iff.1 lineup).1⟩

/-- The sweep of a command that is known, with what it has written. -/
theorem sweep_written (text : String) (s : σ) :
    execute a source i text s
      = conclude a source i
          (((i.runner source).sweep a i.config .silent s).1.1,
            ((i.runner source).sweep a i.config .silent s).1.2.lift)
          (text ++ i.shown (Journal.hooks ((i.runner source).journal a i.config .silent s)))
          ((i.runner source).sweep a i.config .silent s).2 := by
  have none : text = text ++ i.shown [] := by
    rw [Invocation.shown]
    split <;> simp
  obtain ⟨_, rfl, swept⟩ | ⟨_, _, _, _, _, _, -, no, -⟩ :=
    (i.runner source).sweep_shadows (i.observer_follows text) (a := a) (c := i.config) none s
  · rw [execute_eq, known]
    exact congrArg (fun x => conclude a source i x.1.1 x.1.2 x.2) swept.plain
  · exact no.elim

/-- A command whose sweep is stopped ends with the same failure and has written nothing. -/
theorem execute_stopped (text : String) (s : σ) {before after : List Nat} {size : Nat}
    {failure : Failure} (sizes : i.config.sizes = before ++ size :: after)
    (stopped : ((i.runner source).sweep a i.config .silent s).1.1 = .error failure)
    (unvisited : before = [] → (i.runner source).journal a i.config .silent s = []) :
    ∃ s', execute a source i text s = ((.error failure, text), s') := by
  have nothing : i.shown (Journal.hooks ((i.runner source).journal a i.config .silent s)) = "" := by
    rw [Invocation.shown]
    split
    · next prints =>
      obtain ⟨one, single⟩ := Command.prints_sizes (Bool.and_eq_true_iff.1 prints).1
      have none : before = [] := by
        have length := congrArg List.length (sizes.symm.trans single)
        rw [List.length_append, List.length_cons, List.length_singleton] at length
        exact List.length_eq_zero_iff.1 (by omega)
      rw [unvisited none]
      rfl
    · rfl
  rw [sweep_written a source known text s, nothing, String.append_empty, conclude, stopped]
  exact ⟨_, rfl⟩

omit known in
theorem blockTraces_always (s : σ)
    (generates : ∀ size ∈ i.config.sizes, ∃ w, i.config.workload a size = .ok w) :
    Always (τ := String) (σ := σ) (fun traces => ∃ list, traces = .ok list ∧
        i.command.Traced (i.runner source).registry.kernels list)
      (blockTraces a ((i.runner source).sweep a i.config .silent s).1.2.lift i.command) := by
  unfold blockTraces
  cases traced : i.command.tracedBlocks? with
  | none => exact .pure ⟨[], rfl, Command.traced_none traced⟩
  | some blocks =>
    obtain ⟨capability, sizes, shape⟩ := Command.traced traced
    obtain ⟨w, generated⟩ := generates blocks (by
      show blocks ∈ i.command.config.sizes
      rw [sizes]
      exact List.mem_singleton_self blocks)
    have generated : Workload.generate a i.command.config.fill ⟨.memoryCopy, blocks, 0⟩
        = .ok w := by
      rw [← shape]
      exact generated
    simp only [generated]
    obtain ⟨src, traceable⟩ := Runner.Traceable.generated rfl generated
    obtain ⟨phase, left⟩ := (i.runner source).sweep_runner a i.config .silent s
    rw [left]
    have access : ∀ k ∈ (i.runner source).registry.kernels.map
        (Kernel.lift : Kernel (StateM σ) → Kernel (Writing (StateM σ))),
        k.capability = .memoryCopy ∧ ∃ copy, k.blockCopy = some copy ∧ MemoryCopy.Copies copy := by
      refine List.forall_mem_map.2 fun k among => ?_
      obtain ⟨builtin, here⟩ := List.mem_filter.1 (List.mem_filter.1 among).1
      have copies : k.capability = .memoryCopy := (beq_iff_eq.1 here).trans capability
      exact ⟨copies, builtin_blockCopy k builtin copies⟩
    refine (traceAll_always rfl _ access traceable).imp ?_
    rintro _ ⟨list, rfl, covers⟩
    refine ⟨list, rfl, Command.traced_some traced ?_⟩
    exact (List.forall₂_map_left_iff.1 covers).imp fun k t covers =>
      ⟨covers.kernel, covers.samples⟩

/-- A command whose sweep returns writes what it prints and a report. The report is the same
whether it is written as text or as a document. -/
theorem execute_returned (s : σ) {ms : List Measurement}
    (returned : ((i.runner source).sweep a i.config .silent s).1.1 = .ok ms)
    (generates : ∀ size ∈ i.config.sizes, ∃ w, i.config.workload a size = .ok w) :
    ∃ traces s', i.command.Traced (i.runner source).registry.kernels traces ∧
      ∀ json text,
        let j : Invocation := { i with json }
        let hooks := Journal.hooks ((i.runner source).journal a i.config .silent s)
        let report := Report.ofSource i.config.capability source ms
        execute a source j text s
          = ((.ok (), text ++ j.shown hooks ++ reportText j { report with blockTrace := traces }),
              s') := by
  obtain ⟨_, s', ⟨traces, rfl, traced⟩, run⟩ :=
    blockTraces_always a source s generates ((i.runner source).sweep a i.config .silent s).2
  refine ⟨traces, s', traced, ?_⟩
  intro json text j hooks report
  refine (sweep_written a source (i := j) known text s).trans ?_
  show conclude a source j (((i.runner source).sweep a i.config .silent s).1.1, _)
    (text ++ j.shown hooks) _ = _
  rw [returned]
  exact conclude_traced a source j (run (text ++ j.shown hooks))

end Known

/-! ## How a command ends -/

theorem isUsage_iff {failure : Failure} :
    failure.isUsage = true ↔ ∃ c name, failure = .unknownKernel c name := by
  cases failure <;> simp [Failure.isUsage]

theorem isAllocation_iff {failure : Failure} :
    failure.isAllocation = true ↔ ∃ bytes, failure = .allocation bytes := by
  cases failure <;> simp [Failure.isAllocation]

theorem workload_ok_iff {i : Invocation} (admitted : i.Admitted) (a : Supply) {size : Nat}
    (h : size ∈ i.command.request.sizes) :
    (∃ w, i.config.workload a size = .ok w) ↔
      Shape.Fits a.toAllocator ⟨i.command.request.capability, size, 0⟩ := by
  refine (Workload.generate_ok_iff ?_).trans Command.shapeFor_fits
  show 0 < (i.command.config.shapeFor size).size
  rw [Config.shapeFor_size]
  exact admitted size h

/-- The three ways in which a command ends. -/
theorem execute_ends (a : Supply) (source : TickSource (StateM σ)) {i : Invocation}
    (admitted : i.Admitted) (text : String) (s : σ) :
    (¬i.command.Known ∧ ∃ name, (execute a source i text s).1
        = (.error (.unknownKernel i.command.config.capability name), text)) ∨
      (i.command.Known ∧ ¬i.command.Fits a ∧
        ∃ bytes, (execute a source i text s).1 = (.error (.allocation bytes), text)) ∨
      (i.command.Known ∧ i.command.Fits a ∧ (execute a source i text s).1.1 = .ok ()) := by
  cases known : i.command.unknown? with
  | some name =>
    left
    refine ⟨fun all => ?_, name, ?_⟩
    · rw [Command.unknown?_eq_none.2 all] at known
      cases known
    · rw [execute_eq, known]
      rfl
  | none =>
    right
    have all := Command.unknown?_eq_none.1 known
    obtain ⟨reference, found⟩ := reference_found source known
    obtain ⟨ms, returned, generates⟩ |
        ⟨before, size, after, failure, sizes, stopped, fails, first⟩ :=
      silent_ends (i.runner source) a i.config s found
    · right
      obtain ⟨_, _, -, run⟩ := execute_returned a source known s returned generates
      refine ⟨all, fun size h => ?_, congrArg (·.1.1) (run i.json text)⟩
      have listed : size ∈ i.command.config.sizes := i.command.config_sizes ▸ h
      exact (workload_ok_iff admitted a h).1 (generates size listed)
    · left
      have here : size ∈ i.command.request.sizes := by
        rw [← i.command.config_sizes, show i.command.config.sizes = _ from sizes]
        simp
      obtain ⟨s', out⟩ := execute_stopped a source known text s sizes stopped first
      rcases Workload.generate_error fails with ⟨empty, -⟩ | ⟨bytes, rfl⟩
      · rw [Config.shapeFor_size] at empty
        exact absurd empty (Nat.ne_of_gt (admitted size here))
      · refine ⟨all, fun fits => ?_, bytes, by rw [out]⟩
        obtain ⟨w, generated⟩ := (workload_ok_iff admitted a here).2 (fits size here)
        cases fails.symm.trans generated

/-- How a command ends and what it has written by then, after some earlier text. -/
structure AllOrNothing (a : Supply) (c : Command) (text : String)
    (result : Except Failure Unit) (written : String) : Prop where
  usage : (∃ failure, result = .error failure ∧ failure.isUsage = true) ↔ ¬c.Known
  allocation : (∃ failure, result = .error failure ∧ failure.isAllocation = true) ↔
    c.Known ∧ ¬c.Fits a
  done : result = .ok () ↔ c.Known ∧ c.Fits a
  /-- There is no third kind of failure. -/
  kinds : ∀ failure, result = .error failure →
    failure.isUsage = true ∨ failure.isAllocation = true
  nothing : ∀ failure, result = .error failure → written = text
  exitCode : (outcome result written).exitCode = if result.isOk then 0 else 1

/-- A command fails for a kernel that is none of the built-in ones of its capability, and else for
want of memory at some size, and for nothing else. If it fails it has written nothing, whatever it
prints and whichever size it is. The program ends with zero exactly if the command did not fail, and
with one otherwise; its complaint goes by the kind of failure. -/
theorem execute_all_or_nothing (a : Supply) (clock : Invocation → TickSource (StateM σ))
    {i : Invocation} (admitted : i.Admitted) (text : String) (s : σ) :
    AllOrNothing a i.command text (execute a (clock i) i text s).1.1
      (execute a (clock i) i text s).1.2 ∧
    (∀ args, parse args = .ok i →
      (program a clock args s).1 = outcome (execute a (clock i) i "" s).1.1
        (execute a (clock i) i "" s).1.2) ∧
    ∀ failure : Failure,
      (failure.isUsage = true ↔ ∃ c name, failure = .unknownKernel c name) ∧
        (failure.isAllocation = true ↔ ∃ bytes, failure = .allocation bytes) := by
  refine ⟨?_, fun args parsed => ?_, fun failure => ⟨isUsage_iff, isAllocation_iff⟩⟩
  · obtain ⟨unknown, name, out⟩ | ⟨known, large, bytes, out⟩ | ⟨known, fits, out⟩ :=
      execute_ends a (clock i) admitted text s
    · rw [out]
      exact {
        usage := iff_of_true ⟨_, rfl, rfl⟩ unknown
        allocation := iff_of_false (by rintro ⟨_, ⟨⟩, ⟨⟩⟩) fun h => unknown h.1
        done := iff_of_false nofun fun h => unknown h.1
        kinds := by rintro _ ⟨⟩; exact .inl rfl
        nothing := fun _ _ => rfl
        exitCode := outcome_exitCode .. }
    · rw [out]
      exact {
        usage := iff_of_false (by rintro ⟨_, ⟨⟩, ⟨⟩⟩) (not_not_intro known)
        allocation := iff_of_true ⟨_, rfl, rfl⟩ ⟨known, large⟩
        done := iff_of_false nofun fun h => large h.2
        kinds := by rintro _ ⟨⟩; exact .inr rfl
        nothing := fun _ _ => rfl
        exitCode := outcome_exitCode .. }
    · rw [out]
      exact {
        usage := iff_of_false (by rintro ⟨_, ⟨⟩, _⟩) (not_not_intro known)
        allocation := iff_of_false (by rintro ⟨_, ⟨⟩, _⟩) fun h => h.2 fits
        done := iff_of_true rfl ⟨known, fits⟩
        kinds := nofun
        nothing := nofun
        exitCode := outcome_exitCode .. }
  · rw [program, parsed]
    -- What the command does is not computed here.
    dsimp only
    generalize execute a (clock i) i = action
    rfl

section Refused

open Simulation

/-- The second size is refused when the first has been measured. -/
theorem execute_all_or_nothing_refused :
    let i : Invocation := ⟨false, false, 1, .sweep cacheSizes 16 ["rmw-wrapped"]⟩
    let clock : Invocation → TickSource (StateM Bench) := fun _ => source "bench" .cycle 1 64
    parse ["sweep", "--steps", "16", "--kernel", "rmw-wrapped"] = .ok i ∧
      i.Admitted ∧
      (∃ failure, (execute (.below 8192) (clock i) i "" {}).1 = (.error failure, "") ∧
        failure.isAllocation = true) := by
  intro i clock
  have parsed : parse ["sweep", "--steps", "16", "--kernel", "rmw-wrapped"] = .ok i := by
    decide +kernel
  have admitted := parse_admitted parsed
  obtain ⟨ends, -, -⟩ := execute_all_or_nothing (.below 8192) clock admitted "" ({} : Bench)
  have known : i.command.Known := by
    rw [← Command.unknown?_eq_none]
    decide
  have large : ¬i.command.Fits (.below 8192) := fun fits =>
    absurd (fits 8 (List.mem_cons_of_mem _ List.mem_cons_self)).granted (by decide)
  obtain ⟨failure, fails, refused⟩ := ends.allocation.2 ⟨known, large⟩
  exact ⟨parsed, admitted, failure, Prod.ext fails (ends.nothing failure fails), refused⟩

end Refused

end Microbench.CommandLine
