import Microbench.Proofs.CommandLine.Printed

/-!
# What a command writes

A command that succeeds has measured every kernel of its selection at every size. It has printed its
buffers while it swept, if it was asked to, and then it writes a report: a line per measurement, a
section per block trace and a closing line, or the same report as a document.

Results:

* `Reports.shows`: the lines and sections of a report.
* `report_structure`: what a command that succeeds has written.
-/
namespace Microbench.CommandLine

open Sweep Registry Report

variable {σ : Type}

/-! ## What is reported -/

/-- The kernels that a command measures, in the order of their registration: all those of its
capability if it names none, and else the reference and those it names. -/
structure Command.Selects [Monad m] (c : Command) (kernels : List (Kernel m)) : Prop where
  sublist : kernels.Sublist builtinKernels
  mem : ∀ k, k ∈ kernels ↔ k ∈ builtinKernels ∧ k.capability = c.request.capability ∧
    (c.request.names = [] ∨ k.variant = .reference ∨ k.name ∈ c.request.names)
  /-- Names may be repeated and reordered. -/
  unordered : ∀ names, (∀ name, name ∈ names ↔ name ∈ c.request.names) →
    (⟨builtinKernels⟩ : Registry m).wanted c.request.capability names = kernels

theorem Command.selects [Monad m] (c : Command) : c.Selects
    ((⟨builtinKernels⟩ : Registry m).wanted c.request.capability c.request.names) where
  sublist := List.filter_sublist.trans List.filter_sublist
  mem k := by
    simp only [wanted, kernelsFor, List.mem_filter, beq_iff_eq, Bool.or_eq_true,
      List.isEmpty_iff, isReference_iff, List.contains_iff_mem, and_assoc, or_assoc]
  unordered _ same := wanted_congr same

/-- The report of a command on the kernels that it measured: size by size, in their order. -/
structure Reports (source : TickSource (StateM σ)) (i : Invocation)
    (kernels : List (Kernel (StateM σ))) (r : Report) : Prop where
  capability : r.capability = i.command.request.capability
  clock : r.timer = source.name ∧ r.precision = source.precision ∧
    r.ticksPerSecond = source.ticksPerSecond
  measurements : List.Forall₂ (Measurement.Heading ⟨source, none⟩ i.config)
    (i.command.request.sizes.flatMap fun size => kernels.map (·, size)) r.measurements
  verdicts : ∀ m ∈ r.measurements, m.verdict.SingleLine
  traces : i.command.Traced kernels r.blockTrace

/-- The lines of a traced kernel: its name, and a line for each block. -/
structure Section (blocks : Nat) (kernel : Kernel m) (lines : List String) : Prop where
  head : lines.head? = some (kernel.name ++ ":")
  length : lines.length = blocks + 1
  block : ∀ i < blocks, ∃ ticks : UInt64, lines[i + 1]? = some ("Copied 512 bytes (Total "
    ++ toString (512 * (i + 1)) ++ " bytes), cycles used: " ++ toString ticks.toNat)

theorem section_of_covers {blocks : Nat} {kernel : Kernel m} {t : BlockTrace}
    (h : t.Covers blocks kernel) :
    Section blocks kernel ((t.kernel ++ ":") :: t.samples.map sampleLine) where
  head := by rw [h.kernel]; rfl
  length := by rw [List.length_cons, List.length_map, h.samples.length_eq]
  block i hi := by
    obtain ⟨ticks, here⟩ := h.samples.getElem?_eq hi
    have copied : "Copied " ++ toString blockBytes ++ " bytes (Total "
        = "Copied 512 bytes (Total " := by
      decide +kernel
    refine ⟨ticks, ?_⟩
    rw [List.getElem?_cons_succ, List.getElem?_map, here, Nat.zero_add, Option.map_some,
      sampleLine, copied, blockBytes]

theorem Section.single {blocks : Nat} {kernel : Kernel m} {lines : List String}
    (h : Section blocks kernel lines) (name : Avoids '\n' kernel.name) :
    ∀ line ∈ lines, Avoids '\n' line := by
  intro line among
  obtain ⟨i, below, rfl⟩ := List.getElem_of_mem among
  have here := List.getElem?_eq_getElem below
  cases i with
  | zero =>
    have head := h.head
    rw [List.head?_eq_getElem?, here] at head
    rw [Option.some.inj head]
    exact avoids_append.2 ⟨name, by decide⟩
  | succ i =>
    obtain ⟨ticks, line⟩ := h.block i (by rw [h.length] at below; omega)
    have number := avoids_nat newline_foreign
    rw [Option.some.inj (here.symm.trans line)]
    simp only [avoids_append, number, and_true]
    decide

/-- The sections of a command: one for each kernel if copies are traced. -/
def Command.Sections (kernels : List (Kernel m)) : Command → List (List String) → Prop
  | .memcpy blocks true _, sections => List.Forall₂ (Section blocks) kernels sections
  | _, sections => sections = []

theorem Command.sections_of_traced {c : Command} {kernels : List (Kernel m)}
    {traces : List BlockTrace} (h : c.Traced kernels traces) : c.Sections kernels
      (traces.map fun t => (t.kernel ++ ":") :: t.samples.map sampleLine) := by
  cases c with
  | memcpy blocks trace =>
    cases trace with
    | true => exact List.forall₂_map_right_iff.2 (List.Forall₂.imp (fun _ _ => section_of_covers) h)
    | false => exact List.map_eq_nil_iff.2 h
  | _ => exact List.map_eq_nil_iff.2 h

theorem Command.Sections.single {c : Command} {kernels : List (Kernel m)}
    {sections : List (List String)} (h : c.Sections kernels sections)
    (names : ∀ k ∈ kernels, Avoids '\n' k.name) : ∀ line ∈ sections.flatten, Avoids '\n' line := by
  have none (h : sections = []) : ∀ line ∈ sections.flatten, Avoids '\n' line := by
    rw [h]
    exact nofun
  cases c with
  | memcpy blocks trace =>
    cases trace with
    | true =>
      intro line among
      obtain ⟨lines, here, among⟩ := List.mem_flatten.1 among
      obtain ⟨k, hk, section_⟩ := forall₂_mem_right h here
      exact section_.single (names k hk) line among
    | false => exact none h
  | _ => exact none h

/-- The line of a measurement, by the command that has made it. -/
def Command.Line : Command → Measurement → String → Prop
  | .cache .. | .sweep .. => CacheLine
  | .memcpy .. | .matmul .. | .vectorAdd .. => PlainLine

theorem Command.line_written (c : Command) (m : Measurement) :
    c.Line m (line c.isCacheSweep m) := by
  cases c with
  | cache => exact cacheLine_written m
  | sweep => exact cacheLine_written m
  | _ => exact measurementLine_written m

/-! ## Lines of a report -/

theorem builtin_names_avoid [Monad m] {c : Char} (hc : c = 'F' ∨ c = '\n') :
    ∀ k ∈ (builtinKernels : List (Kernel m)), Avoids c k.name := by
  have names : (builtinKernels : List (Kernel m)).map (·.name)
      = (builtinKernels : List (Kernel Id)).map (·.name) := rfl
  have all : ∀ name ∈ (builtinKernels : List (Kernel Id)).map (·.name), Avoids c name := by
    rcases hc with rfl | rfl <;> decide
  intro k hk
  exact all k.name (names ▸ List.mem_map_of_mem hk)

theorem shape_text_avoids {c : Char} (hc : c = 'F' ∨ c = '\n') (s : Shape) : Avoids c s.text := by
  have number := avoids_nat (foreign_of hc)
  have letters : ∀ word ∈ ["x", "B", "KB"], Avoids c word := by
    rcases hc with rfl | rfl <;> decide
  simp only [List.forall_mem_cons] at letters
  unfold Shape.text
  split <;> simp only [avoids_append, number, letters, and_self]

section Lines

variable {source : TickSource (StateM σ)} {i : Invocation} {kernels : List (Kernel (StateM σ))}
  {r : Report} (h : Reports source i kernels r)
include h

theorem Reports.length_eq :
    r.measurements.length = i.command.request.sizes.length * kernels.length := by
  rw [← h.measurements.length_eq]
  simp [List.length_flatMap]

variable (builtin : ∀ k ∈ kernels, k ∈ builtinKernels)
include builtin

theorem Reports.avoids {c : Char} (hc : c = 'F' ∨ c = '\n') :
    ∀ m ∈ r.measurements, Avoids c m.kernel ∧ Avoids c m.shape := by
  intro m hm
  obtain ⟨_, among, heading⟩ := forall₂_mem_right h.measurements hm
  obtain ⟨size, -, among⟩ := List.mem_flatMap.1 among
  obtain ⟨k, hk, rfl⟩ := List.mem_map.1 among
  rw [heading.kernel, heading.shape]
  exact ⟨builtin_names_avoid hc k (builtin k hk), shape_text_avoids hc _⟩

/-- The lines and the sections that a report is written in, and what its closing line says. -/
structure Shows (c : Command) (kernels : List (Kernel m)) (r : Report) (lines : List String)
    (sections : List (List String)) : Prop where
  measurements : List.Forall₂ c.Line r.measurements lines
  length : lines.length = c.request.sizes.length * kernels.length
  traces : c.Sections kernels sections
  single : ∀ line ∈ lines ++ sections.flatten, Avoids '\n' line
  summary : r.summary = toString (c.request.sizes.length * kernels.length) ++ " measurements, "
    ++ (if lines.countP (decide <| CarriesFailure ·) = 0 then "all verified"
      else toString (lines.countP (decide <| CarriesFailure ·)) ++ " failed verification")
    ++ " (" ++ r.timer ++ " timer)"

theorem Reports.shows : ∃ lines sections, Shows i.command kernels r lines sections ∧
    reportLines i.command r = lines ++ sections.flatten ++ [r.summary] := by
  let sections := r.blockTrace.map fun t => (t.kernel ++ ":") :: t.samples.map sampleLine
  have traced : i.command.Sections kernels sections := Command.sections_of_traced h.traces
  refine ⟨r.measurements.map (line i.command.isCacheSweep), sections,
    ⟨?_, ?_, traced, ?_, ?_⟩, ?_⟩
  · exact List.forall₂_map_right_iff.2 (List.forall₂_same.2 fun m _ => i.command.line_written m)
  · rw [List.length_map, h.length_eq]
  · refine List.forall_mem_append.2 ⟨List.forall_mem_map.2 fun m hm => ?_, ?_⟩
    · obtain ⟨name, shape⟩ := h.avoids builtin (.inr rfl) m hm
      exact line_single name shape (h.verdicts m hm) _
    · exact traced.single fun k hk => builtin_names_avoid (.inr rfl) k (builtin k hk)
  · rw [failures_eq _ (h.avoids builtin (.inl rfl)), ← h.length_eq]
    rfl
  · rw [reportLines, List.flatMap_def]
    rfl

end Lines

/-! ## What a command that succeeds has written -/

section Written

variable (a : Supply) (source : TickSource (StateM σ)) {i : Invocation} (text : String) (s : σ)
  (returned : (execute a source i text s).1.1 = .ok ())
include returned

theorem known_of_returned : i.command.unknown? = none := by
  cases known : i.command.unknown? with
  | none => rfl
  | some name =>
    rw [execute_eq, known] at returned
    cases returned

/-- The sweep of a command that succeeds has visited all sizes with its selection. -/
theorem sweep_of_returned : ∃ reference others points,
    (i.runner source).registry.kernels = reference :: others ∧
      List.Forall₂ (Visited ⟨a, ⟨source, none⟩, i.config, .silent⟩ reference others)
        i.config.sizes points ∧
      ((i.runner source).sweep a i.config .silent s).1.1 = .ok (points.flatMap Point.records) ∧
      (i.runner source).journal a i.config .silent s = points.flatMap Point.entries := by
  have known := known_of_returned a source text s returned
  obtain ⟨reference, others, lineup, kernels⟩ :=
    builtin_lineup (m := StateM σ) i.config.capability i.command.kernels
  obtain ⟨found, candidates⟩ := lineup_iff.1 lineup
  obtain ⟨ms, swept, -⟩ | ⟨before, size, after, failure, sizes, stopped, -, first⟩ :=
    silent_ends (i.runner source) a i.config s found
  · obtain ⟨_, points, here, visits, rfl, wrote⟩ :=
      (i.runner source).sweep_ok a i.config Observer.silent_agrees s swept
    obtain rfl := Option.some.inj (found.symm.trans here)
    exact ⟨reference, others, points, kernels, candidates ▸ visits, swept, wrote⟩
  · obtain ⟨s', out⟩ := execute_stopped a source known text s sizes stopped first
    rw [out] at returned
    cases returned

end Written

section Visits

variable {a : Supply} {source : TickSource (StateM σ)} {i : Invocation}
  {reference : Kernel (StateM σ)} {others : List (Kernel (StateM σ))}
  {points : List (Point (StateM σ))}
  (selects : i.command.Selects (reference :: others))
  (visits : List.Forall₂ (Visited ⟨a, ⟨source, none⟩, i.config, .silent⟩ reference others)
    i.config.sizes points) (x : σ)
include selects

theorem Command.Selects.members : ∀ k ∈ reference :: others,
    k ∈ builtinKernels ∧ k.capability = i.config.capability := by
  intro k hk
  obtain ⟨builtin, capability, -⟩ := (selects.mem k).1 hk
  exact ⟨builtin, capability.trans i.command.config_capability.symm⟩

include visits x

theorem reports_of_visits {traces : List BlockTrace}
    (traced : i.command.Traced (reference :: others) traces) :
    Reports source i (reference :: others)
      { Report.ofSource i.config.capability source (points.flatMap Point.records) with
        blockTrace := traces } where
  capability := i.command.config_capability
  clock := ⟨rfl, rfl, rfl⟩
  measurements := by
    rw [← i.command.config_sizes]
    let setup : Setup (StateM σ) := ⟨a, ⟨source, none⟩, i.config, .silent⟩
    have members : ∀ k ∈ reference :: others,
      k ∈ builtinKernels ∧ k.capability = setup.config.capability := selects.members
    have due : i.config.due (reference :: others)
        = fun size => (reference :: others).map (·, size) := by
      funext size
      rw [Config.due]
      exact congrArg _ (List.filter_eq_self.2 (builtin_supports_shapeFor members size))
    exact due ▸ tour_records visits
  verdicts := by
    intro m hm
    obtain ⟨p, hp, hm⟩ := List.mem_flatMap.1 hm
    obtain ⟨t, ht, rfl⟩ := List.mem_map.1 hm
    obtain ⟨_, -, visited⟩ := forall₂_mem_right visits hp
    obtain ⟨_, -, -, -, left⟩ := visited.leaves x selects.members
    exact (left t ht).2.2
  traces := traced

/-- What is printed while a command visits its sizes. -/
theorem prints_of_visits : ∃ lines, Prints a (reference :: others) i.command lines ∧
    { i with json := false }.shown (points.flatMap Point.hooks) = unlines lines := by
  unfold Invocation.shown Invocation.prints
  cases prints : i.command.prints with
  | false => exact ⟨[], .silent prints, rfl⟩
  | true =>
    obtain ⟨size, single⟩ := Command.prints_sizes prints
    have sizes : i.config.sizes = [size] := single
    rw [sizes] at visits
    obtain ⟨p, rest, visited, none, rfl⟩ := List.forall₂_cons_left_iff.1 visits
    obtain rfl := List.forall₂_nil_left_iff.1 none
    obtain ⟨out, holds, runs, kernels, left⟩ := visited.leaves x selects.members
    have written := Point.printed kernels fun t ht => ⟨(left t ht).1, (left t ht).2.1⟩
    rw [List.flatMap_singleton]
    simp only [Bool.not_false, Bool.and_self, if_true]
    rw [written]
    exact prints_of_left holds runs prints single visited.1

end Visits

/-- A command that succeeds has measured its selection at every size in the order of the sizes, and
at each size in the order of the registration. Before its report stands what it prints of its
buffers: of matrices, those multiplied and then the product that each kernel left, of vectors the
sums that each kernel left. The report has a line for every measurement and, if copies are traced, a
section for every kernel. Its closing line counts the measurements and those lines among them that
carry a failure. As a document it is the same report, with the same measurements, and nothing is
printed before it. -/
theorem report_structure (a : Supply) (source : TickSource (StateM σ)) {i : Invocation}
    (text : String) (s : σ) (returned : (execute a source i text s).1.1 = .ok ()) :
    ∃ kernels printed report lines sections,
      i.command.Selects kernels ∧ Prints a kernels i.command printed ∧
      Reports source i kernels report ∧ Shows i.command kernels report lines sections ∧
      (∀ line ∈ printed, Avoids '\n' line) ∧
      (execute a source { i with json := false } text s).1
        = (.ok (), text ++ String.join
            ((printed ++ lines ++ sections.flatten ++ [report.summary]).map (· ++ "\n"))) ∧
      (execute a source { i with json := true } text s).1
        = (.ok (), text ++ Codec.reportText report ++ "\n") := by
  have known := known_of_returned a source text s returned
  obtain ⟨reference, others, points, kernels, visits, swept, wrote⟩ :=
    sweep_of_returned a source text s returned
  have selects : i.command.Selects (reference :: others) := by
    have selects : i.command.Selects (m := StateM σ) _ := i.command.selects
    rw [← i.command.config_capability, ← i.command.kernels_eq] at selects
    exact kernels ▸ selects
  -- The sweep and the traces are the same however the report is written.
  obtain ⟨traces, s', traced, ends⟩ :=
    execute_returned a source known s swept (tour_generates visits)
  rw [kernels] at traced
  rw [wrote, points_hooks] at ends
  have reports := reports_of_visits selects visits s traced
  have builtin (k) (hk : k ∈ reference :: others) := (selects.members k hk).1
  obtain ⟨printed, prints, shown⟩ := prints_of_visits selects visits s
  obtain ⟨lines, sections, shows, same⟩ := reports.shows builtin
  refine ⟨reference :: others, printed, _, lines, sections, selects, prints, reports, shows,
    prints.single fun k hk => builtin_names_avoid (.inr rfl) k (builtin k hk), ?_, ?_⟩
  · rw [ends false text, shown]
    show (_, text ++ unlines printed ++ unlines (reportLines i.command _)) = (_, text ++ unlines _)
    rw [same]
    simp only [unlines_append, String.append_assoc]
  · rw [ends true text, Invocation.shown, Invocation.prints, Bool.not_true, Bool.and_false]
    simp only [reportText, if_true, String.append_assoc]
    rfl

/-- A command line that is accepted succeeds if its kernels are known and its sizes fit. -/
theorem returned_of_parse {a : Supply} (source : TickSource (StateM σ)) {args : List String}
    {i : Invocation} (parsed : parse args = .ok i) (known : i.command.Known)
    (fits : i.command.Fits a) (s : σ) : (execute a source i "" s).1.1 = .ok () := by
  obtain ⟨unknown, -⟩ | ⟨-, large, -⟩ | ⟨-, -, done⟩ :=
    execute_ends a source (parse_admitted parsed) "" s
  · exact absurd known unknown
  · exact absurd fits large
  · exact done

section Shown

open Simulation

/-- What a kernel leaves on a workload, seen in some way. -/
theorem left_seen {β : Type} (view : Buffer → β) {k : Kernel (StateM Bench)} {a : Supply}
    {fill : Fill} {shape : Shape} {w : Workload} {out : Buffer}
    (generated : Workload.generate a fill shape = .ok w)
    (left : k.run w.inputs w.output = pure (.ok (), out)) :
    (Workload.generate a fill shape).toOption.map
      (fun w => view (k.run w.inputs w.output {}).1.2) = some (view out) := by
  rw [generated]
  show some (view (k.run w.inputs w.output {}).1.2) = _
  rw [left]
  rfl

/-- Vectors and matrices are printed kernel by kernel. A name that is given twice selects one
kernel, and its copies of two blocks are traced after those of the reference. -/
theorem report_structure_shown :
    let clock : TickSource (StateM Bench) := source "bench" .cycle 1 64
    (∃ i lines summary, parse ["vector-add", "2", "--print"] = .ok i ∧ lines.length = 3 ∧
      (execute .machine clock i "" {}).1 = (.ok (), String.join
        ((["Using vadd-reference:", "0", "2", "Using vadd-unrolled:", "0", "2",
          "Using vadd-simd:", "0", "2"] ++ lines ++ [summary]).map (· ++ "\n")))) ∧
    (∃ i lines summary, parse ["matmul", "2", "--print", "--kernel", "mm-blocked"] = .ok i ∧
      lines.length = 2 ∧
      (execute .machine clock i "" {}).1 = (.ok (), String.join
        ((["A =", "  0.00   1.00 ", "  2.00   3.00 ", "",
          "B =", "  0.00   1.00 ", "  2.00   3.00 ", "",
          "Using mm-reference, C =", "  2.00   3.00 ", "  6.00  11.00 ", "",
          "Using mm-blocked, C =", "  2.00   3.00 ", "  6.00  11.00 ", ""]
            ++ lines ++ [summary]).map (· ++ "\n")))) ∧
    ∃ i lines sections summary,
      parse ["memcpy", "2", "--trace", "--kernel", "memcpy-simd", "--kernel", "memcpy-simd"]
        = .ok i ∧ lines.length = 2 ∧
      List.Forall₂ (Section 2)
        ([MemoryCopy.reference, MemoryCopy.simd] : List (Kernel (StateM Bench))) sections ∧
      (execute .machine clock i "" {}).1
        = (.ok (), String.join ((lines ++ sections.flatten ++ [summary]).map (· ++ "\n"))) := by
  intro clock
  refine ⟨?_, ?_, ?_⟩
  · have parsed : parse ["vector-add", "2", "--print"]
        = .ok ⟨false, false, 1, .vectorAdd 2 true []⟩ := by
      decide +kernel
    have known : (Command.vectorAdd 2 true []).Known := nofun
    have fits : (Command.vectorAdd 2 true []).Fits .machine :=
      List.forall_mem_singleton.2 ⟨by decide, by decide⟩
    obtain ⟨_, printed, report, lines, sections, selects, prints, -, shows, -, written, -⟩ :=
      report_structure .machine clock "" {} (returned_of_parse clock parsed known fits {})
    let kernels : List (Kernel (StateM Bench)) :=
      [VectorAdd.reference, VectorAdd.unrolled, VectorAdd.simd]
    obtain rfl : kernels = _ := selects.unordered [] fun _ => Iff.rfl
    obtain rfl : sections = [] := shows.traces
    cases prints with
    | @columns _ _ w sums generated left =>
      have seen := left_seen Buffer.i16? generated (left _ List.mem_cons_self)
      have sum : (Workload.generate .machine .sequential ⟨.vectorAdd, 2, 0⟩).toOption.map (fun w =>
          ((VectorAdd.reference : Kernel (StateM Bench)).run w.inputs w.output {}).1.2.i16?)
            = some (some #[0, 2]) := by
        decide +kernel
      obtain rfl : sums = #[0, 2] := Option.some.inj (Option.some.inj (seen.symm.trans sum))
      have printed : (kernels.flatMap fun k => ("Using " ++ k.name ++ ":")
          :: (#[0, 2] : Array Int16).toList.map fun x => toString x.toInt)
            = ["Using vadd-reference:", "0", "2", "Using vadd-unrolled:", "0", "2",
              "Using vadd-simd:", "0", "2"] := by
        decide +kernel
      rw [printed, List.flatten_nil, List.append_nil, String.empty_append] at written
      exact ⟨_, lines, report.summary, parsed, shows.length, written⟩
  · have parsed : parse ["matmul", "2", "--print", "--kernel", "mm-blocked"]
        = .ok ⟨false, false, 1, .matmul 2 none true ["mm-blocked"]⟩ := by
      decide +kernel
    have known : (Command.matmul 2 none true ["mm-blocked"]).Known :=
      Command.unknown?_eq_none.1 (by decide)
    have fits : (Command.matmul 2 none true ["mm-blocked"]).Fits .machine :=
      List.forall_mem_singleton.2 ⟨by decide, by decide⟩
    obtain ⟨_, printed, report, lines, sections, selects, prints, -, shows, -, written, -⟩ :=
      report_structure .machine clock "" {} (returned_of_parse clock parsed known fits {})
    let kernels : List (Kernel (StateM Bench)) :=
      [MatrixMultiply.reference, MatrixMultiply.blocked ⟨32, 64, 32⟩]
    obtain rfl : kernels = _ := selects.unordered ["mm-blocked"] fun _ => Iff.rfl
    obtain rfl : sections = [] := shows.traces
    cases prints with
    | @grids _ _ _ w lhs rhs product A B C generated inputs left first second last =>
      have generated : Workload.generate .machine .sequential ⟨.matrixMultiply, 2, 0⟩ = .ok w :=
        generated
      have seen := left_seen (fun b => b.f32?.map (gridLines 2)) generated
        (left _ List.mem_cons_self)
      have grids : (Workload.generate .machine .sequential ⟨.matrixMultiply, 2, 0⟩).toOption.map
          (fun w => w.inputs.buffers.map fun b => b.f32?.map (gridLines 2))
            = some [some ["  0.00   1.00 ", "  2.00   3.00 ", ""],
              some ["  0.00   1.00 ", "  2.00   3.00 ", ""]] := by
        decide +kernel
      have grid : (Workload.generate .machine .sequential ⟨.matrixMultiply, 2, 0⟩).toOption.map
          (fun w => ((MatrixMultiply.reference : Kernel (StateM Bench)).run w.inputs
            w.output {}).1.2.f32?.map (gridLines 2))
            = some (some ["  2.00   3.00 ", "  6.00  11.00 ", ""]) := by
        decide +kernel
      rw [generated] at grids
      replace grids := Option.some.inj grids
      dsimp only at grids
      rw [inputs] at grids
      have A_lines : A = _ := first.eq_gridLines.trans (Option.some.inj (List.cons.inj grids).1)
      have B_lines : B = _ := second.eq_gridLines.trans
        (Option.some.inj (List.cons.inj (List.cons.inj grids).2).1)
      have C_lines : C = _ := last.eq_gridLines.trans
        (Option.some.inj (Option.some.inj (seen.symm.trans grid)))
      rw [A_lines, B_lines, C_lines, List.flatten_nil, List.append_nil, String.empty_append]
        at written
      exact ⟨_, lines, report.summary, parsed, shows.length, written⟩
  · have parsed : parse ["memcpy", "2", "--trace", "--kernel", "memcpy-simd", "--kernel",
        "memcpy-simd"] = .ok ⟨false, false, 1, .memcpy 2 true ["memcpy-simd", "memcpy-simd"]⟩ := by
      decide +kernel
    have known : (Command.memcpy 2 true ["memcpy-simd", "memcpy-simd"]).Known :=
      Command.unknown?_eq_none.1 (by decide)
    have fits : (Command.memcpy 2 true ["memcpy-simd", "memcpy-simd"]).Fits .machine :=
      List.forall_mem_singleton.2 ⟨by decide, by decide⟩
    obtain ⟨_, printed, report, lines, sections, selects, prints, -, shows, -, written, -⟩ :=
      report_structure .machine clock "" {} (returned_of_parse clock parsed known fits {})
    let kernels : List (Kernel (StateM Bench)) := [MemoryCopy.reference, MemoryCopy.simd]
    obtain rfl : kernels = _ := selects.unordered ["memcpy-simd"] (by simp [Command.request])
    obtain rfl : printed = [] := by cases prints; rfl
    exact ⟨_, lines, sections, report.summary, parsed, shows.length, shows.traces, written⟩

end Shown

end Microbench.CommandLine
