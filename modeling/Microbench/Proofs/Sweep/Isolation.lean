import Microbench.Proofs.Sweep.Order
import Microbench.Simulation.Bench
import Microbench.Sweep.BlockCopies

/-!
# Kernels without state are judged alone

A steady kernel answers by its inputs and its output alone and leaves an output of the type and
length it was given. In a sweep of steady kernels every run starts from the workload as it was
generated: the output is zeroed before each run, and no earlier run has changed its type or
length. So a verdict is that of one run of the kernel and one of the reference.

Two sweeps are compared. The long one stands at the end of any history of its runner; the short
one has a new runner, the reference and one more kernel, one size and one iteration.

Results:

* `Trials.answer_eq`: any number of trials of a steady kernel ends like its first.
* `Visited.verdicts`: the verdicts of a point, from one answer of each kernel.
* `sweep_isolated`: every verdict of the long sweep is that of a short one.
-/
namespace Microbench

open Sweep

variable {σ : Type}

/-! ## Steady kernels -/

structure Kernel.Steady (k : Kernel (StateM σ)) : Prop where
  /-- The state is neither read nor changed. -/
  stateless : ∃ f : Inputs → Buffer → Except Failure Unit × Buffer,
    ∀ inputs output, k.run inputs output = pure (f inputs output)
  /-- Whether it succeeds or fails. -/
  keeps : ∀ inputs output s, (k.run inputs output s).1.2.elementType = output.elementType ∧
    (k.run inputs output s).1.2.size = output.size

namespace Kernel

/-- What the kernel answers to a workload, and the output it leaves. -/
def answer (k : Kernel (StateM σ)) (s : σ) (w : Workload) : Except Failure Unit × Buffer :=
  (k.run w.inputs w.output s).1

theorem Steady.gives {k : Kernel (StateM σ)} (h : k.Steady) {inputs : Inputs} {output : Buffer}
    {out : Except Failure Unit × Buffer} (given : Gives (k.run inputs output) out) (s : σ) :
    (k.run inputs output s).1 = out := by
  obtain ⟨f, hf⟩ := h.stateless
  obtain ⟨s', rfl⟩ := given
  rw [hf]
  rfl

theorem ofOperation_steady (name : String) (capability : Capability) (variant : Variant)
    {operation : Inputs → Buffer → Except Failure Buffer} (blockCopy : Option BlockCopy)
    (keeps : ∀ inputs output result, operation inputs output = .ok result →
      result.elementType = output.elementType ∧ result.size = output.size) :
    (ofOperation name capability variant operation blockCopy : Kernel (StateM σ)).Steady where
  stateless := ⟨applied operation, fun _ _ => rfl⟩
  keeps inputs output s := by
    show (applied operation inputs output).2.elementType = _ ∧
      (applied operation inputs output).2.size = _
    unfold applied
    split
    · next result ok => exact keeps inputs output result ok
    · exact ⟨rfl, rfl⟩

end Kernel

theorem Buffer.reset_congr {b b' : Buffer} (type : b.elementType = b'.elementType)
    (size : b.size = b'.size) : b.reset = b'.reset := by
  rw [reset, reset, type, size]

/-! ## Trials of a steady kernel -/

theorem Trials.answer_eq {source : TickSource (StateM σ)} {kernel : Kernel (StateM σ)}
    {inputs : Inputs} {n : Nat} {total : Elapsed} {output last : Buffer}
    {trials : List (Trial (StateM σ))} {outcome : Except Failure Elapsed}
    (steady : kernel.Steady) (s : σ) (hn : 0 < n)
    (h : Trials source kernel inputs n total output trials outcome last) :
    (kernel.run inputs output.reset s).1 = (outcome.map fun _ => (), last) := by
  induction h with
  | done => exact absurd hn (Nat.lt_irrefl 0)
  | failed run => exact steady.gives run s
  | @passed n _ output _ _ left _ _ _ run rest ih =>
    have answer := steady.gives run s
    obtain ⟨type, size⟩ := steady.keeps inputs output.reset s
    rw [answer] at type size
    -- The next run starts from the same zeroed output, since type and length are kept.
    have again : left.reset = output.reset :=
      Buffer.reset_congr (type.trans output.reset_elementType) (size.trans output.reset_size)
    cases n with
    | zero =>
      cases rest
      exact answer
    | succ n =>
      rw [← again]
      exact ih (Nat.succ_pos n)

/-- The workload holds its inputs and an output that zeroing makes the one it started with. -/
structure Workload.Fresh (generated w : Workload) : Prop where
  inputs : w.inputs = generated.inputs
  output : w.output.reset = generated.output

theorem Workload.generate_fresh {a : Supply} {fill : Fill} {shape : Shape} {w : Workload}
    (h : generate a fill shape = .ok w) : w.Fresh w := by
  obtain ⟨len, buffers, -, -, -, rfl⟩ := generate_holds h
  exact ⟨rfl, by rw [Buffer.reset, Buffer.zeros_elementType, Buffer.zeros_size]⟩

namespace Turn.Lawful

variable {s : Setup (StateM σ)} {judge : Buffer → Verdict} {generated w : Workload}
  {t : Turn (StateM σ)}

theorem answer_eq (h : t.Lawful s judge w) (steady : t.kernel.Steady) (fresh : generated.Fresh w)
    (x : σ) : t.kernel.answer x generated = (t.outcome.map fun _ => (), t.workload.output) := by
  have pos : 0 < max s.config.iterations 1 :=
    Nat.lt_of_lt_of_le Nat.zero_lt_one (Nat.le_max_right ..)
  have first := h.trials.answer_eq steady x pos
  rwa [fresh.inputs, fresh.output] at first

/-- A turn of a steady kernel leaves the workload as good as new. -/
theorem fresh (h : t.Lawful s judge w) (steady : t.kernel.Steady) (fresh : generated.Fresh w)
    (x : σ) : generated.Fresh t.workload := by
  obtain ⟨type, size⟩ := steady.keeps generated.inputs generated.output x
  have answer := h.answer_eq steady fresh x
  rw [Kernel.answer] at answer
  rw [answer] at type size
  refine ⟨h.inputs.trans fresh.inputs, ?_⟩
  rw [Buffer.reset_congr type size, ← fresh.output]
  exact Buffer.reset_congr w.output.reset_elementType w.output.reset_size

end Turn.Lawful

/-! ## Parts -/

/-- The part of a kernel in a sweep. -/
inductive Part (m : Type → Type) where
  | reference
  | candidate (kernel : Kernel m)

namespace Part

def kernel (reference : Kernel m) : Part m → Kernel m
  | .reference => reference
  | .candidate k => k

/-- A registry that holds nothing but the reference and the kernel of the part. -/
def registry (reference : Kernel m) : Part m → Registry m
  | .reference => ⟨[reference]⟩
  | .candidate k => ⟨[reference, k]⟩

end Part

/-- The parts taken at a shape. -/
def parts (reference : Kernel m) (candidates : List (Kernel m)) (shape : Shape) : List (Part m) :=
  (if reference.supports shape then [.reference] else [])
    ++ (candidates.filter (·.supports shape)).map .candidate

/-! ## Verdicts of a point -/

/-- The verdict on an answer. -/
def judged (judge : Buffer → Verdict) : Except Failure Unit × Buffer → Verdict
  | (.ok (), output) => judge output
  | (.error failure, _) => .rejected ("kernel error: " ++ failure.message)

/-- What an answer of the reference tells of the right output. -/
def told : Except Failure Unit × Buffer → Truth
  | (.ok (), output) => .known output
  | (.error _, _) => .lost

section Points

variable {s : Setup (StateM σ)} {judge : Buffer → Verdict} {generated w : Workload}
  {t : Turn (StateM σ)}

theorem Turn.Lawful.judged_eq (h : t.Lawful s judge w) (steady : t.kernel.Steady)
    (fresh : generated.Fresh w) (x : σ) :
    t.record.verdict = judged judge (t.kernel.answer x generated) := by
  rw [h.answer_eq steady fresh x, h.record]
  cases t.outcome <;> rfl

theorem Turn.Lawful.told_eq (h : t.Lawful s judge w) (steady : t.kernel.Steady)
    (fresh : generated.Fresh w) (x : σ) : t.truth = told (t.kernel.answer x generated) := by
  rw [h.answer_eq steady fresh x, Turn.truth]
  cases t.outcome <;> rfl

variable {reference : Kernel (StateM σ)} {candidates : List (Kernel (StateM σ))} {size : Nat}
  {p : Point (StateM σ)}

/-- What the reference alone tells of the right output for a workload. -/
def Kernel.truth (reference : Kernel (StateM σ)) (x : σ) (w : Workload) : Truth :=
  if reference.supports w.shape then told (reference.answer x w) else .absent

/-- The verdict on a kernel by its part, from one answer of it and one of the reference. -/
def Part.verdict (v : Verifier) (reference : Kernel (StateM σ)) (x : σ) (w : Workload) :
    Part (StateM σ) → Verdict
  | .reference => judged (fun _ => .passed 0) (reference.answer x w)
  | .candidate k => judged ((reference.truth x w).judge v) (k.answer x w)

/-- The turn is that of a part, with the verdict on it. -/
structure Turn.Plays (v : Verifier) (reference : Kernel (StateM σ)) (x : σ) (w : Workload)
    (part : Part (StateM σ)) (t : Turn (StateM σ)) : Prop where
  kernel : t.record.kernel = (part.kernel reference).name
  size : t.record.size = w.shape.size
  verdict : t.record.verdict = part.verdict v reference x w

/-- The verdicts of a point come from one answer of each kernel to the generated workload. -/
theorem Visited.plays (h : Visited s reference candidates size p)
    (steady : ∀ k ∈ reference :: candidates, k.Steady) (x : σ) :
    List.Forall₂ (Turn.Plays s.config.verifier reference x p.workload)
      (parts reference candidates p.workload.shape) p.turns := by
  obtain ⟨generate, visit⟩ := h
  have start := Workload.generate_fresh generate
  -- Each turn leaves the workload fresh, so every kernel meets it as it was generated.
  obtain ⟨first, later⟩ := visit.lawful (I := p.workload.Fresh) start
    fun _ _ t ht lawful fresh => lawful.fresh (steady t.kernel ht) fresh x
  refine List.rel_append ?_ ?_
  · cases hr : p.reference with
    | none => rw [if_neg (visit.reference_absent hr)]; exact .nil
    | some t =>
      obtain ⟨rfl, supports⟩ := visit.reference_taken hr
      have lawful := first t hr
      rw [if_pos supports]
      refine .cons ⟨?_, ?_, lawful.judged_eq (steady _ List.mem_cons_self) start x⟩ .nil
      · rw [lawful.record]; rfl
      · rw [lawful.record]; rfl
  · have truth : p.truth = reference.truth x p.workload := by
      cases hr : p.reference with
      | none => rw [Point.truth_none hr, Kernel.truth, if_neg (visit.reference_absent hr)]
      | some t =>
        obtain ⟨rfl, supports⟩ := visit.reference_taken hr
        rw [Point.truth_some hr, Kernel.truth, if_pos supports]
        exact (first t hr).told_eq (steady _ List.mem_cons_self) start x
    rw [← visit.candidates_kernel, List.map_map, List.forall₂_map_left_iff, List.forall₂_same]
    intro t ht
    obtain ⟨w, fresh, lawful⟩ := later t ht
    refine ⟨?_, ?_, ?_⟩
    · rw [lawful.record]; rfl
    · rw [lawful.record, Workload.shape, fresh.inputs]; rfl
    · have among := List.mem_map_of_mem (f := (·.kernel)) ht
      rw [visit.candidates_kernel] at among
      rw [truth] at lawful
      exact lawful.judged_eq (steady _ (List.mem_cons_of_mem _ (List.mem_filter.1 among).1)) fresh x

end Points

/-! ## Histories of a runner -/

inductive Operation (σ : Type) where
  | sweep (supply : Supply) (config : Config) (observer : Observer (StateM σ))
  | trace (kernel : Kernel (StateM σ)) (w : Workload)

namespace Runner

def perform (r : Runner (StateM σ)) : Operation σ → StateM σ (Runner (StateM σ))
  | .sweep a c o => do
    let (_, r) ← r.sweep a c o
    return r
  | .trace kernel w => do
    let (_, _, r) ← r.traceBlockCopies kernel w
    return r

/-- The runner after some operations, whatever came of them. -/
def after (r : Runner (StateM σ)) (past : List (Operation σ)) : StateM σ (Runner (StateM σ)) :=
  past.foldlM perform r

/-- A sweep leaves all of the runner but its phase alone. -/
theorem sweep_runner (r : Runner (StateM σ)) (a : Supply) (c : Config)
    (o : Observer (StateM σ)) (s : σ) : ∃ phase, (r.sweep a c o s).1.2 = { r with phase } := by
  cases hr : r.registry.referenceFor c.capability with
  | none => exact ⟨.idle, by rw [r.sweep_missing a c o hr]⟩
  | some reference =>
    obtain ⟨points, stop, -, out, -⟩ := r.sweep_records a c o hr s
    rw [out]
    cases stop <;> exact ⟨_, rfl⟩

theorem sweep_registry (r : Runner (StateM σ)) (a : Supply) (c : Config)
    (o : Observer (StateM σ)) (s : σ) : (r.sweep a c o s).1.2.registry = r.registry := by
  obtain ⟨phase, left⟩ := r.sweep_runner a c o s
  rw [left]

/-- A block trace leaves all of the runner but its timer alone. -/
theorem traceBlockCopies_runner (r : Runner (StateM σ)) (kernel : Kernel (StateM σ))
    (w : Workload) (s : σ) :
    ∃ timer, (r.traceBlockCopies kernel w s).1.2.2 = { r with timer } := by
  unfold traceBlockCopies
  split
  · exact ⟨r.timer, rfl⟩
  cases kernel.blockCopy with
  | none => exact ⟨r.timer, rfl⟩
  | some copy =>
    dsimp only
    cases MemoryCopy.operands w.resetOutput.inputs w.resetOutput.output with
    | error failure => exact ⟨r.timer, rfl⟩
    | ok o =>
      obtain ⟨⟨⟨result, timer⟩, s'⟩, traced⟩ : ∃ out, traceBlocks copy o.pairs 0 r.timer s = out :=
        ⟨_, rfl⟩
      refine ⟨timer, ?_⟩
      simp only [bind, StateT.bind, traced]
      cases result <;> rfl

theorem after_registry (r : Runner (StateM σ)) (past : List (Operation σ)) (s : σ) :
    (r.after past s).1.registry = r.registry := by
  induction past generalizing r s with
  | nil => rfl
  | cons operation past ih =>
    refine (ih (r.perform operation s).1 (r.perform operation s).2).trans ?_
    cases operation with
    | sweep a c o => exact r.sweep_registry a c o s
    | trace kernel w =>
      obtain ⟨timer, left⟩ := r.traceBlockCopies_runner kernel w s
      show (r.traceBlockCopies kernel w s).1.2.2.registry = r.registry
      rw [left]

end Runner

/-! ## Long and short sweeps -/

theorem Registry.Lineup.mem {g : Registry m} {c : Capability} {reference : Kernel m}
    {others : List (Kernel m)} (h : g.Lineup c reference others) :
    ∀ k ∈ reference :: others, k ∈ g.kernels ∧ k.capability = c := by
  obtain ⟨before, after, split, capability, -, -, rfl⟩ := h
  rw [split]
  intro k hk
  rcases List.mem_cons.1 hk with rfl | hk
  · exact ⟨by simp, capability⟩
  · rw [List.mem_filter, beq_iff_eq, List.mem_append] at hk
    exact ⟨by rw [List.mem_append, List.mem_cons]; tauto, hk.2⟩

/-- In the registry of a part its kernel stands last, and nothing stands beside the reference
otherwise. -/
theorem Part.lineup {g : Registry m} {c : Capability} {reference : Kernel m}
    {others : List (Kernel m)} {shape : Shape} {part : Part m}
    (h : g.Lineup c reference others) (hp : part ∈ parts reference others shape) :
    ∃ alone, (part.registry reference).Lineup c reference alone ∧
      (∀ k ∈ alone, k ∈ others) ∧ ∃ first, parts reference alone shape = first ++ [part] := by
  have variant : reference.variant = .reference := by
    obtain ⟨_, _, -, -, variant, -⟩ := h
    exact variant
  have capability := (h.mem reference List.mem_cons_self).2
  rw [parts, List.mem_append] at hp
  rcases hp with hp | hp
  · split at hp
    · next supports =>
      obtain rfl := List.mem_singleton.1 hp
      exact ⟨[], ⟨[], [], rfl, capability, variant, by simp, rfl⟩, by simp, [],
        by simp [parts, supports]⟩
    · cases hp
  · obtain ⟨k, hk, rfl⟩ := List.mem_map.1 hp
    obtain ⟨among, supports⟩ := List.mem_filter.1 hk
    have same := (h.mem k (List.mem_cons_of_mem _ among)).2
    exact ⟨[k], ⟨[], [k], rfl, capability, variant, by simp, by simp [same]⟩, by simpa,
      if reference.supports shape then [.reference] else [], by simp [parts, supports]⟩

/-- A configuration cut down to one size and one iteration. -/
def Sweep.Config.short (c : Config) (size : Nat) : Config :=
  { c with sizes := [size], iterations := 1 }

theorem Runner.sweep_short (r : Runner (StateM σ)) (a : Supply) (c : Config) {size : Nat}
    {w : Workload} {reference : Kernel (StateM σ)} {others : List (Kernel (StateM σ))}
    (lineup : r.registry.Lineup c.capability reference others)
    (generate : c.workload a size = .ok w) (s : σ) : ∃ p, p.workload = w ∧
      Visited ⟨a, r.timer, c.short size, .silent⟩ reference others size p ∧
      (r.sweep a (c.short size) .silent s).1.1 = .ok p.records := by
  obtain ⟨found, rfl⟩ := Registry.lineup_iff.1 lineup
  obtain ⟨points, stop, tour, out, -⟩ := r.sweep_tour a (c.short size) .silent found s
  have generate' : (c.short size).workload a size = .ok w := generate
  obtain ⟨rfl, visits⟩ := tour.completes Observer.silent_agrees
    (List.forall_mem_singleton.2 ⟨w, generate'⟩)
  cases visits with
  | cons visited rest =>
    cases rest
    refine ⟨_, Except.ok.inj (visited.1.symm.trans generate'), visited, ?_⟩
    rw [out, List.flatMap_cons, List.flatMap_nil, List.append_nil]
    rfl

/-- What is recorded of a part, with the verdict that a new runner gives it when it knows the
reference and the kernel of the part alone and sweeps one size with one iteration. -/
structure Measurement.Alone (a : Supply) (c : Config) (reference : Kernel (StateM σ))
    (due : Part (StateM σ) × Nat) (r : Measurement) : Prop where
  kernel : r.kernel = (due.1.kernel reference).name
  size : r.size = due.2
  verdict : ∀ (timer : Timer (StateM σ)) (s : σ), ∃ ms last,
    ((Runner.mk (due.1.registry reference) timer .idle).sweep a (c.short due.2) .silent s).1.1
      = .ok ms ∧
    ms.getLast? = some last ∧ last.kernel = r.kernel ∧ last.verdict = r.verdict

theorem forall₂_last {R : α → β → Prop} {first : List α} {a : α} {l : List β}
    (h : List.Forall₂ R (first ++ [a]) l) : ∃ b, l.getLast? = some b ∧ R a b := by
  rw [← List.forall₂_reverse_iff, List.reverse_concat, List.forall₂_cons_left_iff] at h
  obtain ⟨b, _, hb, -, reversed⟩ := h
  exact ⟨b, by rw [← List.head?_reverse, reversed]; rfl, hb⟩

theorem Visited.alone {s : Setup (StateM σ)} {g : Registry (StateM σ)}
    {reference : Kernel (StateM σ)} {others : List (Kernel (StateM σ))} {size : Nat}
    {p : Point (StateM σ)} (lineup : g.Lineup s.config.capability reference others)
    (steady : ∀ k ∈ reference :: others, k.Steady) (x : σ)
    (h : Visited s reference others size p) :
    List.Forall₂ (Measurement.Alone s.supply s.config reference)
      ((parts reference others (s.config.shapeFor size)).map (·, size)) p.records := by
  have shape := Workload.generate_shape h.1
  rw [← shape, Point.records, List.forall₂_map_left_iff, List.forall₂_map_right_iff]
  refine (List.forall₂_iff_zip.2 ⟨(h.plays steady x).length_eq, fun {part t} hz => ?_⟩)
  have here := (List.forall₂_iff_zip.1 (h.plays steady x)).2 hz
  -- The short sweep plays the same part last, with the same verdict.
  obtain ⟨alone, lineup', sub, first, last⟩ := Part.lineup lineup (List.of_mem_zip hz).1
  refine ⟨here.kernel, ?_, fun timer s' => ?_⟩
  · rw [here.size, shape, s.config.shapeFor_size]
  · obtain ⟨p', same, visited, out⟩ := (Runner.mk (part.registry reference) timer .idle).sweep_short
      s.supply s.config lineup' h.1 s'
    have steady' : ∀ k ∈ reference :: alone, k.Steady := by
      intro k hk
      rcases List.mem_cons.1 hk with rfl | hk
      · exact steady k List.mem_cons_self
      · exact steady k (List.mem_cons_of_mem _ (sub k hk))
    have plays := visited.plays steady' x
    rw [same, last] at plays
    obtain ⟨t', final, there⟩ := forall₂_last plays
    refine ⟨_, t'.record, out, ?_, there.kernel.trans here.kernel.symm,
      there.verdict.trans here.verdict.symm⟩
    rw [Point.records, List.getLast?_map, final]
    rfl

/-- After any history of its runner, a sweep of steady kernels gives each of them the verdict it
gets alone: neither the other candidates, nor the other sizes, nor the number of iterations have
a part in it. -/
theorem sweep_isolated (r : Runner (StateM σ)) (steady : ∀ k ∈ r.registry.kernels, k.Steady)
    (past : List (Operation σ)) (a : Supply) (c : Config) (s : σ) {ms : List Measurement}
    (h : ((r.after past >>= fun r => r.sweep a c .silent) s).1.1 = .ok ms) :
    ∃ reference others, r.registry.Lineup c.capability reference others ∧
      List.Forall₂ (Measurement.Alone a c reference)
        (c.sizes.flatMap fun size => (parts reference others (c.shapeFor size)).map (·, size))
        ms := by
  let now := r.after past s
  have swept : (now.1.sweep a c .silent now.2).1.1 = .ok ms := h
  have registry : now.1.registry = r.registry := r.after_registry past s
  obtain ⟨reference, points, found, visits, rfl, -⟩ :=
    now.1.sweep_ok a c Observer.silent_agrees now.2 swept
  have lineup := Registry.lineup_iff.2 ⟨found, rfl⟩
  rw [registry] at lineup visits
  refine ⟨reference, _, lineup, List.rel_flatMap visits fun size p visited => ?_⟩
  exact visited.alone lineup (fun k hk => steady k (lineup.mem k hk).1) s

section Spoilt

open Simulation

theorem addAt_keeps (index : Nat) (delta : Int) (b : Buffer) :
    (addAt index delta b).elementType = b.elementType ∧ (addAt index delta b).size = b.size := by
  cases b <;> exact ⟨rfl, Array.size_modify⟩

def counter : Kernel (StateM Bench) :=
  .ofOperation "counter" .vectorAdd .reference fun _ output => .ok (addAt 0 1 output)

theorem counter_steady : counter.Steady := by
  refine Kernel.ofOperation_steady _ _ _ _ ?_
  intro inputs output result ok
  cases ok
  exact addAt_keeps 0 1 output

/-- Counts twice, and at size two leaves its output dirty when it fails. -/
def spoiler : Kernel (StateM Bench) where
  name := "spoiler"
  capability := .vectorAdd
  variant := .simd
  supports _ := true
  run inputs output :=
    pure (if inputs.shape.size = 2 then .error (.reported "spoilt" []) else .ok (),
      addAt 0 2 output)
  blockCopy := none

theorem spoiler_steady : spoiler.Steady where
  stateless := ⟨_, fun _ _ => rfl⟩
  keeps _ output _ := addAt_keeps 0 2 output

def spoiltBench : Runner (StateM Bench) where
  registry := ⟨[spoiler, counter]⟩
  timer := ⟨source "bench" .cycle 1 64, none⟩

def spoiltConfig : Config where
  capability := .vectorAdd
  sizes := [1, 2, 1]
  iterations := 3

def spoiltPast : List (Operation Bench) :=
  [.sweep .machine { spoiltConfig with sizes := [2] } .silent,
    .trace spoiler ⟨⟨⟨.vectorAdd, 1, 0⟩, []⟩, .i16 #[]⟩]

theorem sweep_isolated_spoilt : ∃ ms,
    ((spoiltBench.after spoiltPast >>= fun r => r.sweep .machine spoiltConfig .silent) {}).1.1
      = .ok ms ∧
    ms.map (fun m => (m.kernel, m.size, m.passed)) = [("counter", 1, true), ("spoiler", 1, false),
      ("counter", 2, true), ("spoiler", 2, false), ("counter", 1, true), ("spoiler", 1, false)] ∧
    ∃ reference others, spoiltBench.registry.Lineup .vectorAdd reference others ∧
      List.Forall₂ (Measurement.Alone .machine spoiltConfig reference)
        ([1, 2, 1].flatMap fun size =>
          (parts reference others ⟨.vectorAdd, size, 0⟩).map (·, size)) ms := by
  have steady : ∀ k ∈ spoiltBench.registry.kernels, k.Steady := by
    intro k hk
    rcases List.mem_pair.1 hk with rfl | rfl
    · exact spoiler_steady
    · exact counter_steady
  have passed : (((spoiltBench.after spoiltPast >>= fun r =>
      r.sweep .machine spoiltConfig .silent) {}).1.1.toOption.map
        (·.map fun m => (m.kernel, m.size, m.passed)))
      = some [("counter", 1, true), ("spoiler", 1, false), ("counter", 2, true),
        ("spoiler", 2, false), ("counter", 1, true), ("spoiler", 1, false)] := by
    decide +kernel
  cases h : ((spoiltBench.after spoiltPast >>= fun r =>
      r.sweep .machine spoiltConfig .silent) {}).1.1 with
  | error failure => rw [h] at passed; cases passed
  | ok ms =>
    rw [h] at passed
    exact ⟨ms, rfl, Option.some.inj passed,
      sweep_isolated spoiltBench steady spoiltPast .machine spoiltConfig {} h⟩

end Spoilt

end Microbench
