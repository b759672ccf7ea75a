import Mathlib.Data.List.Induction
import Microbench.Proofs.Sweep.Isolation

/-!
# The phase that a history leaves

A sweep enters the phases of running and judging a kernel only to leave them again, so what is seen
of a runner between operations is one of four phases. Which one depends on the last sweep alone:
whether it found a reference, and where it was stopped if it was. A block trace changes nothing,
and a sweep that was stopped is no hindrance to the next.

Where a sweep was stopped is told by its journal. The observer stops a sweep by its answer, which is
then the last entry; if all its answers are good, a workload could not be generated.

Results:

* `Tour.ending`: how a tour ends, by its journal.
* `Runner.sweep_leaves`: the phase that one sweep leaves.
* `phase_of_history`: the phase after any operations on a new runner.
-/
namespace Microbench

open Sweep

variable {σ : Type}

/-! ## How a tour ends -/

/-- What the observer said to a call. -/
def Entry.answer? : Entry m → Option (Except Failure Unit)
  | .told _ answer => some answer
  | .heard _ _ answer => some answer
  | _ => none

/-- The observer has refused nothing. -/
def Journal.Accepted (journal : Journal m) : Prop :=
  ∀ entry ∈ journal, ∀ failure, entry.answer? ≠ some (.error failure)

namespace Journal

variable {front journal : Journal m} {entry : Entry m} {failure : Failure}

theorem accepted_append :
    Accepted (front ++ journal) ↔ Accepted front ∧ Accepted journal := List.forall_mem_append

theorem Accepted.last (h : Accepted journal) (last : journal.getLast? = some entry) :
    entry.answer? ≠ some (.error failure) := h entry (List.mem_of_getLast? last) failure

end Journal

theorem Turn.accepted {t : Turn m} (h : t.answer = .ok ()) : Journal.Accepted t.entries := by
  refine Journal.accepted_append.2 ⟨?_, ?_⟩
  · intro entry hentry
    obtain ⟨trial, -, member⟩ := List.mem_flatMap.1 hentry
    simp only [Trial.entries, List.mem_cons, List.not_mem_nil, or_false] at member
    rcases member with rfl | rfl | rfl <;> exact nofun
  · rw [Journal.Accepted, List.forall_mem_singleton, Entry.answer?, h]
    exact nofun

theorem Turn.entries_last (t : Turn m) :
    t.entries.getLast? = some (.heard t.record t.workload t.answer) := List.getLast?_concat

/-- How a sweep over some sizes ends once it has found its reference. -/
inductive Ending (s : Setup m) (sizes : List Nat) (journal : Journal m) : Stop → Prop where
  | completed (generates : ∀ size ∈ sizes, ∃ w, s.config.workload s.supply size = .ok w)
      (accepted : journal.Accepted) : Ending s sizes journal none
  | ungenerated {before size after failure} (split : sizes = before ++ size :: after)
      (generates : ∀ size ∈ before, ∃ w, s.config.workload s.supply size = .ok w)
      (fails : s.config.workload s.supply size = .error failure)
      (accepted : journal.Accepted) :
      Ending s sizes journal (some (failure, .generatingWorkload))
  | untold {w failure} (last : journal.getLast? = some (.told w (.error failure))) :
      Ending s sizes journal (some (failure, .generatingWorkload))
  | unheard {record w failure} (last : journal.getLast? = some (.heard record w (.error failure))) :
      Ending s sizes journal (some (failure, .recording))

section Tours

variable {s : Setup (StateM σ)} {reference : Kernel (StateM σ)}
  {candidates kernels : List (Kernel (StateM σ))} {w : Workload} {truth : Truth}
  {turns : List (Turn (StateM σ))} {p : Point (StateM σ)}

theorem Turns.accepted (h : Turns s truth kernels w turns none) :
    Journal.Accepted (turns.flatMap Turn.entries) := by
  generalize hstop : (none : Option Failure) = stop at h
  induction h with
  | done => exact fun _ h => nomatch h
  | declined _ _ ih => exact ih hstop
  | refused => cases hstop
  | taken _ _ answer _ ih => exact Journal.accepted_append.2 ⟨Turn.accepted answer, ih hstop⟩

theorem Turns.unheard {failure : Failure} (h : Turns s truth kernels w turns (some failure)) :
    ∃ record left,
      (turns.flatMap Turn.entries).getLast? = some (.heard record left (.error failure)) := by
  generalize hstop : some failure = stop at h
  induction h with
  | done => cases hstop
  | declined _ _ ih => exact ih hstop
  | @refused _ _ _ turn _ _ answer =>
    cases hstop
    refine ⟨turn.record, turn.workload, ?_⟩
    rw [List.flatMap_cons, List.flatMap_nil, List.append_nil, turn.entries_last, answer]
  | taken _ _ _ _ ih =>
    obtain ⟨record, left, last⟩ := ih hstop
    exact ⟨record, left, by rw [List.flatMap_cons, List.getLast?_append, last]; rfl⟩

theorem Visit.accepted (h : Visit s reference candidates w p none) :
    Journal.Accepted p.entries := by
  generalize hstop : (none : Stop) = stop at h
  cases h with
  | untold => cases hstop
  | refused => cases hstop
  | @referred turn turns stop _ _ _ _ answer rest =>
    obtain rfl := Option.map_eq_none_iff.1 hstop.symm
    exact List.forall_mem_cons.2 ⟨nofun,
      Journal.accepted_append.2 ⟨Turn.accepted answer, rest.accepted⟩⟩
  | @declined turns stop _ _ rest =>
    obtain rfl := Option.map_eq_none_iff.1 hstop.symm
    exact List.forall_mem_cons.2 ⟨nofun, rest.accepted⟩

/-- What stops a visit is the answer to the last call of the observer. -/
theorem Visit.ending {stop : Failure × Phase} {sizes : List Nat}
    (h : Visit s reference candidates w p (some stop)) : Ending s sizes p.entries (some stop) := by
  generalize hstop : some stop = stop' at h
  cases h with
  | untold => exact .untold rfl
  | @refused turn failure _ _ _ _ answer =>
    refine .unheard (?_ : _ = some (Entry.heard turn.record turn.workload (.error failure)))
    rw [Point.entries, Point.turns, List.append_nil, Option.toList_some, List.flatMap_singleton,
      List.getLast?_cons, turn.entries_last, answer]
    rfl
  | @referred turn turns stop _ _ _ _ answer rest =>
    obtain ⟨failure, rfl, rfl⟩ := Option.map_eq_some_iff.1 hstop.symm
    obtain ⟨record, left, last⟩ := rest.unheard
    refine .unheard (?_ : _ = some (Entry.heard record left (.error failure)))
    rw [Point.entries, Point.turns, Option.toList_some, List.singleton_append, List.flatMap_cons,
      List.getLast?_cons, List.getLast?_append, last]
    rfl
  | @declined turns stop _ _ rest =>
    obtain ⟨failure, rfl, rfl⟩ := Option.map_eq_some_iff.1 hstop.symm
    obtain ⟨record, left, last⟩ := rest.unheard
    refine .unheard (?_ : _ = some (Entry.heard record left (.error failure)))
    rw [Point.entries, Point.turns, Option.toList_none, List.nil_append, List.getLast?_cons, last]
    rfl

/-- A size that is visited to its end comes before any other ending. -/
theorem Ending.cons {size : Nat} {sizes : List Nat} {front journal : Journal (StateM σ)}
    {stop : Stop} (generate : s.config.workload s.supply size = .ok w)
    (accepted : front.Accepted) (h : Ending s sizes journal stop) :
    Ending s (size :: sizes) (front ++ journal) stop := by
  cases h with
  | completed generates rest =>
    exact .completed (List.forall_mem_cons.2 ⟨⟨w, generate⟩, generates⟩)
      (Journal.accepted_append.2 ⟨accepted, rest⟩)
  | @ungenerated before _ after _ split generates fails rest =>
    exact .ungenerated (by rw [split, List.cons_append])
      (List.forall_mem_cons.2 ⟨⟨w, generate⟩, generates⟩) fails
      (Journal.accepted_append.2 ⟨accepted, rest⟩)
  | untold last => exact .untold (by rw [List.getLast?_append, last]; rfl)
  | unheard last => exact .unheard (by rw [List.getLast?_append, last]; rfl)

theorem Tour.ending {sizes : List Nat} {points : List (Point (StateM σ))} {stop : Stop}
    (h : Tour s reference candidates sizes points stop) :
    Ending s sizes (points.flatMap Point.entries) stop := by
  induction h with
  | done => exact .completed (by simp) fun _ h => nomatch h
  | ungenerated generate =>
    exact .ungenerated (List.nil_append _).symm (by simp) generate fun _ h => nomatch h
  | stopped _ visit =>
    rw [List.flatMap_singleton]
    exact visit.ending
  | visited generate visit _ ih => exact ih.cons generate visit.accepted

end Tours

/-! ## What one sweep leaves -/

/-- The first workload that could not be generated ended the sweep, and the observer did not. -/
def Ungenerated (a : Supply) (c : Config) (result : Except Failure (List Measurement))
    (journal : Journal m) : Prop :=
  ∃ before size after failure, c.sizes = before ++ size :: after ∧
    (∀ earlier ∈ before, ∃ w, c.workload a earlier = .ok w) ∧
    c.workload a size = .error failure ∧ result = .error failure ∧ journal.Accepted

/-- The answer to a call about a workload ended the sweep. -/
def Untold (result : Except Failure (List Measurement)) (journal : Journal m) : Prop :=
  ∃ w failure, journal.getLast? = some (.told w (.error failure)) ∧ result = .error failure

/-- The answer to a call about a measurement ended the sweep. -/
def Unheard (result : Except Failure (List Measurement)) (journal : Journal m) : Prop :=
  ∃ record w failure, journal.getLast? = some (.heard record w (.error failure)) ∧
    result = .error failure

/-- The phase that a sweep leaves, by its result and its journal. -/
structure Leaves (g : Registry m) (a : Supply) (c : Config)
    (result : Except Failure (List Measurement)) (journal : Journal m) (phase : Phase) :
    Prop where
  idle : phase = .idle ↔
    (∀ k ∈ g.kernels, k.capability = c.capability → k.variant ≠ .reference) ∧
      result = .error (.missingReference c.capability)
  generating : phase = .generatingWorkload ↔
    Ungenerated a c result journal ∨ Untold result journal
  recording : phase = .recording ↔ Unheard result journal
  done : phase = .done ↔ ∃ ms, result = .ok ms
  settled : phase ≠ .executingKernel ∧ phase ≠ .verifying

section Leaves

variable {g : Registry m} {a : Supply} {c : Config} {journal : Journal m} {failure : Failure}
  {result : Except Failure (List Measurement)}

theorem Journal.Accepted.not_unheard (h : journal.Accepted) : ¬Unheard result journal :=
  fun ⟨_, _, _, last, _⟩ => h.last last rfl

theorem leaves_missing
    (missing : ∀ k ∈ g.kernels, k.capability = c.capability → k.variant ≠ .reference) :
    Leaves g a c (.error (.missingReference c.capability)) [] .idle where
  idle := iff_of_true rfl ⟨missing, rfl⟩
  generating := by
    refine iff_of_false nofun ?_
    rintro (⟨_, _, _, _, -, -, fails, ⟨⟩, -⟩ | ⟨_, _, ⟨⟩, -⟩)
    -- No workload is refused for want of a reference.
    rcases Workload.generate_error fails with ⟨-, ⟨⟩⟩ | ⟨_, ⟨⟩⟩
  recording := iff_of_false nofun fun ⟨_, _, _, last, _⟩ => nomatch last
  done := iff_of_false nofun fun ⟨_, result⟩ => nomatch result
  settled := ⟨nofun, nofun⟩

theorem Ending.leaves {s : Setup (StateM σ)} {g : Registry (StateM σ)} {stop : Stop}
    {journal : Journal (StateM σ)} {records : List Measurement} {r : Runner (StateM σ)}
    (h : Ending s s.config.sizes journal stop) {reference : Kernel (StateM σ)}
    (found : g.referenceFor s.config.capability = some reference) :
    Leaves g s.supply s.config (r.ended stop records).1 journal
      (r.ended stop records).2.phase := by
  have present : ¬∀ k ∈ g.kernels, k.capability = s.config.capability →
      k.variant ≠ .reference := by
    rw [← Registry.referenceFor_eq_none, found]
    exact Option.some_ne_none _
  cases h with
  | completed _ accepted =>
    exact ⟨iff_of_false nofun fun missing => present missing.1,
      iff_of_false nofun (by rintro (⟨_, _, _, _, -, -, -, ⟨⟩, -⟩ | ⟨_, _, -, ⟨⟩⟩)),
      iff_of_false nofun accepted.not_unheard, iff_of_true rfl ⟨records, rfl⟩, nofun, nofun⟩
  | @ungenerated before size after failure split generates fails accepted =>
    exact ⟨iff_of_false nofun fun missing => present missing.1,
      iff_of_true rfl (.inl ⟨before, size, after, failure, split, generates, fails, rfl, accepted⟩),
      iff_of_false nofun accepted.not_unheard, iff_of_false nofun fun ⟨_, ok⟩ => (nomatch ok),
      nofun, nofun⟩
  | @untold w failure last =>
    exact ⟨iff_of_false nofun fun missing => present missing.1,
      iff_of_true rfl (.inr ⟨w, failure, last, rfl⟩),
      iff_of_false nofun fun ⟨_, _, _, heard, _⟩ => (nomatch last.symm.trans heard),
      iff_of_false nofun fun ⟨_, ok⟩ => (nomatch ok), nofun, nofun⟩
  | @unheard record w failure last =>
    refine ⟨iff_of_false nofun fun missing => present missing.1, iff_of_false nofun ?_,
      iff_of_true rfl ⟨record, w, failure, last, rfl⟩,
      iff_of_false nofun fun ⟨_, ok⟩ => (nomatch ok), nofun, nofun⟩
    rintro (⟨_, _, _, _, -, -, -, -, accepted⟩ | ⟨_, _, told, -⟩)
    · exact accepted.last last rfl
    · cases last.symm.trans told

end Leaves

namespace Runner

variable (r : Runner (StateM σ)) (a : Supply) (c : Config) (o : Observer (StateM σ)) (s : σ)

theorem sweep_leaves :
    Leaves r.registry a c (r.sweep a c o s).1.1 (r.journal a c o s)
      (r.sweep a c o s).1.2.phase := by
  cases found : r.registry.referenceFor c.capability with
  | none =>
    rw [r.sweep_missing a c o found, r.journal_missing a c o found]
    exact leaves_missing (Registry.referenceFor_eq_none.1 found)
  | some reference =>
    obtain ⟨points, stop, tour, out, wrote⟩ := r.sweep_tour a c o found s
    rw [out, wrote]
    exact tour.ending.leaves found

/-- A sweep is done exactly if it finds its reference, its workloads can all be generated and the
observer refuses nothing. -/
theorem sweep_done : (r.sweep a c o s).1.2.phase = .done ↔
    (∃ k ∈ r.registry.kernels, k.capability = c.capability ∧ k.variant = .reference) ∧
      (∀ size ∈ c.sizes, ∃ w, c.workload a size = .ok w) ∧ (r.journal a c o s).Accepted := by
  cases found : r.registry.referenceFor c.capability with
  | none =>
    rw [r.sweep_missing a c o found]
    refine iff_of_false nofun fun ⟨⟨k, hk, capability, variant⟩, _⟩ => ?_
    exact Registry.referenceFor_eq_none.1 found k hk capability variant
  | some reference =>
    obtain ⟨before, after, split, capability, variant, -⟩ :=
      Registry.referenceFor_eq_some.1 found
    have present : ∃ k ∈ r.registry.kernels, k.capability = c.capability ∧
        k.variant = .reference := ⟨reference, by rw [split]; simp, capability, variant⟩
    obtain ⟨points, stop, tour, out, wrote⟩ := r.sweep_tour a c o found s
    rw [out, wrote]
    cases tour.ending with
    | completed generates accepted => exact iff_of_true rfl ⟨present, generates, accepted⟩
    | @ungenerated _ size _ _ split _ fails =>
      refine iff_of_false nofun fun ⟨_, generates, _⟩ => ?_
      obtain ⟨w, generated⟩ := generates size (by rw [show c.sizes = _ from split]; simp)
      cases fails.symm.trans generated
    | untold last => exact iff_of_false nofun fun ⟨_, _, accepted⟩ => accepted.last last rfl
    | unheard last => exact iff_of_false nofun fun ⟨_, _, accepted⟩ => accepted.last last rfl

end Runner

/-! ## Histories -/

def Operation.IsTrace (operation : Operation σ) : Prop := ∃ kernel w, operation = .trace kernel w

/-- The phase is the one that the last sweep of the past left, if there was one. -/
def LeftBy (r : Runner (StateM σ)) (past : List (Operation σ)) (s : σ) (phase : Phase) : Prop :=
  (∀ operation ∈ past, operation.IsTrace) ∧ phase = .idle ∨
    ∃ before a c o traces, past = before ++ .sweep a c o :: traces ∧
      (∀ operation ∈ traces, operation.IsTrace) ∧
      Leaves r.registry a c ((r.after before s).1.sweep a c o (r.after before s).2).1.1
        ((r.after before s).1.journal a c o (r.after before s).2) phase

theorem LeftBy.trace {r : Runner (StateM σ)} {past : List (Operation σ)} {s : σ} {phase : Phase}
    (h : LeftBy r past s phase) (kernel : Kernel (StateM σ)) (w : Workload) :
    LeftBy r (past ++ [.trace kernel w]) s phase := by
  have trace : Operation.IsTrace (.trace kernel w) := ⟨kernel, w, rfl⟩
  rcases h with ⟨traces, idle⟩ | ⟨before, a, c, o, traces, rfl, rest, leaves⟩
  · exact .inl ⟨List.forall_mem_append.2 ⟨traces, List.forall_mem_singleton.2 trace⟩, idle⟩
  · exact .inr ⟨before, a, c, o, traces ++ [.trace kernel w], by simp,
      List.forall_mem_append.2 ⟨rest, List.forall_mem_singleton.2 trace⟩, leaves⟩

theorem Runner.after_concat (r : Runner (StateM σ)) (past : List (Operation σ))
    (operation : Operation σ) (s : σ) :
    r.after (past ++ [operation]) s = (r.after past s).1.perform operation (r.after past s).2 := by
  rw [after, List.foldlM_append]
  rfl

/-- By induction from the last operation: a sweep leaves a phase of its own, a trace the one that
was there. -/
theorem Runner.after_leftBy (r : Runner (StateM σ)) (idle : r.phase = .idle)
    (past : List (Operation σ)) (s : σ) : LeftBy r past s (r.after past s).1.phase := by
  induction past using List.reverseRecOn with
  | nil => exact .inl ⟨by simp, idle⟩
  | append_singleton past operation ih =>
    rw [after_concat]
    cases operation with
    | sweep a c o =>
      have leaves := (r.after past s).1.sweep_leaves a c o (r.after past s).2
      rw [after_registry] at leaves
      exact .inr ⟨past, a, c, o, [], rfl, by simp, leaves⟩
    | trace kernel w =>
      obtain ⟨timer, left⟩ := (r.after past s).1.traceBlockCopies_runner kernel w (r.after past s).2
      have same : ((r.after past s).1.perform (.trace kernel w) (r.after past s).2).1.phase
          = (r.after past s).1.phase := by
        show ((r.after past s).1.traceBlockCopies kernel w (r.after past s).2).1.2.2.phase = _
        rw [left]
      rw [same]
      exact ih.trace kernel w

/-- After any operations on a new runner, its phase is the one that the last sweep left, and it is
idle before the first. The next sweep is done unless it has no reference, a workload that cannot
be generated or an observer that refuses something, whatever became of earlier ones. -/
theorem phase_of_history (g : Registry (StateM σ)) (t : Timer (StateM σ))
    (past : List (Operation σ)) (s : σ) :
    let now := (Runner.mk g t .idle).after past s
    LeftBy ⟨g, t, .idle⟩ past s now.1.phase ∧
      now.1.phase ≠ .executingKernel ∧ now.1.phase ≠ .verifying ∧
      ∀ a c o, (now.1.sweep a c o now.2).1.2.phase = .done ↔
        (∃ k ∈ g.kernels, k.capability = c.capability ∧ k.variant = .reference) ∧
          (∀ size ∈ c.sizes, ∃ w, c.workload a size = .ok w) ∧
          (now.1.journal a c o now.2).Accepted := by
  intro now
  have left := (Runner.mk g t .idle).after_leftBy rfl past s
  have settled : now.1.phase ≠ .executingKernel ∧ now.1.phase ≠ .verifying := by
    rcases left with ⟨-, idle⟩ | ⟨_, _, _, _, _, -, -, leaves⟩
    · rw [idle]
      exact ⟨nofun, nofun⟩
    · exact leaves.settled
  refine ⟨left, settled.1, settled.2, fun a c o => ?_⟩
  have done := now.1.sweep_done a c o now.2
  rwa [Runner.after_registry] at done

end Microbench
