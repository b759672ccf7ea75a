import Mathlib.Algebra.BigOperators.Fin
import Mathlib.Algebra.BigOperators.Intervals
import Microbench.Proofs.Sweep.Order

/-!
# Which ticks a measurement counts

A sweep reads its clock twice per run, right before and right after, and never otherwise. So run
`n` of the whole sweep stands between readings `2 * n` and `2 * n + 1`, whatever kernels decline a
shape or fail. The runs fall into blocks of consecutive numbers, one for each kernel due; the
ticks of a measurement are the sum over its own block, each difference taken modulo the width of
the counter and the sum cut off at the largest word. A run that fails ends its block, and the
ticks of the block are dropped.

Results:

* `points_bracketed`: every run of a sweep stands between its own two readings.
* `Trials.ticks_eq`: the ticks of runs that all succeed.
* `advance_eq`: a counter that advances by less than its period in a bracket is read exactly.
* `tour_attributes`, `Turn.Clocked.counts`: the runs and the ticks of each kernel by number.
* `sweep_ticks`: runs and ticks of a whole sweep.
-/
namespace Microbench

open Sweep

/-! ## Readings and runs by number -/

def Entry.reading? : Entry m → Option UInt64
  | .reading ticks => some ticks
  | _ => none

namespace Journal

def readings (journal : Journal m) : List UInt64 := journal.filterMap Entry.reading?

/-- Reading number `i`, from zero. -/
def reading (journal : Journal m) (i : Nat) : UInt64 := (journal.readings[i]?).getD 0

/-- Run number `n`, from zero, has succeeded. -/
def Succeeds (journal : Journal m) (n : Nat) : Prop :=
  ∃ run, journal.runs[n]? = some run ∧ run.result = .ok ()

/-- The difference of readings `2 * n` and `2 * n + 1` modulo two to the width of the counter. -/
def ticks (journal : Journal m) (bits n : Nat) : Nat :=
  (((journal.reading (2 * n + 1)).toNat - (journal.reading (2 * n)).toNat : Int)
    % (Nat.pow 2 bits : Nat)).toNat

/-- There are two readings for each run: right before it and right after it. -/
structure Bracketed (journal : Journal m) : Prop where
  length : journal.readings.length = 2 * journal.runs.length
  run : ∀ n run, journal.runs[n]? = some run → ∃ before after : Journal m,
    journal = before ++ [.reading (journal.reading (2 * n)), .ran run,
      .reading (journal.reading (2 * n + 1))] ++ after ∧
    before.runs.length = n ∧ before.readings.length = 2 * n

theorem readings_append (a b : Journal m) :
    Journal.readings (a ++ b) = a.readings ++ b.readings := List.filterMap_append

theorem runs_append (a b : Journal m) : Journal.runs (a ++ b) = a.runs ++ b.runs :=
  List.filterMap_append

theorem reading_append_left {a b : Journal m} {i : Nat} (h : i < a.readings.length) :
    Journal.reading (a ++ b) i = a.reading i := by
  rw [reading, readings_append, List.getElem?_append_left h, reading]

theorem reading_append_right {a b : Journal m} {i : Nat} (h : a.readings.length ≤ i) :
    Journal.reading (a ++ b) i = b.reading (i - a.readings.length) := by
  rw [reading, readings_append, List.getElem?_append_right h, reading]

namespace Bracketed

/-- Entries of other kinds take no readings. -/
theorem of_runs_nil {journal : Journal m} (runs : journal.runs = [])
    (readings : journal.readings = []) : journal.Bracketed where
  length := by rw [runs, readings]; rfl
  run n run h := by rw [runs] at h; cases h

theorem of_trial (t : Trial m) : Journal.Bracketed t.entries where
  length := rfl
  run n run h := by
    cases n with
    | zero => cases h; exact ⟨[], [], rfl, rfl, rfl⟩
    | succ n => cases h

theorem append {a b : Journal m} (ha : a.Bracketed) (hb : b.Bracketed) :
    Journal.Bracketed (a ++ b) := by
  refine ⟨?_, fun n run h => ?_⟩
  · rw [readings_append, runs_append, List.length_append, List.length_append, ha.length, hb.length]
    omega
  have length := ha.length
  rw [runs_append] at h
  rcases Nat.lt_or_ge n a.runs.length with hn | hn
  · rw [List.getElem?_append_left hn] at h
    obtain ⟨before, after, split, runs, readings⟩ := ha.run n run h
    refine ⟨before, after ++ b, ?_, runs, readings⟩
    rw [reading_append_left (by omega), reading_append_left (by omega), ← List.append_assoc,
      ← split]
  · rw [List.getElem?_append_right hn] at h
    obtain ⟨before, after, split, runs, readings⟩ := hb.run _ run h
    refine ⟨a ++ before, after, ?_, ?_, ?_⟩
    · have first : 2 * n - a.readings.length = 2 * (n - a.runs.length) := by omega
      have second : 2 * n + 1 - a.readings.length = 2 * (n - a.runs.length) + 1 := by omega
      rw [reading_append_right (by omega), reading_append_right (by omega), first, second,
        List.append_assoc, List.append_assoc, ← List.append_assoc before, ← split]
    · rw [runs_append, List.length_append, runs]
      omega
    · rw [readings_append, List.length_append, readings]
      omega

theorem flatMap {f : α → Journal m} {l : List α} (h : ∀ x ∈ l, (f x).Bracketed) :
    Journal.Bracketed (l.flatMap f) := by
  induction l with
  | nil => exact of_runs_nil rfl rfl
  | cons x l ih =>
    rw [List.flatMap_cons]
    exact (h x List.mem_cons_self).append (ih fun y hy => h y (List.mem_cons_of_mem _ hy))

end Bracketed

end Journal

theorem points_bracketed (points : List (Point m)) :
    Journal.Bracketed (points.flatMap Point.entries) := by
  refine .flatMap fun p _ => ?_
  have told : Journal.Bracketed [(.told p.workload p.answer : Entry m)] := .of_runs_nil rfl rfl
  refine told.append (.flatMap fun t _ => ?_)
  exact (Journal.Bracketed.flatMap fun trial _ => .of_trial trial).append (.of_runs_nil rfl rfl)

/-! ## Trials by number -/

/-- Ticks of the clock from before the run to after it. -/
def Trial.ticks (bits : Nat) (t : Trial m) : Nat := (ticksBetween t.start t.stop bits).toNat

theorem Trial.ticks_min (bits : Nat) :
    (Trial.ticks (min bits 64) : Trial m → Nat) = Trial.ticks bits := by
  funext t
  rw [ticks, ticks, ticksBetween_toNat, ticksBetween_toNat, Nat.min_assoc, Nat.min_self]

/-- The trials of some turns, in order. -/
def trialsOf (turns : List (Turn m)) : List (Trial m) := (turns.map (·.trials)).flatten

theorem Turn.entries_readings (t : Turn m) :
    Journal.readings t.entries = t.trials.flatMap fun trial => [trial.start, trial.stop] := by
  have trial (t : Trial m) : t.entries.filterMap Entry.reading? = [t.start, t.stop] := rfl
  rw [Journal.readings, entries, List.filterMap_append, List.filterMap_flatMap]
  simp only [trial]
  exact List.append_nil _

theorem points_readings (points : List (Point m)) :
    Journal.readings (points.flatMap Point.entries)
      = (trialsOf (points.flatMap Point.turns)).flatMap fun t => [t.start, t.stop] := by
  have point (p : Point m) :
      p.entries.filterMap Entry.reading? = p.turns.flatMap (Journal.readings ·.entries) := by
    rw [Point.entries, List.filterMap_cons_none rfl, List.filterMap_flatMap]
    rfl
  rw [Journal.readings, List.filterMap_flatMap, trialsOf, ← List.flatMap_def, List.flatMap_assoc,
    List.flatMap_assoc]
  simp only [point, Turn.entries_readings]

theorem points_runs_eq (points : List (Point m)) :
    Journal.runs (points.flatMap Point.entries)
      = (trialsOf (points.flatMap Point.turns)).map (·.run) := by
  rw [points_runs, trialsOf, List.map_flatten, List.map_map, List.flatMap_def]
  rfl

theorem flatMap_pair_getElem? (f g : α → β) (l : List α) (n : Nat) :
    (l.flatMap fun x => [f x, g x])[2 * n]? = l[n]?.map f ∧
      (l.flatMap fun x => [f x, g x])[2 * n + 1]? = l[n]?.map g := by
  induction l generalizing n with
  | nil => exact ⟨rfl, rfl⟩
  | cons x l ih =>
    cases n with
    | zero => exact ⟨rfl, rfl⟩
    | succ n => exact ih n

theorem difference_eq (start stop : UInt64) {bits : Nat} (h : bits ≤ 64) :
    ((stop.toNat - start.toNat : Int) % (Nat.pow 2 bits : Nat)).toNat
      = (ticksBetween start stop bits).toNat := by
  obtain ⟨k, hk⟩ : Nat.pow 2 bits ∣ 2 ^ 64 := Nat.pow_dvd_pow 2 h
  have hstart := start.toNat_lt
  have wrapped : ((2 ^ 64 - start.toNat + stop.toNat : Nat) : Int)
      = stop.toNat - start.toNat + (Nat.pow 2 bits : Nat) * k := by
    rw [← Nat.cast_mul, ← hk]
    omega
  rw [ticksBetween_toNat, Nat.min_eq_left h, UInt64.toNat_sub, Nat.mod_mod_of_dvd _ ⟨k, hk⟩,
    ← Int.add_mul_emod_self_left _ _ (k : Int), ← wrapped]
  exact Int.toNat_natCast _

/-- A counter that advances by less than its period between two readings. -/
theorem advance_eq {counter : Nat → Nat} {bits n : Nat} (le : counter (2 * n) ≤ counter (2 * n + 1))
    (lt : counter (2 * n + 1) < counter (2 * n) + Nat.pow 2 bits) :
    (((counter (2 * n + 1) % Nat.pow 2 bits : Nat) - (counter (2 * n) % Nat.pow 2 bits : Nat) : Int)
      % (Nat.pow 2 bits : Nat)).toNat = counter (2 * n + 1) - counter (2 * n) := by
  rw [Int.natCast_emod, Int.natCast_emod, ← Int.sub_emod, ← Int.ofNat_sub le]
  show ((_ : Nat) : Int).toNat = _
  rw [Int.toNat_natCast]
  apply Nat.mod_eq_of_lt
  omega

section Numbered

variable {points : List (Point m)} {n : Nat} {trial : Trial m}

theorem trial_run (h : (trialsOf (points.flatMap Point.turns))[n]? = some trial) :
    (Journal.runs (points.flatMap Point.entries))[n]? = some trial.run := by
  rw [points_runs_eq, List.getElem?_map, h]
  rfl

theorem trial_succeeds (h : (trialsOf (points.flatMap Point.turns))[n]? = some trial) :
    Journal.Succeeds (points.flatMap Point.entries) n ↔ trial.run.result = .ok () := by
  rw [Journal.Succeeds, trial_run h]
  simp

theorem trial_ticks {bits : Nat} (hbits : bits ≤ 64)
    (h : (trialsOf (points.flatMap Point.turns))[n]? = some trial) :
    Journal.ticks (points.flatMap Point.entries) bits n = trial.ticks bits := by
  obtain ⟨start, stop⟩ := flatMap_pair_getElem? Trial.start Trial.stop
    (trialsOf (points.flatMap Point.turns)) n
  rw [h, ← points_readings] at start stop
  rw [Journal.ticks, Journal.reading, Journal.reading, start, stop]
  exact difference_eq trial.start trial.stop hbits

end Numbered

/-! ## Blocks of consecutive numbers -/

section Blocks

variable {blocks : List (List α)} {block : List α} {j k : Nat}

/-- The number of the first member of a block, if all members are numbered in order. -/
def offset (blocks : List (List α)) (j : Nat) : Nat := ((blocks.map List.length).take j).sum

theorem offset_succ (h : blocks[j]? = some block) :
    offset blocks (j + 1) = offset blocks j + block.length := by
  rw [offset, offset, List.take_add_one, List.getElem?_map, h]
  simp

theorem offset_length (blocks : List (List α)) :
    offset blocks blocks.length = blocks.flatten.length := by
  rw [offset, List.take_of_length_le (by simp), List.length_flatten]

theorem flatten_getElem? (h : blocks[j]? = some block) (hk : k < block.length) :
    blocks.flatten[offset blocks j + k]? = block[k]? := by
  obtain ⟨hj, rfl⟩ := List.getElem?_eq_some_iff.1 h
  rw [← List.getElem?_drop, offset, List.drop_sum_flatten, List.drop_eq_getElem_cons hj,
    List.flatten_cons, List.getElem?_append_left hk]

theorem sum_range_length (f : Nat → Nat) (g : α → Nat) (block : List α)
    (h : ∀ k x, block[k]? = some x → f k = g x) :
    ∑ k ∈ Finset.range block.length, f k = (block.map g).sum := by
  induction block generalizing f with
  | nil => rfl
  | cons x block ih =>
    rw [List.length_cons, Finset.sum_range_succ', ih (fun k => f (k + 1)) fun k => h (k + 1),
      h 0 x rfl, List.map_cons, List.sum_cons, Nat.add_comm]

end Blocks

/-! ## The ticks of one turn -/

variable {σ : Type}

namespace Trials

variable {source : TickSource (StateM σ)} {kernel : Kernel (StateM σ)} {inputs : Inputs} {n : Nat}
  {total : Elapsed} {output last : Buffer} {trials : List (Trial (StateM σ))}
  {outcome : Except Failure Elapsed}

/-- Only the last run can fail. -/
theorem succeeds_of_lt (h : Trials source kernel inputs n total output trials outcome last)
    {k : Nat} {trial : Trial (StateM σ)} (hk : k + 1 < trials.length)
    (ht : trials[k]? = some trial) : trial.run.result = .ok () := by
  induction h generalizing k with
  | done => cases ht
  | failed => simp at hk
  | passed _ _ ih =>
    cases k with
    | zero => cases ht; rfl
    | succ k => exact ih (by simpa using hk) ht

theorem length_eq (h : Trials source kernel inputs n total output trials outcome last)
    (succeed : ∀ t ∈ trials, t.run.result = .ok ()) : trials.length = n := by
  induction h with
  | done => rfl
  | failed => simp at succeed
  | passed _ _ ih =>
    rw [List.length_cons, ih fun t ht => succeed t (List.mem_cons_of_mem _ ht)]

theorem accumulate_toNat (total e : Elapsed) :
    (total.accumulate e).ticks.toNat = min maxWord (total.ticks.toNat + e.ticks.toNat) := by
  have fits : min (total.ticks.toNat + e.ticks.toNat) maxWord < 2 ^ 64 := by
    have : maxWord < 2 ^ 64 := by decide
    omega
  rw [Elapsed.accumulate, UInt64.toNat_ofNat_of_lt' fits, Nat.min_comm]

/-- The ticks of runs that all succeed, on top of those before. -/
theorem ticks_eq (h : Trials source kernel inputs n total output trials outcome last)
    (succeed : ∀ t ∈ trials, t.run.result = .ok ()) : ∃ elapsed, outcome = .ok elapsed ∧
      elapsed.ticks.toNat
        = min maxWord (total.ticks.toNat + (trials.map (Trial.ticks source.bits)).sum) := by
  induction h with
  | @done total _ =>
    have := total.ticks.toNat_lt
    have : maxWord = 2 ^ 64 - 1 := by decide
    exact ⟨total, rfl, by simp; omega⟩
  | failed => simp at succeed
  | @passed _ total _ start stop _ trials _ _ _ _ ih =>
    obtain ⟨elapsed, ok, ticks⟩ := ih fun t ht => succeed t (List.mem_cons_of_mem _ ht)
    refine ⟨elapsed, ok, ?_⟩
    have here : (total.accumulate (source.elapsed start stop)).ticks.toNat
        = min maxWord (total.ticks.toNat + (ticksBetween start stop source.bits).toNat) :=
      accumulate_toNat ..
    rw [ticks, here, List.map_cons, List.sum_cons]
    show min maxWord (min maxWord _ + _)
      = min maxWord (_ + ((ticksBetween start stop source.bits).toNat + _))
    omega

theorem failed_of (h : Trials source kernel inputs n total output trials outcome last)
    {trial : Trial (StateM σ)} (ht : trial ∈ trials) (fails : trial.run.result ≠ .ok ()) :
    ∃ failure, outcome = .error failure := by
  induction h with
  | done => cases ht
  | failed => exact ⟨_, rfl⟩
  | passed _ _ ih =>
    rcases List.mem_cons.1 ht with rfl | ht
    · exact absurd rfl fails
    · exact ih ht

end Trials

/-- How a turn shows in its trials and on its clock. -/
structure Turn.Clocked (s : Setup (StateM σ)) (t : Turn (StateM σ)) : Prop where
  earlier : ∀ k trial, t.trials[k]? = some trial → k + 1 < t.trials.length →
    trial.run.result = .ok ()
  all : (∀ trial ∈ t.trials, trial.run.result = .ok ()) →
    t.trials.length = max s.config.iterations 1 ∧
      t.record.ticks.toNat
        = min maxWord (t.trials.map (Trial.ticks (min s.timer.source.bits 64))).sum
  dropped : ∀ trial ∈ t.trials, trial.run.result ≠ .ok () → t.record.ticks = 0

theorem Turn.Lawful.clocked {s : Setup (StateM σ)} {judge : Buffer → Verdict} {w : Workload}
    {t : Turn (StateM σ)} (h : t.Lawful s judge w) : t.Clocked s where
  earlier _ _ ht hk := h.trials.succeeds_of_lt hk ht
  all succeed := by
    obtain ⟨elapsed, outcome, ticks⟩ := h.trials.ticks_eq succeed
    refine ⟨h.trials.length_eq succeed, ?_⟩
    have zero : (Elapsed.zero s.timer.source.ticksPerSecond).ticks.toNat = 0 := rfl
    rw [zero, Nat.zero_add] at ticks
    rw [h.record, outcome, Trial.ticks_min]
    exact ticks
  dropped trial ht fails := by
    obtain ⟨failure, outcome⟩ := h.trials.failed_of ht fails
    rw [h.record, outcome]
    rfl

theorem tour_clocked {s : Setup (StateM σ)} {reference : Kernel (StateM σ)}
    {candidates : List (Kernel (StateM σ))} {sizes : List Nat} {points : List (Point (StateM σ))}
    (h : List.Forall₂ (Visited s reference candidates) sizes points) :
    ∀ t ∈ points.flatMap Point.turns, t.Clocked s := by
  induction h with
  | nil => simp
  | cons visited _ ih =>
    obtain ⟨-, visit⟩ := visited
    obtain ⟨first, later⟩ := visit.lawful (I := fun _ => True) trivial fun _ _ _ _ _ _ => trivial
    rw [List.flatMap_cons]
    intro t ht
    rcases List.mem_append.1 ht with here | there
    · rcases List.mem_append.1 here with ht | ht
      · exact (first t (Option.mem_toList.1 ht)).clocked
      · obtain ⟨_, -, lawful⟩ := later t ht
        exact lawful.clocked
    · exact ih t there

/-! ## The runs of one turn by number -/

/-- Runs `first, …, stop - 1` of a journal are those of a kernel due: as many as there are
iterations, unless the last of them failed. -/
structure Journal.Invokes (journal : Journal m) (c : Config) (due : Kernel m × Nat)
    (first stop : Nat) : Prop where
  lt : first < stop
  run : ∀ n, first ≤ n → n < stop → ∃ run, journal.runs[n]? = some run ∧ run.kernel = due.1 ∧
    run.inputs.shape = c.shapeFor due.2
  succeeds : ∀ n, first ≤ n → n + 1 < stop → journal.Succeeds n
  atMost : stop ≤ first + max c.iterations 1
  all : journal.Succeeds (stop - 1) → stop = first + max c.iterations 1

/-- What a measurement counts of the ticks of runs `first, …, stop - 1`, for a clock of the given
width. -/
structure Measurement.Counts (journal : Journal m) (bits first stop : Nat) (r : Measurement) :
    Prop where
  sum : (∀ n, first ≤ n → n < stop → journal.Succeeds n) →
    r.ticks.toNat = min maxWord (∑ n ∈ Finset.Ico first stop, journal.ticks bits n)
  dropped : (∃ n, first ≤ n ∧ n < stop ∧ ¬journal.Succeeds n) → r.ticks = 0
  /-- The readings are those of a counter without bound, cut to the width. -/
  exactly : ∀ counter : Nat → Nat,
    (∀ n, first ≤ n → n < stop → journal.Succeeds n ∧
      (journal.reading (2 * n)).toNat = counter (2 * n) % Nat.pow 2 bits ∧
      (journal.reading (2 * n + 1)).toNat = counter (2 * n + 1) % Nat.pow 2 bits ∧
      counter (2 * n) ≤ counter (2 * n + 1) ∧
      counter (2 * n + 1) < counter (2 * n) + Nat.pow 2 bits) →
    r.ticks.toNat = min maxWord
      (∑ n ∈ Finset.Ico first stop, (counter (2 * n + 1) - counter (2 * n)))

section Turns

variable {s : Setup (StateM σ)} {points : List (Point (StateM σ))} {t : Turn (StateM σ)}
  {due : Kernel (StateM σ) × Nat} {j : Nat}

/-- The number of the first run of a turn. -/
def firstRun (points : List (Point m)) (j : Nat) : Nat :=
  offset ((points.flatMap Point.turns).map (·.trials)) j

theorem firstRun_succ (h : (points.flatMap Point.turns)[j]? = some t) :
    firstRun points (j + 1) = firstRun points j + t.trials.length := by
  apply offset_succ
  rw [List.getElem?_map, h]
  rfl

theorem trial_of_turn (h : (points.flatMap Point.turns)[j]? = some t) {k : Nat}
    (hk : k < t.trials.length) :
    (trialsOf (points.flatMap Point.turns))[firstRun points j + k]? = t.trials[k]? := by
  apply flatten_getElem? _ hk
  rw [List.getElem?_map, h]
  rfl

/-- The runs between the first of a turn and the first of the next are those of the turn. -/
theorem exists_trial (h : (points.flatMap Point.turns)[j]? = some t) {n : Nat}
    (le : firstRun points j ≤ n) (lt : n < firstRun points (j + 1)) :
    ∃ k trial, n = firstRun points j + k ∧ t.trials[k]? = some trial ∧
      (trialsOf (points.flatMap Point.turns))[n]? = some trial := by
  rw [firstRun_succ h] at lt
  have hk : n - firstRun points j < t.trials.length := by omega
  have member := List.getElem?_eq_getElem hk
  refine ⟨_, _, (Nat.add_sub_cancel' le).symm, member, ?_⟩
  rw [← member, ← trial_of_turn h hk, Nat.add_sub_cancel' le]

/-- All runs of a turn succeed if those with its numbers do. -/
theorem turn_succeeds (h : (points.flatMap Point.turns)[j]? = some t)
    (succeed : ∀ n, firstRun points j ≤ n → n < firstRun points (j + 1) →
      Journal.Succeeds (points.flatMap Point.entries) n) :
    ∀ trial ∈ t.trials, trial.run.result = .ok () := by
  intro trial ht
  obtain ⟨k, hk, rfl⟩ := List.getElem_of_mem ht
  have lt := firstRun_succ h
  have here := (trial_of_turn h hk).trans (List.getElem?_eq_getElem hk)
  exact (trial_succeeds here).1 (succeed _ (by omega) (by omega))

theorem Turn.Took.invokes (took : t.Took s due) (clocked : t.Clocked s)
    (h : (points.flatMap Point.turns)[j]? = some t) :
    Journal.Invokes (points.flatMap Point.entries) s.config due (firstRun points j)
      (firstRun points (j + 1)) := by
  have next := firstRun_succ h
  have nonempty : 0 < t.trials.length := by
    have ne_nil := took.block.ne_nil
    rw [Turn.runs, ne_eq, List.map_eq_nil_iff] at ne_nil
    exact List.length_pos_iff.2 ne_nil
  have atMost := took.block.length_le
  rw [Turn.runs, List.length_map] at atMost
  have earlier : ∀ n, firstRun points j ≤ n → n + 1 < firstRun points (j + 1) →
      Journal.Succeeds (points.flatMap Point.entries) n := by
    intro n le lt
    obtain ⟨k, trial, rfl, ht, here⟩ := exists_trial h le (by omega)
    exact (trial_succeeds here).2 (clocked.earlier k trial ht (by omega))
  refine ⟨by omega, ?_, earlier, by omega, fun last => ?_⟩
  · intro n le lt
    obtain ⟨k, trial, -, ht, here⟩ := exists_trial h le lt
    exact ⟨_, trial_run here,
      took.block.run _ (List.mem_map_of_mem (List.mem_of_getElem? ht))⟩
  · obtain ⟨length, -⟩ := clocked.all <| turn_succeeds h fun n le lt => by
      rcases Nat.lt_or_ge (n + 1) (firstRun points (j + 1)) with lt' | ge
      · exact earlier n le lt'
      · rwa [show n = firstRun points (j + 1) - 1 by omega]
    rw [next, length]

theorem Turn.Clocked.counts (clocked : t.Clocked s)
    (h : (points.flatMap Point.turns)[j]? = some t) :
    t.record.Counts (points.flatMap Point.entries) (min s.timer.source.bits 64)
      (firstRun points j) (firstRun points (j + 1)) := by
  have sum : (∀ n, firstRun points j ≤ n → n < firstRun points (j + 1) →
      Journal.Succeeds (points.flatMap Point.entries) n) →
      t.record.ticks.toNat = min maxWord (∑ n ∈ Finset.Ico (firstRun points j)
        (firstRun points (j + 1)), Journal.ticks (points.flatMap Point.entries)
          (min s.timer.source.bits 64) n) := by
    intro succeed
    rw [(clocked.all (turn_succeeds h succeed)).2, Finset.sum_Ico_eq_sum_range, firstRun_succ h,
      Nat.add_sub_cancel_left]
    congr 1
    refine (sum_range_length _ _ _ fun k trial ht => ?_).symm
    obtain ⟨hk, -⟩ := List.getElem?_eq_some_iff.1 ht
    exact trial_ticks (Nat.min_le_right ..) ((trial_of_turn h hk).trans ht)
  refine ⟨sum, ?_, ?_⟩
  · rintro ⟨n, le, lt, fails⟩
    obtain ⟨k, trial, -, ht, here⟩ := exists_trial h le lt
    exact clocked.dropped trial (List.mem_of_getElem? ht) fun ok =>
      fails ((trial_succeeds here).2 ok)
  · intro counter reads
    rw [sum fun n le lt => (reads n le lt).1]
    congr 1
    refine Finset.sum_congr rfl fun n hn => ?_
    obtain ⟨le, lt⟩ := Finset.mem_Ico.1 hn
    obtain ⟨-, before, after, forward, slow⟩ := reads n le lt
    rw [Journal.ticks, before, after, advance_eq forward slow]

end Turns

/-! ## The ticks of a sweep -/

theorem forall₂_getElem? {R : α → β → Prop} {l : List α} {l' : List β} (h : List.Forall₂ R l l')
    {j : Nat} {a : α} (ha : l[j]? = some a) : ∃ b, l'[j]? = some b ∧ R a b := by
  induction h generalizing j with
  | nil => cases ha
  | cons here _ ih =>
    cases j with
    | zero => cases ha; exact ⟨_, rfl, here⟩
    | succ j => exact ih ha

/-- How the runs of a journal fall to the kernels of an agenda: number `first j` is the first run
of kernel `j`. -/
structure Journal.Attributes (journal : Journal m) (c : Config) (agenda : List (Kernel m × Nat))
    (first : Nat → Nat) : Prop where
  zero : first 0 = 0
  length : first agenda.length = journal.runs.length
  invokes : ∀ j due, agenda[j]? = some due → journal.Invokes c due (first j) (first (j + 1))

theorem tour_attributes {s : Setup (StateM σ)} {reference : Kernel (StateM σ)}
    {candidates : List (Kernel (StateM σ))} {sizes : List Nat} {points : List (Point (StateM σ))}
    (h : List.Forall₂ (Visited s reference candidates) sizes points) :
    Journal.Attributes (points.flatMap Point.entries) s.config
      (s.config.agenda (reference :: candidates) sizes) (firstRun points) where
  zero := rfl
  length := by
    rw [(tour_turns h).length_eq, points_runs_eq, List.length_map, trialsOf, ← offset_length,
      List.length_map]
    rfl
  invokes j due hj := by
    obtain ⟨t, ht, took⟩ := forall₂_getElem? (tour_turns h) hj
    exact took.invokes (tour_clocked h t (List.mem_of_getElem? ht)) ht

/-- In any sweep, run `n` stands between readings `2 * n` and `2 * n + 1`, and there are no other
readings. The runs fall, in order, to the kernels due at the sizes reached. If the sweep returns,
each measurement counts the ticks of the runs of its own kernel at its own size. -/
theorem sweep_ticks (r : Runner (StateM σ)) (a : Supply) (c : Config) (s : σ) :
    (r.journal a c .silent s).Bracketed ∧
      ((r.registry.referenceFor c.capability = none ∧ r.journal a c .silent s = []) ∨
        ∃ reference others reached rest first,
          r.registry.Lineup c.capability reference others ∧ c.sizes = reached ++ rest ∧
          (rest = [] ∨ ∃ size after failure, rest = size :: after ∧
            c.workload a size = .error failure) ∧
          (r.journal a c .silent s).Attributes c (c.agenda (reference :: others) reached) first ∧
          ∀ ms, (r.sweep a c .silent s).1.1 = .ok ms → rest = [] ∧
            List.Forall₂ (Measurement.Heading r.timer c) (c.agenda (reference :: others) c.sizes)
              ms ∧
            ∀ j (record : Measurement), ms[j]? = some record →
              record.Counts (r.journal a c .silent s) (min r.timer.source.bits 64) (first j)
                (first (j + 1))) := by
  cases hr : r.registry.referenceFor c.capability with
  | none =>
    have empty := r.journal_missing a c .silent hr s
    rw [empty]
    exact ⟨.of_runs_nil rfl rfl, .inl ⟨rfl, rfl⟩⟩
  | some reference =>
    obtain ⟨points, stop, tour, out, wrote⟩ := r.sweep_tour a c .silent hr s
    rw [wrote, out]
    refine ⟨points_bracketed points, .inr ⟨reference, r.registry.candidatesFor c.capability, ?_⟩⟩
    obtain ⟨rfl, visits⟩ | ⟨before, size, after, failure, sizes, rfl, visits, fails⟩ :=
      tour.ends Observer.silent_agrees
    · refine ⟨c.sizes, [], firstRun points, Registry.lineup_iff.2 ⟨hr, rfl⟩,
        (List.append_nil _).symm, .inl rfl, tour_attributes visits, ?_⟩
      rintro ms ⟨⟩
      refine ⟨rfl, tour_records visits, fun j record hj => ?_⟩
      have records : points.flatMap Point.records
          = (points.flatMap Point.turns).map (·.record) := by
        rw [List.map_flatMap]
        rfl
      rw [records, List.getElem?_map, Option.map_eq_some_iff] at hj
      obtain ⟨t, ht, rfl⟩ := hj
      exact (tour_clocked visits t (List.mem_of_getElem? ht)).counts ht
    · refine ⟨before, size :: after, firstRun points, Registry.lineup_iff.2 ⟨hr, rfl⟩, sizes,
        .inr ⟨size, after, failure, rfl, fails⟩, tour_attributes visits, ?_⟩
      rintro ms ⟨⟩

end Microbench
