import Mathlib.Data.List.Induction
import Mathlib.Data.Nat.ModEq
import Mathlib.Order.Monotone.Defs
import Microbench.Timer

/-!
# Any use of a timer

A timer is started, stopped and set to time actions in any order. A start and a stop read the
clock once; a timed action is bracketed by two readings of its own. A stop reports the advance of
the counter since the latest start, whatever has been timed in between, and takes the start away:
a second stop finds none.

The clock is any action on a state `σ`, which the timed actions may share. Its readings are those
of a counter without bound, cut to the width of the clock.

Results:

* `ticksBetween_advance`: the ticks between two readings of a counter.
* `calls_session`: what a list of calls reads and answers, call by call.
* `Session.holds`: which start a timer holds after some calls.
* `timer_protocol`: the answer to every call, by the counter.
-/
namespace Microbench

/-! ## Two readings of a counter -/

/-- The ticks between two readings are the advance of the counter, modulo two to its width. -/
theorem ticksBetween_advance {start stop : UInt64} {bits before after : Nat}
    (hstart : start.toNat % Nat.pow 2 (min bits 64) = before % Nat.pow 2 (min bits 64))
    (hstop : stop.toNat % Nat.pow 2 (min bits 64) = after % Nat.pow 2 (min bits 64))
    (le : before ≤ after) :
    (ticksBetween start stop bits).toNat = (after - before) % Nat.pow 2 (min bits 64) := by
  have divides : Nat.pow 2 (min bits 64) ∣ 2 ^ 64 := Nat.pow_dvd_pow 2 (Nat.min_le_right bits 64)
  have word : (stop - start).toNat + start.toNat ≡ stop.toNat [MOD 2 ^ 64] := by
    have sum := congrArg UInt64.toNat (UInt64.sub_add_cancel stop start)
    rw [UInt64.toNat_add] at sum
    rw [← sum]
    exact (Nat.mod_modEq _ _).symm
  have advanced : (stop - start).toNat + start.toNat
      ≡ after - before + before [MOD Nat.pow 2 (min bits 64)] := by
    rw [Nat.sub_add_cancel le]
    exact (word.of_dvd divides).trans hstop
  rw [ticksBetween_toNat]
  exact Nat.ModEq.add_right_cancel hstart advanced

/-- The time from one reading of the counter to another, modulo two to the width and so exact below
that. -/
structure Elapsed.Covers (source : TickSource m) (counter : Nat → Nat) (first last : Nat)
    (e : Elapsed) : Prop where
  ticks : e.ticks.toNat = (counter last - counter first) % Nat.pow 2 (min source.bits 64)
  exactly : counter last - counter first < Nat.pow 2 (min source.bits 64) →
    e.ticks.toNat = counter last - counter first
  rate : e.ticksPerSecond = source.ticksPerSecond

/-! ## Calls -/

namespace Timer

inductive Call (m : Type → Type) (α : Type) where
  | start
  | stop
  | time (action : m α)

inductive Reply (α : Type) where
  | started
  | stopped (result : Except Failure Elapsed)
  | timed (value : α) (elapsed : Elapsed)

section Calls

variable {m : Type → Type} [Monad m] {α : Type}

def call (t : Timer m) : Call m α → m (Reply α × Timer m)
  | .start => do
    let t ← t.start
    return (.started, t)
  | .stop => do
    let (result, t) ← t.stop
    return (.stopped result, t)
  | .time action => do
    let (value, elapsed) ← t.time action
    return (.timed value elapsed, t)

def calls (t : Timer m) : List (Call m α) → m (List (Reply α) × Timer m)
  | [] => pure ([], t)
  | c :: cs => do
    let (reply, t) ← t.call c
    let (replies, t) ← t.calls cs
    return (reply :: replies, t)

/-! ## A log of readings and actions -/

inductive Event (α : Type) where
  | reading (ticks : UInt64)
  | acted (value : α)

def Event.reading? : Event α → Option UInt64
  | .reading ticks => some ticks
  | .acted _ => none

/-- The readings in a log, in order. -/
def readings (log : List (Event α)) : List UInt64 := log.filterMap Event.reading?

abbrev Logging (α : Type) (m : Type → Type) := StateT (List (Event α)) m

/-- Performs an action and logs what it gave. -/
def logged (event : β → Event α) (action : m β) : Logging α m β := fun log => do
  let value ← action
  return (value, log ++ [event value])

def watched (α : Type) (t : Timer m) : Timer (Logging α m) :=
  ⟨{ t.source with now := logged .reading t.source.now }, t.started⟩

def Call.watched : Call m α → Call (Logging α m) α
  | .start => .start
  | .stop => .stop
  | .time action => .time (logged .acted action)

end Calls

/-! ## What one call does -/

variable {σ α : Type}

/-- A call, the reply to it, and what was logged on the way. -/
structure Exchange (σ α : Type) where
  call : Call (StateM σ) α
  reply : Reply α
  events : List (Event α)

/-- How a timer answers by the start it holds, and which start it holds afterwards. -/
inductive Exchange.Step (source : TickSource (StateM σ)) :
    Option UInt64 → Exchange σ α → Option UInt64 → Prop where
  | start {held now} : Step source held ⟨.start, .started, [.reading now]⟩ (some now)
  | stop {since now} :
      Step source (some since) ⟨.stop, .stopped (.ok (source.elapsed since now)), [.reading now]⟩
        none
  | early {now} :
      Step source none ⟨.stop, .stopped (.error .timerNotStarted), [.reading now]⟩ none
  | time {held action first value last} :
      Step source held ⟨.time action, .timed value (source.elapsed first last),
        [.reading first, .acted value, .reading last]⟩ held

inductive Session (source : TickSource (StateM σ)) :
    Option UInt64 → List (Exchange σ α) → Option UInt64 → Prop where
  | nil {held} : Session source held [] held
  | cons {held x next xs last} (first : x.Step source held next)
      (rest : Session source next xs last) : Session source held (x :: xs) last

variable {source : TickSource (StateM σ)} {held last : Option UInt64}

/-- One call, with the log and without: the same reply, timer and state. -/
theorem call_step (source : TickSource (StateM σ)) (held : Option UInt64)
    (c : Call (StateM σ) α) (s : σ) :
    ∃ x next s', x.call = c ∧ Exchange.Step source held x next ∧
      (Timer.mk source held).call c s = ((x.reply, ⟨source, next⟩), s') ∧
      ∀ log, ((Timer.mk source held).watched α).call c.watched log s
        = (((x.reply, (Timer.mk source next).watched α), log ++ x.events), s') := by
  cases c with
  | start => exact ⟨⟨.start, .started, [.reading (source.now s).1]⟩, _, _, rfl, .start, rfl,
      fun _ => rfl⟩
  | stop =>
    cases held with
    | none => exact ⟨⟨.stop, .stopped (.error .timerNotStarted), [.reading (source.now s).1]⟩, _, _,
        rfl, .early, rfl, fun _ => rfl⟩
    | some since => exact ⟨⟨.stop, .stopped (.ok (source.elapsed since (source.now s).1)),
        [.reading (source.now s).1]⟩, _, _, rfl, .stop, rfl, fun _ => rfl⟩
  | time action =>
    let first := source.now s
    let acted := action first.2
    let last := source.now acted.2
    refine ⟨⟨.time action, .timed acted.1 (source.elapsed first.1 last.1),
      [.reading first.1, .acted acted.1, .reading last.1]⟩, held, last.2, rfl, .time, rfl,
      fun log => ?_⟩
    have joined : log ++ [Event.reading first.1, .acted acted.1, .reading last.1]
        = log ++ [.reading first.1] ++ [.acted acted.1] ++ [.reading last.1] := by simp
    rw [joined]
    rfl

/-- The calls of a list are answered one after another. -/
theorem calls_session (source : TickSource (StateM σ)) (held : Option UInt64)
    (cs : List (Call (StateM σ) α)) (s : σ) :
    ∃ xs last s', xs.map Exchange.call = cs ∧ Session source held xs last ∧
      (Timer.mk source held).calls cs s
        = ((xs.map Exchange.reply, ⟨source, last⟩), s') ∧
      ∀ log, ((Timer.mk source held).watched α).calls (cs.map Call.watched) log s
        = (((xs.map Exchange.reply, (Timer.mk source last).watched α),
            log ++ xs.flatMap Exchange.events), s') := by
  induction cs generalizing held s with
  | nil =>
    refine ⟨[], held, s, rfl, .nil, rfl, fun log => ?_⟩
    rw [List.flatMap_nil, List.append_nil]
    rfl
  | cons c cs ih =>
    obtain ⟨x, next, s', rfl, step, plain, kept⟩ := call_step source held c s
    obtain ⟨xs, last, s'', rfl, rest, plain', kept'⟩ := ih next s'
    refine ⟨x :: xs, last, s'', rfl, .cons step rest, ?_, fun log => ?_⟩
    · simp only [calls, bind, StateT.bind, plain, plain']
      rfl
    · simp only [List.map_cons, calls, bind, StateT.bind, kept, kept', List.flatMap_cons,
        List.append_assoc]
      rfl

/-! ## What a timer holds -/

/-- Neither a start nor a stop. -/
def Exchange.IsTimed (x : Exchange σ α) : Prop := ∃ action, x.call = .time action

/-- There has been a start and no stop since. -/
def Armed (xs : List (Exchange σ α)) : Prop :=
  ∃ earlier x between, xs = earlier ++ x :: between ∧ x.call = .start ∧
    ∀ y ∈ between, y.call ≠ .stop

theorem armed_concat {xs : List (Exchange σ α)} {x : Exchange σ α} :
    Armed (xs ++ [x]) ↔ x.call = .start ∨ x.call ≠ .stop ∧ Armed xs := by
  constructor
  · intro h
    obtain ⟨earlier, y, between, split, started, later⟩ := h
    rcases List.eq_nil_or_concat between with rfl | ⟨between, z, rfl⟩
    · obtain ⟨-, ⟨⟩⟩ := List.append_inj' split rfl
      exact .inl started
    · rw [List.concat_eq_append] at split later
      rw [← List.cons_append, ← List.append_assoc] at split
      obtain ⟨rfl, ⟨⟩⟩ := List.append_inj' split rfl
      rw [List.forall_mem_append, List.forall_mem_singleton] at later
      exact .inr ⟨later.2, earlier, y, between, rfl, started, later.1⟩
  · intro h
    rcases h with started | ⟨other, earlier, y, between, rfl, started, later⟩
    · exact ⟨xs, x, [], rfl, started, by simp⟩
    · refine ⟨earlier, y, between ++ [x], by simp, started, ?_⟩
      rw [List.forall_mem_append, List.forall_mem_singleton]
      exact ⟨later, other⟩

/-- The reading that a timer holds after some calls: that of the latest start, unless a stop has
taken it. -/
inductive Holds (xs : List (Exchange σ α)) : Option UInt64 → Prop where
  | nothing (idle : ¬Armed xs) : Holds xs none
  | since {earlier between now}
      (split : xs = earlier ++ ⟨.start, .started, [.reading now]⟩ :: between)
      (timed : ∀ x ∈ between, x.IsTimed) : Holds xs (some now)

theorem Holds.armed {xs : List (Exchange σ α)} (h : Holds xs held) :
    held.isSome = true ↔ Armed xs := by
  cases h with
  | nothing idle => simpa using idle
  | since split timed =>
    refine iff_of_true rfl ⟨_, _, _, split, rfl, fun x hx => ?_⟩
    obtain ⟨action, time⟩ := timed x hx
    rw [time]
    exact nofun

theorem Session.split {before after : List (Exchange σ α)} {x : Exchange σ α}
    (h : Session source held (before ++ x :: after) last) :
    ∃ found next, Session source held before found ∧ x.Step source found next := by
  induction before generalizing held with
  | nil =>
    cases h with
    | cons first => exact ⟨held, _, .nil, first⟩
  | cons y before ih =>
    cases h with
    | cons first rest =>
      obtain ⟨found, next, session, step⟩ := ih rest
      exact ⟨found, next, .cons first session, step⟩

theorem Session.concat {xs : List (Exchange σ α)} {x : Exchange σ α}
    (h : Session source held (xs ++ [x]) last) :
    ∃ found, Session source held xs found ∧ x.Step source found last := by
  induction xs generalizing held with
  | nil =>
    cases h with
    | cons first rest => cases rest; exact ⟨held, .nil, first⟩
  | cons y xs ih =>
    cases h with
    | cons first rest =>
      obtain ⟨found, session, step⟩ := ih rest
      exact ⟨found, .cons first session, step⟩

/-- By induction from the last call: each step moves the reading held as the call demands. -/
theorem Session.holds {xs : List (Exchange σ α)} (h : Session source none xs last) :
    Holds xs last := by
  induction xs using List.reverseRecOn generalizing last with
  | nil =>
    cases h
    exact .nothing fun ⟨earlier, x, between, split, _⟩ => by simp at split
  | append_singleton xs x ih =>
    obtain ⟨found, session, step⟩ := h.concat
    cases step with
    | start => exact .since rfl (by simp)
    | stop => exact .nothing (by simp [armed_concat])
    | early => exact .nothing (by simp [armed_concat])
    | time =>
      cases ih session with
      | nothing idle => exact .nothing (by simpa [armed_concat] using idle)
      | since split timed =>
        refine .since (by rw [split, List.append_assoc, List.cons_append]) ?_
        rw [List.forall_mem_append, List.forall_mem_singleton]
        exact ⟨timed, _, rfl⟩

/-! ## Answers by the counter -/

/-- All that was logged in some exchanges. -/
def eventsOf (xs : List (Exchange σ α)) : List (Event α) := xs.flatMap Exchange.events

/-- The number of readings made in some exchanges, and so the number of the next one. -/
def readingsIn (xs : List (Exchange σ α)) : Nat := (readings (eventsOf xs)).length

/-- The readings of a log are those of a counter without bound, modulo two to the width. -/
def Reads (bits : Nat) (counter : Nat → Nat) (log : List (Event α)) : Prop :=
  ∀ n ticks, (readings log)[n]? = some ticks →
    ticks.toNat % Nat.pow 2 (min bits 64) = counter n % Nat.pow 2 (min bits 64)

/-- What is read and answered at a call after some others. -/
inductive Exchange.Answered (source : TickSource (StateM σ)) (counter : Nat → Nat)
    (before : List (Exchange σ α)) : Exchange σ α → Prop where
  | start {now} : Answered source counter before ⟨.start, .started, [.reading now]⟩
  | stop {earlier start between elapsed now} (split : before = earlier ++ start :: between)
      (started : start.call = .start) (timed : ∀ x ∈ between, x.IsTimed)
      (covers : elapsed.Covers source counter (readingsIn earlier) (readingsIn before)) :
      Answered source counter before ⟨.stop, .stopped (.ok elapsed), [.reading now]⟩
  | early {now} (idle : ¬Armed before) :
      Answered source counter before
        ⟨.stop, .stopped (.error .timerNotStarted), [.reading now]⟩
  | time {action first value last elapsed}
      (covers : elapsed.Covers source counter (readingsIn before) (readingsIn before + 1)) :
      Answered source counter before
        ⟨.time action, .timed value elapsed, [.reading first, .acted value, .reading last]⟩

section Answers

variable {counter : Nat → Nat} {before after : List (Exchange σ α)} {x : Exchange σ α}

/-- The readings of an exchange are numbered from those before it. -/
theorem readings_at {k : Nat} {now : UInt64} (h : (readings x.events)[k]? = some now) :
    (readings (eventsOf (before ++ x :: after)))[readingsIn before + k]? = some now := by
  obtain ⟨hk, -⟩ := List.getElem?_eq_some_iff.1 h
  have join : readings (eventsOf (before ++ x :: after))
      = readings (eventsOf before) ++ (readings x.events ++ readings (eventsOf after)) := by
    simp only [eventsOf, readings, List.flatMap_append, List.flatMap_cons, List.filterMap_append]
  rw [join, readingsIn, List.getElem?_append_right (Nat.le_add_right ..), Nat.add_sub_cancel_left,
    List.getElem?_append_left hk, h]

theorem elapsed_covers {log : List (Event α)} (mono : Monotone counter)
    (reads : Reads source.bits counter log) {i j : Nat} (le : i ≤ j) {start stop : UInt64}
    (hi : (readings log)[i]? = some start) (hj : (readings log)[j]? = some stop) :
    (source.elapsed start stop).Covers source counter i j := by
  have ticks : (source.elapsed start stop).ticks.toNat
      = (counter j - counter i) % Nat.pow 2 (min source.bits 64) :=
    ticksBetween_advance (reads i start hi) (reads j stop hj) (mono le)
  exact ⟨ticks, fun lt => by rw [ticks, Nat.mod_eq_of_lt lt], rfl⟩

theorem Exchange.Step.answered {found next : Option UInt64} (mono : Monotone counter)
    (reads : Reads source.bits counter (eventsOf (before ++ x :: after)))
    (holds : Holds before found) (step : x.Step source found next) :
    x.Answered source counter before := by
  cases step with
  | start => exact .start
  | early =>
    cases holds with
    | nothing idle => exact .early idle
  | stop =>
    cases holds with
    | @since earlier between since split timed =>
      refine .stop split rfl timed (elapsed_covers mono reads ?_ ?_ (readings_at (k := 0) rfl))
      · rw [split, readingsIn, readingsIn, eventsOf, eventsOf, List.flatMap_append, readings,
          readings, List.filterMap_append, List.length_append]
        exact Nat.le_add_right ..
      · rw [split, List.append_assoc, List.cons_append]
        exact readings_at (k := 0) rfl
  | time =>
    refine .time (elapsed_covers mono reads (Nat.le_succ _) (readings_at (k := 0) rfl)
      (readings_at (k := 1) rfl))

end Answers

/-- What a timer and its actions log over some calls. -/
def log (t : Timer (StateM σ)) (cs : List (Call (StateM σ) α)) (s : σ) : List (Event α) :=
  ((t.watched α).calls (cs.map Call.watched) [] s).1.2

/-- Any calls of a new timer, on a clock that reads a counter which never goes back. A stop
answers exactly if there has been a start since the last stop, and counts from the latest one. -/
theorem timer_protocol (source : TickSource (StateM σ)) {counter : Nat → Nat}
    (mono : Monotone counter) (cs : List (Call (StateM σ) α)) (s : σ)
    (reads : Reads source.bits counter ((Timer.mk source none).log cs s)) :
    ∃ xs held s', xs.map Exchange.call = cs ∧
      (Timer.mk source none).calls cs s
        = ((xs.map Exchange.reply, ⟨source, held⟩), s') ∧
      ((Timer.mk source none).watched α).calls (cs.map Call.watched) [] s
        = (((xs.map Exchange.reply, (Timer.mk source held).watched α), eventsOf xs),
            s') ∧
      (held.isSome = true ↔ Armed xs) ∧
      ∀ before x after, xs = before ++ x :: after → x.Answered source counter before := by
  obtain ⟨xs, held, s', rfl, session, plain, kept⟩ := calls_session source none cs s
  have logged := kept []
  rw [List.nil_append] at logged
  have written : (Timer.mk source none).log (xs.map Exchange.call) s = eventsOf xs := by
    rw [log, logged]
    rfl
  rw [written] at reads
  refine ⟨xs, held, s', rfl, plain, logged, session.holds.armed, ?_⟩
  rintro before x after rfl
  obtain ⟨found, next, session, step⟩ := session.split
  exact step.answered mono reads session.holds

section Wrapping

/-- Eight bits of a counter that advances by 100 at each reading, under bits that mean nothing. -/
def wrapping : TickSource (StateM Nat) where
  name := "wrapping"
  precision := .cycle
  ticksPerSecond := 1
  bits := 8
  now := fun n => (UInt64.ofNat (612 * n), n + 1)

/-- Takes as long as five readings. -/
def working : StateM Nat Nat := fun n => (n, n + 5)

/-- A stop too early, a start given up for a later one, an action timed in between, and a second
stop. -/
def wrappingCalls : List (Call (StateM Nat) Nat) :=
  [.stop, .start, .start, .time working, .stop, .stop]

/-- The true readings: five are left out while the action runs. -/
def wrappingCounter (n : Nat) : Nat := if n < 4 then 100 * n else 100 * (n + 5)

def ticksOf : Reply α → Option Nat
  | .stopped (.ok elapsed) => some elapsed.ticks.toNat
  | .timed _ elapsed => some elapsed.ticks.toNat
  | _ => none

theorem timer_protocol_wrapping :
    (((Timer.mk wrapping none).calls wrappingCalls 0).1.1.map ticksOf
      = [none, none, none, some (600 % 256), some (800 % 256), none]) ∧
    ∃ xs, xs.map Exchange.call = wrappingCalls ∧ ¬Armed xs ∧
      ∀ before x after, xs = before ++ x :: after → x.Answered wrapping wrappingCounter before := by
  have mono : Monotone wrappingCounter := by
    intro i j le
    unfold wrappingCounter
    split <;> split <;> omega
  have reads : Reads wrapping.bits wrappingCounter
      ((Timer.mk wrapping none).log wrappingCalls 0) := by
    have congruent : ∀ n (h : n < (readings (log ⟨wrapping, none⟩ wrappingCalls 0)).length),
        ((readings (log ⟨wrapping, none⟩ wrappingCalls 0))[n]).toNat % Nat.pow 2 8
          = wrappingCounter n % Nat.pow 2 8 := by
      decide +kernel
    intro n ticks h
    obtain ⟨hn, rfl⟩ := List.getElem?_eq_some_iff.1 h
    exact congruent n hn
  obtain ⟨xs, held, s', calls, plain, -, armed, answered⟩ :=
    timer_protocol wrapping mono wrappingCalls 0 reads
  obtain rfl : none = held := congrArg (·.1.2.started) plain
  have idle : ¬Armed xs := fun h => Bool.false_ne_true (armed.2 h)
  exact ⟨by decide +kernel, xs, calls, idle, answered⟩

end Wrapping

end Timer

end Microbench
