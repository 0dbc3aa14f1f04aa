import Kenjutsu.Foundations.Runs
import Kenjutsu.Foundations.Windows
import Mathlib.Algebra.Order.Ring.Rat
import Mathlib.Data.Finset.Basic
import Mathlib.Data.List.TakeWhile

/-!
# The rate limiter

`RateLimiter` keeps the times of the calls it let through in a deque. Every
`acquire` first evicts the times that have left the window, then lets the call
through if fewer than the limit are left.

Calls are made by any number of tasks. An `acquire` waits for the lock, reads the
clock while it holds it, and gives it back when it returns or raises; another task
may start waiting at any moment.
-/

set_option autoImplicit false

namespace Kenjutsu.Pipeline

open Foundations

/-- `RateLimitedError`, with the values of its message. -/
structure RateLimitedError where
  calls : Nat
  period : ℚ
deriving DecidableEq, Repr

structure RateLimiter where
  calls : Nat
  period : ℚ
  timestamps : List ℚ := []
deriving DecidableEq, Repr

namespace RateLimiter

/-- Evict the timestamps outside the current window. -/
def evict (limiter : RateLimiter) (now : ℚ) : RateLimiter :=
  let cutoff := now - limiter.period
  { limiter with timestamps := limiter.timestamps.dropWhile fun time => time ≤ cutoff }

/-- What `acquire` does under the lock. -/
def acquire (limiter : RateLimiter) (now : ℚ) : Except RateLimitedError Unit × RateLimiter :=
  let evicted := limiter.evict now
  if evicted.timestamps.length ≥ limiter.calls then
    (.error ⟨limiter.calls, limiter.period⟩, evicted)
  else (.ok (), { evicted with timestamps := evicted.timestamps ++ [now] })

/-- The outcomes of acquires at the given times, one after the other. -/
def outcomes (limiter : RateLimiter) : List ℚ → List (Except RateLimitedError Unit)
  | [] => []
  | now :: times => (limiter.acquire now).1 :: (limiter.acquire now).2.outcomes times

variable {limiter : RateLimiter} {now : ℚ}

@[simp] theorem evict_calls : (limiter.evict now).calls = limiter.calls := rfl

@[simp] theorem evict_period : (limiter.evict now).period = limiter.period := rfl

/-- What one acquire does. -/
theorem acquire_cases (limiter : RateLimiter) (now : ℚ) :
    ((limiter.evict now).timestamps.length < limiter.calls ∧
      limiter.acquire now = (.ok (), { limiter.evict now with
        timestamps := (limiter.evict now).timestamps ++ [now] })) ∨
    (limiter.calls ≤ (limiter.evict now).timestamps.length ∧
      limiter.acquire now = (.error ⟨limiter.calls, limiter.period⟩, limiter.evict now)) := by
  unfold acquire
  by_cases full : limiter.calls ≤ (limiter.evict now).timestamps.length
  · exact .inr ⟨full, if_pos full⟩
  · exact .inl ⟨not_le.mp full, if_neg full⟩

/-- Evicting twice evicts what the second time asks for. -/
theorem evict_evict {later : ℚ} (ordered : now ≤ later) :
    (limiter.evict now).evict later = limiter.evict later := by
  have cutoffs := sub_le_sub_right ordered limiter.period
  simp only [evict, RateLimiter.mk.injEq, true_and]
  exact dropWhile_dropWhile cutoffs limiter.timestamps

/-- **Evicting early changes nothing** for the acquires that follow. -/
theorem outcomes_evict {times : List ℚ} (later : ∀ time ∈ times, now ≤ time) :
    (limiter.evict now).outcomes times = limiter.outcomes times := by
  cases times with
  | nil => rfl
  | cons time times =>
      have same : (limiter.evict now).acquire time = limiter.acquire time := by
        simp only [acquire, evict_evict (later time List.mem_cons_self), evict_calls, evict_period]
      rw [outcomes, outcomes, same]

end RateLimiter

/-! ## The tasks around the limiter -/

/-- An `acquire` that has returned or raised. -/
structure AcquireDecision where
  task : Nat
  time : ℚ
  outcome : Except RateLimitedError Unit

/-- The limiter with its lock, the tasks that wait for the lock, and the decisions
so far. -/
structure AcquirePool where
  limiter : RateLimiter
  waiting : Finset Nat := ∅
  holder : Option Nat := none
  decided : List AcquireDecision := []

/-- A task calls `acquire` and waits for the lock, a waiting task gets the lock, or
the task that holds it reads the clock and leaves. -/
inductive AcquireEvent where
  | call (task : Nat)
  | enter (task : Nat)
  | leave (now : ℚ)

/-- The reading of the clock at an event. -/
def AcquireEvent.reading : AcquireEvent → Option ℚ
  | .leave now => some now
  | _ => none

namespace AcquirePool

def step : Machine AcquirePool AcquireEvent
  | pool, .call task =>
      if task ∈ pool.waiting ∨ pool.holder = some task then none
      else some { pool with waiting := insert task pool.waiting }
  | pool, .enter task =>
      if task ∈ pool.waiting ∧ pool.holder = none then
        some { pool with waiting := pool.waiting.erase task, holder := some task }
      else none
  | pool, .leave now =>
      match pool.holder with
      | none => none
      | some task => some { pool with
          limiter := (pool.limiter.acquire now).2
          holder := none
          decided := pool.decided ++ [⟨task, now, (pool.limiter.acquire now).1⟩] }

/-- The times of the acquires that succeeded. -/
def succeeded (decided : List AcquireDecision) : List ℚ :=
  decided.filterMap fun decision => if decision.outcome.isOk then some decision.time else none

/-- An acquire succeeded if and only if fewer than `calls` earlier ones succeeded in
the window that ends with it. -/
def DecidedByWindow (calls : Nat) (period : ℚ) (decided : List AcquireDecision) : Prop :=
  ∀ earlier decision later, decided = earlier ++ decision :: later →
    (decision.outcome = .ok () ↔
      (window period decision.time (succeeded earlier)).length < calls)

/-- The limiter is exact: every acquire is decided by its window; after a rejected
one the later ones turn out as if it had not been made; and no window has more than
`calls` successes. -/
structure Exact (calls : Nat) (period : ℚ) (pool : AcquirePool) : Prop where
  decides : DecidedByWindow calls period pool.decided
  rejected : ∀ now raised, (pool.limiter.acquire now).1 = .error raised →
    ∀ times, (∀ time ∈ times, now ≤ time) →
      (pool.limiter.acquire now).2.outcomes times = pool.limiter.outcomes times
  limited : ∀ moment, (window period moment (succeeded pool.decided)).length ≤ calls

/-! ## What the deque remembers -/

/-- The deque holds the successes in order, apart from some that have left every
window that is still to come. -/
structure Remembers (calls : Nat) (period : ℚ) (pool : AcquirePool) (evicted : List ℚ) :
    Prop where
  settings : pool.limiter.calls = calls ∧ pool.limiter.period = period
  split : succeeded pool.decided = evicted ++ pool.limiter.timestamps
  gone : ∀ now, (∀ decision ∈ pool.decided, decision.time ≤ now) →
    ∀ time ∈ evicted, time ≤ now - period

variable {pool next : AcquirePool} {event : AcquireEvent} {evicted : List ℚ} {calls : Nat}
  {period now : ℚ}

theorem succeeded_append (first second : List AcquireDecision) :
    succeeded (first ++ second) = succeeded first ++ succeeded second := List.filterMap_append

theorem mem_succeeded {decided : List AcquireDecision} {time : ℚ} (member : time ∈ succeeded decided) :
    time ∈ decided.map AcquireDecision.time := by
  obtain ⟨decision, isDecision, found⟩ := List.mem_filterMap.mp member
  split at found
  · obtain rfl := Option.some.inj found
    exact List.mem_map_of_mem isDecision
  · cases found

theorem sorted_succeeded {decided : List AcquireDecision}
    (ordered : (decided.map AcquireDecision.time).Pairwise (· ≤ ·)) :
    (succeeded decided).Pairwise (· ≤ ·) := by
  refine ordered.sublist ?_
  have kept : succeeded decided =
      (decided.filter fun decision => decision.outcome.isOk).map AcquireDecision.time := by
    rw [succeeded, ← List.filterMap_eq_map, ← List.filterMap_filter]
    rfl
  rw [kept]
  exact List.filter_sublist.map _

/-- What one step does. -/
theorem step_cases (moved : step pool event = some next) :
    (event.reading = none ∧ next.limiter = pool.limiter ∧ next.decided = pool.decided) ∨
      ∃ task now, event = .leave now ∧ next.limiter = (pool.limiter.acquire now).2 ∧
        next.decided = pool.decided ++ [⟨task, now, (pool.limiter.acquire now).1⟩] := by
  cases event with
  | call task =>
      simp only [step, Option.ite_none_left_eq_some, Option.some.injEq] at moved
      obtain ⟨-, rfl⟩ := moved
      exact .inl ⟨rfl, rfl, rfl⟩
  | enter task =>
      simp only [step, Option.ite_none_right_eq_some, Option.some.injEq] at moved
      obtain ⟨-, rfl⟩ := moved
      exact .inl ⟨rfl, rfl, rfl⟩
  | leave now =>
      simp only [step] at moved
      split at moved
      · cases moved
      · rename_i task _
        obtain rfl := Option.some.inj moved
        exact .inr ⟨task, now, rfl, rfl, rfl⟩

/-- What is left after the eviction at a moment is the window that ends there. -/
theorem Remembers.evict_eq (remembers : pool.Remembers calls period evicted)
    (ordered : (pool.decided.map AcquireDecision.time).Pairwise (· ≤ ·))
    (past : ∀ decision ∈ pool.decided, decision.time ≤ now) :
    (pool.limiter.evict now).timestamps = window period now (succeeded pool.decided) := by
  have sorted := sorted_succeeded ordered
  have early : ∀ time ∈ pool.limiter.timestamps, time ≤ now := by
    intro time member
    have isTime : time ∈ succeeded pool.decided := by
      rw [remembers.split]
      exact List.mem_append_right _ member
    obtain ⟨decision, isDecision, rfl⟩ := List.mem_map.mp (mem_succeeded isTime)
    exact past decision isDecision
  rw [remembers.split] at sorted ⊢
  rw [window_append_of_gone (remembers.gone now past) (List.pairwise_append.mp sorted).2.1 early,
    ← remembers.settings.2]
  rfl

/-- An acquire decides by the window that ends with it. -/
theorem Remembers.acquire_ok_iff (remembers : pool.Remembers calls period evicted)
    (ordered : (pool.decided.map AcquireDecision.time).Pairwise (· ≤ ·))
    (past : ∀ decision ∈ pool.decided, decision.time ≤ now) :
    (pool.limiter.acquire now).1 = .ok () ↔
      (window period now (succeeded pool.decided)).length < calls := by
  rw [← remembers.evict_eq ordered past, ← remembers.settings.1]
  rcases pool.limiter.acquire_cases now with ⟨room, acquired⟩ | ⟨full, acquired⟩
  · simp [acquired, room]
  · simp [acquired, full]

/-- After an acquire, the times it evicted are gone too. -/
theorem Remembers.acquire (remembers : pool.Remembers calls period evicted) {task : Nat}
    (limiter : next.limiter = (pool.limiter.acquire now).2)
    (decided : next.decided = pool.decided ++ [⟨task, now, (pool.limiter.acquire now).1⟩]) :
    next.Remembers calls period
      (evicted ++ pool.limiter.timestamps.takeWhile fun time => time ≤ now - period) := by
  have whole : pool.limiter.timestamps =
      (pool.limiter.timestamps.takeWhile fun time => time ≤ now - period) ++
        (pool.limiter.evict now).timestamps := by
    rw [← remembers.settings.2]
    exact List.takeWhile_append_dropWhile.symm
  have gone : ∀ moment, (∀ decision ∈ next.decided, decision.time ≤ moment) →
      ∀ time ∈ evicted ++ pool.limiter.timestamps.takeWhile fun time => time ≤ now - period,
        time ≤ moment - period := by
    intro moment past time member
    rw [decided, List.forall_mem_append, List.forall_mem_singleton] at past
    rcases List.mem_append.mp member with before | dropped
    · exact remembers.gone moment past.1 time before
    · have early : time ≤ now - period := by simpa using List.mem_takeWhile_imp dropped
      exact early.trans (sub_le_sub_right past.2 period)
  have before : succeeded pool.decided =
      (evicted ++ pool.limiter.timestamps.takeWhile fun time => time ≤ now - period) ++
        (pool.limiter.evict now).timestamps := by
    rw [remembers.split, List.append_assoc, ← whole]
  rcases pool.limiter.acquire_cases now with ⟨-, acquired⟩ | ⟨-, acquired⟩
  · refine ⟨?_, ?_, gone⟩
    · rw [limiter, acquired]
      exact remembers.settings
    · rw [decided, limiter, succeeded_append, acquired, before, List.append_assoc]
      rfl
  · refine ⟨?_, ?_, gone⟩
    · rw [limiter, acquired]
      exact remembers.settings
    · rw [decided, limiter, succeeded_append, acquired, before]
      exact List.append_nil _

/-- One more decision made by its window. -/
theorem DecidedByWindow.append {decided : List AcquireDecision} {last : AcquireDecision}
    (decides : DecidedByWindow calls period decided)
    (byWindow : last.outcome = .ok () ↔
      (window period last.time (succeeded decided)).length < calls) :
    DecidedByWindow calls period (decided ++ [last]) := by
  intro earlier decision later split
  rcases List.eq_nil_or_concat later with rfl | ⟨before, other, rfl⟩
  · obtain ⟨rfl, same⟩ := List.append_inj' split rfl
    obtain rfl := List.singleton_inj.mp same
    exact byWindow
  · rw [List.concat_eq_append, ← List.cons_append, ← List.append_assoc] at split
    obtain ⟨rfl, -⟩ := List.append_inj' split rfl
    exact decides earlier decision before rfl

/-- What is decided by windows overfills none. -/
theorem DecidedByWindow.limited {decided : List AcquireDecision}
    (decides : DecidedByWindow calls period decided)
    (ordered : (decided.map AcquireDecision.time).Pairwise (· ≤ ·)) (moment : ℚ) :
    (window period moment (succeeded decided)).length ≤ calls := by
  refine length_window_le (sorted_succeeded ordered) ?_ moment
  intro earlier time rest split
  obtain ⟨first, others, rfl, rfl, found⟩ := List.filterMap_eq_append_iff.mp split
  obtain ⟨failures, decision, later, rfl, none, succeeds, -⟩ := List.filterMap_eq_cons_iff.mp found
  split at succeeds
  · rename_i isOk
    obtain rfl := Option.some.inj succeeds
    have outcome : decision.outcome = .ok () := by
      cases result : decision.outcome with
      | ok => rfl
      | error raised => simp [result, Except.isOk, Except.toBool] at isOk
    have room := (decides (first ++ failures) decision later (by simp)).mp outcome
    have nothing : succeeded failures = [] := List.filterMap_eq_nil_iff.mpr none
    rwa [succeeded_append, nothing, List.append_nil] at room
  · cases succeeds

/-- What every run keeps while the clock does not go back. -/
structure Invariant (calls : Nat) (period : ℚ) (readings : List ℚ) (pool : AcquirePool) :
    Prop where
  times : pool.decided.map AcquireDecision.time = readings
  remembers : ∃ evicted, pool.Remembers calls period evicted
  decides : DecidedByWindow calls period pool.decided

theorem Invariant.step {readings : List ℚ} (invariant : pool.Invariant calls period readings)
    (ordered : (readings ++ event.reading.toList).Pairwise (· ≤ ·))
    (moved : AcquirePool.step pool event = some next) :
    next.Invariant calls period (readings ++ event.reading.toList) := by
  obtain ⟨times, ⟨evicted, remembers⟩, decides⟩ := invariant
  rcases step_cases moved with ⟨silent, limiter, decided⟩ | ⟨task, now, rfl, limiter, decided⟩
  · rw [silent, Option.toList_none, List.append_nil]
    refine ⟨?_, ⟨evicted, ?_⟩, ?_⟩
    · rw [decided, times]
    · refine ⟨?_, ?_, ?_⟩
      · rw [limiter]
        exact remembers.settings
      · rw [decided, limiter]
        exact remembers.split
      · rw [decided]
        exact remembers.gone
    · rwa [decided]
  · have parts := List.pairwise_append.mp ordered
    have past : ∀ decision ∈ pool.decided, decision.time ≤ now := by
      intro decision member
      refine parts.2.2 decision.time ?_ now (List.mem_singleton_self now)
      rw [← times]
      exact List.mem_map_of_mem member
    refine ⟨?_, ⟨_, remembers.acquire limiter decided⟩, ?_⟩
    · rw [decided, List.map_append, times]
      rfl
    · rw [decided]
      exact decides.append (remembers.acquire_ok_iff (times ▸ parts.1) past)

theorem Invariant.exact {readings : List ℚ} (invariant : pool.Invariant calls period readings)
    (ordered : readings.Pairwise (· ≤ ·)) : pool.Exact calls period where
  decides := invariant.decides
  rejected := by
    intro now raised isError times later
    rcases pool.limiter.acquire_cases now with ⟨-, acquired⟩ | ⟨-, acquired⟩
    · rw [acquired] at isError
      cases isError
    · rw [acquired]
      exact RateLimiter.outcomes_evict later
  limited := invariant.decides.limited (invariant.times ▸ ordered)

theorem invariant_of_run (calls : Nat) (period : ℚ) {events : List AcquireEvent}
    (ran : AcquirePool.step.run ⟨⟨calls, period, []⟩, ∅, none, []⟩ events = some pool)
    (ordered : (events.filterMap AcquireEvent.reading).Pairwise (· ≤ ·)) :
    pool.Invariant calls period (events.filterMap AcquireEvent.reading) := by
  refine @Machine.holds_of_run _ _ AcquirePool.step
    (fun done pool => (done.filterMap AcquireEvent.reading).Pairwise (· ≤ ·) →
      pool.Invariant calls period (done.filterMap AcquireEvent.reading)) ?_ _ ?_ _ _ ran ordered
  · intro done pool event next invariant moved ordered
    have last : [event].filterMap AcquireEvent.reading = event.reading.toList := by
      cases reading : event.reading <;> simp [reading]
    rw [List.filterMap_append, last] at ordered ⊢
    exact (invariant (List.pairwise_append.mp ordered).1).step ordered moved
  · intro _
    refine ⟨rfl, ⟨[], ⟨rfl, rfl⟩, rfl, by simp⟩, ?_⟩
    intro earlier decision later split
    simp at split

/-- **The sliding window is exact**, in every state of every run in which the clock
does not go back. -/
theorem exact_of_run (calls : Nat) (period : ℚ) (events : List AcquireEvent)
    (ordered : (events.filterMap AcquireEvent.reading).Pairwise (· ≤ ·)) :
    ∀ pool ∈ AcquirePool.step.visits ⟨⟨calls, period, []⟩, ∅, none, []⟩ events,
      pool.Exact calls period := by
  intro pool visited
  obtain ⟨done, rest, rfl, ran⟩ := (Machine.mem_visits_iff ..).mp visited
  rw [List.filterMap_append] at ordered
  have soFar := (List.pairwise_append.mp ordered).1
  exact (invariant_of_run calls period ran soFar).exact soFar

/-- One call a minute; three tasks call at once, the second one too early and the
third one exactly a minute after the first. -/
theorem oneAMinute_exact :
    ∃ pool ∈ AcquirePool.step.visits ⟨⟨1, 60, []⟩, ∅, none, []⟩
        [.call 0, .call 1, .call 2, .enter 0, .leave 5, .enter 1, .leave 64, .enter 2, .leave 65],
      succeeded pool.decided = [5, 65] ∧ pool.Exact 1 60 := by
  have seen : (AcquirePool.step.run ⟨⟨1, 60, []⟩, ∅, none, []⟩
      [.call 0, .call 1, .call 2, .enter 0, .leave 5, .enter 1, .leave 64, .enter 2, .leave 65]).map
        (fun pool => succeeded pool.decided) = some [5, 65] := by decide +kernel
  obtain ⟨pool, ran, succeeds⟩ := Option.map_eq_some_iff.mp seen
  have visited := (Machine.mem_visits_iff ..).mpr ⟨_, [], (List.append_nil _).symm, ran⟩
  refine ⟨pool, visited, succeeds, exact_of_run 1 60 _ ?_ pool visited⟩
  decide +kernel

/-! ## No budget is wasted -/

/-- What is decided by windows admits whatever has room. -/
theorem DecidedByWindow.succeeded_eq {decided : List AcquireDecision}
    (decides : DecidedByWindow calls period decided) :
    succeeded decided = admitted period calls (decided.map AcquireDecision.time) := by
  induction decided using List.reverseRecOn with
  | nil => rfl
  | append_singleton decided last ih =>
      have before := ih fun earlier decision later split =>
        decides earlier decision (later ++ [last]) (by rw [split, List.append_assoc]; rfl)
      have byWindow := decides decided last [] rfl
      rw [List.map_append, List.map_singleton, admitted_concat, ← before, succeeded_append]
      cases outcome : last.outcome with
      | ok =>
          rw [if_pos (byWindow.mp outcome)]
          simp [succeeded, outcome, Except.isOk, Except.toBool]
      | error raised =>
          have full : ¬ (window period last.time (succeeded decided)).length < calls := by
            intro room
            rw [byWindow.mpr room] at outcome
            cases outcome
          rw [if_neg full]
          simp [succeeded, outcome, Except.isOk, Except.toBool]

/-- Of the calls decided so far, at every moment at least as many succeeded as under any
choice of them that keeps to the limit; and what succeeded is such a choice. -/
structure AdmitsMost (calls : Nat) (period : ℚ) (pool : AcquirePool) : Prop where
  chosen : (succeeded pool.decided).Sublist (pool.decided.map AcquireDecision.time)
  limited : ∀ moment, (window period moment (succeeded pool.decided)).length ≤ calls
  ahead : ∀ chosen : List ℚ, chosen.Sublist (pool.decided.map AcquireDecision.time) →
    (∀ moment, (window period moment chosen).length ≤ calls) → ∀ moment,
      chosen.countP (fun time => time ≤ moment) ≤
        (succeeded pool.decided).countP fun time => time ≤ moment

theorem DecidedByWindow.admitsMost (positive : 0 < calls ∨ 0 < period)
    (decides : DecidedByWindow calls period pool.decided)
    (ordered : (pool.decided.map AcquireDecision.time).Pairwise (· ≤ ·)) :
    pool.AdmitsMost calls period where
  chosen := by
    rw [decides.succeeded_eq]
    exact admitted_sublist ..
  limited := decides.limited ordered
  ahead chosen part fits moment := by
    rw [decides.succeeded_eq]
    exact countP_le_admitted positive ordered part fits moment

/-- **The limiter wastes none of its budget**: in every state of every run in which the
clock does not go back, nothing that keeps to the limit has let more of the same calls
through, at any moment. -/
theorem admitsMost_of_run (calls : Nat) (period : ℚ) (positive : 0 < calls ∨ 0 < period)
    (events : List AcquireEvent)
    (ordered : (events.filterMap AcquireEvent.reading).Pairwise (· ≤ ·)) :
    ∀ pool ∈ AcquirePool.step.visits ⟨⟨calls, period, []⟩, ∅, none, []⟩ events,
      pool.AdmitsMost calls period := by
  intro pool visited
  obtain ⟨done, rest, rfl, ran⟩ := (Machine.mem_visits_iff ..).mp visited
  rw [List.filterMap_append] at ordered
  have soFar := (List.pairwise_append.mp ordered).1
  have invariant := invariant_of_run calls period ran soFar
  exact invariant.decides.admitsMost positive (invariant.times ▸ soFar)

/-- Two calls a minute. The call at 30 is let through and the one at 61 is rejected; to
reject the first and let the other through would have been no better. -/
theorem twoAMinute_admitsMost :
    ∃ pool ∈ AcquirePool.step.visits ⟨⟨2, 60, []⟩, ∅, none, []⟩
        [.call 0, .enter 0, .leave 2, .call 1, .enter 1, .leave 30, .call 2, .enter 2, .leave 61],
      succeeded pool.decided = [2, 30] ∧ pool.AdmitsMost 2 60 := by
  have seen : (AcquirePool.step.run ⟨⟨2, 60, []⟩, ∅, none, []⟩
      [.call 0, .enter 0, .leave 2, .call 1, .enter 1, .leave 30, .call 2, .enter 2,
        .leave 61]).map (fun pool => succeeded pool.decided) = some [2, 30] := by decide +kernel
  obtain ⟨pool, ran, succeeds⟩ := Option.map_eq_some_iff.mp seen
  have visited := (Machine.mem_visits_iff ..).mpr ⟨_, [], (List.append_nil _).symm, ran⟩
  refine ⟨pool, visited, succeeds, admitsMost_of_run 2 60 (.inl (by decide)) _ ?_ pool visited⟩
  decide +kernel

end AcquirePool

end Kenjutsu.Pipeline
