import Kenjutsu.Foundations.Projections
import Kenjutsu.Server.Debounce

/-!
# What a debounced factory has seen

Over a run of the debounce manager three things are proved. The armed timers of
a pull request are the one handle in `_pending`. A factory is invoked at most
once, and only if its pull request was left alone from the call of `schedule`
to the expiry of the timer. The pull requests are independent: the events of
the others can be deleted from a run and nothing changes for the one that is
left.

The second is an invariant of the events so far and the state (`History`), the
third a simulation of the whole manager by the manager of one key (`Alone`).
-/

set_option autoImplicit false

namespace Kenjutsu.Server

open Foundations

/-- The event is a call of `schedule` or `cancel` for the key. -/
def DebounceEvent.Resets {Factory : Type} (prKey : PRKey) : DebounceEvent Factory → Prop
  | .schedule key _ _ => key = prKey
  | .cancel key => key = prKey
  | .expire _ _ | .taskStep _ | .taskEnd _ => False

/-- No event calls `schedule` or `cancel` for the key. -/
def Undisturbed {Factory : Type} (prKey : PRKey) (events : List (DebounceEvent Factory)) : Prop :=
  ∀ event ∈ events, ¬ event.Resets prKey

theorem Undisturbed.append {Factory : Type} {prKey : PRKey}
    {since : List (DebounceEvent Factory)}
    (undisturbed : Undisturbed prKey since) {event : DebounceEvent Factory}
    (calm : ¬ event.Resets prKey) : Undisturbed prKey (since ++ [event]) := by
  intro other member
  rcases List.mem_append.mp member with earlier | last
  · exact undisturbed other earlier
  · obtain rfl := List.mem_singleton.mp last
    exact calm

namespace DebounceManager

variable {Factory : Type}

/-! ## Properties of the interface -/

/-- `pending_keys`. -/
def pendingKeys (manager : DebounceManager Factory) : Finset PRKey := manager.pending.keys

/-- `in_flight_keys`. -/
def inFlightKeys (manager : DebounceManager Factory) : Finset PRKey := manager.inFlight.keys

/-- The armed timers of a key are the handle in `_pending`, if there is one. -/
theorem Consistent.armed_iff_pending {manager : DebounceManager Factory}
    (consistent : manager.Consistent) (prKey : PRKey) (handle : Nat) :
    (∃ timer, manager.timers.get handle = some timer ∧ timer.prKey = prKey ∧ timer.armed) ↔
      manager.pending.get prKey = some handle := by
  constructor
  · rintro ⟨timer, known, rfl, armed⟩
    exact consistent.armed_pending handle timer known armed
  · exact consistent.pending_armed prKey handle

/-- No key is pending and in flight at once. -/
theorem Consistent.keys_disjoint {manager : DebounceManager Factory}
    (consistent : manager.Consistent) : Disjoint manager.pendingKeys manager.inFlightKeys := by
  rw [Finset.disjoint_left]
  intro prKey pending inFlight
  obtain ⟨handle, found⟩ := Option.isSome_iff_exists.mp ((Dict.mem_keys ..).mp pending)
  have stored := (Dict.mem_keys ..).mp inFlight
  rw [consistent.apart prKey handle found] at stored
  cases stored

/-! ## What a state remembers of its run -/

/-- The part of a run since the call of `schedule` that armed a timer. -/
def SinceSchedule (events : List (DebounceEvent Factory)) (prKey : PRKey) (coroFactory : Factory)
    (handle : Nat) (since : List (DebounceEvent Factory)) : Prop :=
  ∃ before, events = before ++ .schedule prKey coroFactory handle :: since

/-- The timer expired, and its key was left alone from the call of `schedule`
until then. -/
def ExpiredUndisturbed (events : List (DebounceEvent Factory)) (prKey : PRKey)
    (coroFactory : Factory) (handle : Nat) : Prop :=
  ∃ between task later,
    SinceSchedule events prKey coroFactory handle (between ++ .expire handle task :: later) ∧
      Undisturbed prKey between

/-- What the timers, the tasks and the invocations say about the events that led
to them. -/
structure History (events : List (DebounceEvent Factory)) (manager : DebounceManager Factory) :
    Prop where
  consistent : manager.Consistent
  /-- The key of an armed timer was left alone since its call of `schedule`. -/
  armed : ∀ handle timer, manager.timers.get handle = some timer → timer.armed →
    ∃ since, SinceSchedule events timer.prKey timer.coroFactory handle since ∧
      Undisturbed timer.prKey since
  fired : ∀ handle timer, manager.timers.get handle = some timer → timer.fired →
    ExpiredUndisturbed events timer.prKey timer.coroFactory handle
  /-- A task belongs to a timer that fired, with its key and its factory. -/
  created : ∀ task running, manager.tasks.get task = some running →
    ∃ timer, manager.timers.get running.timer = some timer ∧ timer.fired ∧
      timer.prKey = running.prKey ∧ timer.coroFactory = running.coroFactory
  /-- A timer creates one task. -/
  single : ∀ first second running running', manager.tasks.get first = some running →
    manager.tasks.get second = some running' → running.timer = running'.timer → first = second
  /-- An invocation is the first step of a task. -/
  invoked : ∀ handle coroFactory, (handle, coroFactory) ∈ manager.invocations →
    ∃ task running, manager.tasks.get task = some running ∧ running.started ∧
      running.timer = handle ∧ running.coroFactory = coroFactory
  once : (manager.invocations.map Prod.fst).Nodup

theorem history_empty : History [] ({} : DebounceManager Factory) := by
  constructor
  case consistent => exact consistent_empty
  case once => exact List.nodup_nil
  all_goals simp

theorem SinceSchedule.append {events : List (DebounceEvent Factory)} {prKey : PRKey}
    {coroFactory : Factory} {handle : Nat} {since : List (DebounceEvent Factory)}
    (scheduled : SinceSchedule events prKey coroFactory handle since)
    (event : DebounceEvent Factory) :
    SinceSchedule (events ++ [event]) prKey coroFactory handle (since ++ [event]) := by
  obtain ⟨before, rfl⟩ := scheduled
  exact ⟨before, by simp⟩

theorem ExpiredUndisturbed.append {events : List (DebounceEvent Factory)} {prKey : PRKey}
    {coroFactory : Factory} {handle : Nat}
    (expired : ExpiredUndisturbed events prKey coroFactory handle)
    (event : DebounceEvent Factory) :
    ExpiredUndisturbed (events ++ [event]) prKey coroFactory handle := by
  obtain ⟨between, task, later, scheduled, undisturbed⟩ := expired
  exact ⟨between, task, later ++ [event], by simpa using scheduled.append event, undisturbed⟩

/-! ## What a move does to one timer and to one task -/

/-- The timers after a call that cancels what its key has. -/
theorem reset_timers (manager : DebounceManager Factory) (prKey : PRKey) (handle : Nat) :
    ((manager.cancelPending prKey).2.cancelInFlight prKey).2.timers.get handle =
      if manager.pending.get prKey = some handle then
        (manager.timers.get handle).map fun timer => { timer with cancelled := true }
      else manager.timers.get handle := by
  rw [cancelInFlight_timers, cancelPending_timers]

/-- The tasks after a call that cancels what its key has. -/
theorem reset_tasks (manager : DebounceManager Factory) (prKey : PRKey) (task : Nat) :
    ((manager.cancelPending prKey).2.cancelInFlight prKey).2.tasks.get task =
      if manager.inFlight.get prKey = some task then
        (manager.tasks.get task).map fun running => { running with cancelled := true }
      else manager.tasks.get task := by
  rw [cancelInFlight_tasks, cancelPending_inFlight, cancelPending_tasks]

/-- A timer after a reset comes from the one before it, and an armed one is not
of the key that was reset. -/
theorem Consistent.timer_of_reset {manager : DebounceManager Factory}
    (consistent : manager.Consistent) {prKey : PRKey} {handle : Nat}
    {timer : TimerHandle Factory}
    (known : ((manager.cancelPending prKey).2.cancelInFlight prKey).2.timers.get handle =
      some timer) :
    ∃ before, manager.timers.get handle = some before ∧ timer.prKey = before.prKey ∧
      timer.coroFactory = before.coroFactory ∧ timer.fired = before.fired ∧
      (timer.armed → before.armed ∧ timer.prKey ≠ prKey) := by
  rw [reset_timers] at known
  split at known
  · obtain ⟨before, found, rfl⟩ := Option.map_eq_some_iff.mp known
    refine ⟨before, found, rfl, rfl, rfl, ?_⟩
    intro armed
    simp [TimerHandle.armed] at armed
  · rename_i notPending
    refine ⟨timer, known, rfl, rfl, rfl, ?_⟩
    intro armed
    refine ⟨armed, ?_⟩
    rintro rfl
    exact notPending (consistent.armed_pending handle timer known armed)

/-- Where a timer comes from. -/
theorem Moved.timer_origin {manager next : DebounceManager Factory}
    {event : DebounceEvent Factory} (moved : Moved manager event next)
    (consistent : manager.Consistent) {handle : Nat} {timer : TimerHandle Factory}
    (known : next.timers.get handle = some timer) :
    (event = .schedule timer.prKey timer.coroFactory handle ∧ timer.fired = false) ∨
      ∃ before, manager.timers.get handle = some before ∧ timer.prKey = before.prKey ∧
        timer.coroFactory = before.coroFactory ∧
        (timer.fired → before.fired ∨ before.armed ∧ ∃ task, event = .expire handle task) ∧
        (timer.armed → before.armed ∧ ¬ event.Resets timer.prKey) := by
  cases moved with
  | @schedule prKey coroFactory scheduled fresh =>
      simp only [DebounceManager.schedule, Dict.get_set] at known
      split at known
      · subst handle
        cases known
        exact .inl ⟨rfl, rfl⟩
      · obtain ⟨before, found, key, factory, fired, armed⟩ := consistent.timer_of_reset known
        refine .inr ⟨before, found, key, factory, fun now => .inl (fired ▸ now), ?_⟩
        intro now
        exact ⟨(armed now).1, fun resets => (armed now).2 resets.symm⟩
  | @cancel prKey =>
      obtain ⟨before, found, key, factory, fired, armed⟩ := consistent.timer_of_reset known
      refine .inr ⟨before, found, key, factory, fun now => .inl (fired ▸ now), ?_⟩
      intro now
      exact ⟨(armed now).1, fun resets => (armed now).2 resets.symm⟩
  | @expire expired task before found armed =>
      simp only [fire, Dict.get_set] at known
      split at known
      · subst handle
        cases known
        refine .inr ⟨before, found, rfl, rfl, fun _ => .inr ⟨armed, task, rfl⟩, ?_⟩
        intro now
        simp [TimerHandle.armed] at now
      · exact .inr ⟨timer, known, rfl, rfl, .inl, fun now => ⟨now, id⟩⟩
  | resume | enter | leave | drop =>
      exact .inr ⟨timer, known, rfl, rfl, .inl, fun now => ⟨now, id⟩⟩

/-- A timer keeps its key and its factory, and stays fired. -/
theorem Moved.timer_kept {manager next : DebounceManager Factory}
    {event : DebounceEvent Factory} (moved : Moved manager event next) {handle : Nat}
    {timer : TimerHandle Factory} (known : manager.timers.get handle = some timer) :
    ∃ after, next.timers.get handle = some after ∧ after.prKey = timer.prKey ∧
      after.coroFactory = timer.coroFactory ∧ (timer.fired → after.fired) := by
  cases moved with
  | @schedule prKey coroFactory scheduled fresh =>
      have old : handle ≠ scheduled := by
        rintro rfl
        rw [fresh] at known
        cases known
      simp only [DebounceManager.schedule, Dict.get_set, if_neg old, reset_timers, known]
      split
      · exact ⟨_, rfl, rfl, rfl, id⟩
      · exact ⟨_, rfl, rfl, rfl, id⟩
  | cancel =>
      simp only [reset_timers, known]
      split
      · exact ⟨_, rfl, rfl, rfl, id⟩
      · exact ⟨_, rfl, rfl, rfl, id⟩
  | @expire expired task before found =>
      simp only [fire, Dict.get_set, known]
      split
      · subst handle
        obtain rfl := Option.some.inj (found.symm.trans known)
        exact ⟨_, rfl, rfl, rfl, fun _ => rfl⟩
      · exact ⟨_, rfl, rfl, rfl, id⟩
  | resume | enter | leave | drop => exact ⟨timer, known, rfl, rfl, id⟩

/-- Where a task comes from. -/
theorem Moved.task_origin {manager next : DebounceManager Factory}
    {event : DebounceEvent Factory} (moved : Moved manager event next) {task : Nat}
    {running : ReviewTask Factory} (known : next.tasks.get task = some running) :
    (event = .expire running.timer task ∧ ∃ timer,
        manager.timers.get running.timer = some timer ∧ timer.armed ∧
        timer.prKey = running.prKey ∧ timer.coroFactory = running.coroFactory) ∨
      ∃ before, manager.tasks.get task = some before ∧ running.prKey = before.prKey ∧
        running.coroFactory = before.coroFactory ∧ running.timer = before.timer := by
  cases moved with
  | schedule | cancel =>
      refine .inr ?_
      simp only [DebounceManager.schedule, reset_tasks] at known
      split at known
      · obtain ⟨before, found, rfl⟩ := Option.map_eq_some_iff.mp known
        exact ⟨before, found, rfl, rfl, rfl⟩
      · exact ⟨running, known, rfl, rfl, rfl⟩
  | @expire expired created timer found armed =>
      simp only [fire, Dict.get_set] at known
      split at known
      · subst task
        cases known
        exact .inl ⟨rfl, timer, found, armed, rfl, rfl⟩
      · exact .inr ⟨running, known, rfl, rfl, rfl⟩
  | resume => exact .inr ⟨running, known, rfl, rfl, rfl⟩
  | enter found | leave found | drop found =>
      simp only [runStart, runFinally, Dict.get_set] at known
      split at known
      · subst task
        cases known
        exact .inr ⟨_, found, rfl, rfl, rfl⟩
      · exact .inr ⟨running, known, rfl, rfl, rfl⟩

/-- A task keeps its key, its factory and its timer, and stays started. -/
theorem Moved.task_kept {manager next : DebounceManager Factory}
    {event : DebounceEvent Factory} (moved : Moved manager event next) {task : Nat}
    {running : ReviewTask Factory} (known : manager.tasks.get task = some running) :
    ∃ after, next.tasks.get task = some after ∧ after.timer = running.timer ∧
      after.coroFactory = running.coroFactory ∧ (running.started → after.started) := by
  cases moved with
  | schedule | cancel =>
      simp only [DebounceManager.schedule, reset_tasks, known]
      split
      · exact ⟨_, rfl, rfl, rfl, id⟩
      · exact ⟨_, rfl, rfl, rfl, id⟩
  | @expire expired created timer found armed fresh =>
      have old : task ≠ created := by
        rintro rfl
        rw [fresh] at known
        cases known
      simp only [fire, Dict.get_set, if_neg old, known]
      exact ⟨_, rfl, rfl, rfl, id⟩
  | resume => exact ⟨running, known, rfl, rfl, id⟩
  | enter found =>
      simp only [runStart, Dict.get_set, known]
      split
      · subst task
        obtain rfl := Option.some.inj (found.symm.trans known)
        exact ⟨_, rfl, rfl, rfl, fun _ => rfl⟩
      · exact ⟨_, rfl, rfl, rfl, id⟩
  | leave found | drop found =>
      simp only [runFinally, Dict.get_set, known]
      split
      · subst task
        obtain rfl := Option.some.inj (found.symm.trans known)
        exact ⟨_, rfl, rfl, rfl, id⟩
      · exact ⟨_, rfl, rfl, rfl, id⟩

/-- Only the first step of a task invokes a factory. -/
theorem Moved.invocations_of {manager next : DebounceManager Factory}
    {event : DebounceEvent Factory} (moved : Moved manager event next) :
    next.invocations = manager.invocations ∨
      ∃ task running, manager.tasks.get task = some running ∧ running.started = false ∧
        next.invocations = manager.invocations ++ [(running.timer, running.coroFactory)] ∧
        next.tasks.get task = some { running with started := true } := by
  cases moved with
  | schedule | cancel => exact .inl (by simp [DebounceManager.schedule])
  | expire | resume | leave | drop => exact .inl rfl
  | @enter task running known going notStarted =>
      exact .inr ⟨task, running, known, notStarted, rfl, by simp [runStart]⟩

/-! ## The history of a run -/

theorem History.step_armed {events : List (DebounceEvent Factory)}
    {manager next : DebounceManager Factory} {event : DebounceEvent Factory}
    (history : History events manager) (moved : Moved manager event next) {handle : Nat}
    {timer : TimerHandle Factory} (known : next.timers.get handle = some timer)
    (armed : timer.armed) :
    ∃ since, SinceSchedule (events ++ [event]) timer.prKey timer.coroFactory handle since ∧
      Undisturbed timer.prKey since := by
  obtain ⟨rfl, -⟩ | ⟨before, found, key, factory, -, wasArmed⟩ :=
    moved.timer_origin history.consistent known
  · exact ⟨[], ⟨events, rfl⟩, by simp [Undisturbed]⟩
  · obtain ⟨armedBefore, calm⟩ := wasArmed armed
    obtain ⟨since, scheduled, undisturbed⟩ := history.armed handle before found armedBefore
    rw [← key, ← factory] at scheduled
    rw [← key] at undisturbed
    exact ⟨since ++ [event], scheduled.append event, undisturbed.append calm⟩

theorem History.step_fired {events : List (DebounceEvent Factory)}
    {manager next : DebounceManager Factory} {event : DebounceEvent Factory}
    (history : History events manager) (moved : Moved manager event next) {handle : Nat}
    {timer : TimerHandle Factory} (known : next.timers.get handle = some timer)
    (fired : timer.fired) :
    ExpiredUndisturbed (events ++ [event]) timer.prKey timer.coroFactory handle := by
  obtain ⟨-, notFired⟩ | ⟨before, found, key, factory, wasFired, -⟩ :=
    moved.timer_origin history.consistent known
  · rw [notFired] at fired
    cases fired
  · rw [key, factory]
    rcases wasFired fired with firedBefore | ⟨armed, task, rfl⟩
    · exact (history.fired handle before found firedBefore).append event
    · obtain ⟨since, scheduled, undisturbed⟩ := history.armed handle before found armed
      exact ⟨since, task, [], scheduled.append _, undisturbed⟩

theorem History.step_created {events : List (DebounceEvent Factory)}
    {manager next : DebounceManager Factory} {event : DebounceEvent Factory}
    (history : History events manager) (moved : Moved manager event next) {task : Nat}
    {running : ReviewTask Factory} (known : next.tasks.get task = some running) :
    ∃ timer, next.timers.get running.timer = some timer ∧ timer.fired ∧
      timer.prKey = running.prKey ∧ timer.coroFactory = running.coroFactory := by
  obtain ⟨rfl, timer, found, -, key, factory⟩ | ⟨before, found, key, factory, same⟩ :=
    moved.task_origin known
  · cases moved with
    | @expire _ _ expired found' =>
        obtain rfl := Option.some.inj (found.symm.trans found')
        exact ⟨{ timer with fired := true }, by simp [fire], rfl, key, factory⟩
  · obtain ⟨timer, found', fired, key', factory'⟩ := history.created task before found
    obtain ⟨after, kept, sameKey, sameFactory, staysFired⟩ := moved.timer_kept found'
    rw [same, key, factory]
    exact ⟨after, kept, staysFired fired, sameKey.trans key', sameFactory.trans factory'⟩

theorem History.step_single {events : List (DebounceEvent Factory)}
    {manager next : DebounceManager Factory} {event : DebounceEvent Factory}
    (history : History events manager) (moved : Moved manager event next) {first second : Nat}
    {running running' : ReviewTask Factory} (known : next.tasks.get first = some running)
    (known' : next.tasks.get second = some running') (same : running.timer = running'.timer) :
    first = second := by
  -- a timer that has a task has fired, so it creates no further task
  have notArmed : ∀ task before timer, manager.tasks.get task = some before →
      manager.timers.get before.timer = some timer → ¬ timer.armed := by
    intro task before timer found stored armed
    obtain ⟨other, stored', fired, -⟩ := history.created task before found
    obtain rfl := Option.some.inj (stored.symm.trans stored')
    simp [TimerHandle.armed, fired] at armed
  obtain ⟨created, timer, found, armed, -⟩ | ⟨before, found, -, -, timerOf⟩ :=
    moved.task_origin known <;>
  obtain ⟨created', timer', found', armed', -⟩ | ⟨before', found', -, -, timerOf'⟩ :=
    moved.task_origin known'
  · rw [created] at created'
    exact (DebounceEvent.expire.inj created').2
  · rw [same, timerOf'] at found
    exact absurd armed (notArmed _ _ _ found' found)
  · rw [← same, timerOf] at found'
    exact absurd armed' (notArmed _ _ _ found found')
  · exact history.single _ _ _ _ found found' (timerOf ▸ timerOf' ▸ same)

theorem History.step_invoked {events : List (DebounceEvent Factory)}
    {manager next : DebounceManager Factory} {event : DebounceEvent Factory}
    (history : History events manager) (moved : Moved manager event next) {handle : Nat}
    {coroFactory : Factory} (invocation : (handle, coroFactory) ∈ next.invocations) :
    ∃ task running, next.tasks.get task = some running ∧ running.started ∧
      running.timer = handle ∧ running.coroFactory = coroFactory := by
  have earlier : (handle, coroFactory) ∈ manager.invocations →
      ∃ task running, next.tasks.get task = some running ∧ running.started ∧
        running.timer = handle ∧ running.coroFactory = coroFactory := by
    intro invocation
    obtain ⟨task, running, found, started, rfl, rfl⟩ :=
      history.invoked handle coroFactory invocation
    obtain ⟨after, kept, timer, factory, staysStarted⟩ := moved.task_kept found
    exact ⟨task, after, kept, staysStarted started, timer, factory⟩
  rcases moved.invocations_of with same | ⟨task, running, -, -, appended, stored⟩
  · exact earlier (same ▸ invocation)
  · rw [appended] at invocation
    rcases List.mem_append.mp invocation with before | last
    · exact earlier before
    · obtain ⟨rfl, rfl⟩ := Prod.mk.inj (List.mem_singleton.mp last)
      exact ⟨task, _, stored, rfl, rfl, rfl⟩

theorem History.step_once {events : List (DebounceEvent Factory)}
    {manager next : DebounceManager Factory} {event : DebounceEvent Factory}
    (history : History events manager) (moved : Moved manager event next) :
    (next.invocations.map Prod.fst).Nodup := by
  rcases moved.invocations_of with same | ⟨task, running, found, notStarted, appended, -⟩
  · rw [same]
    exact history.once
  · rw [appended, List.map_append]
    refine List.nodup_append.mpr ⟨history.once, List.nodup_singleton _, ?_⟩
    rintro handle earlier last member rfl
    obtain rfl := List.mem_singleton.mp member
    obtain ⟨⟨handle, coroFactory⟩, invocation, timer⟩ := List.mem_map.mp earlier
    obtain ⟨other, started, found', hasStarted, timer', -⟩ :=
      history.invoked handle coroFactory invocation
    obtain rfl := history.single _ _ _ _ found found' (timer.symm.trans timer'.symm)
    obtain rfl := Option.some.inj (found.symm.trans found')
    rw [notStarted] at hasStarted
    cases hasStarted

/-- **The history is kept by every step.** -/
theorem History.step {events : List (DebounceEvent Factory)}
    {manager next : DebounceManager Factory} {event : DebounceEvent Factory}
    (history : History events manager)
    (stepped : DebounceManager.step manager event = some next) :
    History (events ++ [event]) next := by
  have moved := moved_of_step stepped
  constructor
  case consistent => exact history.consistent.step stepped
  case armed => exact fun _ _ known armed => history.step_armed moved known armed
  case fired => exact fun _ _ known fired => history.step_fired moved known fired
  case created => exact fun _ _ known => history.step_created moved known
  case single => exact fun _ _ _ _ known known' same => history.step_single moved known known' same
  case invoked => exact fun _ _ invocation => history.step_invoked moved invocation
  case once => exact history.step_once moved

/-- Every run has its history. -/
theorem history_of_run {events : List (DebounceEvent Factory)} {manager : DebounceManager Factory}
    (ran : DebounceManager.step.run {} events = some manager) : History events manager :=
  Machine.holds_of_run (fun _ _ _ _ history stepped => history.step stepped) history_empty ran

/-! ## One key alone -/

/-- What belongs to one key: its entries in the dictionaries, its timers, its
tasks, and the invocations of its factories. -/
@[ext] structure KeyView (Factory : Type) where
  pending : Option Nat
  inFlight : Option Nat
  timers : Nat → Option (TimerHandle Factory)
  tasks : Nat → Option (ReviewTask Factory)
  invocations : List (Nat × Factory)

/-- The timer is one of the key. -/
def ownsTimer (manager : DebounceManager Factory) (prKey : PRKey) (handle : Nat) : Bool :=
  (manager.timers.get handle).any fun timer => timer.prKey = prKey

/-- The task is one of the key. -/
def ownsTask (manager : DebounceManager Factory) (prKey : PRKey) (task : Nat) : Bool :=
  (manager.tasks.get task).any fun running => running.prKey = prKey

def viewOf (manager : DebounceManager Factory) (prKey : PRKey) : KeyView Factory where
  pending := manager.pending.get prKey
  inFlight := manager.inFlight.get prKey
  timers handle := (manager.timers.get handle).filter fun timer => timer.prKey = prKey
  tasks task := (manager.tasks.get task).filter fun running => running.prKey = prKey
  invocations := manager.invocations.filter fun invocation =>
    manager.ownsTimer prKey invocation.1

/-- The event concerns the key: the key is named by the call, or it is the key
of the timer or of the task. -/
def concerns (prKey : PRKey) (manager : DebounceManager Factory) : DebounceEvent Factory → Bool
  | .schedule key _ _ => key = prKey
  | .cancel key => key = prKey
  | .expire handle _ => manager.ownsTimer prKey handle
  | .taskStep task | .taskEnd task => manager.ownsTask prKey task

/-- A step changes nothing about which of the earlier invocations are the
key's. -/
theorem filter_invocations {events : List (DebounceEvent Factory)}
    {manager next : DebounceManager Factory} {event : DebounceEvent Factory}
    (history : History events manager) (moved : Moved manager event next) (prKey : PRKey) :
    (manager.invocations.filter fun invocation => next.ownsTimer prKey invocation.1) =
      (manager.viewOf prKey).invocations := by
  apply List.filter_congr
  rintro ⟨handle, coroFactory⟩ invocation
  obtain ⟨task, running, found, -, rfl, -⟩ := history.invoked handle coroFactory invocation
  obtain ⟨timer, known, -⟩ := history.created task running found
  obtain ⟨after, kept, key, -⟩ := moved.timer_kept known
  simp [ownsTimer, known, kept, key]

/-- The invocations of a key after a step that invokes none of its factories. -/
theorem viewOf_invocations {events : List (DebounceEvent Factory)}
    {manager next : DebounceManager Factory} {event : DebounceEvent Factory}
    (history : History events manager) (moved : Moved manager event next) (prKey : PRKey)
    (same : next.invocations = manager.invocations) :
    (next.viewOf prKey).invocations = (manager.viewOf prKey).invocations := by
  rw [← filter_invocations history moved prKey, ← same]
  rfl

/-- The invocations of a key after the first step of a task. -/
theorem viewOf_runStart_invocations {events : List (DebounceEvent Factory)}
    {manager : DebounceManager Factory} (history : History events manager) (prKey : PRKey)
    {task : Nat} {running : ReviewTask Factory}
    (known : manager.tasks.get task = some running) :
    ((manager.runStart task running).viewOf prKey).invocations =
      (manager.viewOf prKey).invocations ++
        if running.prKey = prKey then [(running.timer, running.coroFactory)] else [] := by
  obtain ⟨timer, stored, -, key, -⟩ := history.created task running known
  simp only [viewOf, runStart, List.filter_append]
  congr 1
  simp [ownsTimer, stored, key, List.filter_cons]

/-- The timers of a key do not change when another key is reset. -/
theorem Consistent.timers_of_reset {manager : DebounceManager Factory}
    (consistent : manager.Consistent) {prKey other : PRKey} (apart : other ≠ prKey) :
    (((manager.cancelPending other).2.cancelInFlight other).2.viewOf prKey).timers =
      (manager.viewOf prKey).timers := by
  funext handle
  simp only [viewOf, reset_timers]
  split
  · rename_i pending
    obtain ⟨timer, known, rfl, -⟩ := consistent.pending_armed other handle pending
    simp [known, apart, Option.filter_some]
  · rfl

/-- The tasks of a key do not change when another key is reset. -/
theorem Consistent.tasks_of_reset {manager : DebounceManager Factory}
    (consistent : manager.Consistent) {prKey other : PRKey} (apart : other ≠ prKey) :
    (((manager.cancelPending other).2.cancelInFlight other).2.viewOf prKey).tasks =
      (manager.viewOf prKey).tasks := by
  funext task
  simp only [viewOf, reset_tasks]
  split
  · rename_i stored
    obtain ⟨running, known, rfl, -⟩ := consistent.stored_live other task stored
    simp [known, apart, Option.filter_some]
  · rfl

/-- The tasks of a key do not change when one of another key does. -/
theorem tasks_of_set {manager next : DebounceManager Factory} {prKey : PRKey} {task : Nat}
    {running updated : ReviewTask Factory} (known : manager.tasks.get task = some running)
    (apart : running.prKey ≠ prKey) (tasks : next.tasks = manager.tasks.set task updated)
    (same : updated.prKey = running.prKey) :
    (next.viewOf prKey).tasks = (manager.viewOf prKey).tasks := by
  funext other
  simp only [viewOf, tasks]
  exact Dict.filter_get_set_of_replaced _ known (by simpa using apart) (by simpa [same] using apart)
    other

/-- **An event that does not concern a key changes nothing of it.** -/
theorem viewOf_of_not_concerns {events : List (DebounceEvent Factory)}
    {manager next : DebounceManager Factory} {event : DebounceEvent Factory}
    (history : History events manager) (prKey : PRKey)
    (others : concerns prKey manager event = false) (moved : Moved manager event next) :
    next.viewOf prKey = manager.viewOf prKey := by
  have viewed := viewOf_invocations history moved prKey
  cases moved with
  | @schedule key coroFactory scheduled fresh =>
      have apart : key ≠ prKey := by simpa [concerns] using others
      ext1
      case pending => simp [viewOf, DebounceManager.schedule, apart.symm]
      case inFlight => simp [viewOf, DebounceManager.schedule, apart.symm]
      case timers =>
        rw [← history.consistent.timers_of_reset apart]
        funext handle
        exact Dict.filter_get_set_of_dropped _ (by
          rw [reset_timers, fresh]
          simp) (by simpa using apart) handle
      case tasks => exact history.consistent.tasks_of_reset apart
      case invocations => exact viewed (by simp [DebounceManager.schedule])
  | @cancel key =>
      have apart : key ≠ prKey := by simpa [concerns] using others
      ext1
      case pending => simp [viewOf, apart.symm]
      case inFlight => simp [viewOf, apart.symm]
      case timers => exact history.consistent.timers_of_reset apart
      case tasks => exact history.consistent.tasks_of_reset apart
      case invocations => exact viewed (by simp)
  | @expire handle task timer known armed fresh =>
      have apart : timer.prKey ≠ prKey := by simpa [concerns, ownsTimer, known] using others
      ext1
      case pending => simp [viewOf, fire, apart.symm]
      case inFlight => simp [viewOf, fire, apart.symm]
      case timers =>
        funext other
        exact Dict.filter_get_set_of_replaced _ known (by simpa using apart) (by simpa using apart)
          other
      case tasks =>
        funext other
        exact Dict.filter_get_set_of_dropped _ (by simp [fresh]) (by simpa using apart) other
      case invocations => exact viewed rfl
  | resume => rfl
  | @enter task running known =>
      have apart : running.prKey ≠ prKey := by simpa [concerns, ownsTask, known] using others
      ext1
      case tasks => exact tasks_of_set known apart rfl rfl
      case invocations =>
        rw [viewOf_runStart_invocations history prKey known, if_neg apart, List.append_nil]
      all_goals rfl
  | @leave task running known =>
      have apart : running.prKey ≠ prKey := by simpa [concerns, ownsTask, known] using others
      ext1
      case inFlight => simp [viewOf, runFinally, apart.symm]
      case tasks => exact tasks_of_set known apart rfl rfl
      case invocations => exact viewed rfl
      all_goals rfl
  | @drop task running known =>
      have apart : running.prKey ≠ prKey := by simpa [concerns, ownsTask, known] using others
      ext1
      case tasks => exact tasks_of_set known apart rfl rfl
      case invocations => exact viewed rfl
      all_goals rfl

/-- The second manager is what the first one has of the key. -/
structure Alone (prKey : PRKey) (manager alone : DebounceManager Factory) : Prop where
  pending : alone.pending.get prKey = manager.pending.get prKey
  inFlight : alone.inFlight.get prKey = manager.inFlight.get prKey
  timers : ∀ handle, alone.timers.get handle = (manager.viewOf prKey).timers handle
  tasks : ∀ task, alone.tasks.get task = (manager.viewOf prKey).tasks task
  invocations : alone.invocations = (manager.viewOf prKey).invocations

theorem alone_empty (prKey : PRKey) : Alone prKey ({} : DebounceManager Factory) {} := by
  constructor <;> simp [viewOf]

/-- The managers agree on the key. -/
theorem Alone.viewOf_eq {prKey : PRKey} {manager alone : DebounceManager Factory}
    (related : Alone prKey manager alone) : alone.viewOf prKey = manager.viewOf prKey := by
  ext1
  case pending => exact related.pending
  case inFlight => exact related.inFlight
  case timers =>
    funext handle
    simp [viewOf, related.timers, Option.filter_filter]
  case tasks =>
    funext task
    simp [viewOf, related.tasks, Option.filter_filter]
  case invocations =>
    simp only [viewOf, related.invocations, List.filter_filter]
    apply List.filter_congr
    rintro ⟨handle, coroFactory⟩ -
    cases known : manager.timers.get handle with
    | none => simp [ownsTimer, known]
    | some timer =>
        by_cases key : timer.prKey = prKey
        · simp [ownsTimer, known, related.timers, viewOf, Option.filter_some, key]
        · simp [ownsTimer, known, key]

/-- A timer of the key is there alone. -/
theorem Alone.timer {prKey : PRKey} {manager alone : DebounceManager Factory}
    (related : Alone prKey manager alone) {handle : Nat} {timer : TimerHandle Factory}
    (known : manager.timers.get handle = some timer) (key : timer.prKey = prKey) :
    alone.timers.get handle = some timer := by
  rw [related.timers]
  simp [viewOf, known, key, Option.filter_some]

/-- A task of the key is there alone. -/
theorem Alone.task {prKey : PRKey} {manager alone : DebounceManager Factory}
    (related : Alone prKey manager alone) {task : Nat} {running : ReviewTask Factory}
    (known : manager.tasks.get task = some running) (key : running.prKey = prKey) :
    alone.tasks.get task = some running := by
  rw [related.tasks]
  simp [viewOf, known, key, Option.filter_some]

/-- Cancelling what the key has keeps the two managers related. -/
theorem Alone.reset {events : List (DebounceEvent Factory)} {prKey : PRKey}
    {manager alone : DebounceManager Factory} (related : Alone prKey manager alone)
    (history : History events manager) :
    Alone prKey ((manager.cancelPending prKey).2.cancelInFlight prKey).2
      ((alone.cancelPending prKey).2.cancelInFlight prKey).2 := by
  constructor
  case pending => simp
  case inFlight => simp
  case timers =>
    intro handle
    rw [reset_timers, related.pending, related.timers]
    simp only [viewOf, reset_timers]
    by_cases pending : manager.pending.get prKey = some handle
    · rw [if_pos pending, if_pos pending]
      cases manager.timers.get handle with
      | none => rfl
      | some timer => by_cases key : timer.prKey = prKey <;> simp [Option.filter_some, key]
    · rw [if_neg pending, if_neg pending]
  case tasks =>
    intro task
    rw [reset_tasks, related.inFlight, related.tasks]
    simp only [viewOf, reset_tasks]
    by_cases stored : manager.inFlight.get prKey = some task
    · rw [if_pos stored, if_pos stored]
      cases manager.tasks.get task with
      | none => rfl
      | some running => by_cases key : running.prKey = prKey <;> simp [Option.filter_some, key]
    · rw [if_neg stored, if_neg stored]
  case invocations =>
    rw [viewOf_invocations history .cancel prKey (by simp)]
    simpa using related.invocations

/-- **An event of the key is a step of its manager alone.** -/
theorem Alone.own {events : List (DebounceEvent Factory)} {prKey : PRKey}
    {manager alone next : DebounceManager Factory} {event : DebounceEvent Factory}
    (related : Alone prKey manager alone) (history : History events manager)
    (concerned : concerns prKey manager event = true) (moved : Moved manager event next) :
    ∃ following, Moved alone event following ∧ Alone prKey next following := by
  have viewed := viewOf_invocations history moved prKey
  cases moved with
  | @schedule key coroFactory handle fresh =>
      obtain rfl : key = prKey := by simpa [concerns] using concerned
      have freshAlone : alone.timers.get handle = none := by simp [related.timers, viewOf, fresh]
      have cleared := related.reset history
      refine ⟨_, .schedule freshAlone, ?pending, ?inFlight, ?timers, ?tasks, ?invocations⟩
      case pending => simp [DebounceManager.schedule]
      case inFlight => simp [DebounceManager.schedule]
      case timers => exact Dict.get_set_of_filtered cleared.timers (by simp)
      case tasks => exact cleared.tasks
      case invocations =>
        rw [viewed (by simp [DebounceManager.schedule])]
        simpa [DebounceManager.schedule] using related.invocations
  | @cancel key =>
      obtain rfl : key = prKey := by simpa [concerns] using concerned
      exact ⟨_, .cancel, related.reset history⟩
  | @expire handle task timer known armed fresh =>
      obtain rfl : timer.prKey = prKey := by simpa [concerns, ownsTimer, known] using concerned
      have freshAlone : alone.tasks.get task = none := by simp [related.tasks, viewOf, fresh]
      refine ⟨_, .expire (related.timer known rfl) armed freshAlone, ?pending, ?inFlight, ?timers,
        ?tasks, ?invocations⟩
      case pending => simp [fire]
      case inFlight => simp [fire]
      case timers => exact Dict.get_set_of_filtered related.timers (by simp)
      case tasks => exact Dict.get_set_of_filtered related.tasks (by simp)
      case invocations =>
        rw [viewed rfl]
        exact related.invocations
  | @resume task running known going started =>
      have key : running.prKey = prKey := by simpa [concerns, ownsTask, known] using concerned
      exact ⟨_, .resume (related.task known key) going started, related⟩
  | @enter task running known going notStarted notCancelled =>
      have key : running.prKey = prKey := by simpa [concerns, ownsTask, known] using concerned
      refine ⟨_, .enter (related.task known key) going notStarted notCancelled,
        related.pending, related.inFlight, related.timers, ?tasks, ?invocations⟩
      case tasks => exact Dict.get_set_of_filtered related.tasks (by simpa using key)
      case invocations =>
        rw [viewOf_runStart_invocations history prKey known, if_pos key, ← related.invocations]
        rfl
  | @leave task running known going started =>
      have key : running.prKey = prKey := by simpa [concerns, ownsTask, known] using concerned
      refine ⟨_, .leave (related.task known key) going started,
        related.pending, ?inFlight, related.timers, ?tasks, ?invocations⟩
      case inFlight => simp [runFinally, key]
      case tasks => exact Dict.get_set_of_filtered related.tasks (by simpa using key)
      case invocations =>
        rw [viewed rfl]
        exact related.invocations
  | @drop task running known going notStarted cancelled =>
      have key : running.prKey = prKey := by simpa [concerns, ownsTask, known] using concerned
      refine ⟨_, .drop (related.task known key) going notStarted cancelled,
        related.pending, related.inFlight, related.timers, ?tasks, ?invocations⟩
      case tasks => exact Dict.get_set_of_filtered related.tasks (by simpa using key)
      case invocations =>
        rw [viewed rfl]
        exact related.invocations

/-- The manager of a key alone simulates the whole manager. -/
theorem simulates_alone (prKey : PRKey) :
    (@DebounceManager.step Factory).Simulates (concerns prKey)
      (fun manager alone => (∃ events, History events manager) ∧ Alone prKey manager alone) := by
  constructor
  case others =>
    rintro manager alone event next ⟨⟨events, history⟩, related⟩ others stepped
    have same := viewOf_of_not_concerns history prKey others (moved_of_step stepped)
    refine ⟨⟨_, history.step stepped⟩, ?_⟩
    constructor
    case pending => exact related.pending.trans (congrArg KeyView.pending same).symm
    case inFlight => exact related.inFlight.trans (congrArg KeyView.inFlight same).symm
    case timers => exact same ▸ related.timers
    case tasks => exact same ▸ related.tasks
    case invocations => exact same ▸ related.invocations
  case own =>
    rintro manager alone event next ⟨⟨events, history⟩, related⟩ concerned stepped
    obtain ⟨following, moved, kept⟩ := related.own history concerned (moved_of_step stepped)
    exact ⟨following, step_of_moved moved, ⟨_, history.step stepped⟩, kept⟩

/-! ## The last push wins -/

/-- What debouncing promises about the manager reached by the events. -/
structure LastPushWins (events : List (DebounceEvent Factory))
    (manager : DebounceManager Factory) : Prop where
  /-- The armed timers of a key are the single handle in `_pending`, if any. -/
  armed_iff_pending : ∀ prKey handle,
    (∃ timer, manager.timers.get handle = some timer ∧ timer.prKey = prKey ∧ timer.armed) ↔
      manager.pending.get prKey = some handle
  keys_disjoint : Disjoint manager.pendingKeys manager.inFlightKeys
  /-- No factory is invoked twice. -/
  invoked_once : (manager.invocations.map Prod.fst).Nodup
  /-- A factory is invoked only if its key was left alone from its call of
  `schedule` to the expiry of its timer. -/
  invoked_undisturbed : ∀ handle coroFactory, (handle, coroFactory) ∈ manager.invocations →
    ∃ prKey, ExpiredUndisturbed events prKey coroFactory handle
  /-- The events of a key alone are a run in which the same happens to the key. -/
  independent : ∀ prKey, ∃ alone,
    DebounceManager.step.run {} (DebounceManager.step.eventsOf (concerns prKey) {} events) =
      some alone ∧
    alone.viewOf prKey = manager.viewOf prKey ∧
    (DebounceManager.step.moves {} (DebounceManager.step.eventsOf (concerns prKey) {} events)).map
        (fun move => (move.1.viewOf prKey, move.2)) =
      DebounceManager.step.traceOf (concerns prKey) (fun manager => manager.viewOf prKey) {} events

/-- **The last push wins and nothing fires twice**, in every state of every run
of the manager. -/
theorem lastPushWins_of_run (events : List (DebounceEvent Factory))
    (manager : DebounceManager Factory)
    (ran : DebounceManager.step.run {} events = some manager) : LastPushWins events manager := by
  have history := history_of_run ran
  constructor
  case armed_iff_pending => exact history.consistent.armed_iff_pending
  case keys_disjoint => exact history.consistent.keys_disjoint
  case invoked_once => exact history.once
  case invoked_undisturbed =>
    intro handle coroFactory invocation
    obtain ⟨task, running, found, -, rfl, rfl⟩ := history.invoked handle coroFactory invocation
    obtain ⟨timer, known, fired, -, factory⟩ := history.created task running found
    exact ⟨timer.prKey, factory ▸ history.fired running.timer timer known fired⟩
  case independent =>
    intro prKey
    obtain ⟨alone, aloneRan, ⟨-, related⟩, traced⟩ :=
      Machine.run_eventsOf (simulates_alone prKey) (fun _ _ same => same.2.viewOf_eq)
        ⟨⟨[], history_empty⟩, alone_empty prKey⟩ ran
    exact ⟨alone, aloneRan, related.viewOf_eq, traced⟩

/-- Two pushes to one pull request and one to another. -/
def twoPushes : List (DebounceEvent Unit) :=
  [.schedule ("owner/repo", 1) () 0, .schedule ("owner/repo", 2) () 1,
    .schedule ("owner/repo", 1) () 2, .expire 2 0, .expire 1 1, .taskStep 1, .taskStep 0]

/-- Both pull requests are reviewed once; the timer of the earlier push to the
first one is never fired. -/
theorem twoPushes_lastPushWins :
    ∃ manager, DebounceManager.step.run {} twoPushes = some manager ∧
      manager.invocations = [(1, ()), (2, ())] ∧ LastPushWins twoPushes manager := by
  have seen : (DebounceManager.step.run {} twoPushes).map (fun manager => manager.invocations) =
      some [(1, ()), (2, ())] := by decide
  obtain ⟨manager, ran, invocations⟩ := Option.map_eq_some_iff.mp seen
  exact ⟨manager, ran, invocations, lastPushWins_of_run twoPushes manager ran⟩

end DebounceManager

end Kenjutsu.Server
