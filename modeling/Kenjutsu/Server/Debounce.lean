import Kenjutsu.Foundations.Dicts
import Kenjutsu.Foundations.Runs

/-!
# The debounce manager

`DebounceManager` keeps two dictionaries by pull request: the timer that has not
yet fired (`_pending`) and the review task that is running (`_in_flight`). A new
event of a pull request cancels both and arms a fresh timer; a timer that
expires starts a review task.

The event loop around the manager is part of the model: the timer handles and
the tasks it has created, with what happened to each. A cancelled task keeps
running until its clean-up is over, and a task cancelled before its first step
never enters the body of `_run`, so its `finally` block does not run.
-/

set_option autoImplicit false

namespace Kenjutsu.Server

open Foundations

/-- `(repo_full_name, pr_number)`. -/
abbrev PRKey := String × Int

/-- An `asyncio.TimerHandle` made by `schedule`. -/
structure TimerHandle (Factory : Type) where
  prKey : PRKey
  coroFactory : Factory
  cancelled : Bool := false
  fired : Bool := false
deriving DecidableEq

/-- An `asyncio.Task` that runs `_run`. -/
structure ReviewTask (Factory : Type) where
  prKey : PRKey
  coroFactory : Factory
  /-- The timer whose expiry created the task. -/
  timer : Nat
  started : Bool := false
  cancelled : Bool := false
  ended : Bool := false
deriving DecidableEq

/-- A timer that is neither cancelled nor fired. -/
def TimerHandle.armed {Factory : Type} (handle : TimerHandle Factory) : Bool :=
  !handle.cancelled && !handle.fired

/-- A review task that is neither cancelled nor ended. -/
def ReviewTask.live {Factory : Type} (task : ReviewTask Factory) : Bool :=
  !task.cancelled && !task.ended

/-- The manager's dictionaries, and the handles and tasks of the event loop by
their identities. -/
structure DebounceManager (Factory : Type) where
  pending : Dict PRKey Nat := ∅
  inFlight : Dict PRKey Nat := ∅
  timers : Dict Nat (TimerHandle Factory) := ∅
  tasks : Dict Nat (ReviewTask Factory) := ∅
  /-- The factories invoked so far, each with the timer it was scheduled under. -/
  invocations : List (Nat × Factory) := []

/-- What happens to the manager: the two calls of its interface, the expiry of a
timer, and the steps and the end of a review task. New handles and tasks come
with their identity. -/
inductive DebounceEvent (Factory : Type) where
  | schedule (prKey : PRKey) (coroFactory : Factory) (handle : Nat)
  | cancel (prKey : PRKey)
  | expire (handle task : Nat)
  | taskStep (task : Nat)
  | taskEnd (task : Nat)

namespace DebounceManager

variable {Factory : Type}

/-! ## The methods -/

def cancelPending (manager : DebounceManager Factory) (prKey : PRKey) :
    Bool × DebounceManager Factory :=
  match manager.pending.get prKey with
  | none => (false, manager)
  | some handle =>
      (true, { manager with
        pending := manager.pending.erase prKey
        timers := manager.timers.modify handle fun timer => { timer with cancelled := true } })

def cancelInFlight (manager : DebounceManager Factory) (prKey : PRKey) :
    Bool × DebounceManager Factory :=
  match manager.inFlight.get prKey with
  | none => (false, manager)
  | some task =>
      (true, { manager with
        inFlight := manager.inFlight.erase prKey
        tasks := manager.tasks.modify task fun running => { running with cancelled := true } })

def schedule (manager : DebounceManager Factory) (prKey : PRKey) (coroFactory : Factory)
    (handle : Nat) : DebounceManager Factory :=
  let manager := (manager.cancelPending prKey).2
  let manager := (manager.cancelInFlight prKey).2
  { manager with
    timers := manager.timers.set handle { prKey, coroFactory }
    pending := manager.pending.set prKey handle }

def cancel (manager : DebounceManager Factory) (prKey : PRKey) : Bool × DebounceManager Factory :=
  let (cancelledPending, manager) := manager.cancelPending prKey
  let (cancelledInFlight, manager) := manager.cancelInFlight prKey
  (cancelledPending || cancelledInFlight, manager)

def fire (manager : DebounceManager Factory) (prKey : PRKey) (coroFactory : Factory)
    (handle task : Nat) : DebounceManager Factory :=
  { manager with
    pending := manager.pending.erase prKey
    tasks := manager.tasks.set task { prKey, coroFactory, timer := handle }
    inFlight := manager.inFlight.set prKey task }

/-- The first step of `_run`: the factory is invoked. -/
def runStart (manager : DebounceManager Factory) (task : Nat) (running : ReviewTask Factory) :
    DebounceManager Factory :=
  { manager with
    tasks := manager.tasks.set task { running with started := true }
    invocations := manager.invocations ++ [(running.timer, running.coroFactory)] }

/-- The `finally` block of `_run`, which ends the task. -/
def runFinally (manager : DebounceManager Factory) (task : Nat) (running : ReviewTask Factory) :
    DebounceManager Factory :=
  { manager with
    inFlight := manager.inFlight.erase running.prKey
    tasks := manager.tasks.set task { running with ended := true } }

/-! ## The event loop -/

def step : Machine (DebounceManager Factory) (DebounceEvent Factory)
  | manager, .schedule prKey coroFactory handle =>
      if (manager.timers.get handle).isSome then none
      else some (manager.schedule prKey coroFactory handle)
  | manager, .cancel prKey => some (manager.cancel prKey).2
  | manager, .expire handle task =>
      match manager.timers.get handle with
      | none => none
      | some timer =>
          if !timer.armed || (manager.tasks.get task).isSome then none
          else
            let manager :=
              { manager with timers := manager.timers.set handle { timer with fired := true } }
            some (manager.fire timer.prKey timer.coroFactory handle task)
  | manager, .taskStep task =>
      match manager.tasks.get task with
      | none => none
      | some running =>
          if running.ended then none
          else if running.started then some manager
          -- the cancellation is delivered before the body of `_run` is entered
          else if running.cancelled then none
          else some (manager.runStart task running)
  | manager, .taskEnd task =>
      match manager.tasks.get task with
      | none => none
      | some running =>
          if running.ended then none
          else if running.started then some (manager.runFinally task running)
          -- never entered, so there is no `finally` block to run
          else if running.cancelled then
            some { manager with tasks := manager.tasks.set task { running with ended := true } }
          else none

/-- What a step can do: the event, what was checked, and the manager after it. -/
inductive Moved (manager : DebounceManager Factory) :
    DebounceEvent Factory → DebounceManager Factory → Prop where
  | schedule {prKey : PRKey} {coroFactory : Factory} {handle : Nat}
      (fresh : manager.timers.get handle = none) :
      Moved manager (.schedule prKey coroFactory handle)
        (manager.schedule prKey coroFactory handle)
  | cancel {prKey : PRKey} :
      Moved manager (.cancel prKey) ((manager.cancelPending prKey).2.cancelInFlight prKey).2
  | expire {handle task : Nat} {timer : TimerHandle Factory}
      (known : manager.timers.get handle = some timer) (armed : timer.armed)
      (fresh : manager.tasks.get task = none) :
      Moved manager (.expire handle task)
        (({ manager with
            timers := manager.timers.set handle { timer with fired := true } }).fire
          timer.prKey timer.coroFactory handle task)
  | resume {task : Nat} {running : ReviewTask Factory}
      (known : manager.tasks.get task = some running) (going : running.ended = false)
      (started : running.started) :
      Moved manager (.taskStep task) manager
  | enter {task : Nat} {running : ReviewTask Factory}
      (known : manager.tasks.get task = some running) (going : running.ended = false)
      (notStarted : running.started = false) (notCancelled : running.cancelled = false) :
      Moved manager (.taskStep task) (manager.runStart task running)
  | leave {task : Nat} {running : ReviewTask Factory}
      (known : manager.tasks.get task = some running) (going : running.ended = false)
      (started : running.started) :
      Moved manager (.taskEnd task) (manager.runFinally task running)
  | drop {task : Nat} {running : ReviewTask Factory}
      (known : manager.tasks.get task = some running) (going : running.ended = false)
      (notStarted : running.started = false) (cancelled : running.cancelled) :
      Moved manager (.taskEnd task)
        { manager with tasks := manager.tasks.set task { running with ended := true } }

/-- Every step is one of the moves. -/
theorem moved_of_step {manager next : DebounceManager Factory} {event : DebounceEvent Factory}
    (stepped : step manager event = some next) : Moved manager event next := by
  cases event with
  | schedule prKey coroFactory handle =>
      simp only [step, Option.ite_none_left_eq_some, Option.some.injEq] at stepped
      obtain ⟨fresh, rfl⟩ := stepped
      exact .schedule (by simpa using fresh)
  | cancel prKey =>
      obtain rfl := Option.some.inj stepped
      exact .cancel
  | expire handle task =>
      cases known : manager.timers.get handle with
      | none => simp [step, known] at stepped
      | some timer =>
          simp only [step, known, Option.ite_none_left_eq_some, Option.some.injEq,
            Bool.or_eq_true, not_or, Bool.not_eq_true', Bool.not_eq_false, Option.isSome_iff_ne_none,
            ne_eq, not_not] at stepped
          obtain ⟨⟨armed, fresh⟩, rfl⟩ := stepped
          exact .expire known armed fresh
  | taskStep task =>
      cases known : manager.tasks.get task with
      | none => simp [step, known] at stepped
      | some running =>
          simp only [step, known, Option.ite_none_left_eq_some] at stepped
          obtain ⟨going, stepped⟩ := stepped
          rw [Bool.not_eq_true] at going
          split at stepped
          · rename_i started
            obtain rfl := Option.some.inj stepped
            exact .resume known going started
          · rename_i notStarted
            simp only [Option.ite_none_left_eq_some, Option.some.injEq] at stepped
            obtain ⟨notCancelled, rfl⟩ := stepped
            exact .enter known going (by simpa using notStarted) (by simpa using notCancelled)
  | taskEnd task =>
      cases known : manager.tasks.get task with
      | none => simp [step, known] at stepped
      | some running =>
          simp only [step, known, Option.ite_none_left_eq_some] at stepped
          obtain ⟨going, stepped⟩ := stepped
          rw [Bool.not_eq_true] at going
          split at stepped
          · rename_i started
            obtain rfl := Option.some.inj stepped
            exact .leave known going started
          · rename_i notStarted
            simp only [Option.ite_none_right_eq_some, Option.some.injEq] at stepped
            obtain ⟨cancelled, rfl⟩ := stepped
            exact .drop known going (by simpa using notStarted) cancelled

/-- Every move is a step. -/
theorem step_of_moved {manager next : DebounceManager Factory} {event : DebounceEvent Factory}
    (moved : Moved manager event next) : step manager event = some next := by
  cases moved with
  | schedule fresh => simp [step, fresh]
  | cancel => rfl
  | expire known armed fresh => simp [step, known, armed, fresh]
  | resume known going started => simp [step, known, going, started]
  | enter known going notStarted notCancelled =>
      simp [step, known, going, notStarted, notCancelled]
  | leave known going started => simp [step, known, going, started]
  | drop known going notStarted cancelled => simp [step, known, going, notStarted, cancelled]

/-! ## What the cancelling helpers change -/

@[simp] theorem cancelPending_pending (manager : DebounceManager Factory) (prKey other : PRKey) :
    (manager.cancelPending prKey).2.pending.get other =
      if other = prKey then none else manager.pending.get other := by
  unfold cancelPending
  cases found : manager.pending.get prKey with
  | none =>
      by_cases same : other = prKey
      · subst same
        simp [found]
      · simp [same]
  | some handle => simp

@[simp] theorem cancelPending_inFlight (manager : DebounceManager Factory) (prKey : PRKey) :
    (manager.cancelPending prKey).2.inFlight = manager.inFlight := by
  unfold cancelPending
  split <;> rfl

@[simp] theorem cancelPending_tasks (manager : DebounceManager Factory) (prKey : PRKey) :
    (manager.cancelPending prKey).2.tasks = manager.tasks := by
  unfold cancelPending
  split <;> rfl

/-- The timers after `_cancel_pending`: the pending one is cancelled. -/
theorem cancelPending_timers (manager : DebounceManager Factory) (prKey : PRKey) (handle : Nat) :
    (manager.cancelPending prKey).2.timers.get handle =
      if manager.pending.get prKey = some handle then
        (manager.timers.get handle).map fun timer => { timer with cancelled := true }
      else manager.timers.get handle := by
  unfold cancelPending
  cases found : manager.pending.get prKey with
  | none => simp
  | some stored =>
      simp only [Dict.get_modify, Option.some.injEq, eq_comm (a := stored)]
      split
      · subst handle
        rfl
      · rfl

theorem cancelPending_timers_fresh (manager : DebounceManager Factory) (prKey : PRKey)
    {handle : Nat} (fresh : manager.timers.get handle = none) :
    (manager.cancelPending prKey).2.timers.get handle = none := by
  rw [cancelPending_timers, fresh]
  simp

@[simp] theorem cancelPending_invocations (manager : DebounceManager Factory) (prKey : PRKey) :
    (manager.cancelPending prKey).2.invocations = manager.invocations := by
  unfold cancelPending
  split <;> rfl

@[simp] theorem cancelInFlight_invocations (manager : DebounceManager Factory) (prKey : PRKey) :
    (manager.cancelInFlight prKey).2.invocations = manager.invocations := by
  unfold cancelInFlight
  split <;> rfl

@[simp] theorem cancelInFlight_inFlight (manager : DebounceManager Factory)
    (prKey other : PRKey) :
    (manager.cancelInFlight prKey).2.inFlight.get other =
      if other = prKey then none else manager.inFlight.get other := by
  unfold cancelInFlight
  cases found : manager.inFlight.get prKey with
  | none =>
      by_cases same : other = prKey
      · subst same
        simp [found]
      · simp [same]
  | some task => simp

@[simp] theorem cancelInFlight_pending (manager : DebounceManager Factory) (prKey : PRKey) :
    (manager.cancelInFlight prKey).2.pending = manager.pending := by
  unfold cancelInFlight
  split <;> rfl

@[simp] theorem cancelInFlight_timers (manager : DebounceManager Factory) (prKey : PRKey) :
    (manager.cancelInFlight prKey).2.timers = manager.timers := by
  unfold cancelInFlight
  split <;> rfl

/-- `_cancel_in_flight` answers whether a task was stored. -/
theorem cancelInFlight_answer (manager : DebounceManager Factory) (prKey : PRKey) :
    (manager.cancelInFlight prKey).1 = (manager.inFlight.get prKey).isSome := by
  unfold cancelInFlight
  cases manager.inFlight.get prKey <;> rfl

/-- The tasks after `_cancel_in_flight`: the stored one is cancelled. -/
theorem cancelInFlight_tasks (manager : DebounceManager Factory) (prKey : PRKey) (task : Nat) :
    (manager.cancelInFlight prKey).2.tasks.get task =
      if manager.inFlight.get prKey = some task then
        (manager.tasks.get task).map fun running => { running with cancelled := true }
      else manager.tasks.get task := by
  unfold cancelInFlight
  cases found : manager.inFlight.get prKey with
  | none => simp
  | some stored =>
      simp only [Dict.get_modify, Option.some.injEq, eq_comm (a := stored)]
      split
      · subst task
        rfl
      · rfl

/-! ## What every run keeps -/

/-- Facts about the dictionaries that hold whatever happens. -/
structure Consistent (manager : DebounceManager Factory) : Prop where
  /-- An armed timer is the pending one of its key. -/
  armed_pending : ∀ handle timer, manager.timers.get handle = some timer → timer.armed →
    manager.pending.get timer.prKey = some handle
  /-- A pending handle is an armed timer of its key. -/
  pending_armed : ∀ prKey handle, manager.pending.get prKey = some handle →
    ∃ timer, manager.timers.get handle = some timer ∧ timer.prKey = prKey ∧ timer.armed
  /-- A stored task is a live task of its key. -/
  stored_live : ∀ prKey task, manager.inFlight.get prKey = some task →
    ∃ running, manager.tasks.get task = some running ∧ running.prKey = prKey ∧ running.live
  /-- No key has a pending timer and a stored task. -/
  apart : ∀ prKey handle, manager.pending.get prKey = some handle →
    manager.inFlight.get prKey = none

theorem consistent_empty : ({} : DebounceManager Factory).Consistent := by
  constructor <;> simp

theorem Consistent.cancelPending {manager : DebounceManager Factory}
    (consistent : manager.Consistent) (prKey : PRKey) :
    (manager.cancelPending prKey).2.Consistent := by
  unfold DebounceManager.cancelPending
  cases found : manager.pending.get prKey with
  | none => exact consistent
  | some handle =>
      obtain ⟨timer, known, rfl, armed⟩ := consistent.pending_armed _ _ found
      constructor
      · intro other timer' known' armed'
        have := consistent.armed_pending
        grind [TimerHandle.armed]
      · intro other handle' found'
        have := consistent.pending_armed
        grind [TimerHandle.armed]
      · exact consistent.stored_live
      · intro other handle' found'
        have := consistent.apart
        grind

theorem Consistent.cancelInFlight {manager : DebounceManager Factory}
    (consistent : manager.Consistent) (prKey : PRKey) :
    (manager.cancelInFlight prKey).2.Consistent := by
  unfold DebounceManager.cancelInFlight
  cases found : manager.inFlight.get prKey with
  | none => exact consistent
  | some task =>
      obtain ⟨running, known, rfl, live⟩ := consistent.stored_live _ _ found
      constructor
      · exact consistent.armed_pending
      · exact consistent.pending_armed
      · intro other task' found'
        have := consistent.stored_live
        grind [ReviewTask.live]
      · intro other handle' found'
        have := consistent.apart
        grind

/-- Arming a fresh timer of a key that has neither a timer nor a task keeps the
dictionaries consistent. -/
theorem Consistent.schedule {manager : DebounceManager Factory}
    (consistent : manager.Consistent) (prKey : PRKey) (coroFactory : Factory) {handle : Nat}
    (fresh : manager.timers.get handle = none) :
    (manager.schedule prKey coroFactory handle).Consistent := by
  have fresh' := manager.cancelPending_timers_fresh prKey fresh
  have cleared := (consistent.cancelPending prKey).cancelInFlight prKey
  have noTask : ((manager.cancelPending prKey).2.cancelInFlight prKey).2.inFlight.get prKey
      = none := by simp
  have noTimer : ((manager.cancelPending prKey).2.cancelInFlight prKey).2.pending.get prKey
      = none := by simp
  have unknown : ((manager.cancelPending prKey).2.cancelInFlight prKey).2.timers.get handle
      = none := by simpa using fresh'
  simp only [DebounceManager.schedule]
  generalize ((manager.cancelPending prKey).2.cancelInFlight prKey).2 = base at *
  constructor
  · intro other timer known armed
    have := cleared.armed_pending
    grind
  · intro other handle' found
    simp only [Dict.get_set] at found ⊢
    by_cases same : other = prKey
    · rw [if_pos same] at found
      cases found
      exact ⟨{ prKey, coroFactory }, if_pos rfl, same.symm, rfl⟩
    · rw [if_neg same] at found
      obtain ⟨timer, known, key, armed⟩ := cleared.pending_armed _ _ found
      have old : handle' ≠ handle := by
        rintro rfl
        rw [unknown] at known
        cases known
      exact ⟨timer, (if_neg old).trans known, key, armed⟩
  · exact cleared.stored_live
  · intro other handle' found
    have := cleared.apart
    grind

/-- Firing the pending timer of a key moves the key from the pending timers to
the stored tasks. -/
theorem Consistent.expire {manager : DebounceManager Factory} (consistent : manager.Consistent)
    {handle task : Nat} {timer : TimerHandle Factory}
    (known : manager.timers.get handle = some timer) (armed : timer.armed)
    (fresh : manager.tasks.get task = none) :
    (({ manager with
        timers := manager.timers.set handle { timer with fired := true } }).fire
      timer.prKey timer.coroFactory handle task).Consistent := by
  have pending := consistent.armed_pending _ _ known armed
  unfold DebounceManager.fire
  constructor
  · intro other timer' known' armed'
    have := consistent.armed_pending
    grind [TimerHandle.armed]
  · intro other handle' found
    have := consistent.pending_armed
    grind [TimerHandle.armed]
  · intro other task' found
    simp only [Dict.get_set] at found ⊢
    by_cases same : other = timer.prKey
    · rw [if_pos same] at found
      cases found
      exact ⟨_, if_pos rfl, same.symm, rfl⟩
    · rw [if_neg same] at found
      obtain ⟨running, stored, key, live⟩ := consistent.stored_live _ _ found
      have old : task' ≠ task := by
        rintro rfl
        rw [fresh] at stored
        cases stored
      exact ⟨running, (if_neg old).trans stored, key, live⟩
  · intro other handle' found
    have := consistent.apart
    grind

/-- Changing one task keeps the dictionaries consistent if a live task stays a
live task of its key. -/
theorem Consistent.changeTask {manager : DebounceManager Factory}
    (consistent : manager.Consistent) {task : Nat} {running : ReviewTask Factory}
    (known : manager.tasks.get task = some running) (changed : ReviewTask Factory)
    (sameKey : changed.prKey = running.prKey)
    (kept : running.live → changed.live) (invocations : List (Nat × Factory)) :
    ({ manager with
        tasks := manager.tasks.set task changed
        invocations := invocations } : DebounceManager Factory).Consistent := by
  constructor
  · exact consistent.armed_pending
  · exact consistent.pending_armed
  · intro other task' found
    have := consistent.stored_live
    grind
  · exact consistent.apart

theorem Consistent.runFinally {manager : DebounceManager Factory}
    (consistent : manager.Consistent) {task : Nat} {running : ReviewTask Factory}
    (known : manager.tasks.get task = some running) :
    (manager.runFinally task running).Consistent := by
  unfold DebounceManager.runFinally
  constructor
  · exact consistent.armed_pending
  · exact consistent.pending_armed
  · intro other task' found
    have := consistent.stored_live
    grind
  · intro other handle found
    have := consistent.apart
    grind

/-- **The dictionaries stay consistent.** -/
theorem Consistent.step {manager next : DebounceManager Factory} {event : DebounceEvent Factory}
    (consistent : manager.Consistent) (stepped : DebounceManager.step manager event = some next) :
    next.Consistent := by
  cases moved_of_step stepped with
  | schedule fresh => exact consistent.schedule _ _ fresh
  | cancel => exact (consistent.cancelPending _).cancelInFlight _
  | expire known armed fresh => exact consistent.expire known armed fresh
  | resume => exact consistent
  | @enter task running known =>
      exact consistent.changeTask known { running with started := true } rfl id _
  | leave known => exact consistent.runFinally known
  | @drop task running known going notStarted cancelled =>
      refine consistent.changeTask known { running with ended := true } rfl ?_ _
      intro live
      simp [ReviewTask.live, cancelled] at live

/-! ## Tracking of the review tasks -/

/-- The live review tasks are the ones stored in `_in_flight`. -/
def Tracked (manager : DebounceManager Factory) : Prop :=
  ∀ task running, manager.tasks.get task = some running → running.live →
    manager.inFlight.get running.prKey = some task

/-- What the tracking of review tasks promises: every live task is stored under
its key, so a key has at most one, `schedule` cancels it, and `cancel` answers
`True` when there is one. -/
structure TracksInFlight (manager : DebounceManager Factory) : Prop where
  stored : manager.Tracked
  unique : ∀ first second running running', manager.tasks.get first = some running →
    manager.tasks.get second = some running' → running.live → running'.live →
    running.prKey = running'.prKey → first = second
  schedule_cancels : ∀ prKey coroFactory handle task running,
    (manager.schedule prKey coroFactory handle).tasks.get task = some running →
    running.prKey = prKey → ¬ running.live
  cancel_answers : ∀ task running, manager.tasks.get task = some running → running.live →
    (manager.cancel running.prKey).1 = true

/-- The clean-up of a task finds its slot empty or finds itself there. Only the
`finally` block of `_run` is concerned; it runs when a task that was entered
ends. -/
def OwnCleanUp (manager : DebounceManager Factory) : DebounceEvent Factory → Prop
  | .taskEnd task =>
      ∀ running stored, manager.tasks.get task = some running → running.started →
        manager.inFlight.get running.prKey = some stored → stored = task
  | _ => True

/-- After `_cancel_in_flight` no task of the key is live, if the live ones were
stored. -/
theorem Tracked.cancelInFlight_not_live {manager : DebounceManager Factory}
    (tracked : manager.Tracked) (prKey : PRKey) {task : Nat} {running : ReviewTask Factory}
    (known : (manager.cancelInFlight prKey).2.tasks.get task = some running)
    (key : running.prKey = prKey) : ¬ running.live := by
  intro live
  rw [cancelInFlight_tasks] at known
  split at known
  · obtain ⟨before, -, rfl⟩ := Option.map_eq_some_iff.mp known
    simp [ReviewTask.live] at live
  · rename_i notStored
    exact notStored (key ▸ tracked task running known live)

/-- `_cancel_in_flight` keeps the live tasks stored. -/
theorem Tracked.cancelInFlight {manager : DebounceManager Factory} (tracked : manager.Tracked)
    (prKey : PRKey) : (manager.cancelInFlight prKey).2.Tracked := by
  intro task running known live
  have otherKey : running.prKey ≠ prKey := fun key =>
    tracked.cancelInFlight_not_live prKey known key live
  rw [cancelInFlight_inFlight, if_neg otherKey]
  rw [cancelInFlight_tasks] at known
  split at known
  · obtain ⟨before, -, rfl⟩ := Option.map_eq_some_iff.mp known
    simp [ReviewTask.live] at live
  · exact tracked task running known live

theorem Tracked.cancelPending {manager : DebounceManager Factory} (tracked : manager.Tracked)
    (prKey : PRKey) : (manager.cancelPending prKey).2.Tracked := by
  intro task running known live
  simp only [cancelPending_tasks, cancelPending_inFlight] at known ⊢
  exact tracked task running known live

theorem Tracked.tracksInFlight {manager : DebounceManager Factory} (tracked : manager.Tracked) :
    manager.TracksInFlight where
  stored := tracked
  unique first second running running' known known' live live' key := by
    have storedFirst := tracked first running known live
    have storedSecond := tracked second running' known' live'
    rw [key, storedSecond] at storedFirst
    exact (Option.some.inj storedFirst).symm
  schedule_cancels prKey coroFactory handle task running known key :=
     (tracked.cancelPending prKey).cancelInFlight_not_live prKey known key
  cancel_answers task running known live := by
    simp only [cancel, cancelInFlight_answer, cancelPending_inFlight,
      tracked task running known live, Option.isSome_some, Bool.or_true]

/-- Firing a timer stores the new task, and no other task of its key is live. -/
theorem Tracked.expire {manager : DebounceManager Factory} (tracked : manager.Tracked)
    (consistent : manager.Consistent) {handle task : Nat} {timer : TimerHandle Factory}
    (known : manager.timers.get handle = some timer) (armed : timer.armed) :
    (({ manager with
        timers := manager.timers.set handle { timer with fired := true } }).fire
      timer.prKey timer.coroFactory handle task).Tracked := by
  have noTask := consistent.apart _ _ (consistent.armed_pending _ _ known armed)
  intro other running found live
  simp only [fire, Dict.get_set] at found ⊢
  by_cases same : other = task
  · rw [if_pos same] at found
    cases found
    rw [if_pos rfl, same]
  · rw [if_neg same] at found
    have stored := tracked other running found live
    have otherKey : running.prKey ≠ timer.prKey := by
      intro key
      rw [key, noTask] at stored
      cases stored
    rw [if_neg otherKey]
    exact stored

/-- Changing one task keeps the live tasks stored if it makes no task live. -/
theorem Tracked.changeTask {manager : DebounceManager Factory} (tracked : manager.Tracked)
    {task : Nat} {running : ReviewTask Factory}
    (known : manager.tasks.get task = some running) (changed : ReviewTask Factory)
    (sameKey : changed.prKey = running.prKey) (kept : changed.live → running.live)
    (invocations : List (Nat × Factory)) :
    ({ manager with
        tasks := manager.tasks.set task changed
        invocations := invocations } : DebounceManager Factory).Tracked := by
  intro other found lookup live
  simp only [Dict.get_set] at lookup ⊢
  by_cases same : other = task
  · rw [if_pos same] at lookup
    cases lookup
    rw [same, sameKey]
    exact tracked task running known (kept live)
  · rw [if_neg same] at lookup
    exact tracked other found lookup live

/-- A clean-up that finds its slot empty, or itself in it, removes no other
task. -/
theorem Tracked.runFinally {manager : DebounceManager Factory} (tracked : manager.Tracked)
    {task : Nat} {running : ReviewTask Factory}
    (own : ∀ stored, manager.inFlight.get running.prKey = some stored → stored = task) :
    (manager.runFinally task running).Tracked := by
  intro other found lookup live
  simp only [DebounceManager.runFinally, Dict.get_set, Dict.get_erase] at lookup ⊢
  by_cases same : other = task
  · rw [if_pos same] at lookup
    cases lookup
    simp [ReviewTask.live] at live
  · rw [if_neg same] at lookup
    have stored := tracked other found lookup live
    have otherKey : found.prKey ≠ running.prKey := by
      intro key
      rw [key] at stored
      exact same (own other stored)
    rw [if_neg otherKey]
    exact stored

/-- A step whose clean-up is its own keeps the live tasks stored. -/
theorem Tracked.step {manager next : DebounceManager Factory} {event : DebounceEvent Factory}
    (tracked : manager.Tracked) (consistent : manager.Consistent)
    (own : manager.OwnCleanUp event) (stepped : DebounceManager.step manager event = some next) :
    next.Tracked := by
  cases moved_of_step stepped with
  | schedule => exact (tracked.cancelPending _).cancelInFlight _
  | cancel => exact (tracked.cancelPending _).cancelInFlight _
  | expire known armed => exact tracked.expire consistent known armed
  | resume => exact tracked
  | @enter task running known =>
      exact tracked.changeTask known { running with started := true } rfl id _
  | @leave task running known going started =>
      exact tracked.runFinally fun stored found => own running stored known started found
  | @drop task running known =>
      refine tracked.changeTask known { running with ended := true } rfl ?_ _
      intro live
      simp [ReviewTask.live] at live

/-- A clean-up that finds another task in its slot loses track of that task. -/
theorem Consistent.not_tracked_of_foreign_cleanUp {manager next : DebounceManager Factory}
    {event : DebounceEvent Factory} (consistent : manager.Consistent)
    (foreign : ¬ manager.OwnCleanUp event)
    (moved : DebounceManager.step manager event = some next) : ¬ next.Tracked := by
  cases event with
  | taskEnd task =>
      simp only [OwnCleanUp, not_forall] at foreign
      obtain ⟨running, stored, known, started, found, other⟩ := foreign
      simp only [DebounceManager.step, known, started, if_true, Option.ite_none_left_eq_some,
        Option.some.injEq] at moved
      obtain ⟨-, rfl⟩ := moved
      obtain ⟨lost, lookup, key, live⟩ := consistent.stored_live _ _ found
      intro tracked
      have still := tracked stored lost
        (by simp [DebounceManager.runFinally, other, lookup]) live
      simp [DebounceManager.runFinally, key] at still
  | schedule | cancel | expire | taskStep => exact absurd trivial foreign

/-- **Every live review task is tracked, in every state of a run, exactly when
no clean-up of the run finds another task in its slot.** -/
theorem tracksInFlight_iff_ownCleanUp (events : List (DebounceEvent Factory)) :
    (∀ manager ∈ DebounceManager.step.visits {} events, manager.TracksInFlight) ↔
      ∀ move ∈ DebounceManager.step.moves {} events, move.1.OwnCleanUp move.2 := by
  refine Machine.forall_visits_iff_guarded
    (fun (manager : DebounceManager Factory) (invariant : manager.Consistent ∧ manager.Tracked) =>
      invariant.2.tracksInFlight) ?keeps ?breaks ⟨consistent_empty, ?initially⟩ events
  case keeps =>
    intro manager event next invariant own moved
    exact ⟨invariant.1.step moved, invariant.2.step invariant.1 own moved⟩
  case breaks =>
    intro manager event next invariant foreign moved tracks
    exact invariant.1.not_tracked_of_foreign_cleanUp foreign moved tracks.stored
  case initially =>
    intro task running known
    simp at known

/-- A review is superseded, and its clean-up ends after the next review has
started. -/
def lateCleanUp : List (DebounceEvent Unit) :=
  [.schedule ("owner/repo", 1) () 0, .expire 0 0, .taskStep 0,
    .schedule ("owner/repo", 1) () 1, .expire 1 1, .taskStep 1, .taskEnd 0]

/-- After a late clean-up the running review is stored nowhere and `cancel`
answers `False`; after a further push two reviews of the pull request run. -/
theorem lateCleanUp_loses_track :
    (∃ manager ∈ DebounceManager.step.visits {} lateCleanUp,
      ¬ manager.TracksInFlight ∧ (manager.tasks.get 1).any ReviewTask.live ∧
        (manager.cancel ("owner/repo", 1)).1 = false) ∧
    ∃ manager ∈ DebounceManager.step.visits {}
        (lateCleanUp ++ [.schedule ("owner/repo", 1) () 2, .expire 2 2]),
      (manager.tasks.get 1).any ReviewTask.live ∧
        (manager.tasks.get 2).any ReviewTask.live := by
  constructor
  · have seen : (DebounceManager.step.run {} lateCleanUp).map (fun manager =>
        (manager.tasks.get 1, (manager.cancel ("owner/repo", 1)).1)) =
        some (some ⟨("owner/repo", 1), (), 1, true, false, false⟩, false) := by decide
    obtain ⟨manager, ran, view⟩ := Option.map_eq_some_iff.mp seen
    obtain ⟨known, answer⟩ := Prod.mk.inj view
    refine ⟨manager, (Machine.mem_visits_iff ..).mpr ⟨_, [], by simp, ran⟩, ?_, ?_, answer⟩
    · intro tracks
      have answered := tracks.cancel_answers 1 _ known rfl
      rw [answer] at answered
      cases answered
    · rw [known]
      rfl
  · have seen : (DebounceManager.step.run {}
        (lateCleanUp ++ [.schedule ("owner/repo", 1) () 2, .expire 2 2])).map (fun manager =>
          ((manager.tasks.get 1).any ReviewTask.live,
            (manager.tasks.get 2).any ReviewTask.live)) = some (true, true) := by decide
    obtain ⟨manager, ran, view⟩ := Option.map_eq_some_iff.mp seen
    obtain ⟨first, second⟩ := Prod.mk.inj view
    exact ⟨manager, (Machine.mem_visits_iff ..).mpr ⟨_, [], by simp, ran⟩, first, second⟩

end DebounceManager

end Kenjutsu.Server
