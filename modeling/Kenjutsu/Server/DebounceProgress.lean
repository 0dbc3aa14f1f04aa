import Kenjutsu.Server.DebounceRuns

/-!
# The last push is not lost

After the last call of `schedule` for a pull request, as long as nobody calls `cancel` for it,
its review is on its way or has begun: the timer is armed, or the task it created has still to
take its first step and has not been cancelled, or the factory has been invoked. Whatever
happens to other pull requests and to earlier reviews of the same one changes nothing about
that. So a review that has not begun does so when its timer expires and its task runs.
-/

set_option autoImplicit false

namespace Kenjutsu.Server.DebounceManager

open Foundations

variable {Factory : Type}

/-- The review scheduled under a timer is on its way, or it has begun. -/
inductive Going (manager : DebounceManager Factory) (prKey : PRKey) (coroFactory : Factory)
    (handle : Nat) : Prop where
  | waits (timer : TimerHandle Factory) (known : manager.timers.get handle = some timer)
      (armed : timer.armed) (key : timer.prKey = prKey) (factory : timer.coroFactory = coroFactory)
  | created (task : Nat) (running : ReviewTask Factory)
      (known : manager.tasks.get task = some running) (timer : running.timer = handle)
      (key : running.prKey = prKey) (factory : running.coroFactory = coroFactory)
      (notStarted : running.started = false) (live : running.live)
  | begun (invoked : (handle, coroFactory) ∈ manager.invocations)

/-- A timer that is not of the key that is reset stays as it is. -/
theorem Consistent.timers_reset {manager : DebounceManager Factory}
    (consistent : manager.Consistent) {prKey : PRKey} {handle : Nat} {timer : TimerHandle Factory}
    (known : manager.timers.get handle = some timer) (other : timer.prKey ≠ prKey) :
    ((manager.cancelPending prKey).2.cancelInFlight prKey).2.timers.get handle = some timer := by
  rw [reset_timers, if_neg]
  · exact known
  · intro pending
    obtain ⟨own, found, key, -⟩ := consistent.pending_armed prKey handle pending
    obtain rfl := Option.some.inj (found.symm.trans known)
    exact other key

/-- So does a task. -/
theorem Consistent.tasks_reset {manager : DebounceManager Factory}
    (consistent : manager.Consistent) {prKey : PRKey} {task : Nat} {running : ReviewTask Factory}
    (known : manager.tasks.get task = some running) (other : running.prKey ≠ prKey) :
    ((manager.cancelPending prKey).2.cancelInFlight prKey).2.tasks.get task = some running := by
  rw [reset_tasks, if_neg]
  · exact known
  · intro stored
    obtain ⟨own, found, key, -⟩ := consistent.stored_live prKey task stored
    obtain rfl := Option.some.inj (found.symm.trans known)
    exact other key

/-- Invocations are only added. -/
theorem Moved.invoked {manager next : DebounceManager Factory} {event : DebounceEvent Factory}
    (moved : Moved manager event next) {invocation : Nat × Factory}
    (member : invocation ∈ manager.invocations) : invocation ∈ next.invocations := by
  rcases moved.invocations_of with same | ⟨task, running, -, -, appended, -⟩
  · exact same ▸ member
  · exact appended ▸ List.mem_append_left _ member

/-- **A review stays on its way** in every move that does not reset its key. -/
theorem Going.step {manager next : DebounceManager Factory} {event : DebounceEvent Factory}
    {prKey : PRKey} {coroFactory : Factory} {handle : Nat}
    (going : Going manager prKey coroFactory handle) (consistent : manager.Consistent)
    (calm : ¬ event.Resets prKey) (moved : Moved manager event next) :
    Going next prKey coroFactory handle := by
  cases going with
  | begun invoked => exact .begun (moved.invoked invoked)
  | waits timer known armed key factory =>
      cases moved with
      | @schedule other _ scheduled fresh =>
          have old : handle ≠ scheduled := by
            rintro rfl
            rw [fresh] at known
            cases known
          refine .waits timer ?_ armed key factory
          rw [DebounceManager.schedule, Dict.get_set, if_neg old]
          exact consistent.timers_reset known fun same => calm (same.symm.trans key)
      | @cancel other =>
          exact .waits timer (consistent.timers_reset known fun same => calm (same.symm.trans key))
            armed key factory
      | @expire expired task own found isArmed fresh =>
          by_cases same : handle = expired
          · -- its own timer expires and creates its task
            subst same
            obtain rfl := Option.some.inj (found.symm.trans known)
            refine .created task
              { prKey := own.prKey, coroFactory := own.coroFactory, timer := handle } ?_ rfl key
              factory rfl rfl
            simp [fire]
          · refine .waits timer ?_ armed key factory
            simp [fire, same, known]
      | resume | enter | leave | drop => exact .waits timer known armed key factory
  | created task running known timer key factory notStarted live =>
      have notCancelled : running.cancelled = false := by
        simpa using (Bool.and_eq_true_iff.mp live).1
      cases moved with
      | @schedule other =>
          refine .created task running ?_ timer key factory notStarted live
          exact consistent.tasks_reset known fun same => calm (same.symm.trans key)
      | @cancel other =>
          refine .created task running ?_ timer key factory notStarted live
          exact consistent.tasks_reset known fun same => calm (same.symm.trans key)
      | @expire expired created own found isArmed fresh =>
          have old : task ≠ created := by
            rintro rfl
            rw [fresh] at known
            cases known
          refine .created task running ?_ timer key factory notStarted live
          simp [fire, old, known]
      | resume => exact .created task running known timer key factory notStarted live
      | @enter entered own found =>
          by_cases same : task = entered
          · -- its own task takes its first step
            subst same
            obtain rfl := Option.some.inj (found.symm.trans known)
            refine .begun ?_
            rw [runStart, timer, factory]
            exact List.mem_append_right _ (List.mem_singleton_self _)
          · refine .created task running ?_ timer key factory notStarted live
            simp [runStart, same, known]
      | @leave left own found _ started =>
          have other : task ≠ left := by
            rintro rfl
            obtain rfl := Option.some.inj (found.symm.trans known)
            rw [notStarted] at started
            cases started
          refine .created task running ?_ timer key factory notStarted live
          simp [runFinally, other, known]
      | @drop dropped own found _ _ cancelled =>
          have other : task ≠ dropped := by
            rintro rfl
            obtain rfl := Option.some.inj (found.symm.trans known)
            rw [notCancelled] at cancelled
            cases cancelled
          refine .created task running ?_ timer key factory notStarted live
          simp [other, known]

/-- The reviews of the last calls of `schedule` are on their way or have begun. -/
def KeepsLast (events : List (DebounceEvent Factory)) (manager : DebounceManager Factory) : Prop :=
  ∀ prKey coroFactory handle since, SinceSchedule events prKey coroFactory handle since →
    Undisturbed prKey since → Going manager prKey coroFactory handle

/-- What is called last is scheduled. -/
theorem going_schedule (manager : DebounceManager Factory) (prKey : PRKey) (coroFactory : Factory)
    (handle : Nat) : Going (manager.schedule prKey coroFactory handle) prKey coroFactory handle :=
  .waits { prKey, coroFactory } (by rw [DebounceManager.schedule, Dict.get_set, if_pos rfl]) rfl
    rfl rfl

theorem KeepsLast.step {events : List (DebounceEvent Factory)}
    {manager next : DebounceManager Factory} {event : DebounceEvent Factory}
    (keeps : KeepsLast events manager) (consistent : manager.Consistent)
    (stepped : DebounceManager.step manager event = some next) :
    KeepsLast (events ++ [event]) next := by
  rintro prKey coroFactory handle since ⟨before, split⟩ undisturbed
  have moved := moved_of_step stepped
  rcases List.eq_nil_or_concat since with rfl | ⟨earlier, last, rfl⟩
  · obtain ⟨-, same⟩ := List.append_inj' split rfl
    obtain rfl := List.singleton_inj.mp same
    cases moved
    exact going_schedule manager prKey coroFactory handle
  · rw [List.concat_eq_append] at split undisturbed
    rw [← List.cons_append, ← List.append_assoc] at split
    obtain ⟨rfl, same⟩ := List.append_inj' split rfl
    obtain rfl := List.singleton_inj.mp same
    have calm := undisturbed event (List.mem_append_right _ (List.mem_singleton_self _))
    refine (keeps prKey coroFactory handle earlier ⟨before, rfl⟩ ?_).step consistent calm moved
    exact fun other member => undisturbed other (List.mem_append_left _ member)

theorem keepsLast_of_run {events : List (DebounceEvent Factory)}
    {manager : DebounceManager Factory}
    (ran : DebounceManager.step.run {} events = some manager) : KeepsLast events manager := by
  have none : KeepsLast [] ({} : DebounceManager Factory) := by
    rintro prKey coroFactory handle since ⟨before, split⟩
    simp at split
  have both : History events manager ∧ KeepsLast events manager :=
    @Machine.holds_of_run _ _ DebounceManager.step
      (fun events manager => History events manager ∧ KeepsLast events manager)
      (fun _ _ _ _ kept stepped => ⟨kept.1.step stepped, kept.2.step kept.1.consistent stepped⟩)
      _ ⟨history_empty, none⟩ _ _ ran
  exact both.2

/-! ## Reviews begin -/

/-- The expiry of a timer or the step of a task. -/
def Advances : DebounceEvent Factory → Prop
  | .expire _ _ | .taskStep _ => True
  | _ => False

/-- **A review that is on its way begins** within two events of the event loop. -/
theorem Going.begins {manager : DebounceManager Factory} {prKey : PRKey} {coroFactory : Factory}
    {handle : Nat} (going : Going manager prKey coroFactory handle) :
    ∃ (events : List (DebounceEvent Factory)) (last : DebounceManager Factory),
      events.length ≤ 2 ∧ (∀ event ∈ events, Advances event) ∧
      DebounceManager.step.run manager events = some last ∧
      (handle, coroFactory) ∈ last.invocations := by
  have enters : ∀ (manager : DebounceManager Factory) task running,
      manager.tasks.get task = some running → running.started = false → running.live →
        DebounceManager.step manager (.taskStep task) = some (manager.runStart task running) := by
    intro manager task running known notStarted live
    obtain ⟨notCancelled, going⟩ := Bool.and_eq_true_iff.mp live
    exact step_of_moved (.enter known (by simpa using going) notStarted (by simpa using notCancelled))
  cases going with
  | begun invoked => exact ⟨[], manager, by simp, by simp, rfl, invoked⟩
  | created task running known timer key factory notStarted live =>
      refine ⟨[.taskStep task], manager.runStart task running, by simp,
        by simp [Advances], ?_, ?_⟩
      · rw [Machine.run_cons, enters manager task running known notStarted live]
        rfl
      · rw [runStart, timer, factory]
        exact List.mem_append_right _ (List.mem_singleton_self _)
  | waits timer known armed key factory =>
      obtain ⟨task, fresh⟩ := manager.tasks.exists_get_eq_none
      obtain ⟨next, expires, created⟩ :
          ∃ next, DebounceManager.step manager (.expire handle task) = some next ∧
            next.tasks.get task = some { prKey, coroFactory, timer := handle } :=
        ⟨_, step_of_moved (.expire known armed fresh), by simp [fire, key, factory]⟩
      have begins := enters next task _ created rfl rfl
      refine ⟨[.expire handle task, .taskStep task],
        next.runStart task { prKey, coroFactory, timer := handle }, by simp,
        by simp [Advances], ?_, ?_⟩
      · rw [Machine.run_cons, expires, Option.bind_some, Machine.run_cons, begins]
        rfl
      · exact List.mem_append_right _ (List.mem_singleton_self _)

end Kenjutsu.Server.DebounceManager
