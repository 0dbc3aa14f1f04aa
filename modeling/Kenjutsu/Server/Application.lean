import Kenjutsu.Server.DebounceProgress
import Kenjutsu.Server.Routing
import Kenjutsu.Server.WebhookDeliveries

/-!
# From a delivery to its review

The webhook endpoint, the background tasks it leaves and the debounce manager of each server
process work together: an accepted delivery leaves `_route_event` for the background, which
schedules a review of the pull request in the manager of its process. When the timer of the
review expires its task invokes `_enqueue_review`. A crash of a process loses its timers, its
tasks and its background work.

In every run a review that begins is that of a delivery that was signed and recorded and that
opens, synchronizes or reopens the pull request; no delivery has two (`deliveries_reviewed`).
And the last delivery of a pull request that a process has routed is not lost
(`lastDelivery_begins`).
-/

set_option autoImplicit false

namespace Kenjutsu.Server.Webhook

open Foundations Kenjutsu.Db Kenjutsu.Http

/-- The server with the debounce managers of its processes. -/
structure Application where
  service : WebhookService
  managers : Nat → DebounceManager EnqueueReview := fun _ => {}
  /-- What each manager has gone through since its process was started. -/
  histories : Nat → List (DebounceEvent EnqueueReview) := fun _ => []
  /-- The reviews that have begun, each with its delivery. -/
  enqueued : List (Nat × EnqueueReview) := []

/-- An event of the service, or one of the event loop of a process. -/
inductive ApplicationEvent where
  | service (event : ServiceEvent WebhookRequest Bool Change)
  | loop (process : Nat) (event : DebounceEvent EnqueueReview)

namespace Application

/-- Something happens to the manager of a process. -/
def debounce (app : Application) (process : Nat) (event : DebounceEvent EnqueueReview) :
    Option Application :=
  (DebounceManager.step (app.managers process) event).map fun manager => { app with
    managers := Function.update app.managers process manager
    histories := Function.update app.histories process (app.histories process ++ [event])
    enqueued := app.enqueued ++
      manager.invocations.drop (app.managers process).invocations.length }

/-- A background task runs in the process of its delivery. The handle of the timer it creates is
named after the delivery. -/
def route (parse : String → Option Int) (process index : Nat) (app : Application)
    (event : RouteEvent) : Option Application :=
  match routeEvent parse event with
  | .review prKey enqueueReview => app.debounce process (.schedule prKey enqueueReview index)
  | _ => some app

/-- A process is lost with what its manager holds. -/
def lose (app : Application) (process : Nat) : Application :=
  { app with
    managers := Function.update app.managers process {}
    histories := Function.update app.histories process [] }

/-- One event. The manager is called by `_route_event` only. -/
def step (runtime : Runtime) (parse : String → Option Int) :
    Machine Application ApplicationEvent
  | app, .service (.work index) => do
      let handler ← app.service.handlers[index]?
      let service ← Service.step (server runtime) app.service (.work index)
      (scheduled handler).foldlM (route parse handler.process index) { app with service }
  | app, .service (.crash process) =>
      some { app.lose process with service := app.service.crashed process }
  | app, .service event =>
      (Service.step (server runtime) app.service event).map fun service => { app with service }
  | _, .loop _ (.schedule _ _ _) => none
  | _, .loop _ (.cancel _) => none
  | app, .loop process event => app.debounce process event

variable {runtime : Runtime} {parse : String → Option Int} {app next : Application}

/-! ## What a move does -/

/-- The manager of a process takes a step, and what it invokes begins. -/
theorem debounce_cases {process : Nat} {event : DebounceEvent EnqueueReview}
    (moved : app.debounce process event = some next) :
    ∃ manager begun, DebounceManager.step (app.managers process) event = some manager ∧
      manager.invocations = (app.managers process).invocations ++ begun ∧
      next = { app with
        managers := Function.update app.managers process manager
        histories := Function.update app.histories process (app.histories process ++ [event])
        enqueued := app.enqueued ++ begun } := by
  obtain ⟨manager, stepped, rfl⟩ := Option.map_eq_some_iff.mp moved
  refine ⟨manager, _, stepped, ?_, rfl⟩
  rcases (DebounceManager.moved_of_step stepped).invocations_of with
    same | ⟨task, running, -, -, appended, -⟩
  · rw [same, List.drop_length, List.append_nil]
  · rw [appended, List.drop_left]

/-- The event calls the manager. -/
def Calls : DebounceEvent EnqueueReview → Prop
  | .schedule _ _ _ | .cancel _ => True
  | _ => False

/-- **What each event does.** -/
theorem step_cases {event : ApplicationEvent} (moved : step runtime parse app event = some next) :
    (∃ own service, event = .service own ∧
      Service.step (server runtime) app.service own = some service ∧
      next = { app with service }) ∨
    (∃ index handler service, event = .service (.work index) ∧
      app.service.handlers[index]? = some handler ∧
      Service.step (server runtime) app.service (.work index) = some service ∧
      (scheduled handler).foldlM (route parse handler.process index) { app with service } =
        some next) ∨
    (∃ process, event = .service (.crash process) ∧
      next = { app.lose process with service := app.service.crashed process }) ∨
    ∃ process own, event = .loop process own ∧ ¬ Calls own ∧ app.debounce process own = some next := by
  cases event with
  | service own =>
      cases own with
      | work index =>
          obtain ⟨handler, found, moved⟩ := Option.bind_eq_some_iff.mp moved
          obtain ⟨service, stepped, folded⟩ := Option.bind_eq_some_iff.mp moved
          exact .inr (.inl ⟨index, handler, service, rfl, found, stepped, folded⟩)
      | crash process => exact .inr (.inr (.inl ⟨process, rfl, (Option.some.inj moved).symm⟩))
      | start process call => exact .inl ⟨_, _, rfl, rfl, (Option.some.inj moved).symm⟩
      | perform index choice =>
          obtain ⟨service, stepped, rfl⟩ := Option.map_eq_some_iff.mp moved
          exact .inl ⟨_, service, rfl, stepped, rfl⟩
      | change change => exact .inl ⟨_, _, rfl, rfl, (Option.some.inj moved).symm⟩
  | loop process own =>
      cases own with
      | schedule => cases moved
      | cancel => cases moved
      | expire => exact .inr (.inr (.inr ⟨process, _, rfl, id, moved⟩))
      | taskStep => exact .inr (.inr (.inr ⟨process, _, rfl, id, moved⟩))
      | taskEnd => exact .inr (.inr (.inr ⟨process, _, rfl, id, moved⟩))

/-- Routing changes nothing of the service. -/
theorem route_service {process index : Nat} {event : RouteEvent}
    (moved : route parse process index app event = some next) : next.service = app.service := by
  unfold route at moved
  split at moved
  · obtain ⟨manager, begun, -, -, rfl⟩ := debounce_cases moved
    rfl
  · exact congrArg service (Option.some.inj moved).symm

theorem foldlM_route_service {process index : Nat} {events : List RouteEvent}
    (moved : events.foldlM (route parse process index) app = some next) :
    next.service = app.service := by
  induction events generalizing app with
  | nil => exact congrArg service (Option.some.inj moved).symm
  | cons event events ih =>
      rw [List.foldlM_cons] at moved
      obtain ⟨middle, routed, moved⟩ := Option.bind_eq_some_iff.mp moved
      exact (ih moved).trans (route_service routed)

/-- The service takes a step of its own, or nothing happens to it. -/
theorem service_cases {event : ApplicationEvent}
    (moved : step runtime parse app event = some next) :
    (∃ own, event = .service own ∧
      Service.step (server runtime) app.service own = some next.service) ∨
    ∃ process own, event = .loop process own ∧ next.service = app.service := by
  rcases step_cases moved with ⟨own, service, rfl, stepped, rfl⟩ |
    ⟨index, handler, service, rfl, -, stepped, folded⟩ | ⟨process, rfl, rfl⟩ |
    ⟨process, own, rfl, -, moved⟩
  · exact .inl ⟨own, rfl, stepped⟩
  · refine .inl ⟨_, rfl, ?_⟩
    rw [foldlM_route_service folded, stepped]
  · exact .inl ⟨_, rfl, rfl⟩
  · obtain ⟨manager, begun, -, -, rfl⟩ := debounce_cases moved
    exact .inr ⟨process, own, rfl, rfl⟩

/-! ## Where reviews come from -/

/-- The review has been asked for by the background task of a delivery, in its process. -/
def RoutedAs (parse : String → Option Int) (service : WebhookService) (process : Nat)
    (prKey : PRKey) (enqueueReview : EnqueueReview) (index : Nat) : Prop :=
  ∃ handler task, service.handlers[index]? = some handler ∧ handler.process = process ∧
    handler.worked = true ∧ scheduled handler = [task] ∧
    routeEvent parse task = .review prKey enqueueReview

/-- What has been asked for stays so. -/
theorem RoutedAs.step {service later : WebhookService} {process index : Nat} {prKey : PRKey}
    {enqueueReview : EnqueueReview}
    (routed : RoutedAs parse service process prKey enqueueReview index)
    {event : ServiceEvent WebhookRequest Bool Change}
    (moved : Service.step (server runtime) service event = some later) :
    RoutedAs parse later process prKey enqueueReview index := by
  obtain ⟨handler, task, found, own, worked, leaves, routes⟩ := routed
  obtain ⟨outcome, finished⟩ : ∃ outcome, handler.rest = .finish outcome := by
    unfold scheduled at leaves
    split at leaves
    · exact ⟨_, by assumption⟩
    · cases leaves
  obtain ⟨after, foundAfter, -, rest, stays, -⟩ := Service.handler_stays moved found finished
  refine ⟨after, task, foundAfter, ?_, stays worked, ?_, routes⟩
  · rw [Service.process_stays moved found foundAfter, own]
  · unfold scheduled at leaves ⊢
    rw [rest]
    exact leaves

/-- The managers have been through their histories, and every review that was scheduled or has
begun is that of a delivery. -/
structure Accounts (runtime : Runtime) (parse : String → Option Int) (app : Application) :
    Prop where
  follows : Follows runtime app.service
  ran : ∀ process, DebounceManager.step.run {} (app.histories process) = some (app.managers process)
  routed : ∀ process prKey enqueueReview index,
    .schedule prKey enqueueReview index ∈ app.histories process →
      RoutedAs parse app.service process prKey enqueueReview index
  begun : ∀ index enqueueReview, (index, enqueueReview) ∈ app.enqueued →
    ∃ process prKey, RoutedAs parse app.service process prKey enqueueReview index
  once : (app.enqueued.map Prod.fst).Nodup
  counted : ∀ process invocation, invocation ∈ (app.managers process).invocations →
    invocation ∈ app.enqueued
  /-- A review that has begun and is scheduled was begun by this manager. -/
  current : ∀ process prKey enqueueReview index,
    .schedule prKey enqueueReview index ∈ app.histories process →
      index ∈ app.enqueued.map Prod.fst →
        index ∈ (app.managers process).invocations.map Prod.fst
  /-- Nobody calls `cancel`. -/
  uncancelled : ∀ process prKey, .cancel prKey ∉ app.histories process

/-- What a manager has invoked was scheduled. -/
theorem scheduled_of_invoked {events : List (DebounceEvent EnqueueReview)}
    {manager : DebounceManager EnqueueReview}
    (ran : DebounceManager.step.run {} events = some manager) {index : Nat}
    {enqueueReview : EnqueueReview} (invoked : (index, enqueueReview) ∈ manager.invocations) :
    ∃ prKey, .schedule prKey enqueueReview index ∈ events := by
  have history := DebounceManager.history_of_run ran
  obtain ⟨task, running, found, -, rfl, rfl⟩ := history.invoked index enqueueReview invoked
  obtain ⟨timer, known, fired, -, factory⟩ := history.created task running found
  obtain ⟨between, expired, later, ⟨before, split⟩, -⟩ := history.fired _ timer known fired
  refine ⟨timer.prKey, ?_⟩
  rw [split, ← factory]
  exact List.mem_append_right _ List.mem_cons_self

/-- A step of a manager keeps the accounts, if what it schedules is the review of a delivery
that has not begun. -/
theorem Accounts.debounce (accounts : Accounts runtime parse app) {process : Nat}
    {event : DebounceEvent EnqueueReview}
    (fresh : ∀ prKey enqueueReview index, event = .schedule prKey enqueueReview index →
      RoutedAs parse app.service process prKey enqueueReview index ∧
        index ∉ app.enqueued.map Prod.fst)
    (uncancelled : ∀ prKey, event ≠ .cancel prKey)
    (moved : app.debounce process event = some next) : Accounts runtime parse next := by
  obtain ⟨manager, begun, stepped, invocations, rfl⟩ := debounce_cases moved
  have ran : DebounceManager.step.run {} (app.histories process ++ [event]) = some manager := by
    rw [Machine.run_append, accounts.ran process, Option.bind_some, Machine.run_cons, stepped]
    rfl
  have routed : ∀ prKey enqueueReview index,
      .schedule prKey enqueueReview index ∈ app.histories process ++ [event] →
        RoutedAs parse app.service process prKey enqueueReview index := by
    intro prKey enqueueReview index member
    rcases List.mem_append.mp member with old | new
    · exact accounts.routed process prKey enqueueReview index old
    · exact (fresh prKey enqueueReview index (List.mem_singleton.mp new).symm).1
  have scheduledOf : ∀ invocation ∈ begun, ∃ prKey,
      .schedule prKey invocation.2 invocation.1 ∈ app.histories process ++ [event] :=
    fun invocation member => scheduled_of_invoked ran
      (invocations ▸ List.mem_append_right _ member)
  have once := (DebounceManager.history_of_run ran).once
  rw [invocations, List.map_append] at once
  have notYet : ∀ invocation ∈ begun, invocation.1 ∉ app.enqueued.map Prod.fst := by
    intro invocation member before
    obtain ⟨prKey, schedules⟩ := scheduledOf invocation member
    rcases List.mem_append.mp schedules with old | new
    · have earlier := accounts.current process _ _ _ old before
      exact List.disjoint_of_nodup_append once earlier (List.mem_map_of_mem member)
    · exact (fresh _ _ _ (List.mem_singleton.mp new).symm).2 before
  refine ⟨accounts.follows, ?_, ?_, ?_, ?_, ?_, ?_, ?_⟩
  · intro other
    by_cases same : other = process
    · subst same
      simpa using ran
    · simpa [same] using accounts.ran other
  · intro other prKey enqueueReview index member
    by_cases same : other = process
    · subst same
      exact routed prKey enqueueReview index (by simpa using member)
    · exact accounts.routed other prKey enqueueReview index (by simpa [same] using member)
  · intro index enqueueReview member
    rcases List.mem_append.mp member with old | new
    · exact accounts.begun index enqueueReview old
    · obtain ⟨prKey, schedules⟩ := scheduledOf _ new
      exact ⟨process, prKey, routed prKey enqueueReview index schedules⟩
  · rw [List.map_append]
    refine List.nodup_append'.mpr ⟨accounts.once, once.of_append_right, ?_⟩
    intro index before now
    obtain ⟨invocation, member, rfl⟩ := List.mem_map.mp now
    exact notYet invocation member before
  · intro other invocation member
    by_cases same : other = process
    · subst same
      have member : invocation ∈ manager.invocations := by simpa using member
      rw [invocations] at member
      rcases List.mem_append.mp member with old | new
      · exact List.mem_append_left _ (accounts.counted other invocation old)
      · exact List.mem_append_right _ new
    · have member : invocation ∈ (app.managers other).invocations := by simpa [same] using member
      exact List.mem_append_left _ (accounts.counted other invocation member)
  · intro other prKey enqueueReview index schedules member
    rw [List.map_append] at member
    by_cases same : other = process
    · subst same
      have schedules : .schedule prKey enqueueReview index ∈ app.histories other ++ [event] := by
        simpa using schedules
      have goal : index ∈ manager.invocations.map Prod.fst := by
        rw [invocations, List.map_append]
        rcases List.mem_append.mp member with before | now
        · rcases List.mem_append.mp schedules with old | new
          · exact List.mem_append_left _ (accounts.current other _ _ _ old before)
          · exact absurd before (fresh _ _ _ (List.mem_singleton.mp new).symm).2
        · exact List.mem_append_right _ now
      simpa using goal
    · have schedules : .schedule prKey enqueueReview index ∈ app.histories other := by
        simpa [same] using schedules
      have goal : index ∈ (app.managers other).invocations.map Prod.fst := by
        rcases List.mem_append.mp member with before | now
        · exact accounts.current other _ _ _ schedules before
        · -- a delivery is routed in its own process only
          obtain ⟨invocation, begins, rfl⟩ := List.mem_map.mp now
          obtain ⟨own, here⟩ := scheduledOf invocation begins
          obtain ⟨handler, -, found, isOther, -⟩ := accounts.routed other _ _ _ schedules
          obtain ⟨rival, -, found', isProcess, -⟩ := routed _ _ _ here
          obtain rfl := Option.some.inj (found.symm.trans found')
          exact absurd (isOther.symm.trans isProcess) same
      simpa [same] using goal
  · intro other prKey member
    by_cases same : other = process
    · subst same
      have member : .cancel prKey ∈ app.histories other ++ [event] := by simpa using member
      rcases List.mem_append.mp member with old | new
      · exact accounts.uncancelled other prKey old
      · exact uncancelled prKey (List.mem_singleton.mp new).symm
    · exact accounts.uncancelled other prKey (by simpa [same] using member)

/-- What the service does keeps the accounts. -/
theorem Accounts.serve (accounts : Accounts runtime parse app) {service : WebhookService}
    {event : ServiceEvent WebhookRequest Bool Change}
    (moved : Service.step (server runtime) app.service event = some service) :
    Accounts runtime parse { app with service } where
  follows := Service.follows_step (receiveWebhook_ensures runtime) (admits_performs runtime) event
    service accounts.follows moved
  ran := accounts.ran
  routed process prKey enqueueReview index member :=
    (accounts.routed process prKey enqueueReview index member).step moved
  begun index enqueueReview member := by
    obtain ⟨process, prKey, routed⟩ := accounts.begun index enqueueReview member
    exact ⟨process, prKey, routed.step moved⟩
  once := accounts.once
  counted := accounts.counted
  current := accounts.current
  uncancelled := accounts.uncancelled

/-- So does the loss of a manager. -/
theorem Accounts.lose (accounts : Accounts runtime parse app) (process : Nat) :
    Accounts runtime parse (app.lose process) where
  follows := accounts.follows
  ran other := by
    by_cases same : other = process
    · subst same
      simp [Application.lose]
    · simpa [Application.lose, same] using accounts.ran other
  routed other prKey enqueueReview index member := by
    by_cases same : other = process
    · subst same
      simp [Application.lose] at member
    · exact accounts.routed other prKey enqueueReview index
        (by simpa [Application.lose, same] using member)
  begun := accounts.begun
  once := accounts.once
  counted other invocation member := by
    by_cases same : other = process
    · subst same
      simp [Application.lose] at member
    · exact accounts.counted other invocation (by simpa [Application.lose, same] using member)
  current other prKey enqueueReview index member begun := by
    by_cases same : other = process
    · subst same
      simp [Application.lose] at member
    · simpa [Application.lose, same] using accounts.current other prKey enqueueReview index
        (by simpa [Application.lose, same] using member) begun
  uncancelled other prKey member := by
    by_cases same : other = process
    · subst same
      simp [Application.lose] at member
    · exact accounts.uncancelled other prKey (by simpa [Application.lose, same] using member)

/-- A handler leaves one background task or none. -/
theorem scheduled_cases {service : WebhookService} (follows : Follows runtime service) {index : Nat}
    {handler : Handler WebhookRequest Awaited.Answer Raised Reply}
    (found : service.handlers[index]? = some handler) :
    scheduled handler = [] ∨ ∃ task, scheduled handler = [task] := by
  rcases follows.outcome found with ⟨-, nothing⟩ | ⟨event, action, -, -, finished⟩
  · exact .inl nothing
  · refine .inr ⟨⟨event.eventType, action, event.payloadJson⟩, ?_⟩
    unfold scheduled
    rw [finished]

/-- **Every event keeps the accounts.** -/
theorem Accounts.step (accounts : Accounts runtime parse app) {event : ApplicationEvent}
    (moved : Application.step runtime parse app event = some next) :
    Accounts runtime parse next := by
  rcases step_cases moved with ⟨own, service, -, stepped, rfl⟩ |
    ⟨index, handler, service, -, found, stepped, folded⟩ | ⟨process, -, rfl⟩ |
    ⟨process, own, -, calm, moved⟩
  · exact accounts.serve stepped
  · have served := accounts.serve stepped
    rcases scheduled_cases accounts.follows found with nothing | ⟨task, leaves⟩
    · rw [nothing] at folded
      obtain rfl := Option.some.inj folded
      exact served
    · rw [leaves, List.foldlM_cons] at folded
      obtain ⟨middle, routes, same⟩ := Option.bind_eq_some_iff.mp folded
      obtain rfl := Option.some.inj same
      unfold route at routes
      split at routes
      · rename_i prKey enqueueReview decided
        refine served.debounce (fun _ _ _ schedules => ?_) (by rintro _ ⟨⟩) routes
        obtain ⟨rfl, rfl, rfl⟩ := DebounceEvent.schedule.inj schedules
        obtain ⟨own, result, foundOwn, -, notWorked, finished, -, rfl⟩ :=
          Service.work_cases stepped
        obtain rfl := Option.some.inj (found.symm.trans foundOwn)
        obtain ⟨bound, -⟩ := List.getElem?_eq_some_iff.mp found
        refine ⟨⟨{ handler with worked := true }, task, List.getElem?_set_self bound, rfl, rfl,
          leaves, decided⟩, ?_⟩
        intro before
        obtain ⟨⟨_, begun⟩, member, rfl⟩ := List.mem_map.mp before
        obtain ⟨_, _, rival, _, foundRival, -, worked, -⟩ := accounts.begun _ begun member
        obtain rfl := Option.some.inj (found.symm.trans foundRival)
        rw [notWorked] at worked
        cases worked
      · obtain rfl := Option.some.inj routes
        exact served
  · have crashed : Service.step (server runtime) (app.lose process).service (.crash process) =
        some (app.service.crashed process) := rfl
    exact (accounts.lose process).serve crashed
  · refine accounts.debounce (fun _ _ _ schedules => ?_) (fun _ cancels => ?_) moved
    · subst schedules
      exact absurd trivial calm
    · subst cancels
      exact absurd trivial calm

theorem accounts_start (first : Deliveries) :
    Accounts runtime parse { service := ⟨first, [], []⟩ } where
  follows := ⟨by simp, by simp, by simp⟩
  ran _ := rfl
  routed _ _ _ _ member := absurd member List.not_mem_nil
  begun _ _ member := absurd member List.not_mem_nil
  once := List.nodup_nil
  counted _ _ member := absurd member List.not_mem_nil
  current _ _ _ _ member := absurd member List.not_mem_nil
  uncancelled _ _ := List.not_mem_nil

theorem forall_visits_accounts (runtime : Runtime) (parse : String → Option Int)
    (first : Deliveries) (events : List ApplicationEvent) :
    ∀ app ∈ (step runtime parse).visits { service := ⟨first, [], []⟩ } events,
      Accounts runtime parse app :=
  Machine.forall_visits (fun _ _ _ accounts moved => accounts.step moved) (accounts_start first)
    events

/-! ## Reviews are those of recorded deliveries -/

/-- The move deletes no stored event. -/
def KeepsStored (app : Application) : ApplicationEvent → Prop
  | .service event => KeepsEvents app.service event
  | .loop _ _ => True

/-- The reviews that have begun, and the deliveries they are of. -/
structure Reviewed (runtime : Runtime) (parse : String → Option Int) (app : Application) :
    Prop where
  /-- A review is that of a delivery that passed all checks, was recorded by its own commit, and
  opens, synchronizes or reopens the pull request. -/
  recorded : ∀ index enqueueReview, (index, enqueueReview) ∈ app.enqueued →
    ∃ handler event action prKey, app.service.handlers[index]? = some handler ∧
      Passes runtime handler.call (app.service.heard index) event ∧
      (index, event) ∈ insertions app.service ∧
      dictGet "action" .null event.payloadJson = .ok action ∧
      Triggers parse ⟨event.eventType, action, event.payloadJson⟩ prKey enqueueReview
  /-- No delivery has two reviews, -/
  once : (app.enqueued.map Prod.fst).Nodup
  /-- not even if it was sent twice. -/
  distinct : ∀ first second, first ∈ app.enqueued → second ∈ app.enqueued →
    ∀ handler rival, app.service.handlers[first.1]? = some handler →
      app.service.handlers[second.1]? = some rival →
        handler.call.xGithubDelivery = rival.call.xGithubDelivery → first.1 = second.1

/-- **From deliveries to reviews.** In every run of the server processes, from any database, as
long as no stored event is deleted, every review that begins is that of a delivery that was
signed and recorded, and no delivery leads to two. -/
theorem deliveries_reviewed (runtime : Runtime) (parse : String → Option Int)
    (first : Deliveries) (events : List ApplicationEvent)
    (keeps : ∀ move ∈ (step runtime parse).moves { service := ⟨first, [], []⟩ } events,
      KeepsStored move.1 move.2) :
    ∀ app ∈ (step runtime parse).visits { service := ⟨first, [], []⟩ } events,
      Reviewed runtime parse app := by
  intro app visited
  have accounts := forall_visits_accounts runtime parse first events app visited
  have rows : app.service.store.webhookEvents.rows =
      first.webhookEvents.rows ++ (insertions app.service).map Prod.snd := by
    refine @Machine.forall_visits_of_guarded _ _ (step runtime parse)
      (fun app => app.service.store.webhookEvents.rows =
        first.webhookEvents.rows ++ (insertions app.service).map Prod.snd) KeepsStored
      (fun app event next recorded kept moved => ?_) _ (List.append_nil _).symm _ keeps app visited
    rcases service_cases moved with ⟨own, rfl, stepped⟩ | ⟨process, own, rfl, same⟩
    · exact recorded_step recorded kept stepped
    · rw [same]
      exact recorded
  have unique := app.service.store.webhookEvents.distinct
  rw [rows, List.map_append] at unique
  have leaves : ∀ entry ∈ app.enqueued, ∃ handler,
      app.service.handlers[entry.1]? = some handler ∧ scheduled handler ≠ [] := by
    intro entry member
    obtain ⟨process, prKey, handler, task, found, -, -, tasks, -⟩ :=
      accounts.begun entry.1 entry.2 member
    exact ⟨handler, found, tasks ▸ List.cons_ne_nil _ _⟩
  refine ⟨?_, accounts.once, ?_⟩
  · intro index enqueueReview member
    obtain ⟨process, prKey, handler, task, found, -, -, tasks, routes⟩ :=
      accounts.begun index enqueueReview member
    rcases accounts.follows.outcome found with ⟨-, nothing⟩ | ⟨_, _, -, -, finished⟩
    · rw [nothing] at tasks
      cases tasks
    · obtain ⟨event, passes, only, action, looked, same⟩ := accounts.follows.finished found finished
      unfold scheduled at tasks
      rw [finished] at tasks
      obtain rfl := List.singleton_inj.mp (tasks.symm.trans same)
      exact ⟨handler, event, action, prKey, found, passes,
        mem_insertions_iff.mpr ((only event).mpr rfl), looked,
        (routeEvent_eq_review_iff parse _ _ _).mp routes⟩
  · intro one other member member' handler rival found found' same
    obtain ⟨handler', foundOne, schedules⟩ := leaves one member
    obtain ⟨rival', foundOther, schedules'⟩ := leaves other member'
    obtain rfl := Option.some.inj (found.symm.trans foundOne)
    obtain rfl := Option.some.inj (found'.symm.trans foundOther)
    obtain ⟨event, inserted, identified⟩ := accounts.follows.dispatched found schedules
    obtain ⟨event', inserted', identified'⟩ := accounts.follows.dispatched found' schedules'
    refine insertions_unique unique.of_append_right inserted inserted' ?_
    rw [identified, identified'] at same
    exact Option.some.inj same

/-! ## The last delivery is reviewed -/

/-- The reviews of a pull request that were scheduled, each with its delivery. -/
def reviewsOf (prKey : PRKey) (events : List (DebounceEvent EnqueueReview)) :
    List (Nat × EnqueueReview) :=
  events.filterMap fun
    | .schedule key enqueueReview index =>
        if key = prKey then some (index, enqueueReview) else none
    | _ => none

/-- After the last of them nothing was scheduled for the pull request. -/
theorem sinceSchedule_of_getLast {prKey : PRKey} {index : Nat} {enqueueReview : EnqueueReview}
    {events : List (DebounceEvent EnqueueReview)} (uncancelled : ∀ key, .cancel key ∉ events)
    (isLast : (reviewsOf prKey events).getLast? = some (index, enqueueReview)) :
    ∃ since, DebounceManager.SinceSchedule events prKey enqueueReview index since ∧
      Undisturbed prKey since := by
  induction events using List.reverseRecOn with
  | nil => cases isLast
  | append_singleton events event ih =>
      have earlier : ¬ event.Resets prKey → reviewsOf prKey (events ++ [event]) =
          reviewsOf prKey events → ∃ since, DebounceManager.SinceSchedule (events ++ [event]) prKey
            enqueueReview index since ∧ Undisturbed prKey since := by
        intro calm same
        rw [same] at isLast
        obtain ⟨since, scheduledThen, undisturbed⟩ :=
          ih (fun key member => uncancelled key (List.mem_append_left _ member)) isLast
        exact ⟨since ++ [event], scheduledThen.append event, undisturbed.append calm⟩
      cases event with
      | schedule key own handle =>
          by_cases same : key = prKey
          · subst same
            have isOwn : reviewsOf key (events ++ [.schedule key own handle]) =
                reviewsOf key events ++ [(handle, own)] := by
              simp [reviewsOf]
            rw [isOwn, List.getLast?_concat] at isLast
            cases isLast
            exact ⟨[], ⟨events, rfl⟩, fun _ member => absurd member List.not_mem_nil⟩
          · exact earlier same (by simp [reviewsOf, same])
      | cancel key =>
          exact absurd (List.mem_append_right _ (List.mem_singleton_self _)) (uncancelled key)
      | expire handle task => exact earlier id (by simp [reviewsOf])
      | taskStep task => exact earlier id (by simp [reviewsOf])
      | taskEnd task => exact earlier id (by simp [reviewsOf])

/-- A run of the event loop of one process. -/
theorem run_loop {process : Nat} {events : List (DebounceEvent EnqueueReview)}
    {manager : DebounceManager EnqueueReview} (calm : ∀ event ∈ events, ¬ Calls event)
    (ran : DebounceManager.step.run (app.managers process) events = some manager) :
    ∃ last, (step runtime parse).run app (events.map (.loop process)) = some last ∧
      last.managers process = manager := by
  induction events generalizing app with
  | nil => exact ⟨app, rfl, Option.some.inj ran⟩
  | cons event events ih =>
      obtain ⟨next, stepped, ran⟩ := Option.bind_eq_some_iff.mp ran
      obtain ⟨first, rest⟩ := List.forall_mem_cons.mp calm
      have moved : ∃ app', step runtime parse app (.loop process event) = some app' ∧
          app'.managers process = next := by
        have debounced : app.debounce process event = some _ :=
          Option.map_eq_some_iff.mpr ⟨next, stepped, rfl⟩
        cases event with
        | schedule => exact absurd trivial first
        | cancel => exact absurd trivial first
        | _ => exact ⟨_, debounced, by simp⟩
      obtain ⟨app', moved, same⟩ := moved
      obtain ⟨last, ranRest, ends⟩ := ih rest (by rw [same]; exact ran)
      refine ⟨last, ?_, ends⟩
      rw [List.map_cons, Machine.run_cons, moved]
      exact ranRest

/-- **The last push is not lost.** Of all deliveries for a pull request that a process has routed
since it was started, the review of the last one has begun, or it does within two events of the
event loop of that process, whatever deliveries it superseded and whatever else is going on. -/
theorem lastDelivery_begins (runtime : Runtime) (parse : String → Option Int)
    (first : Deliveries) (events : List ApplicationEvent) :
    ∀ app ∈ (step runtime parse).visits { service := ⟨first, [], []⟩ } events,
      ∀ process prKey index enqueueReview,
        (reviewsOf prKey (app.histories process)).getLast? = some (index, enqueueReview) →
        ∃ more last, more.length ≤ 2 ∧ (∀ event ∈ more, ∃ own, event = .loop process own) ∧
          (step runtime parse).run app more = some last ∧
          (index, enqueueReview) ∈ last.enqueued := by
  intro app visited process prKey index enqueueReview isLast
  have accounts := forall_visits_accounts runtime parse first events app visited
  have ran := accounts.ran process
  obtain ⟨since, scheduledThen, undisturbed⟩ := sinceSchedule_of_getLast
    (accounts.uncancelled process) isLast
  have going := DebounceManager.keepsLast_of_run ran prKey enqueueReview index since scheduledThen
    undisturbed
  obtain ⟨more, manager, short, advances, ranMore, begun⟩ := going.begins
  have calm : ∀ event ∈ more, ¬ Calls event := by
    intro event member calls
    have advance := advances event member
    cases event with
    | schedule | cancel => exact advance
    | expire | taskStep | taskEnd => exact calls
  obtain ⟨last, ranLast, same⟩ := @run_loop runtime parse app process more manager calm ranMore
  have after : Accounts runtime parse last :=
    Machine.forall_visits (fun _ _ _ accounts moved => Accounts.step accounts moved) accounts _ last
      ((Machine.mem_visits_iff _ _ _ _).mpr ⟨_, [], (List.append_nil _).symm, ranLast⟩)
  refine ⟨more.map (.loop process), last, by rwa [List.length_map], ?_, ranLast, ?_⟩
  · intro event member
    obtain ⟨own, -, rfl⟩ := List.mem_map.mp member
    exact ⟨own, rfl⟩
  · exact after.counted process _ (same ▸ begun)

/-! ## A delivery and its review -/

/-- The payload of a delivery of a pull request. -/
def pullRequestPayload : Json :=
  .object [("action", .string "opened"), ("number", .integer 7),
    ("repository", .object [("full_name", .string "acme/app")]),
    ("installation", .object [("id", .integer 99)])]

/-- The HMAC-SHA256 of its body. -/
def pullRequestDigest : List Char :=
  ['3', '6', 'b', 'a', '6', '8', '2', 'e', '7', 'c', 'b', 'b', 'a', '3', '3', '8', '4', '6', '7',
    'b', '5', 'b', '2', '2', 'c', 'c', '7', '0', '8', '9', '4', 'a', '3', '1', '5', '6', '4', 'c',
    '2', 'f', 'd', '1', 'f', '5', '1', '1', '4', 'a', '0', 'a', '1', '9', 'f', 'c', 'a', 'c', '7',
    '4', '0', 'f', '7', 'b', '3', '6']

/-- The standard library and the driver, on that body. -/
def pullRequestRuntime : Runtime where
  hexdigest _ _ := pullRequestDigest
  loads _ := .ok pullRequestPayload
  format _ := "99"
  bind _ := .ok 99

/-- The delivery, its body as bytes. -/
def pullRequestDelivery : WebhookRequest where
  xHubSignature256 := signaturePrefix ++ pullRequestDigest
  xGithubEvent := "pull_request"
  xGithubDelivery := "abc-124-delivery"
  body := [123, 34, 97, 99, 116, 105, 111, 110, 34, 58, 32, 34, 111, 112, 101, 110, 101, 100, 34, 44, 32,
    34, 110, 117, 109, 98, 101, 114, 34, 58, 32, 55, 44, 32, 34, 114, 101, 112, 111, 115, 105, 116,
    111, 114, 121, 34, 58, 32, 123, 34, 102, 117, 108, 108, 95, 110, 97, 109, 101, 34, 58, 32, 34,
    97, 99, 109, 101, 47, 97, 112, 112, 34, 125, 44, 32, 34, 105, 110, 115, 116, 97, 108, 108, 97,
    116, 105, 111, 110, 34, 58, 32, 123, 34, 105, 100, 34, 58, 32, 57, 57, 125, 125]
  secret := "integration-test-secret"

/-- The delivery is accepted, and its background task runs. -/
def acceptedAndRouted : List ApplicationEvent :=
  [.service (.change (.insertInstallation ⟨acmeId, 99⟩)), .service (.start 0 pullRequestDelivery),
    .service (.perform 0 false), .service (.perform 0 false), .service (.perform 0 false),
    .service (.work 0)]

instance (app : Application) : (event : ApplicationEvent) → Decidable (KeepsStored app event)
  | .service event => inferInstanceAs (Decidable (KeepsEvents app.service event))
  | .loop _ _ => .isTrue trivial

/-- When its timer has expired and its task has run, the review of the delivery has begun. -/
theorem acceptedAndRouted_reviewed : ∃ app,
    (step pullRequestRuntime fun _ => none).run { service := ⟨.created, [], []⟩ }
      (acceptedAndRouted ++ [.loop 0 (.expire 0 0), .loop 0 (.taskStep 0)]) = some app ∧
    app.enqueued.map Prod.fst = [0] ∧ Reviewed pullRequestRuntime (fun _ => none) app := by
  have ends : ((step pullRequestRuntime fun _ => none).run { service := ⟨.created, [], []⟩ }
      (acceptedAndRouted ++ [.loop 0 (.expire 0 0), .loop 0 (.taskStep 0)])).map
        (fun app => app.enqueued.map Prod.fst) = some [0] := by
    decide +kernel
  obtain ⟨app, ran, begun⟩ := Option.map_eq_some_iff.mp ends
  exact ⟨app, ran, begun, deliveries_reviewed pullRequestRuntime (fun _ => none) .created
    (acceptedAndRouted ++ [.loop 0 (.expire 0 0), .loop 0 (.taskStep 0)]) (by decide +kernel) app
    ((Machine.mem_visits_iff _ _ _ _).mpr ⟨_, [], (List.append_nil _).symm, ran⟩)⟩

/-- Before that it is two events away. -/
theorem acceptedAndRouted_begins : ∃ app enqueueReview more last,
    (step pullRequestRuntime fun _ => none).run { service := ⟨.created, [], []⟩ }
      acceptedAndRouted = some app ∧
    (step pullRequestRuntime fun _ => none).run app more = some last ∧
    (0, enqueueReview) ∈ last.enqueued := by
  have ends : ((step pullRequestRuntime fun _ => none).run { service := ⟨.created, [], []⟩ }
      acceptedAndRouted).map (fun app =>
        (reviewsOf ("acme/app", 7) (app.histories 0)).getLast?.map Prod.fst) = some (some 0) := by
    decide +kernel
  obtain ⟨app, ran, routes⟩ := Option.map_eq_some_iff.mp ends
  obtain ⟨⟨index, enqueueReview⟩, isLast, rfl⟩ := Option.map_eq_some_iff.mp routes
  obtain ⟨more, last, -, -, ranMore, begun⟩ := lastDelivery_begins pullRequestRuntime (fun _ => none)
    .created acceptedAndRouted app
    ((Machine.mem_visits_iff _ _ _ _).mpr ⟨_, [], (List.append_nil _).symm, ran⟩) 0
    ("acme/app", 7) _ enqueueReview isLast
  exact ⟨app, enqueueReview, more, last, ran, ranMore, begun⟩

end Application

end Kenjutsu.Server.Webhook
