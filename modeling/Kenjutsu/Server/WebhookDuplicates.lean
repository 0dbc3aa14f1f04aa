import Kenjutsu.Server.WebhookDeliveries

/-!
# What a duplicate stands for

A delivery that is answered as a duplicate should be one that is recorded and
that has been routed, or is scheduled to be. Two things stand in the way. The
commit raises the same error for an installation that was deleted since the
lookup, so that a delivery nobody has recorded is answered as a duplicate and
dropped; and a crash between the commit and the background task keeps the row
and loses the dispatch, so that every redelivery is answered as a duplicate and
nobody routes it.

While no deletion and no crash does so, every recorded delivery stays routed
(`Covered`), and every duplicate is one.
-/

set_option autoImplicit false

namespace Kenjutsu.Server.Webhook

open Foundations Kenjutsu.Db Kenjutsu.Http

/-- The delivery has been routed, or is still scheduled to be. -/
def Routed (service : WebhookService) (deliveryId : String) : Prop :=
  ∃ handler ∈ service.handlers, handler.call.xGithubDelivery = some deliveryId ∧
    scheduled handler ≠ [] ∧ (handler.worked = true ∨ handler.alive = true)

/-- In this move the handler answers its delivery as a duplicate. -/
def AnswersDuplicate (service next : WebhookService) (index : Nat) (deliveryId : String) : Prop :=
  ∃ handler ∈ next.handlers[index]?, handler.call.xGithubDelivery = some deliveryId ∧
    answered handler = some .duplicate ∧ (service.handlers[index]?).bind Handler.outcome? = none

/-- A delivery that is answered as a duplicate is recorded, and has been routed or
is still scheduled to be. -/
def DuplicatesHandled (service next : WebhookService) : Prop :=
  ∀ index deliveryId, AnswersDuplicate service next index deliveryId →
    next.store.Stored deliveryId ∧ Routed next deliveryId

/-- The tables have what a handler of the delivery relies on where it waits: whoever
waits to commit finds the installation of the event, or the delivery recorded
already, and whoever waits to roll back finds the delivery recorded. -/
def ReliedOn (deliveries : Deliveries) (delivery : Option String) : Option Awaited → Prop
  | some (.commit event) =>
      deliveries.Known event.installationId ∨ deliveries.Stored event.deliveryId
  | some .rollback => ∀ deliveryId ∈ delivery, deliveries.Stored deliveryId
  | _ => True

/-- The move spares what the handlers in flight rely on, and what is scheduled: a
deletion leaves them what they rely on, and a crash leaves every recorded
delivery routed, or scheduled in another process. -/
def Spares (service : WebhookService) : ServiceEvent WebhookRequest Bool Change → Prop
  | .change (.deleteInstallation id) => ∀ handler ∈ service.handlers, handler.alive = true →
      ReliedOn (service.store.deleteInstallation id) handler.call.xGithubDelivery handler.request?
  | .crash process => ∀ event ∈ service.store.webhookEvents.rows,
      Routed (service.crashed process) event.deliveryId
  | _ => True

/-- Every recorded delivery is routed, and the tables have what the handlers rely
on. -/
structure Covered (service : WebhookService) : Prop where
  routed : ∀ event ∈ service.store.webhookEvents.rows, Routed service event.deliveryId
  reliedOn : ∀ handler ∈ service.handlers, handler.alive = true →
    ReliedOn service.store handler.call.xGithubDelivery handler.request?

/-! ## Operations -/

variable {runtime : Runtime} {deliveries : Deliveries} {fails : Bool}

/-- An installation that a lookup returns exists. -/
theorem known_of_lookup {githubId : Json} {installation : Installation}
    (found : (performs runtime fails deliveries (.execute githubId)).1 = .ok (some installation)) :
    deliveries.Known installation.id := by
  cases fails with
  | true => cases found
  | false =>
      cases bound : runtime.bind githubId with
      | error raised =>
          simp only [performs, bound] at found
          cases found
      | ok id =>
          simp only [performs, bound] at found
          exact ⟨installation, (deliveries.selectInstallation_eq (Except.ok.inj found)).1, rfl⟩

/-- A commit violates a constraint for a recorded delivery, or for an installation
that no longer exists. -/
theorem stored_or_not_known_of_violation {event : WebhookEvent}
    (violated : (performs runtime fails deliveries (.commit event)).1 = .error .integrityError) :
    deliveries.Stored event.deliveryId ∨ ¬ deliveries.Known event.installationId := by
  cases fails with
  | true => cases violated
  | false =>
      refine (deliveries.insertEvent_eq_none_iff event).mp ?_
      cases inserted : deliveries.insertEvent event with
      | none => rfl
      | some after =>
          simp only [performs, inserted] at violated
          cases violated

/-! ## Moves -/

variable {service next : WebhookService} {event : ServiceEvent WebhookRequest Bool Change}

/-- Only a deletion takes anything from the tables. -/
theorem tables_grow (moved : Service.step (server runtime) service event = some next)
    (grows : ∀ id, event ≠ .change (.deleteInstallation id)) :
    (∀ id, service.store.Known id → next.store.Known id) ∧
      ∀ deliveryId, service.store.Stored deliveryId → next.store.Stored deliveryId := by
  rcases tables_cases moved with ⟨id, rfl, -⟩ | ⟨known, new, -, rows, -⟩
  · exact absurd rfl (grows id)
  · refine ⟨known, ?_⟩
    rintro deliveryId ⟨row, listed, same⟩
    exact ⟨row, by rw [rows]; exact List.mem_append_left _ listed, same⟩

/-- What is routed stays routed, but for a crash. -/
theorem Routed.step {deliveryId : String} (routed : Routed service deliveryId)
    (moved : Service.step (server runtime) service event = some next)
    (up : ∀ process, event ≠ .crash process) : Routed next deliveryId := by
  obtain ⟨handler, member, delivers, schedules, covers⟩ := routed
  obtain ⟨index, found⟩ := List.mem_iff_getElem?.mp member
  unfold scheduled at schedules
  split at schedules
  · rename_i reply finished
    obtain ⟨later, foundLater, call, rest, worked, alive⟩ :=
      Service.handler_stays moved found finished
    refine ⟨later, List.mem_of_getElem? foundLater, by rw [call]; exact delivers, ?_, ?_⟩
    · unfold scheduled
      rw [rest, finished]
      exact schedules
    · exact covers.imp worked fun before => alive before (up _)
  · exact absurd rfl schedules

theorem ReliedOn.mono {before after : Deliveries} {delivery : Option String}
    {request : Option Awaited} (relied : ReliedOn before delivery request)
    (known : ∀ id, before.Known id → after.Known id)
    (stored : ∀ deliveryId, before.Stored deliveryId → after.Stored deliveryId) :
    ReliedOn after delivery request := by
  match request with
  | some (.commit event) => exact relied.imp (known _) (stored _)
  | some .rollback => exact fun deliveryId delivers => stored _ (relied deliveryId delivers)
  | some (.body content) => trivial
  | some (.execute githubId) => trivial
  | none => trivial

/-- A new row was inserted by a handler whose process is up. -/
theorem row_cases (moved : Service.step (server runtime) service event = some next)
    {row : WebhookEvent} (member : row ∈ next.store.webhookEvents.rows) :
    row ∈ service.store.webhookEvents.rows ∨
      ∃ index handler, next.handlers[index]? = some handler ∧ handler.alive = true ∧
        (index, row) ∈ insertions next := by
  rcases tables_cases moved with ⟨id, rfl, rfl⟩ | ⟨-, new, inserts, rows, up⟩
  · exact .inl ((Deliveries.mem_deleteInstallation service.store).mp member).1
  · rw [rows] at member
    rcases List.mem_append.mp member with old | appended
    · exact .inl old
    · obtain ⟨entry, fresh, rfl⟩ := List.mem_map.mp appended
      obtain ⟨handler, found, alive⟩ := up entry fresh
      exact .inr ⟨entry.1, handler, found, alive, inserts ▸ List.mem_append_right _ fresh⟩

/-- A handler that has not moved still has what it relies on. -/
theorem Covered.reliedOn_stays (covered : Covered service) (spares : Spares service event)
    (moved : Service.step (server runtime) service event = some next)
    {old handler : Handler WebhookRequest Awaited.Answer Raised Reply}
    (listed : old ∈ service.handlers) (alive : old.alive = true) (call : handler.call = old.call)
    (rest : handler.rest = old.rest) :
    ReliedOn next.store handler.call.xGithubDelivery handler.request? := by
  rw [call, Handler.request?, rest, ← Handler.request?]
  by_cases deletes : ∃ id, event = .change (.deleteInstallation id)
  · obtain ⟨id, rfl⟩ := deletes
    obtain rfl := Option.some.inj moved
    exact spares old listed alive
  · have grows := tables_grow moved (fun id same => deletes ⟨id, same⟩)
    exact (covered.reliedOn old listed alive).mono grows.1 grows.2

section Step

variable (follows : Follows runtime service) (followsNext : Follows runtime next)
  (covered : Covered service) (spares : Spares service event)
  (moved : Service.step (server runtime) service event = some next)
include followsNext covered spares moved

/-- Every recorded delivery stays routed. -/
theorem routed_step : ∀ row ∈ next.store.webhookEvents.rows, Routed next row.deliveryId := by
  intro row member
  rcases row_cases moved member with old | ⟨index, handler, found, alive, inserts⟩
  · cases event with
    | crash process =>
        obtain rfl := Option.some.inj moved
        exact spares row old
    | _ => exact (covered.routed row old).step moved nofun
  · obtain ⟨same, action, foundSame, passes, finished⟩ := followsNext.inserted inserts
    obtain rfl := Option.some.inj (found.symm.trans foundSame)
    refine ⟨handler, List.mem_of_getElem? found, passes.identified.1, ?_, .inr alive⟩
    simp [scheduled, finished]

include follows

/-- The tables keep having what the handlers rely on. -/
theorem reliedOn_step : ∀ handler ∈ next.handlers, handler.alive = true →
    ReliedOn next.store handler.call.xGithubDelivery handler.request? := by
  intro handler member alive
  obtain ⟨index, found⟩ := List.mem_iff_getElem?.mp member
  have stays : ∀ old ∈ service.handlers, handler.call = old.call → handler.rest = old.rest →
      old.alive = true → ReliedOn next.store handler.call.xGithubDelivery handler.request? :=
    fun old listed call rest up => covered.reliedOn_stays spares moved listed up call rest
  match asks : handler.request? with
  | some (.commit row) =>
      -- it has just looked the installation up
      obtain ⟨-, -, earlier, githubId, installation, same, hears⟩ := followsNext.waiting found asks
      rcases follows.hears_cases moved found hears with ⟨old, listed, -, call, rest, up⟩ |
        ⟨choice, old, -, rfl, -, -, -, answer⟩
      · exact asks ▸ stays old listed call rest (up alive)
      · have known := known_of_lookup answer.symm
        rw [same] at known
        exact .inl ((tables_grow moved nofun).1 _ known)
  | some .rollback =>
      -- its commit has just been refused, and not for want of the installation
      obtain ⟨-, row, passes, earlier, hears⟩ := followsNext.waiting found asks
      rcases follows.hears_cases moved found hears with ⟨old, listed, -, call, rest, up⟩ |
        ⟨choice, old, listed, rfl, aliveOld, -, asksOld, answer⟩
      · exact asks ▸ stays old listed call rest (up alive)
      · have violated := @stored_or_not_known_of_violation runtime _ _ _ answer.symm
        have relied := covered.reliedOn old listed aliveOld
        rw [asksOld] at relied
        have stored : service.store.Stored row.deliveryId := by
          rcases relied with known | stored
          · exact violated.resolve_right (not_not_intro known)
          · exact stored
        intro deliveryId delivers
        obtain rfl : row.deliveryId = deliveryId :=
          Option.some.inj (passes.identified.1.symm.trans delivers)
        exact (tables_grow moved nofun).2 _ stored
  | some (.body content) => trivial
  | some (.execute githubId) => trivial
  | none => trivial

/-- **A move that spares what is relied on keeps the deliveries covered.** -/
theorem covered_step : Covered next where
  routed := routed_step followsNext covered spares moved
  reliedOn := reliedOn_step follows followsNext covered spares moved

end Step

theorem answered_eq_some_iff {handler : Handler WebhookRequest Awaited.Answer Raised Reply}
    {status : Status} :
    answered handler = some status ↔ ∃ tasks, handler.rest = .finish (.ok ⟨status, tasks⟩) := by
  unfold answered
  constructor
  · intro answers
    split at answers
    · rename_i reply finished
      obtain rfl := Option.some.inj answers
      exact ⟨reply.backgroundTasks, finished⟩
    · cases answers
  · rintro ⟨tasks, finished⟩
    rw [finished]

/-- While the deliveries are covered, a duplicate is recorded and routed. -/
theorem duplicatesHandled_of_covered (follows : Follows runtime service)
    (followsNext : Follows runtime next) (covered : Covered service)
    (moved : Service.step (server runtime) service event = some next) :
    DuplicatesHandled service next := by
  rintro index deliveryId ⟨handler, found, delivers, answers, fresh⟩
  obtain ⟨tasks, finished⟩ := answered_eq_some_iff.mp answers
  obtain ⟨-, -, -, earlier, hears⟩ := followsNext.finished found finished
  rcases follows.hears_cases moved found hears with ⟨old, -, foundOld, -, rest, -⟩ |
    ⟨choice, old, listed, rfl, aliveOld, call, asksOld, -⟩
  · rw [foundOld, Option.bind_some, Handler.outcome?, ← rest, finished] at fresh
    cases fresh
  · have relied := covered.reliedOn old listed aliveOld
    rw [asksOld, call] at relied
    obtain ⟨row, stored, rfl⟩ := relied deliveryId delivers
    refine ⟨(tables_grow moved nofun).2 _ ⟨row, stored, rfl⟩, ?_⟩
    exact (covered.routed row stored).step moved nofun

/-! ## Runs -/

/-- In a run from the tables as they are created, every duplicate is a recorded
delivery that has been routed or is still scheduled to be. -/
def DuplicatesAlwaysHandled (runtime : Runtime)
    (events : List (ServiceEvent WebhookRequest Bool Change)) : Prop :=
  ∀ move ∈ (Service.step (server runtime)).moves ⟨.created, [], []⟩ events,
    ∀ next, Service.step (server runtime) move.1 move.2 = some next →
      DuplicatesHandled move.1 next

theorem covered_created : Covered (⟨.created, [], []⟩ : WebhookService) where
  routed := fun _ member => absurd member List.not_mem_nil
  reliedOn := fun _ member => absurd member List.not_mem_nil

theorem follows_step (follows : Follows runtime service)
    (moved : Service.step (server runtime) service event = some next) : Follows runtime next :=
  Service.follows_step (receiveWebhook_ensures runtime) (admits_performs runtime) event next
    follows moved

/-- The deliveries stay covered along a run whose moves spare what is relied on. -/
theorem forall_visits_covered {events : List (ServiceEvent WebhookRequest Bool Change)}
    (spared : ∀ move ∈ (Service.step (server runtime)).moves ⟨.created, [], []⟩ events,
      Spares move.1 move.2) :
    ∀ service ∈ (Service.step (server runtime)).visits ⟨.created, [], []⟩ events,
      Follows runtime service ∧ Covered service := by
  have initially : Follows runtime (⟨.created, [], []⟩ : WebhookService) :=
    forall_visits_follows runtime _ [] _ (Machine.start_mem_visits _ _ _)
  refine Machine.forall_visits_of_guarded ?_ ⟨initially, covered_created⟩ spared
  rintro service event next ⟨follows, covered⟩ spares moved
  have followsNext := follows_step follows moved
  exact ⟨followsNext, covered_step follows followsNext covered spares moved⟩

/-- **A duplicate is a delivery that was handled**, in every run whose deletions
and crashes spare what the handlers in flight rely on and what is scheduled. -/
theorem duplicatesAlwaysHandled (runtime : Runtime)
    (events : List (ServiceEvent WebhookRequest Bool Change))
    (spared : ∀ move ∈ (Service.step (server runtime)).moves ⟨.created, [], []⟩ events,
      Spares move.1 move.2) : DuplicatesAlwaysHandled runtime events := by
  rintro ⟨service, event⟩ made next moved
  obtain ⟨done, rest, split, ran, -⟩ := (Machine.mem_moves_iff _ _ _ _ _).mp made
  obtain ⟨follows, covered⟩ := forall_visits_covered spared service
    ((Machine.mem_visits_iff _ _ _ _).mpr ⟨done, event :: rest, split, ran⟩)
  exact duplicatesHandled_of_covered follows (follows_step follows moved) covered moved

/-! ## Samples -/

instance (service : WebhookService) (deliveryId : String) : Decidable (Routed service deliveryId) :=
  inferInstanceAs (Decidable (∃ handler ∈ service.handlers,
    handler.call.xGithubDelivery = some deliveryId ∧ scheduled handler ≠ [] ∧
      (handler.worked = true ∨ handler.alive = true)))

instance (service next : WebhookService) (index : Nat) (deliveryId : String) :
    Decidable (AnswersDuplicate service next index deliveryId) :=
  inferInstanceAs (Decidable (∃ handler ∈ next.handlers[index]?,
    handler.call.xGithubDelivery = some deliveryId ∧ answered handler = some .duplicate ∧
      (service.handlers[index]?).bind Handler.outcome? = none))

instance (deliveries : Deliveries) (delivery : Option String) :
    (request : Option Awaited) → Decidable (ReliedOn deliveries delivery request)
  | some (.commit event) => inferInstanceAs (Decidable (deliveries.Known event.installationId ∨
      deliveries.Stored event.deliveryId))
  | some .rollback =>
      inferInstanceAs (Decidable (∀ deliveryId ∈ delivery, deliveries.Stored deliveryId))
  | some (.body _) => .isTrue trivial
  | some (.execute _) => .isTrue trivial
  | none => .isTrue trivial

instance (service : WebhookService) :
    (event : ServiceEvent WebhookRequest Bool Change) → Decidable (Spares service event)
  | .change (.deleteInstallation id) => inferInstanceAs (Decidable (∀ handler ∈ service.handlers,
      handler.alive = true → ReliedOn (service.store.deleteInstallation id)
        handler.call.xGithubDelivery handler.request?))
  | .change (.insertInstallation _) => .isTrue trivial
  | .crash process => inferInstanceAs (Decidable (∀ event ∈ service.store.webhookEvents.rows,
      Routed (service.crashed process) event.deliveryId))
  | .start _ _ => .isTrue trivial
  | .perform _ _ => .isTrue trivial
  | .work _ => .isTrue trivial

/-- A delivery is routed, the process crashes, the delivery is sent again and is a
duplicate, and then the installation is deleted. -/
def routedAndRedelivered : List (ServiceEvent WebhookRequest Bool Change) :=
  [.change (.insertInstallation ⟨acmeId, 99⟩), .start 0 acmeDelivery, .perform 0 false,
    .perform 0 false, .perform 0 false, .work 0, .crash 0, .start 1 acmeDelivery,
    .perform 1 false, .perform 1 false, .perform 1 false, .perform 1 false,
    .change (.deleteInstallation acmeId)]

theorem routedAndRedelivered_handled :
    DuplicatesAlwaysHandled acmeRuntime routedAndRedelivered :=
  duplicatesAlwaysHandled acmeRuntime routedAndRedelivered (by decide +kernel)

/-- The installation is deleted between the lookup and the commit. -/
def uninstalled : List (ServiceEvent WebhookRequest Bool Change) :=
  [.change (.insertInstallation ⟨acmeId, 99⟩), .start 0 acmeDelivery, .perform 0 false,
    .perform 0 false, .change (.deleteInstallation acmeId), .perform 0 false]

/-- The process crashes after the commit, and the delivery is sent again. -/
def crashedAndRedelivered : List (ServiceEvent WebhookRequest Bool Change) :=
  [.change (.insertInstallation ⟨acmeId, 99⟩), .start 0 acmeDelivery, .perform 0 false,
    .perform 0 false, .perform 0 false, .crash 0, .start 1 acmeDelivery, .perform 1 false,
    .perform 1 false, .perform 1 false]

/-- After the events, the last operation of the handler answers its delivery as a
duplicate, which was not handled. -/
def LosesDelivery (runtime : Runtime) (events : List (ServiceEvent WebhookRequest Bool Change))
    (index : Nat) (deliveryId : String) : Prop :=
  ((Service.step (server runtime)).run ⟨.created, [], []⟩ events).bind (fun service =>
    (Service.step (server runtime) service (.perform index false)).map fun next =>
      decide (AnswersDuplicate service next index deliveryId ∧
        ¬ (next.store.Stored deliveryId ∧ Routed next deliveryId))) = some true

instance (runtime : Runtime) (events : List (ServiceEvent WebhookRequest Bool Change))
    (index : Nat) (deliveryId : String) :
    Decidable (LosesDelivery runtime events index deliveryId) :=
  inferInstanceAs (Decidable (_ = some true))

theorem not_duplicatesAlwaysHandled {runtime : Runtime} {index : Nat} {deliveryId : String}
    {events : List (ServiceEvent WebhookRequest Bool Change)}
    (loses : LosesDelivery runtime events index deliveryId) :
    ¬ DuplicatesAlwaysHandled runtime (events ++ [.perform index false]) := by
  intro always
  obtain ⟨service, ran, stepped⟩ := Option.bind_eq_some_iff.mp loses
  obtain ⟨next, moved, lost⟩ := Option.map_eq_some_iff.mp stepped
  obtain ⟨answers, unhandled⟩ := of_decide_eq_true lost
  refine unhandled (always ⟨service, .perform index false⟩ ?_ next moved index deliveryId answers)
  exact (Machine.mem_moves_iff _ _ _ _ _).mpr ⟨events, [], rfl, ran, by rw [moved]; rfl⟩

/-- A delivery whose installation is deleted in time is answered as a duplicate
though nobody recorded it, and one whose process crashes in time is answered as
a duplicate though nobody routes it. -/
theorem lost_deliveries_answered_duplicate :
    ¬ DuplicatesAlwaysHandled acmeRuntime (uninstalled ++ [.perform 0 false]) ∧
      ¬ DuplicatesAlwaysHandled acmeRuntime (crashedAndRedelivered ++ [.perform 1 false]) := by
  have loses : LosesDelivery acmeRuntime uninstalled 0 "abc-123-delivery" ∧
      LosesDelivery acmeRuntime crashedAndRedelivered 1 "abc-123-delivery" := by
    decide +kernel
  exact ⟨not_duplicatesAlwaysHandled loses.1, not_duplicatesAlwaysHandled loses.2⟩

end Kenjutsu.Server.Webhook
