import Kenjutsu.Server.Webhook

/-!
# Deliveries are recorded and dispatched at most once

Any number of deliveries are handled concurrently, from any database, in any
interleaving of their awaits. As long as nobody deletes a stored event, the rows
of `webhook_events` are those of the beginning followed by those the handlers
inserted, in order. A request is dispatched exactly if its own commit inserted
its row, and `delivery_id` is unique, so no delivery is dispatched twice.

The log of the service remembers which handler inserted which event. A handler
that never heard of a successful commit has left no trace.
-/

set_option autoImplicit false

namespace Kenjutsu.Server.Webhook

open Foundations Kenjutsu.Db Kenjutsu.Http

/-- A state of the webhook server. -/
abbrev WebhookService := Service WebhookRequest Deliveries Awaited.Answer Raised Reply

/-- What a handler has scheduled. -/
def scheduled (handler : Handler WebhookRequest Awaited.Answer Raised Reply) : List RouteEvent :=
  match handler.rest with
  | .finish (.ok reply) => reply.backgroundTasks
  | _ => []

/-- The status a handler has answered with. -/
def answered (handler : Handler WebhookRequest Awaited.Answer Raised Reply) : Option Status :=
  match handler.rest with
  | .finish (.ok reply) => some reply.status
  | _ => none

/-- The event that an entry of the log inserted, with the handler. -/
def insertion? : Nat × Exchange Awaited.Answer Raised → Option (Nat × WebhookEvent)
  | (index, ⟨.commit event, .ok _⟩) => some (index, event)
  | _ => none

/-- The events inserted so far, each with the handler whose commit inserted it. -/
def insertions (service : WebhookService) : List (Nat × WebhookEvent) :=
  service.log.filterMap insertion?

/-- The move deletes no stored event. -/
def KeepsEvents (service : WebhookService) : ServiceEvent WebhookRequest Bool Change → Prop
  | .change (.deleteInstallation id) =>
      ∀ event ∈ service.store.webhookEvents.rows, event.installationId ≠ id
  | _ => True

/-- Nothing was recorded or dispatched twice, and nothing by a request that was
rejected or answered as a duplicate. -/
structure DispatchesOnce (runtime : Runtime) (first : Deliveries) (service : WebhookService) :
    Prop where
  /-- The table changes by the commits of the handlers, and by nothing else. -/
  recorded : service.store.webhookEvents.rows =
    first.webhookEvents.rows ++ (insertions service).map Prod.snd
  /-- No delivery has two rows. -/
  unique : (service.store.webhookEvents.rows.map WebhookEvent.deliveryId).Nodup
  /-- Whoever inserted a row passed all checks, has been answered `accepted`, and
  has scheduled the routing of the event. -/
  inserted : ∀ index event, (index, event) ∈ insertions service →
    ∃ handler action, service.handlers[index]? = some handler ∧
      Passes runtime handler.call (service.heard index) event ∧
      handler.rest = .finish (.ok ⟨.accepted, [⟨event.eventType, action, event.payloadJson⟩]⟩)
  /-- Whoever has scheduled something inserted the row of its delivery. -/
  dispatched : ∀ (index : Nat) (handler : Handler WebhookRequest Awaited.Answer Raised Reply),
    service.handlers[index]? = some handler → scheduled handler ≠ [] →
      ∃ event, (index, event) ∈ insertions service ∧
        handler.call.xGithubDelivery = some event.deliveryId
  /-- Nobody else has scheduled for the same delivery. -/
  once : ∀ (index other : Nat) (handler rival : Handler WebhookRequest Awaited.Answer Raised Reply),
    service.handlers[index]? = some handler → service.handlers[other]? = some rival →
      scheduled handler ≠ [] → scheduled rival ≠ [] →
      handler.call.xGithubDelivery = rival.call.xGithubDelivery → index = other
  /-- Whoever fails a check, raises, or is answered `duplicate` leaves no trace. -/
  silent : ∀ (index : Nat) (handler : Handler WebhookRequest Awaited.Answer Raised Reply),
    service.handlers[index]? = some handler →
      ((∀ event, ¬ Passes runtime handler.call (service.heard index) event) ∨
        (∃ raised, handler.rest = .finish (.error raised)) ∨
        ∃ tasks, handler.rest = .finish (.ok ⟨.duplicate, tasks⟩)) →
      scheduled handler = [] ∧ ∀ event, (index, event) ∉ insertions service

/-! ## What is inserted -/

variable {runtime : Runtime} {first : Deliveries} {service : WebhookService}

theorem insertion?_eq_some_iff {entry : Nat × Exchange Awaited.Answer Raised} {index : Nat}
    {event : WebhookEvent} :
    insertion? entry = some (index, event) ↔ entry = (index, ⟨.commit event, .ok ()⟩) := by
  constructor
  · intro inserts
    unfold insertion? at inserts
    split at inserts
    · obtain ⟨rfl, rfl⟩ := Prod.mk.inj (Option.some.inj inserts)
      rfl
    · cases inserts
  · rintro rfl
    rfl

/-- A handler inserted what it heard that it committed. -/
theorem mem_insertions_iff {index : Nat} {event : WebhookEvent} :
    (index, event) ∈ insertions service ↔ ⟨.commit event, .ok ()⟩ ∈ service.heard index := by
  unfold insertions Service.heard
  rw [List.mem_filterMap, List.mem_filterMap]
  constructor
  · rintro ⟨entry, logged, inserts⟩
    obtain rfl := insertion?_eq_some_iff.mp inserts
    exact ⟨_, logged, if_pos rfl⟩
  · rintro ⟨⟨owner, exchange⟩, logged, hears⟩
    split at hears
    · rename_i same
      obtain rfl : owner = index := same
      obtain rfl := Option.some.inj hears
      exact ⟨_, logged, rfl⟩
    · cases hears

/-- **What an operation does to the tables**: nothing, or it inserts the event of
its entry in the log. -/
theorem performs_cases (runtime : Runtime) (fails : Bool) (deliveries : Deliveries)
    (request : Awaited) (index : Nat) :
    ((performs runtime fails deliveries request).2 = deliveries ∧
      insertion? (index, ⟨request, (performs runtime fails deliveries request).1⟩) = none) ∨
    ∃ event, deliveries.insertEvent event = some (performs runtime fails deliveries request).2 ∧
      insertion? (index, ⟨request, (performs runtime fails deliveries request).1⟩) =
        some (index, event) := by
  cases fails with
  | true => cases request <;> exact .inl ⟨rfl, rfl⟩
  | false =>
      cases request with
      | body content => exact .inl ⟨rfl, rfl⟩
      | execute githubId =>
          cases bound : runtime.bind githubId <;> simp [performs, insertion?, bound]
      | rollback => exact .inl ⟨rfl, rfl⟩
      | commit event =>
          cases inserted : deliveries.insertEvent event with
          | none => simp [performs, insertion?, inserted]
          | some after => exact .inr ⟨event, by simp [performs, insertion?, inserted]⟩

/-- **What a move does to the tables**: it deletes an installation, or it deletes
nothing and appends what it inserts, for a handler whose process is up. -/
theorem tables_cases {event : ServiceEvent WebhookRequest Bool Change} {next : WebhookService}
    (moved : Service.step (server runtime) service event = some next) :
    (∃ id, event = .change (.deleteInstallation id) ∧
      next = { service with store := service.store.deleteInstallation id }) ∨
    (∀ id, service.store.Known id → next.store.Known id) ∧
      ∃ new, insertions next = insertions service ++ new ∧
        next.store.webhookEvents.rows =
          service.store.webhookEvents.rows ++ new.map Prod.snd ∧
        ∀ entry ∈ new, ∃ handler, next.handlers[entry.1]? = some handler ∧ handler.alive = true := by
  rcases Service.store_cases moved with ⟨store, log⟩ |
    ⟨index, choice, handler, request, rest, -, found, alive, -, rfl⟩ | ⟨change, rfl, rfl⟩
  · refine .inr ⟨fun id known => by rw [store]; exact known, [], ?_, ?_, nofun⟩
    · rw [insertions, log, List.append_nil, insertions]
    · rw [store, List.map_nil, List.append_nil]
  · have logged :
        insertions (service.performed (server runtime) index handler choice request rest) =
          insertions service ++
            [(index, (⟨request, (performs runtime choice service.store request).1⟩ :
              Exchange Awaited.Answer Raised))].filterMap insertion? := List.filterMap_append
    rcases performs_cases runtime choice service.store request index with
      ⟨same, nothing⟩ | ⟨event, inserted, something⟩
    · rw [List.filterMap_cons_none nothing] at logged
      have store : (service.performed (server runtime) index handler choice request rest).store =
          service.store := same
      refine .inr ⟨fun id known => ?_, [], logged, ?_, nofun⟩
      · rw [store]
        exact known
      · rw [store, List.map_nil, List.append_nil]
    · rw [List.filterMap_cons_some something] at logged
      obtain ⟨appended, installations⟩ := service.store.insertEvent_eq_some inserted
      refine .inr ⟨?_, [(index, event)], logged, appended, ?_⟩
      · rintro id ⟨installation, listed, same⟩
        refine ⟨installation, ?_, same⟩
        exact installations.symm ▸ listed
      · intro entry member
        obtain rfl := List.mem_singleton.mp member
        exact ⟨_, List.getElem?_set_self (List.getElem?_eq_some_iff.mp found).1, alive⟩
  · cases change with
    | insertInstallation installation =>
        refine .inr ⟨fun id known => known.insertInstallation _ installation, [],
          (List.append_nil _).symm, ?_, nofun⟩
        change (service.store.insertInstallation installation).webhookEvents.rows = _
        rw [Deliveries.insertInstallation_events, List.map_nil, List.append_nil]
    | deleteInstallation id => exact .inl ⟨id, rfl, rfl⟩

/-- A move that deletes no event appends to the table what it inserts. -/
theorem recorded_step {event : ServiceEvent WebhookRequest Bool Change} {next : WebhookService}
    (recorded : service.store.webhookEvents.rows =
      first.webhookEvents.rows ++ (insertions service).map Prod.snd)
    (keeps : KeepsEvents service event)
    (moved : Service.step (server runtime) service event = some next) :
    next.store.webhookEvents.rows =
      first.webhookEvents.rows ++ (insertions next).map Prod.snd := by
  rcases tables_cases moved with ⟨id, rfl, rfl⟩ | ⟨-, new, inserts, rows, -⟩
  · have kept : (service.store.deleteInstallation id).webhookEvents.rows =
        service.store.webhookEvents.rows :=
      List.filter_eq_self.mpr fun event member => by simpa using keeps event member
    exact kept.trans recorded
  · rw [rows, recorded, inserts, List.map_append, List.append_assoc]

/-! ## Who inserted what -/

/-- What the handlers of the server are known to be at. -/
abbrev Follows (runtime : Runtime) (service : WebhookService) : Prop :=
  Service.Follows (waits runtime) admits (ends runtime) service

theorem forall_visits_follows (runtime : Runtime) (first : Deliveries)
    (events : List (ServiceEvent WebhookRequest Bool Change)) :
    ∀ service ∈ (Service.step (server runtime)).visits ⟨first, [], []⟩ events,
      Follows runtime service :=
  Service.forall_visits_follows (receiveWebhook_ensures runtime)
    (admits_performs runtime) first events

/-- A handler has left no trace, or it has inserted one event, for which it passed
the checks, and has been answered `accepted`. -/
theorem Follows.outcome (follows : Follows runtime service) {index : Nat}
    {handler : Handler WebhookRequest Awaited.Answer Raised Reply}
    (found : service.handlers[index]? = some handler) :
    (Quiet (service.heard index) ∧ scheduled handler = []) ∨
    ∃ event action, Passes runtime handler.call (service.heard index) event ∧
      (∀ other, (index, other) ∈ insertions service ↔ other = event) ∧
      handler.rest = .finish (.ok ⟨.accepted, [⟨event.eventType, action, event.payloadJson⟩]⟩) := by
  unfold scheduled
  rcases follows.settled index handler found with ⟨outcome, finished⟩ | ⟨request, next, waiting⟩
  · have ended := follows.finished found finished
    rw [finished]
    rcases outcome with raised | ⟨⟨⟩ | ⟨⟩, tasks⟩
    · exact .inl ⟨ended, rfl⟩
    · obtain ⟨event, passes, only, action, -, rfl⟩ := ended
      refine .inr ⟨event, action, passes, ?_, rfl⟩
      intro other
      exact mem_insertions_iff.trans (only other)
    · exact .inl ⟨ended.1, ended.2.1⟩
  · rw [waiting]
    exact .inl ⟨waits_quiet (follows.waiting found (Handler.request?_eq_some_iff.mpr ⟨_, waiting⟩)),
      rfl⟩

/-- Whoever inserted an event has passed the checks and has been answered
`accepted`. -/
theorem Follows.inserted (follows : Follows runtime service) {index : Nat} {event : WebhookEvent}
    (member : (index, event) ∈ insertions service) :
    ∃ handler action, service.handlers[index]? = some handler ∧
      Passes runtime handler.call (service.heard index) event ∧
      handler.rest = .finish (.ok ⟨.accepted, [⟨event.eventType, action, event.payloadJson⟩]⟩) := by
  have heard := mem_insertions_iff.mp member
  obtain ⟨handler, found⟩ := follows.exists_of_heard heard
  rcases follows.outcome found with ⟨quiet, -⟩ | ⟨inserted, action, passes, only, finished⟩
  · exact absurd heard (quiet event)
  · obtain rfl := (only event).mp member
    exact ⟨handler, action, found, passes, finished⟩

/-- Whoever has scheduled something inserted the row of its delivery. -/
theorem Follows.dispatched (follows : Follows runtime service) {index : Nat}
    {handler : Handler WebhookRequest Awaited.Answer Raised Reply}
    (found : service.handlers[index]? = some handler) (schedules : scheduled handler ≠ []) :
    ∃ event, (index, event) ∈ insertions service ∧
      handler.call.xGithubDelivery = some event.deliveryId := by
  rcases follows.outcome found with ⟨-, nothing⟩ | ⟨event, action, passes, only, -⟩
  · exact absurd nothing schedules
  · exact ⟨event, (only event).mpr rfl, passes.identified.1⟩

/-- A delivery is inserted once. -/
theorem insertions_unique
    (unique : (((insertions service).map Prod.snd).map WebhookEvent.deliveryId).Nodup)
    {index other : Nat} {event rival : WebhookEvent} (member : (index, event) ∈ insertions service)
    (member' : (other, rival) ∈ insertions service) (same : event.deliveryId = rival.deliveryId) :
    index = other := by
  rw [List.map_map] at unique
  have equal := List.inj_on_of_nodup_map unique member member' same
  exact congrArg Prod.fst equal

/-- **Deliveries are recorded and dispatched at most once, and rejections leave no
trace**, from any database, for any requests and in any interleaving, as long as
no stored event is deleted. -/
theorem deliveries_dispatchOnce (runtime : Runtime) (first : Deliveries)
    (events : List (ServiceEvent WebhookRequest Bool Change))
    (keeps : ∀ move ∈ (Service.step (server runtime)).moves ⟨first, [], []⟩ events,
      KeepsEvents move.1 move.2) :
    ∀ service ∈ (Service.step (server runtime)).visits ⟨first, [], []⟩ events,
      DispatchesOnce runtime first service := by
  intro service visited
  have follows := forall_visits_follows runtime first events service visited
  have recorded : service.store.webhookEvents.rows =
      first.webhookEvents.rows ++ (insertions service).map Prod.snd :=
    Machine.forall_visits_of_guarded
      (fun _ _ _ recorded keeps moved => recorded_step recorded keeps moved)
      (List.append_nil _).symm keeps service visited
  have inserted := service.store.webhookEvents.distinct
  rw [recorded, List.map_append] at inserted
  refine ⟨recorded, service.store.webhookEvents.distinct, ?_, ?_, ?_, ?_⟩
  · intro index event member
    exact follows.inserted member
  · intro index handler found schedules
    exact follows.dispatched found schedules
  · intro index other handler rival found found' schedules schedules' same
    obtain ⟨event, member, identified⟩ := follows.dispatched found schedules
    obtain ⟨event', member', identified'⟩ := follows.dispatched found' schedules'
    refine insertions_unique inserted.of_append_right member member' ?_
    rw [identified, identified'] at same
    exact Option.some.inj same
  · intro index handler found failed
    rcases follows.outcome found with ⟨quiet, nothing⟩ | ⟨event, action, passes, only, finished⟩
    · exact ⟨nothing, fun event member => quiet event (mem_insertions_iff.mp member)⟩
    · exfalso
      rcases failed with fails | ⟨raised, ended⟩ | ⟨tasks, ended⟩
      · exact fails event passes
      · rw [finished] at ended
        cases ended
      · rw [finished] at ended
        cases ended

/-! ## A redelivery -/

/-- The ids of the installation of the sample and of another one. -/
def acmeId : UUID := ⟨List.replicate 32 1, rfl⟩

def idleId : UUID := ⟨List.replicate 32 2, rfl⟩

/-- The payload of the sample. -/
def acmePayload : Json :=
  .object [("action", .string "opened"), ("installation", .object [("id", .integer 99)])]

/-- The HMAC-SHA256 of the body of the sample under its secret. -/
def acmeDigest : List Char :=
  ['5', '9', 'f', '2', '6', '4', '5', '3', '9', '2', 'd', '9', 'f', 'c', '5', '2', '1', '8', '0',
    '9', 'b', '2', 'b', '5', '0', '5', 'c', 'c', '7', '3', '0', 'e', 'b', '1', 'b', 'e', '9', '5',
    '0', 'a', 'd', '9', '6', 'e', '9', '9', '0', '7', '2', '5', '3', '3', '1', '0', 'b', '3', 'b',
    '5', 'a', 'f', '7', '1', '0', 'e']

/-- The standard library and the driver, on the sample. -/
def acmeRuntime : Runtime where
  hexdigest _ _ := acmeDigest
  loads _ := .ok acmePayload
  format _ := "99"
  bind _ := .ok 99

/-- A signed delivery, its body as bytes. -/
def acmeDelivery : WebhookRequest where
  xHubSignature256 := signaturePrefix ++ acmeDigest
  xGithubEvent := "pull_request"
  xGithubDelivery := "abc-123-delivery"
  body := [123, 34, 97, 99, 116, 105, 111, 110, 34, 58, 32, 34, 111, 112, 101, 110, 101, 100, 34,
    44, 32, 34, 105, 110, 115, 116, 97, 108, 108, 97, 116, 105, 111, 110, 34, 58, 32, 123, 34, 105,
    100, 34, 58, 32, 57, 57, 125, 125]
  secret := "integration-test-secret"

/-- The delivery and its redelivery, handled at once: both look the installation
up before either commits, and an installation without events is deleted. -/
def redelivery : List (ServiceEvent WebhookRequest Bool Change) :=
  [.change (.insertInstallation ⟨acmeId, 99⟩), .change (.insertInstallation ⟨idleId, 100⟩),
    .start 0 acmeDelivery, .start 0 acmeDelivery, .perform 0 false, .perform 1 false,
    .perform 0 false, .perform 1 false, .perform 1 false, .perform 0 false,
    .change (.deleteInstallation idleId), .perform 0 false, .work 1]

instance (service : WebhookService) :
    (event : ServiceEvent WebhookRequest Bool Change) → Decidable (KeepsEvents service event)
  | .change (.deleteInstallation id) => inferInstanceAs (Decidable
      (∀ event ∈ service.store.webhookEvents.rows, event.installationId ≠ id))
  | .change (.insertInstallation _) => .isTrue trivial
  | .start _ _ => .isTrue trivial
  | .perform _ _ => .isTrue trivial
  | .work _ => .isTrue trivial
  | .crash _ => .isTrue trivial

/-- The redelivery commits first, so it is dispatched, and the first delivery is
the duplicate. -/
theorem redelivery_dispatchesOnce : ∃ service,
    (Service.step (server acmeRuntime)).run ⟨.created, [], []⟩ redelivery = some service ∧
      service.handlers.map answered = [some .duplicate, some .accepted] ∧
      DispatchesOnce acmeRuntime .created service := by
  have ends : ((Service.step (server acmeRuntime)).run ⟨.created, [], []⟩ redelivery).map
      (fun service => service.handlers.map answered) = some [some .duplicate, some .accepted] := by
    decide +kernel
  obtain ⟨service, ran, answers⟩ := Option.map_eq_some_iff.mp ends
  exact ⟨service, ran, answers, deliveries_dispatchOnce acmeRuntime .created redelivery
    (by decide +kernel) service
    ((Machine.mem_visits_iff _ _ _ _).mpr ⟨redelivery, [], (List.append_nil _).symm, ran⟩)⟩

end Kenjutsu.Server.Webhook
