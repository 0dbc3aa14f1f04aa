import Kenjutsu.Db.Models
import Kenjutsu.Http

/-!
# Installations and webhook events

The tables behind the webhook endpoint, with the constraints that its statements
can violate: `github_installation_id` and `delivery_id` are unique, and
`installation_id` of an event refers to an installation, whose deletion deletes
its events. The constraints are fields of the tables, so that they hold of
every state of the database.
-/

set_option autoImplicit false

namespace Kenjutsu.Db

open Foundations Kenjutsu.Http

/-- A row of `installations`. -/
structure Installation where
  id : UUID
  githubInstallationId : Int
deriving DecidableEq

/-- A row of `webhook_events`. -/
structure WebhookEvent where
  deliveryId : String
  installationId : UUID
  eventType : String
  payloadJson : Json

/-- The two tables and their constraints. -/
structure Deliveries where
  installations : Table Installation.id
  githubIds : (installations.rows.map Installation.githubInstallationId).Nodup
  webhookEvents : Table WebhookEvent.deliveryId
  refers : ∀ event ∈ webhookEvents.rows,
    ∃ installation ∈ installations.rows, installation.id = event.installationId

namespace Deliveries

/-- The tables as they are created. -/
def created : Deliveries where
  installations := ⟨[], List.nodup_nil⟩
  githubIds := List.nodup_nil
  webhookEvents := ⟨[], List.nodup_nil⟩
  refers := fun _ member => absurd member List.not_mem_nil

/-- A delivery is recorded. -/
def Stored (deliveries : Deliveries) (deliveryId : String) : Prop :=
  ∃ event ∈ deliveries.webhookEvents.rows, event.deliveryId = deliveryId

/-- An installation exists. -/
def Known (deliveries : Deliveries) (id : UUID) : Prop :=
  ∃ installation ∈ deliveries.installations.rows, installation.id = id

instance (deliveries : Deliveries) (deliveryId : String) :
    Decidable (deliveries.Stored deliveryId) :=
  inferInstanceAs
    (Decidable (∃ event ∈ deliveries.webhookEvents.rows, event.deliveryId = deliveryId))

instance (deliveries : Deliveries) (id : UUID) : Decidable (deliveries.Known id) :=
  inferInstanceAs
    (Decidable (∃ installation ∈ deliveries.installations.rows, installation.id = id))

/-- `select(Installation).where(Installation.github_installation_id == value)`. -/
def selectInstallation (deliveries : Deliveries) (githubInstallationId : Int) :
    Option Installation :=
  deliveries.installations.rows.find? fun installation =>
    installation.githubInstallationId = githubInstallationId

/-- Insert an event, unless a constraint is violated. -/
def insertEvent (deliveries : Deliveries) (event : WebhookEvent) : Option Deliveries :=
  if stored : deliveries.Stored event.deliveryId then none
  else if known : deliveries.Known event.installationId then
    some { deliveries with
      webhookEvents := deliveries.webhookEvents.insert event fun member =>
        stored (List.mem_map.mp member)
      refers := by
        intro row member
        rcases List.mem_append.mp member with old | new
        · exact deliveries.refers row old
        · obtain rfl := List.mem_singleton.mp new
          exact known }
  else none

/-- Insert an installation, unless a constraint is violated. -/
def insertInstallation (deliveries : Deliveries) (installation : Installation) : Deliveries :=
  if fresh : installation.id ∉ deliveries.installations.rows.map Installation.id ∧
      installation.githubInstallationId ∉
        deliveries.installations.rows.map Installation.githubInstallationId then
    { deliveries with
      installations := deliveries.installations.insert installation fresh.1
      githubIds := by
        rw [Table.insert, List.map_append]
        refine List.nodup_append'.mpr ⟨deliveries.githubIds, List.nodup_singleton _, ?_⟩
        exact List.disjoint_singleton.mpr fresh.2
      refers := by
        intro event member
        obtain ⟨known, listed, same⟩ := deliveries.refers event member
        exact ⟨known, List.mem_append_left _ listed, same⟩ }
  else deliveries

/-- Delete an installation, and its events with it. -/
def deleteInstallation (deliveries : Deliveries) (id : UUID) : Deliveries where
  installations := deliveries.installations.filter fun installation => installation.id ≠ id
  githubIds := ((List.filter_sublist).map Installation.githubInstallationId).nodup
    deliveries.githubIds
  webhookEvents := deliveries.webhookEvents.filter fun event => event.installationId ≠ id
  refers := by
    intro event member
    obtain ⟨listed, kept⟩ := List.mem_filter.mp member
    obtain ⟨installation, known, same⟩ := deliveries.refers event listed
    exact ⟨installation, List.mem_filter.mpr ⟨known, by simpa [same] using kept⟩, same⟩

/-! ## What the statements do -/

variable (deliveries : Deliveries)

/-- The installation found has the id that was asked for. -/
theorem selectInstallation_eq {githubInstallationId : Int} {installation : Installation}
    (found : deliveries.selectInstallation githubInstallationId = some installation) :
    installation ∈ deliveries.installations.rows ∧
      installation.githubInstallationId = githubInstallationId :=
  ⟨List.mem_of_find?_eq_some found, by simpa using List.find?_some found⟩

/-- An event is inserted exactly if its delivery is new and its installation
exists. -/
theorem insertEvent_eq_none_iff (event : WebhookEvent) :
    deliveries.insertEvent event = none ↔
      deliveries.Stored event.deliveryId ∨ ¬ deliveries.Known event.installationId := by
  unfold insertEvent
  by_cases stored : deliveries.Stored event.deliveryId
  · simp [stored]
  · by_cases known : deliveries.Known event.installationId
    · simp [stored, known]
    · simp [stored, known]

/-- An inserted event is the last row, and nothing else changes. -/
theorem insertEvent_eq_some {event : WebhookEvent} {after : Deliveries}
    (inserted : deliveries.insertEvent event = some after) :
    after.webhookEvents.rows = deliveries.webhookEvents.rows ++ [event] ∧
      after.installations = deliveries.installations := by
  unfold insertEvent at inserted
  split at inserted
  · cases inserted
  · split at inserted
    · obtain rfl := Option.some.inj inserted
      exact ⟨rfl, rfl⟩
    · cases inserted

/-- Inserting an installation touches no event and forgets no installation. -/
theorem insertInstallation_events (installation : Installation) :
    (deliveries.insertInstallation installation).webhookEvents = deliveries.webhookEvents := by
  unfold insertInstallation
  split <;> rfl

theorem Known.insertInstallation {id : UUID} (known : deliveries.Known id)
    (installation : Installation) : (deliveries.insertInstallation installation).Known id := by
  unfold Deliveries.insertInstallation
  split
  · obtain ⟨row, listed, same⟩ := known
    exact ⟨row, List.mem_append_left _ listed, same⟩
  · exact known

/-- What a deletion leaves. -/
theorem mem_deleteInstallation {id : UUID} {event : WebhookEvent} :
    event ∈ (deliveries.deleteInstallation id).webhookEvents.rows ↔
      event ∈ deliveries.webhookEvents.rows ∧ event.installationId ≠ id := by
  simp [deleteInstallation, Table.filter]

end Deliveries

end Kenjutsu.Db
