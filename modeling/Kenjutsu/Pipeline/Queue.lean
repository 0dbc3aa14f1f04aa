import Kenjutsu.Foundations.Dicts
import Kenjutsu.Foundations.Runs
import Mathlib.Data.Finset.Dedup

/-!
# The supersession registry

`SupersessionRegistry` hands a cancel event to every review it registers and
sets the event of the review it supersedes. Finishing reviews are removed by
key alone: `complete` does not say which review of the key has finished.

The reviews themselves are the environment. Each registers once, keeps the
event it was given, and calls `complete` once when it finishes, whether or not
its event was set meanwhile.
-/

set_option autoImplicit false

namespace Kenjutsu.Pipeline

open Foundations

/-- Unique identity for a review. -/
structure ReviewKey where
  repoId : String
  prNumber : Int
deriving DecidableEq

/-- The registry, with the cancel events it has created: each event has an
identity and a flag that tells whether it is set. -/
structure SupersessionRegistry where
  events : Dict ReviewKey Nat := ∅
  superseded : Finset ReviewKey := ∅
  flags : Dict Nat Bool := ∅

namespace SupersessionRegistry

/-- `asyncio.Event.set` -/
def setEvent (registry : SupersessionRegistry) (event : Nat) : SupersessionRegistry :=
  { registry with flags := registry.flags.set event true }

/-- `register`; the event it creates and returns has the identity `newEvent`. -/
def register (registry : SupersessionRegistry) (key : ReviewKey) (newEvent : Nat) :
    SupersessionRegistry :=
  let registry :=
    match registry.events.get key with
    | none => registry
    | some prior =>
        let signalled := registry.setEvent prior
        { signalled with superseded := insert key signalled.superseded }
  { registry with
    flags := registry.flags.set newEvent false
    events := registry.events.set key newEvent }

def complete (registry : SupersessionRegistry) (key : ReviewKey) : SupersessionRegistry :=
  { registry with
    events := registry.events.erase key
    superseded := registry.superseded.erase key }

def isCancelled (registry : SupersessionRegistry) (key : ReviewKey) : Bool :=
  decide (key ∈ registry.superseded)

/-- `asyncio.Event.is_set` -/
def isSet (registry : SupersessionRegistry) (event : Nat) : Prop :=
  registry.flags.get event = some true

@[simp] theorem register_events (registry : SupersessionRegistry) (key other : ReviewKey)
    (newEvent : Nat) :
    (registry.register key newEvent).events.get other =
      if other = key then some newEvent else registry.events.get other := by
  unfold register setEvent
  cases registry.events.get key <;> simp

/-- The flags after `register`: the new event is unset and the event stored under
the key is set. -/
theorem register_flags (registry : SupersessionRegistry) (key : ReviewKey)
    (newEvent event : Nat) :
    (registry.register key newEvent).flags.get event =
      if event = newEvent then some false
      else if registry.events.get key = some event then some true
      else registry.flags.get event := by
  unfold register setEvent
  cases stored : registry.events.get key with
  | none => simp
  | some prior => simp [eq_comm (a := prior)]

end SupersessionRegistry

/-! ## The reviews around the registry -/

/-- A review that has registered. -/
structure RegisteredReview where
  key : ReviewKey
  event : Nat
  completed : Bool := false
deriving DecidableEq

/-- The registry and the reviews, in the order they registered. -/
structure ReviewPool where
  registry : SupersessionRegistry := {}
  reviews : List RegisteredReview := []

/-- A review registers under a key and is given a fresh event, or the review
that holds an event finishes. -/
inductive ReviewPoolEvent where
  | register (key : ReviewKey) (newEvent : Nat)
  | complete (event : Nat)

namespace ReviewPool

/-- The review marked as finished, if it holds the event. -/
def finish (event : Nat) (review : RegisteredReview) : RegisteredReview :=
  if review.event = event then { review with completed := true } else review

def step : Machine ReviewPool ReviewPoolEvent
  | pool, .register key newEvent =>
      if (pool.registry.flags.get newEvent).isSome then none
      else some {
        registry := pool.registry.register key newEvent
        reviews := pool.reviews ++ [{ key, event := newEvent }] }
  | pool, .complete event =>
      match pool.reviews.find? fun review => review.event = event ∧ !review.completed with
      | none => none
      | some review => some {
          registry := pool.registry.complete review.key
          reviews := pool.reviews.map (finish event) }

/-- A review that has not finished and whose cancel event is not set. -/
def Live (pool : ReviewPool) (review : RegisteredReview) : Prop :=
  review.completed = false ∧ ¬ pool.registry.isSet review.event

/-- What supersession promises: of two reviews of a key the earlier one is not
live, so there is at most one live review of a key, the one registered last; and
one more registration sets the events of all the others that have not finished. -/
structure OneLive (pool : ReviewPool) : Prop where
  latest : pool.reviews.Pairwise fun older newer => older.key = newer.key → ¬ pool.Live older
  unique : ∀ first ∈ pool.reviews, ∀ second ∈ pool.reviews, first.key = second.key →
    pool.Live first → pool.Live second → first = second
  register_sets : ∀ newEvent, pool.registry.flags.get newEvent = none →
    ∀ review ∈ pool.reviews, review.completed = false →
      (pool.registry.register review.key newEvent).isSet review.event

/-- The review that finishes finds the slot of its key empty or finds its own
event there. -/
def OwnCompletion (pool : ReviewPool) : ReviewPoolEvent → Prop
  | .register _ _ => True
  | .complete event =>
      ∀ review ∈ pool.reviews, review.event = event →
        ∀ stored, pool.registry.events.get review.key = some stored → stored = event

/-! ## What every run keeps -/

/-- Facts about the registry and the reviews that hold whatever happens. -/
structure Consistent (pool : ReviewPool) : Prop where
  /-- A stored event is the unset event of an unfinished review of its key. -/
  stored_live : ∀ key event, pool.registry.events.get key = some event →
    ∃ review ∈ pool.reviews, review.event = event ∧ review.key = key ∧ pool.Live review
  /-- The events of the reviews have been created. -/
  created : ∀ review ∈ pool.reviews, pool.registry.flags.get review.event ≠ none
  /-- No event was given to two reviews. -/
  distinct : ∀ first ∈ pool.reviews, ∀ second ∈ pool.reviews,
    first.event = second.event → first = second

/-- The live reviews are the stored ones, and only the last of a key is live. -/
structure Tracked (pool : ReviewPool) : Prop where
  live_stored : ∀ review ∈ pool.reviews, pool.Live review →
    pool.registry.events.get review.key = some review.event
  latest : pool.reviews.Pairwise fun older newer => older.key = newer.key → ¬ pool.Live older

/-- What one step does. -/
theorem step_cases {pool next : ReviewPool} {event : ReviewPoolEvent}
    (moved : step pool event = some next) :
    (∃ key newEvent, event = .register key newEvent ∧
      pool.registry.flags.get newEvent = none ∧
      next = ⟨pool.registry.register key newEvent, pool.reviews ++ [{ key, event := newEvent }]⟩) ∨
    ∃ review ∈ pool.reviews, event = .complete review.event ∧ review.completed = false ∧
      next = ⟨pool.registry.complete review.key, pool.reviews.map (finish review.event)⟩ := by
  cases event with
  | register key newEvent =>
      simp only [step, Option.ite_none_left_eq_some, Option.some.injEq] at moved
      obtain ⟨fresh, rfl⟩ := moved
      exact .inl ⟨key, newEvent, rfl, by simpa using fresh, rfl⟩
  | complete event =>
      simp only [step] at moved
      split at moved
      · cases moved
      · rename_i review found
        obtain rfl := Option.some.inj moved
        have holds := List.find?_some found
        simp only [Bool.not_eq_true', decide_eq_true_eq] at holds
        obtain ⟨rfl, unfinished⟩ := holds
        exact .inr ⟨review, List.mem_of_find?_eq_some found, rfl, unfinished, rfl⟩

@[simp] theorem finish_key (event : Nat) (review : RegisteredReview) :
    (finish event review).key = review.key := by
  unfold finish
  split <;> rfl

@[simp] theorem finish_event (event : Nat) (review : RegisteredReview) :
    (finish event review).event = review.event := by
  unfold finish
  split <;> rfl

theorem finish_of_ne {event : Nat} {review : RegisteredReview} (other : review.event ≠ event) :
    finish event review = review := if_neg other

/-- A review live after another finishes was live before, and is not the one that
finished. -/
theorem Live.of_complete {pool : ReviewPool} {key : ReviewKey} {event : Nat}
    {review : RegisteredReview} {reviews : List RegisteredReview}
    (live : Live ⟨pool.registry.complete key, reviews⟩ (finish event review)) :
    review.event ≠ event ∧ pool.Live review := by
  obtain ⟨unfinished, unset⟩ := live
  have other : review.event ≠ event := by
    intro same
    simp [finish, same] at unfinished
  rw [finish_of_ne other] at unfinished unset
  exact ⟨other, unfinished, unset⟩

namespace Consistent

variable {pool : ReviewPool}

theorem event_ne_fresh (consistent : pool.Consistent) {newEvent : Nat}
    (fresh : pool.registry.flags.get newEvent = none) {review : RegisteredReview}
    (member : review ∈ pool.reviews) : review.event ≠ newEvent := by
  rintro rfl
  exact consistent.created review member fresh

/-- An earlier review is live after a registration when it was live and its event
was not the one stored under the key. -/
theorem live_register (consistent : pool.Consistent) {key : ReviewKey} {newEvent : Nat}
    (fresh : pool.registry.flags.get newEvent = none) {review : RegisteredReview}
    (member : review ∈ pool.reviews) (reviews : List RegisteredReview) :
    Live ⟨pool.registry.register key newEvent, reviews⟩ review ↔
      pool.Live review ∧ pool.registry.events.get key ≠ some review.event := by
  unfold Live SupersessionRegistry.isSet
  rw [SupersessionRegistry.register_flags, if_neg (consistent.event_ne_fresh fresh member)]
  by_cases stored : pool.registry.events.get key = some review.event
  · simp [stored]
  · simp [stored]

theorem register (consistent : pool.Consistent) (key : ReviewKey) {newEvent : Nat}
    (fresh : pool.registry.flags.get newEvent = none) :
    Consistent ⟨pool.registry.register key newEvent,
      pool.reviews ++ [{ key, event := newEvent }]⟩ where
  stored_live other event stored := by
    simp only [SupersessionRegistry.register_events] at stored
    by_cases same : other = key
    · rw [if_pos same] at stored
      cases stored
      refine ⟨{ key, event := newEvent }, by simp, rfl, same.symm, rfl, ?_⟩
      simp [SupersessionRegistry.isSet, SupersessionRegistry.register_flags]
    · rw [if_neg same] at stored
      obtain ⟨review, member, rfl, rfl, live⟩ := consistent.stored_live _ _ stored
      refine ⟨review, by simp [member], rfl, rfl,
        (consistent.live_register fresh member _).mpr ⟨live, ?_⟩⟩
      intro storedHere
      obtain ⟨twin, twinMember, sameEvent, twinKey, -⟩ := consistent.stored_live _ _ storedHere
      rw [consistent.distinct _ twinMember _ member sameEvent] at twinKey
      exact same twinKey
  created review member := by
    simp only [SupersessionRegistry.register_flags]
    rcases List.mem_append.mp member with old | new
    · have known := consistent.created review old
      split
      · simp
      · split
        · simp
        · exact known
    · obtain rfl := List.mem_singleton.mp new
      simp
  distinct first firstMember second secondMember same := by
    rcases List.mem_append.mp firstMember with oldFirst | newFirst <;>
      rcases List.mem_append.mp secondMember with oldSecond | newSecond
    · exact consistent.distinct _ oldFirst _ oldSecond same
    · obtain rfl := List.mem_singleton.mp newSecond
      exact absurd same (consistent.event_ne_fresh fresh oldFirst)
    · obtain rfl := List.mem_singleton.mp newFirst
      exact absurd same.symm (consistent.event_ne_fresh fresh oldSecond)
    · rw [List.mem_singleton.mp newFirst, List.mem_singleton.mp newSecond]

theorem complete (consistent : pool.Consistent) {review : RegisteredReview}
    (member : review ∈ pool.reviews) :
    Consistent ⟨pool.registry.complete review.key, pool.reviews.map (finish review.event)⟩ where
  stored_live key event stored := by
    simp only [SupersessionRegistry.complete, Dict.get_erase] at stored
    split at stored
    · cases stored
    · rename_i otherKey
      obtain ⟨holder, holderMember, rfl, rfl, live⟩ := consistent.stored_live _ _ stored
      have other : holder.event ≠ review.event := by
        intro same
        rw [consistent.distinct _ holderMember _ member same] at otherKey
        exact otherKey rfl
      refine ⟨holder, ?_, rfl, rfl, live⟩
      exact List.mem_map.mpr ⟨holder, holderMember, finish_of_ne other⟩
  created later laterMember := by
    obtain ⟨before, beforeMember, rfl⟩ := List.mem_map.mp laterMember
    rw [finish_event]
    exact consistent.created before beforeMember
  distinct first firstMember second secondMember same := by
    obtain ⟨first', firstMember', rfl⟩ := List.mem_map.mp firstMember
    obtain ⟨second', secondMember', rfl⟩ := List.mem_map.mp secondMember
    simp only [finish_event] at same
    rw [consistent.distinct _ firstMember' _ secondMember' same]

theorem step (consistent : pool.Consistent) {next : ReviewPool} {event : ReviewPoolEvent}
    (moved : ReviewPool.step pool event = some next) : next.Consistent := by
  rcases step_cases moved with ⟨key, newEvent, rfl, fresh, rfl⟩ | ⟨review, member, rfl, -, rfl⟩
  · exact consistent.register key fresh
  · exact consistent.complete member

end Consistent

/-! ## The live reviews -/

namespace Tracked

variable {pool : ReviewPool}

/-- A registration supersedes the stored review, and the new one is stored. -/
theorem register (tracked : pool.Tracked) (consistent : pool.Consistent) (key : ReviewKey)
    {newEvent : Nat} (fresh : pool.registry.flags.get newEvent = none) :
    Tracked ⟨pool.registry.register key newEvent,
      pool.reviews ++ [{ key, event := newEvent }]⟩ where
  live_stored review member live := by
    simp only [SupersessionRegistry.register_events]
    rcases List.mem_append.mp member with old | new
    · obtain ⟨before, notStored⟩ := (consistent.live_register fresh old _).mp live
      have stored := tracked.live_stored review old before
      have otherKey : review.key ≠ key := by
        intro same
        exact notStored (same ▸ stored)
      rw [if_neg otherKey, stored]
    · obtain rfl := List.mem_singleton.mp new
      rw [if_pos rfl]
  latest := by
    refine List.pairwise_append.mpr ⟨?_, List.pairwise_singleton _ _, ?_⟩
    · refine tracked.latest.imp_of_mem fun {older newer} olderMember _ earlier sameKey live => ?_
      exact earlier sameKey ((consistent.live_register fresh olderMember _).mp live).1
    · intro older olderMember newer new sameKey live
      obtain rfl := List.mem_singleton.mp new
      obtain ⟨before, notStored⟩ := (consistent.live_register fresh olderMember _).mp live
      exact notStored ((congrArg _ sameKey.symm).trans
        (tracked.live_stored older olderMember before))

/-- A review that finds no other event in its slot removes no other review. -/
theorem complete (tracked : pool.Tracked) {review : RegisteredReview}
    (own : ∀ stored, pool.registry.events.get review.key = some stored →
      stored = review.event) :
    Tracked ⟨pool.registry.complete review.key, pool.reviews.map (finish review.event)⟩ where
  live_stored later laterMember live := by
    obtain ⟨before, beforeMember, rfl⟩ := List.mem_map.mp laterMember
    obtain ⟨other, liveBefore⟩ := Live.of_complete live
    have stored := tracked.live_stored before beforeMember liveBefore
    simp only [SupersessionRegistry.complete, Dict.get_erase, finish_key, finish_event]
    have otherKey : before.key ≠ review.key := by
      intro same
      exact other (own _ (same ▸ stored))
    rw [if_neg otherKey, stored]
  latest := by
    refine List.pairwise_map.mpr (tracked.latest.imp fun {older newer} earlier sameKey live => ?_)
    simp only [finish_key] at sameKey
    exact earlier sameKey (Live.of_complete live).2

theorem oneLive (tracked : pool.Tracked) (consistent : pool.Consistent) : pool.OneLive where
  latest := tracked.latest
  unique first firstMember second secondMember sameKey firstLive secondLive := by
    have storedFirst := tracked.live_stored first firstMember firstLive
    have storedSecond := tracked.live_stored second secondMember secondLive
    rw [sameKey, storedSecond] at storedFirst
    exact (consistent.distinct _ secondMember _ firstMember (Option.some.inj storedFirst)).symm
  register_sets newEvent fresh review member unfinished := by
    by_contra unset
    have live : Live ⟨pool.registry.register review.key newEvent, pool.reviews⟩ review :=
      ⟨unfinished, unset⟩
    obtain ⟨before, notStored⟩ := (consistent.live_register fresh member _).mp live
    exact notStored (tracked.live_stored review member before)

end Tracked

/-- A review that finds another event in its slot leaves a live review that no
registration will supersede. -/
theorem Consistent.not_oneLive_of_foreign_completion {pool next : ReviewPool}
    {event : ReviewPoolEvent} (consistent : pool.Consistent) (foreign : ¬ pool.OwnCompletion event)
    (moved : ReviewPool.step pool event = some next) : ¬ next.OneLive := by
  rcases step_cases moved with ⟨key, newEvent, rfl, -⟩ | ⟨review, member, rfl, -, rfl⟩
  · exact absurd trivial foreign
  · simp only [OwnCompletion, not_forall] at foreign
    obtain ⟨finished, finishedMember, sameEvent, stored, found, other⟩ := foreign
    rw [consistent.distinct _ finishedMember _ member sameEvent] at found
    obtain ⟨lost, lostMember, rfl, lostKey, unfinished, unset⟩ :=
      consistent.stored_live _ _ found
    intro oneLive
    obtain ⟨newEvent, fresh⟩ := pool.registry.flags.exists_get_eq_none
    have kept : lost ∈ pool.reviews.map (finish review.event) :=
      List.mem_map.mpr ⟨lost, lostMember, finish_of_ne other⟩
    have set := oneLive.register_sets newEvent fresh lost kept unfinished
    unfold SupersessionRegistry.isSet at set unset
    rw [SupersessionRegistry.register_flags, if_neg (consistent.event_ne_fresh fresh lostMember)]
      at set
    simp only [SupersessionRegistry.complete, Dict.get_erase, lostKey, if_true, reduceCtorEq,
      if_false] at set
    exact unset set

/-- **Along a run at most one review of each key is live, and further
registrations supersede all the others, exactly when every review that finishes
finds its slot empty or finds its own event there.** -/
theorem oneLive_iff_ownCompletion (events : List ReviewPoolEvent) :
    (∀ pool ∈ ReviewPool.step.visits {} events, pool.OneLive) ↔
      ∀ move ∈ ReviewPool.step.moves {} events, move.1.OwnCompletion move.2 := by
  refine Machine.forall_visits_iff_guarded
    (fun (pool : ReviewPool) (invariant : pool.Consistent ∧ pool.Tracked) =>
      invariant.2.oneLive invariant.1) ?keeps ?breaks ⟨?consistent, ?tracked⟩ events
  case keeps =>
    intro pool event next ⟨consistent, tracked⟩ own moved
    refine ⟨consistent.step moved, ?_⟩
    rcases step_cases moved with ⟨key, newEvent, rfl, fresh, rfl⟩ | ⟨review, member, rfl, -, rfl⟩
    · exact tracked.register consistent key fresh
    · exact tracked.complete (own review member rfl)
  case breaks =>
    intro pool event next ⟨consistent, _⟩ foreign moved
    exact consistent.not_oneLive_of_foreign_completion foreign moved
  case consistent => constructor <;> simp
  case tracked => constructor <;> simp

/-- A superseded review finishes while its successor runs, and a third review
registers: the second and the third are both live. -/
theorem supersededCompletes_two_live :
    ∃ pool ∈ ReviewPool.step.visits {} [.register ⟨"r1", 1⟩ 0, .register ⟨"r1", 1⟩ 1,
        .complete 0, .register ⟨"r1", 1⟩ 2],
      ¬ pool.OneLive ∧ pool.Live ⟨⟨"r1", 1⟩, 1, false⟩ ∧ pool.Live ⟨⟨"r1", 1⟩, 2, false⟩ := by
  have seen : (ReviewPool.step.run {} [.register ⟨"r1", 1⟩ 0, .register ⟨"r1", 1⟩ 1,
      .complete 0, .register ⟨"r1", 1⟩ 2]).map (fun pool =>
        (pool.reviews, pool.registry.flags.get 1, pool.registry.flags.get 2)) =
      some ([⟨⟨"r1", 1⟩, 0, true⟩, ⟨⟨"r1", 1⟩, 1, false⟩, ⟨⟨"r1", 1⟩, 2, false⟩],
        some false, some false) := by decide
  obtain ⟨pool, ran, view⟩ := Option.map_eq_some_iff.mp seen
  obtain ⟨reviews, flags⟩ := Prod.mk.inj view
  obtain ⟨flagOne, flagTwo⟩ := Prod.mk.inj flags
  have liveOne : pool.Live ⟨⟨"r1", 1⟩, 1, false⟩ :=
    ⟨rfl, by simp [SupersessionRegistry.isSet, flagOne]⟩
  have liveTwo : pool.Live ⟨⟨"r1", 1⟩, 2, false⟩ :=
    ⟨rfl, by simp [SupersessionRegistry.isSet, flagTwo]⟩
  refine ⟨pool, (Machine.mem_visits_iff ..).mpr ⟨_, [], by simp, ran⟩, ?_, liveOne, liveTwo⟩
  intro oneLive
  have same := oneLive.unique ⟨⟨"r1", 1⟩, 1, false⟩ (by simp [reviews])
    ⟨⟨"r1", 1⟩, 2, false⟩ (by simp [reviews]) rfl liveOne liveTwo
  cases same

end ReviewPool

end Kenjutsu.Pipeline
