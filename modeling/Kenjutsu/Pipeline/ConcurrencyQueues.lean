import Kenjutsu.Foundations.Dicts
import Kenjutsu.Foundations.Projections
import Kenjutsu.Foundations.Semaphores

/-!
# The concurrency queues

`GlobalQueue` bounds how many reviews run at once by a semaphore, `TenantQueue` by one
semaphore for each tenant, which it creates when the tenant first comes. The semaphore is
that of the standard library: first come, first served, and a wait can be cancelled.

The code around the queues is part of the model: who waits, who is inside, and the variable
`sem` of every call of `for_tenant`, which keeps the semaphore it was given at the start.
-/

set_option autoImplicit false

namespace Kenjutsu.Pipeline

open Foundations

variable {Visit : Type}

/-- What the constructor of a semaphore raises. -/
inductive SemaphoreError where
  | valueError (message : String)
deriving DecidableEq, Repr

/-- `asyncio.Semaphore(value)`. -/
def newSemaphore (value : Int) : Except SemaphoreError (Semaphore Visit) :=
  if value < 0 then .error (.valueError "Semaphore initial value must be >= 0")
  else .ok { value := value.toNat }

/-! ## One queue for all -/

structure GlobalQueue (Visit : Type) where
  maxConcurrency : Int
  semaphore : Semaphore Visit

namespace GlobalQueue

/-- `GlobalQueue(max_concurrency)`. -/
def init (maxConcurrency : Int) : Except SemaphoreError (GlobalQueue Visit) := do
  let semaphore ← newSemaphore maxConcurrency
  pure { maxConcurrency, semaphore }

/-- A queue is created exactly with a limit that is not negative. -/
theorem init_eq_ok_iff {maxConcurrency : Int} {queue : GlobalQueue Visit} :
    init maxConcurrency = .ok queue ↔
      0 ≤ maxConcurrency ∧ queue = ⟨maxConcurrency, { value := maxConcurrency.toNat }⟩ := by
  unfold init newSemaphore
  by_cases negative : maxConcurrency < 0
  · rw [if_pos negative]
    refine ⟨nofun, fun ⟨nonneg, _⟩ => ?_⟩
    exact absurd negative (Int.not_lt.mpr nonneg)
  · rw [if_neg negative]
    refine ⟨fun created => ⟨Int.not_lt.mp negative, (Except.ok.inj created).symm⟩, ?_⟩
    rintro ⟨-, rfl⟩
    rfl

variable [DecidableEq Visit]

/-- `__aenter__`, up to where it has to wait. -/
def aenter (queue : GlobalQueue Visit) (visit : Visit) : GlobalQueue Visit :=
  { queue with semaphore := queue.semaphore.acquire visit }

/-- `__aexit__`. -/
def aexit (queue : GlobalQueue Visit) (visit : Visit) : GlobalQueue Visit :=
  { queue with semaphore := queue.semaphore.release visit }

/-- A visit enters or leaves; a wait is cancelled, or is over. -/
def step : Machine (GlobalQueue Visit) (SemaphoreEvent Visit)
  | queue, .enter visit =>
      if visit ∈ queue.semaphore.arrived then none else some (queue.aenter visit)
  | queue, .leave visit =>
      if visit ∈ queue.semaphore.inside then some (queue.aexit visit) else none
  | queue, event =>
      (queue.semaphore.step event).map fun semaphore => { queue with semaphore }

/-- What a queue promises about a state it is in. -/
structure Limits (maxConcurrency : Int) (queue : GlobalQueue Visit) : Prop where
  /-- At most so many visits are inside. -/
  running : queue.semaphore.inside.length ≤ maxConcurrency
  /-- No place is lost or made up. -/
  places : queue.semaphore.value + queue.semaphore.inside.length +
    Semaphore.givenOf queue.semaphore.waiters = maxConcurrency
  /-- Nobody is inside who was not let in. -/
  admitted : ∀ visit ∈ queue.semaphore.inside, visit ∈ queue.semaphore.granted
  /-- Of two visits the one that came first is let in first, unless it gives up. -/
  fifo : ∀ first second, [first, second].Sublist queue.semaphore.arrived →
    second ∈ queue.semaphore.granted →
      first ∈ queue.semaphore.gaveUp ∨ first ∈ queue.semaphore.granted

/-! ## What a queue is -/

/-- A queue steps as its semaphore does. -/
theorem step_eq (queue : GlobalQueue Visit) (event : SemaphoreEvent Visit) :
    step queue event =
      (queue.semaphore.step event).map fun semaphore => { queue with semaphore } := by
  cases event with
  | enter visit =>
      simp only [step, Semaphore.step]
      split <;> rfl
  | leave visit =>
      simp only [step, Semaphore.step]
      split <;> rfl
  | cancel visit => rfl
  | resume visit further => rfl

/-- The run of a queue is one of its semaphore. -/
theorem run_eq (queue : GlobalQueue Visit) (events : List (SemaphoreEvent Visit)) :
    step.run queue events =
      (Semaphore.step.run queue.semaphore events).map fun semaphore => { queue with semaphore } := by
  induction events generalizing queue with
  | nil => rfl
  | cons event events ih =>
      rw [Machine.run_cons, Machine.run_cons, step_eq]
      cases queue.semaphore.step event with
      | none => rfl
      | some semaphore => exact ih { queue with semaphore }

/-- The semaphore of a queue is sound. -/
structure Sound (maxConcurrency : Int) (queue : GlobalQueue Visit) : Prop where
  nonneg : 0 ≤ maxConcurrency
  accounted : Semaphore.Accounted maxConcurrency.toNat queue.semaphore
  watched : queue.semaphore.Watched

variable {maxConcurrency : Int} {queue : GlobalQueue Visit}

theorem Sound.step (sound : queue.Sound maxConcurrency) {event : SemaphoreEvent Visit}
    {next : GlobalQueue Visit} (moved : GlobalQueue.step queue event = some next) :
    next.Sound maxConcurrency := by
  rw [step_eq, Option.map_eq_some_iff] at moved
  obtain ⟨semaphore, moved, rfl⟩ := moved
  exact ⟨sound.nonneg, sound.accounted.step moved, sound.watched.step sound.accounted moved⟩

/-- A new queue is sound, and so is every state of its runs. -/
theorem sound_of_init (created : init maxConcurrency = .ok queue)
    (events : List (SemaphoreEvent Visit)) :
    ∀ state ∈ step.visits queue events, state.Sound maxConcurrency := by
  obtain ⟨nonneg, rfl⟩ := init_eq_ok_iff.mp created
  intro state visited
  obtain ⟨done, rest, split, ran⟩ := (step.mem_visits_iff _ _ _).mp visited
  rw [run_eq, Option.map_eq_some_iff] at ran
  obtain ⟨semaphore, ran, rfl⟩ := ran
  have inside := (Semaphore.step.mem_visits_iff _ _ _).mpr ⟨done, rest, split, ran⟩
  obtain ⟨accounted, watched⟩ :=
    Semaphore.forall_visits_accounted maxConcurrency.toNat events semaphore inside
  exact ⟨nonneg, accounted, watched⟩

theorem Sound.limits (sound : queue.Sound maxConcurrency) : queue.Limits maxConcurrency := by
  have units := sound.accounted.units
  have nonneg := Int.toNat_of_nonneg sound.nonneg
  exact
    { running := by omega
      places := by omega
      admitted := sound.accounted.served.1
      fifo := fun first second earlier served => sound.accounted.first_served earlier served }

/-- **The queue keeps its limit and its order**, however visits enter, wait, are cancelled
and leave. -/
theorem globalQueue_limits (created : init maxConcurrency = .ok queue)
    (events : List (SemaphoreEvent Visit)) :
    ∀ state ∈ step.visits queue events, state.Limits maxConcurrency :=
  fun state visited => (sound_of_init created events state visited).limits

/-- Two visits enter a queue with one place, and the first leaves. -/
def handedOver : List (SemaphoreEvent Nat) := [.enter 0, .enter 1, .leave 0]

theorem handedOver_limits :
    ∃ state : GlobalQueue Nat, step.run ⟨1, { value := 1 }⟩ handedOver = some state ∧
      state.semaphore.granted = [0, 1] ∧ state.Limits 1 := by
  have ran : step.run (⟨1, { value := 1 }⟩ : GlobalQueue Nat) handedOver =
      some ⟨1, ⟨0, [(1, .woken)], [], [0, 1], [0, 1], []⟩⟩ := rfl
  exact ⟨_, ran, rfl, globalQueue_limits rfl handedOver _
    ((step.mem_visits_iff _ _ _).mpr ⟨handedOver, [], rfl, ran⟩)⟩

/-- Nobody waits and nobody is inside, and whoever came and did not give up was let in, in
the order in which they came. -/
structure Emptied (arrived gaveUp : List Visit) (queue : GlobalQueue Visit) : Prop where
  waiters : queue.semaphore.waiters = []
  inside : queue.semaphore.inside = []
  granted : queue.semaphore.granted = arrived.filter fun visit => visit ∉ gaveUp

/-- **Nobody is left waiting.** When nobody comes or is cancelled any more, a queue with a
positive limit empties after a bounded number of events, in whatever order waiters run on and
visits leave. -/
theorem globalQueue_empties (created : init maxConcurrency = .ok queue)
    (positive : 0 < maxConcurrency) (events : List (SemaphoreEvent Visit)) :
    ∀ state ∈ step.visits queue events, ∀ (rest : List (SemaphoreEvent Visit)) last,
      (∀ event ∈ rest, Semaphore.Drains event) → step.run state rest = some last →
        rest.length ≤ state.semaphore.work ∧
          ((∀ event, Semaphore.Drains event → step last event = none) →
            last.Emptied state.semaphore.arrived state.semaphore.gaveUp) := by
  intro state visited rest last draining ran
  have sound := sound_of_init created events state visited
  rw [run_eq, Option.map_eq_some_iff] at ran
  obtain ⟨semaphore, ran, rfl⟩ := ran
  obtain ⟨bound, ends⟩ := Semaphore.drains_of_run (by omega) sound.accounted sound.watched
    draining ran
  refine ⟨by omega, fun stuck => ?_⟩
  obtain ⟨waiters, inside, -, granted⟩ := ends fun event drains => by
    have none := stuck event drains
    rwa [step_eq, Option.map_eq_none_iff] at none
  exact ⟨waiters, inside, granted⟩

/-- After that the second visit runs on and leaves, and the queue is empty. -/
theorem handedOver_empties :
    ∃ state last : GlobalQueue Nat,
      step.run ⟨1, { value := 1 }⟩ handedOver = some state ∧
      step.run state [.resume 1 0, .leave 1] = some last ∧
      last.Emptied [0, 1] [] := by
  have ran : step.run (⟨1, { value := 1 }⟩ : GlobalQueue Nat) handedOver =
      some ⟨1, ⟨0, [(1, .woken)], [], [0, 1], [0, 1], []⟩⟩ := rfl
  refine ⟨_, ⟨1, ⟨1, [], [], [0, 1], [0, 1], []⟩⟩, ran, rfl, ?_⟩
  refine (@globalQueue_empties Nat _ 1 ⟨1, { value := 1 }⟩ rfl Int.zero_lt_one handedOver _
    ((step.mem_visits_iff _ _ _).mpr ⟨handedOver, [], rfl, ran⟩) [.resume 1 0, .leave 1] _
    (by simp [Semaphore.Drains]) rfl).2 fun event drains => ?_
  cases event with
  | enter visit => exact drains.elim
  | cancel visit => exact drains.elim
  | resume visit further => rfl
  | leave visit => rfl

end GlobalQueue

/-! ## One queue for each tenant -/

/-- `TenantQueue`, with its semaphores by their identities. -/
structure TenantQueue where
  maxConcurrency : Int
  semaphores : Dict String Nat := ∅

/-- The queue, the semaphores that exist, and for each call of `for_tenant` its variable
`sem`. Semaphores are numbered as they are created. -/
structure TenantCalls (Visit : Type) where
  queue : TenantQueue
  created : Nat := 0
  objects : Dict Nat (Semaphore Visit) := ∅
  sems : Dict (String × Visit) Nat := ∅

/-- An event of the semaphore that a visit for a tenant uses. -/
structure TenantEvent (Visit : Type) where
  tenantId : String
  event : SemaphoreEvent Visit

namespace TenantCalls

/-- `self._semaphores[tenant_id] = semaphore`. -/
def store (calls : TenantCalls Visit) (tenantId : String) (semaphore : Semaphore Visit) :
    TenantCalls Visit :=
  { calls with
    queue := { calls.queue with
      semaphores := calls.queue.semaphores.set tenantId calls.created }
    created := calls.created + 1
    objects := calls.objects.set calls.created semaphore }

/-- `_semaphore_for`: the semaphore of a tenant, created if it does not exist. -/
def semaphoreFor (calls : TenantCalls Visit) (tenantId : String) :
    Except SemaphoreError (Nat × TenantCalls Visit) :=
  match calls.queue.semaphores.get tenantId with
  | some object => .ok (object, calls)
  | none => do
      let semaphore ← newSemaphore calls.queue.maxConcurrency
      pure (calls.created, calls.store tenantId semaphore)

/-- The queue of one tenant. -/
def queueOf (tenantId : String) (calls : TenantCalls Visit) : GlobalQueue Visit where
  maxConcurrency := calls.queue.maxConcurrency
  semaphore := ((calls.queue.semaphores.get tenantId).bind calls.objects.get).getD
    { value := calls.queue.maxConcurrency.toNat }

variable {calls : TenantCalls Visit}

@[simp] theorem store_get (calls : TenantCalls Visit) (tenantId other : String)
    (semaphore : Semaphore Visit) :
    (calls.store tenantId semaphore).queue.semaphores.get other =
      if other = tenantId then some calls.created else calls.queue.semaphores.get other :=
  Dict.get_set _ _ _ _

@[simp] theorem store_objects (calls : TenantCalls Visit) (tenantId : String)
    (semaphore : Semaphore Visit) (object : Nat) :
    (calls.store tenantId semaphore).objects.get object =
      if object = calls.created then some semaphore else calls.objects.get object :=
  Dict.get_set _ _ _ _

theorem queueOf_of_stored {tenantId : String} {object : Nat} {semaphore : Semaphore Visit}
    (stored : calls.queue.semaphores.get tenantId = some object)
    (known : calls.objects.get object = some semaphore) :
    calls.queueOf tenantId = ⟨calls.queue.maxConcurrency, semaphore⟩ := by
  rw [queueOf, stored, Option.bind_some, known, Option.getD_some]

variable [DecidableEq Visit]

/-- `for_tenant`: a call begins with the semaphore of its tenant, and goes on with the one it
was given. -/
def step : Machine (TenantCalls Visit) (TenantEvent Visit)
  | calls, ⟨tenantId, .enter visit⟩ =>
      if (calls.sems.get (tenantId, visit)).isSome then none
      else match calls.semaphoreFor tenantId with
        | .error _ => some calls
        | .ok (object, calls) => some { calls with
            objects := calls.objects.modify object fun semaphore => semaphore.acquire visit
            sems := calls.sems.set (tenantId, visit) object }
  | calls, ⟨tenantId, event⟩ => do
      let object ← calls.sems.get (tenantId, event.visit)
      let semaphore ← calls.objects.get object
      let semaphore ← semaphore.step event
      pure { calls with objects := calls.objects.set object semaphore }

/-- Every tenant has a semaphore of its own, and its visits use that one. -/
structure Separate (calls : TenantCalls Visit) : Prop where
  sound : ∀ tenantId, (calls.queueOf tenantId).Sound calls.queue.maxConcurrency
  exist : ∀ tenantId object, calls.queue.semaphores.get tenantId = some object →
    object < calls.created ∧ (calls.objects.get object).isSome
  own : ∀ tenantId other object, calls.queue.semaphores.get tenantId = some object →
    calls.queue.semaphores.get other = some object → tenantId = other
  used : ∀ tenantId visit object, calls.sems.get (tenantId, visit) = some object →
    calls.queue.semaphores.get tenantId = some object
  known : ∀ tenantId visit, visit ∈ (calls.queueOf tenantId).semaphore.arrived ↔
    (calls.sems.get (tenantId, visit)).isSome

/-- The queues of the tenants when the semaphore of one of them changes. -/
theorem queueOf_set (separate : Separate calls) {tenantId : String} {object : Nat}
    (stored : calls.queue.semaphores.get tenantId = some object) (semaphore : Semaphore Visit)
    (sems : Dict (String × Visit) Nat) (other : String) :
    queueOf other { calls with objects := calls.objects.set object semaphore, sems } =
      if other = tenantId then ⟨calls.queue.maxConcurrency, semaphore⟩
      else calls.queueOf other := by
  by_cases same : other = tenantId
  · subst same
    rw [if_pos rfl]
    exact queueOf_of_stored stored (by rw [Dict.get_set, if_pos rfl])
  · rw [if_neg same, queueOf, queueOf]
    congr 2
    cases found : calls.queue.semaphores.get other with
    | none => rfl
    | some used =>
        rw [Option.bind_some, Option.bind_some, Dict.get_set, if_neg]
        rintro rfl
        exact same (separate.own other tenantId used found stored)

/-- **What `_semaphore_for` does**: afterwards the tenant has a semaphore, and no queue has
changed. -/
theorem semaphoreFor_spec (separate : Separate calls) (tenantId : String) :
    ∃ object found, calls.semaphoreFor tenantId = .ok (object, found) ∧ Separate found ∧
      found.queue.semaphores.get tenantId = some object ∧
      found.objects.get object = some (calls.queueOf tenantId).semaphore ∧
      found.sems = calls.sems ∧ ∀ other, found.queueOf other = calls.queueOf other := by
  cases stored : calls.queue.semaphores.get tenantId with
  | some object =>
      obtain ⟨semaphore, known⟩ :=
        Option.isSome_iff_exists.mp (separate.exist tenantId object stored).2
      refine ⟨object, calls, ?_, separate, stored, ?_, rfl, fun _ => rfl⟩
      · rw [semaphoreFor, stored]
      · rw [queueOf_of_stored stored known, known]
  | none =>
      have created : (newSemaphore calls.queue.maxConcurrency :
          Except SemaphoreError (Semaphore Visit)) =
            .ok { value := calls.queue.maxConcurrency.toNat } :=
        if_neg (Int.not_lt.mpr (separate.sound tenantId).nonneg)
      have older : ∀ other object, calls.queue.semaphores.get other = some object →
          object ≠ calls.created := fun other object found =>
        (separate.exist other object found).1.ne
      have same : ∀ other, queueOf other (calls.store tenantId
          { value := calls.queue.maxConcurrency.toNat }) = calls.queueOf other := by
        intro other
        by_cases new : other = tenantId
        · subst new
          rw [queueOf_of_stored (by rw [store_get, if_pos rfl])
            (by rw [store_objects, if_pos rfl]), queueOf, stored]
          rfl
        · cases found : calls.queue.semaphores.get other with
          | none =>
              rw [queueOf, queueOf, store_get, if_neg new, found]
              rfl
          | some object =>
              rw [queueOf, queueOf, store_get, if_neg new, found, Option.bind_some,
                Option.bind_some, store_objects, if_neg (older other object found)]
              rfl
      refine ⟨calls.created, calls.store tenantId { value := calls.queue.maxConcurrency.toNat },
        ?_, ?_, ?_, ?_, rfl, same⟩
      · rw [semaphoreFor, stored, created]
        rfl
      · exact
          { sound := fun other => (same other).symm ▸ separate.sound other
            exist := by
              intro other object found
              rw [store_get] at found
              rw [store_objects]
              split at found
              · obtain rfl := Option.some.inj found
                exact ⟨Nat.lt_succ_self _, by rw [if_pos rfl]; rfl⟩
              · obtain ⟨less, known⟩ := separate.exist other object found
                exact ⟨Nat.lt_succ_of_lt less, by rwa [if_neg less.ne]⟩
            own := by
              intro one other object first second
              rw [store_get] at first second
              split at first
              · rename_i isOne
                obtain rfl := Option.some.inj first
                split at second
                · rename_i isOther
                  exact isOne.trans isOther.symm
                · exact absurd rfl (older other _ second)
              · split at second
                · obtain rfl := Option.some.inj second
                  exact absurd rfl (older one _ first)
                · exact separate.own one other object first second
            used := by
              intro other visit object uses
              have found := separate.used other visit object uses
              rw [store_get, if_neg]
              · exact found
              · rintro rfl
                rw [stored] at found
                cases found
            known := by
              intro other visit
              rw [same]
              exact separate.known other visit }
      · rw [store_get, if_pos rfl]
      · rw [store_objects, if_pos rfl, queueOf, stored]
        rfl

/-- The tenants stay separate when the semaphore of one of them changes. -/
theorem Separate.set (separate : Separate calls) {tenantId : String} {object : Nat}
    (stored : calls.queue.semaphores.get tenantId = some object) {semaphore : Semaphore Visit}
    {sems : Dict (String × Visit) Nat}
    (sound : GlobalQueue.Sound calls.queue.maxConcurrency
      ⟨calls.queue.maxConcurrency, semaphore⟩)
    (used : ∀ other visit found, sems.get (other, visit) = some found →
      calls.queue.semaphores.get other = some found)
    (arrived : ∀ visit, visit ∈ semaphore.arrived ↔ (sems.get (tenantId, visit)).isSome)
    (others : ∀ other visit, other ≠ tenantId →
      sems.get (other, visit) = calls.sems.get (other, visit)) :
    Separate { calls with objects := calls.objects.set object semaphore, sems } where
  sound := by
    intro other
    rw [queueOf_set separate stored]
    split
    · exact sound
    · exact separate.sound other
  exist := by
    intro other found stores
    obtain ⟨less, known⟩ := separate.exist other found stores
    refine ⟨less, ?_⟩
    change ((calls.objects.set object semaphore).get found).isSome
    rw [Dict.get_set]
    split
    · rfl
    · exact known
  own := separate.own
  used := used
  known := by
    intro other visit
    rw [queueOf_set separate stored]
    by_cases same : other = tenantId
    · subst same
      rw [if_pos rfl]
      exact arrived visit
    · rw [if_neg same, separate.known other visit, others other visit same]

/-- The tenant has a semaphore and a visit for it uses that one. -/
theorem Separate.find (separate : Separate calls) {tenantId : String} {visit : Visit}
    {object : Nat} (uses : calls.sems.get (tenantId, visit) = some object) :
    calls.queue.semaphores.get tenantId = some object ∧
      calls.objects.get object = some (calls.queueOf tenantId).semaphore := by
  have stored := separate.used tenantId visit object uses
  obtain ⟨semaphore, known⟩ := Option.isSome_iff_exists.mp (separate.exist tenantId object stored).2
  exact ⟨stored, by rw [queueOf_of_stored stored known, known]⟩

/-- A visit that has not come yet comes to the queue of its tenant. -/
theorem step_enter (separate : Separate calls) {tenantId : String} {visit : Visit}
    (fresh : calls.sems.get (tenantId, visit) = none) :
    ∃ next, step calls ⟨tenantId, .enter visit⟩ = some next ∧ Separate next ∧
      next.queueOf tenantId = (calls.queueOf tenantId).aenter visit ∧
      ∀ other, other ≠ tenantId → next.queueOf other = calls.queueOf other := by
  obtain ⟨object, found, made, separated, stored, known, sems, same⟩ :=
    semaphoreFor_spec separate tenantId
  have moved : step calls ⟨tenantId, .enter visit⟩ = some { found with
      objects := found.objects.set object ((calls.queueOf tenantId).semaphore.acquire visit)
      sems := found.sems.set (tenantId, visit) object } := by
    have changed : found.objects.modify object (fun semaphore => semaphore.acquire visit) =
        found.objects.set object ((calls.queueOf tenantId).semaphore.acquire visit) := by
      rw [Dict.modify, known]
    simp only [step, fresh, made, changed, Option.isSome_none, Bool.false_eq_true, if_false]
  have limit : found.queue.maxConcurrency = calls.queue.maxConcurrency :=
    congrArg GlobalQueue.maxConcurrency (same tenantId)
  have unknown : visit ∉ (calls.queueOf tenantId).semaphore.arrived := by
    rw [separate.known, fresh]
    exact Bool.false_ne_true
  have entered : GlobalQueue.step (calls.queueOf tenantId) (.enter visit) =
      some ((calls.queueOf tenantId).aenter visit) := if_neg unknown
  refine ⟨_, moved, ?_, ?_, fun other differs => ?_⟩
  · refine separated.set stored ?_ ?_ ?_ ?_
    · rw [limit]
      exact (separate.sound tenantId).step entered
    · intro other visitor object' uses
      rw [Dict.get_set] at uses
      split at uses
      · rename_i named
        obtain rfl := Option.some.inj uses
        rw [(Prod.mk.inj named).1]
        exact stored
      · exact separated.used other visitor object' uses
    · intro visitor
      have before := separated.known tenantId visitor
      rw [same] at before
      rw [Semaphore.acquire_arrived, List.mem_append, List.mem_singleton, before, Dict.get_set]
      by_cases isVisit : visitor = visit
      · subst isVisit
        simp
      · simp [isVisit]
    · intro other visitor differs
      rw [Dict.get_set, if_neg fun named => differs (Prod.mk.inj named).1]
  · rw [queueOf_set separated stored, if_pos rfl]
    exact congrArg (GlobalQueue.mk · _) limit
  · rw [queueOf_set separated stored, if_neg differs, same]

/-- A visit that has come goes on with its variable `sem`. -/
theorem step_stays (calls : TenantCalls Visit) (tenantId : String) {event : SemaphoreEvent Visit}
    (stays : ∀ visit, event ≠ .enter visit) :
    step calls ⟨tenantId, event⟩ =
      (calls.sems.get (tenantId, event.visit)).bind fun object =>
        (calls.objects.get object).bind fun semaphore =>
          (semaphore.step event).map fun semaphore =>
            { calls with objects := calls.objects.set object semaphore } := by
  cases event with
  | enter visit => exact absurd rfl (stays visit)
  | _ =>
      simp only [step, Option.bind_eq_bind, Option.pure_def, Option.map_eq_bind]
      rfl

/-- That is the semaphore of its tenant. -/
theorem step_own (separate : Separate calls) {tenantId : String} {event : SemaphoreEvent Visit}
    (stays : ∀ visit, event ≠ .enter visit) :
    (step calls ⟨tenantId, event⟩).map (queueOf tenantId) =
        GlobalQueue.step (calls.queueOf tenantId) event ∧
      ∀ next, step calls ⟨tenantId, event⟩ = some next → Separate next ∧
        ∀ other, other ≠ tenantId → next.queueOf other = calls.queueOf other := by
  rw [step_stays calls tenantId stays, GlobalQueue.step_eq]
  cases uses : calls.sems.get (tenantId, event.visit) with
  | none =>
      have unknown : event.visit ∉ (calls.queueOf tenantId).semaphore.arrived := by
        rw [separate.known, uses]
        exact Bool.false_ne_true
      rw [(separate.sound tenantId).accounted.step_eq_none stays unknown]
      exact ⟨rfl, nofun⟩
  | some object =>
      obtain ⟨stored, known⟩ := separate.find uses
      rw [Option.bind_some, known, Option.bind_some]
      cases moved : (calls.queueOf tenantId).semaphore.step event with
      | none => exact ⟨rfl, nofun⟩
      | some semaphore =>
          refine ⟨?_, ?_⟩
          · rw [Option.map_some, Option.map_some, Option.map_some,
              queueOf_set separate stored semaphore calls.sems, if_pos rfl]
            rfl
          · rintro _ ⟨⟩
            refine ⟨separate.set stored ?_ separate.used ?_ fun _ _ _ => rfl, ?_⟩
            · have stepped : GlobalQueue.step (calls.queueOf tenantId) event =
                  some ⟨calls.queue.maxConcurrency, semaphore⟩ := by
                rw [GlobalQueue.step_eq, moved]
                rfl
              exact (separate.sound tenantId).step stepped
            · rw [Semaphore.arrived_of_step moved stays]
              exact separate.known tenantId
            · intro other differs
              rw [queueOf_set separate stored semaphore calls.sems, if_neg differs]

/-- **What an event does**: it steps the queue of its tenant, and changes nothing for the
others. -/
theorem components :
    (step : Machine (TenantCalls Visit) (TenantEvent Visit)).Components GlobalQueue.step Separate
      TenantEvent.tenantId TenantEvent.event queueOf := by
  have cases : ∀ (calls : TenantCalls Visit) (tenantId : String) (event : SemaphoreEvent Visit),
      Separate calls →
        (step calls ⟨tenantId, event⟩).map (queueOf tenantId) =
            GlobalQueue.step (calls.queueOf tenantId) event ∧
          ∀ next, step calls ⟨tenantId, event⟩ = some next → Separate next ∧
            ∀ other, other ≠ tenantId → next.queueOf other = calls.queueOf other := by
    intro calls tenantId event separate
    by_cases enters : ∃ visit, event = .enter visit
    · obtain ⟨visit, rfl⟩ := enters
      cases come : calls.sems.get (tenantId, visit) with
      | none =>
          obtain ⟨next, moved, separated, own, others⟩ := step_enter separate come
          have unknown : visit ∉ (calls.queueOf tenantId).semaphore.arrived := by
            rw [separate.known, come]
            exact Bool.false_ne_true
          rw [moved]
          refine ⟨?_, ?_⟩
          · rw [Option.map_some, own]
            exact (if_neg unknown).symm
          · rintro _ ⟨⟩
            exact ⟨separated, others⟩
      | some object =>
          have known : visit ∈ (calls.queueOf tenantId).semaphore.arrived := by
            rw [separate.known, come]
            rfl
          have none : step calls ⟨tenantId, .enter visit⟩ = none := by
            simp only [step, come, Option.isSome_some, if_true]
          rw [none]
          refine ⟨?_, nofun⟩
          exact (if_pos known).symm
    · exact step_own separate fun visit same => enters ⟨visit, same⟩
  exact
    { keeps := fun calls event next separate moved =>
        ((cases calls event.tenantId event.event separate).2 next moved).1
      own := fun calls event separate => (cases calls event.tenantId event.event separate).1
      others := fun calls event next component separate moved differs =>
        ((cases calls event.tenantId event.event separate).2 next moved).2 component differs }

/-- `TenantQueue(max_concurrency)`, which nobody has come to. -/
def init (maxConcurrency : Int) : TenantCalls Visit where
  queue := { maxConcurrency }

theorem separate_init {maxConcurrency : Int} (nonneg : 0 ≤ maxConcurrency) :
    Separate (init maxConcurrency : TenantCalls Visit) where
  sound _ := ⟨nonneg, Semaphore.accounted_init _, Semaphore.watched_init _⟩
  exist _ _ stored := by
    rw [init, Dict.get_empty] at stored
    cases stored
  own _ _ _ stored := by
    rw [init, Dict.get_empty] at stored
    cases stored
  used _ _ _ uses := by
    rw [init, Dict.get_empty] at uses
    cases uses
  known tenantId visit := by
    constructor
    · intro member
      cases member
    · intro uses
      rw [init, Dict.get_empty] at uses
      cases uses

/-- **Each tenant has a queue of its own.** The calls of `for_tenant` behave as if every tenant
had a `GlobalQueue` with the limit: a list of events can happen exactly if the events of each
tenant can happen to such a queue, and then that is the state in which the tenant is. So no
tenant is held up by another one, and in no state does a tenant exceed its limit or is let in
out of order. -/
theorem tenantQueue_independent {maxConcurrency : Int} (nonneg : 0 ≤ maxConcurrency)
    (events : List (TenantEvent Visit)) :
    ((step.run (init maxConcurrency) events).isSome ↔
        ∀ tenantId, (GlobalQueue.step.run ⟨maxConcurrency, { value := maxConcurrency.toNat }⟩
          (Machine.ownEvents TenantEvent.tenantId TenantEvent.event tenantId events)).isSome) ∧
      (∀ last, step.run (init maxConcurrency) events = some last → ∀ tenantId,
        GlobalQueue.step.run ⟨maxConcurrency, { value := maxConcurrency.toNat }⟩
          (Machine.ownEvents TenantEvent.tenantId TenantEvent.event tenantId events) =
            some (last.queueOf tenantId)) ∧
      ∀ calls ∈ step.visits (init maxConcurrency) events, ∀ tenantId,
        (calls.queueOf tenantId).Limits maxConcurrency := by
  have separate : Separate (init maxConcurrency : TenantCalls Visit) := separate_init nonneg
  refine ⟨components.run_isSome_iff separate events,
    fun last ran => components.run_part separate ran, ?_⟩
  intro calls visited tenantId
  obtain ⟨done, rest, -, ran⟩ := (step.mem_visits_iff _ _ _).mp visited
  have own := components.run_part separate ran tenantId
  have created : GlobalQueue.init maxConcurrency =
      .ok (⟨maxConcurrency, { value := maxConcurrency.toNat }⟩ : GlobalQueue Visit) :=
    GlobalQueue.init_eq_ok_iff.mpr ⟨nonneg, rfl⟩
  exact (GlobalQueue.sound_of_init created _ _
    ((GlobalQueue.step.mem_visits_iff _ _ _).mpr ⟨_, [], (List.append_nil _).symm, own⟩)).limits

/-- Two visits for a tenant with one place, and one for another tenant. -/
def threeVisits : List (TenantEvent Nat) :=
  [⟨"acme", .enter 0⟩, ⟨"acme", .enter 1⟩, ⟨"umbrella", .enter 0⟩]

theorem threeVisits_independent :
    (∀ tenantId, (GlobalQueue.step.run ⟨1, { value := 1 }⟩
      (Machine.ownEvents TenantEvent.tenantId TenantEvent.event tenantId threeVisits)).isSome) ∧
    ∀ calls ∈ step.visits (init 1) threeVisits, ∀ tenantId, (calls.queueOf tenantId).Limits 1 := by
  have independent := tenantQueue_independent (by decide : (0 : Int) ≤ 1) threeVisits
  exact ⟨independent.1.mp (by decide), independent.2.2⟩

end TenantCalls

end Kenjutsu.Pipeline
