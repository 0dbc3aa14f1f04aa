import Kenjutsu.Foundations.Runs
import Kenjutsu.Foundations.Coroutines

/-!
# Services over a store

A service handles calls concurrently. The handler of a call is a coroutine that
shares nothing with the other handlers but a store, and every await is an
operation on the store. Which handler has its operation performed next, and
which way the operation goes, is the environment's choice; so are the changes
that others make to the store, and crashes.

The store performs an operation atomically. A handler touches nothing shared
between two awaits, so nothing is lost by letting it run on to its next await in
the move that performs the operation. A handler that has finished with a result
may leave work for the background, which runs later. A crash of a process ends
its handlers and loses their background work. The store survives it, and an
operation that the store had not performed by then is never performed.

The service keeps a log of what was performed for whom. What the body of a
handler ensures of its own exchanges holds of every handler in every state
visited (`forall_visits_follows`), and what a move does is said once
(`step_cases`, `handler_cases`).
-/

set_option autoImplicit false

namespace Foundations

open Coroutine

variable {Call Store Choice Change Request Raised Result : Type} {Answer : Request → Type}

/-- The handler of a call, the process it runs in, and what is left of it. -/
structure Handler (Call : Type) {Request : Type} (Answer : Request → Type)
    (Raised Result : Type) where
  process : Nat
  call : Call
  rest : Coroutine Unit Answer Raised Result
  /-- The process has not crashed since. -/
  alive : Bool := true
  /-- What it left for the background has run. -/
  worked : Bool := false

/-- The outcome of a handler that has finished. -/
def Handler.outcome? (handler : Handler Call Answer Raised Result) :
    Option (Except Raised Result) :=
  match handler.rest with
  | .finish outcome => some outcome
  | _ => none

/-- The operation that a handler waits for. -/
def Handler.request? (handler : Handler Call Answer Raised Result) : Option Request :=
  match handler.rest with
  | .await request _ => some request
  | _ => none

theorem Handler.request?_eq_some_iff {handler : Handler Call Answer Raised Result}
    {request : Request} :
    handler.request? = some request ↔ ∃ next, handler.rest = .await request next := by
  unfold Handler.request?
  constructor
  · intro asks
    split at asks
    · rename_i waiting
      obtain rfl := Option.some.inj asks
      exact ⟨_, waiting⟩
    · cases asks
  · rintro ⟨next, waiting⟩
    rw [waiting]

/-- A handler after a crash of a process. -/
def Handler.afterCrash (process : Nat) (handler : Handler Call Answer Raised Result) :
    Handler Call Answer Raised Result :=
  { handler with alive := handler.alive && handler.process ≠ process }

/-- The store, the handlers in the order they were started, and what has been
performed, each exchange with the handler it was performed for. -/
structure Service (Call Store : Type) {Request : Type} (Answer : Request → Type)
    (Raised Result : Type) where
  store : Store
  handlers : List (Handler Call Answer Raised Result) := []
  log : List (Nat × Exchange Answer Raised) := []

/-- What can happen to a service. -/
inductive ServiceEvent (Call Choice Change : Type) where
  | start (process : Nat) (call : Call)
  | perform (handler : Nat) (choice : Choice)
  | work (handler : Nat)
  | change (change : Change)
  | crash (process : Nat)

/-- The code of a service and the store behind it. -/
structure Backend (Call Store Choice Change : Type) {Request : Type} (Answer : Request → Type)
    (Raised Result : Type) where
  /-- The coroutine that handles a call. -/
  body : Call → Coroutine Unit Answer Raised Result
  /-- How the store performs an operation. -/
  performs : Choice → Store → (request : Request) → Except Raised (Answer request) × Store
  /-- The changes that others make to the store. -/
  changes : Change → Store → Store
  /-- Whether a result leaves work for the background. -/
  leavesWork : Result → Bool

namespace Service

variable (backend : Backend Call Store Choice Change Answer Raised Result)
  (service : Service Call Store Answer Raised Result)

/-- What a handler has been answered, oldest first. -/
def heard (index : Nat) : List (Exchange Answer Raised) :=
  service.log.filterMap fun entry => if entry.1 = index then some entry.2 else none

/-- A call arrives in a process. -/
def started (process : Nat) (call : Call) : Service Call Store Answer Raised Result :=
  { service with
    handlers := service.handlers ++
      [⟨process, call, ((backend.body call).segment ()).1, true, false⟩] }

/-- The store performs an operation for a handler, which runs on with the
answer. -/
def performed (index : Nat) (handler : Handler Call Answer Raised Result) (choice : Choice)
    (request : Request)
    (next : Except Raised (Answer request) → Coroutine Unit Answer Raised Result) :
    Service Call Store Answer Raised Result where
  store := (backend.performs choice service.store request).2
  handlers := service.handlers.set index
    { handler with rest := ((next (backend.performs choice service.store request).1).segment ()).1 }
  log := service.log ++ [(index, ⟨request, (backend.performs choice service.store request).1⟩)]

/-- The background work of a handler runs. -/
def workedOff (index : Nat) (handler : Handler Call Answer Raised Result) :
    Service Call Store Answer Raised Result :=
  { service with handlers := service.handlers.set index { handler with worked := true } }

/-- A process crashes. -/
def crashed (process : Nat) : Service Call Store Answer Raised Result :=
  { service with handlers := service.handlers.map (Handler.afterCrash process) }

/-- One event of a service. -/
def step : Machine (Service Call Store Answer Raised Result) (ServiceEvent Call Choice Change) :=
  fun service event => match event with
    | .start process call => some (service.started backend process call)
    | .perform index choice => match service.handlers[index]? with
        | none => none
        | some handler => match handler.alive, handler.rest with
            | true, .await request next =>
                some (service.performed backend index handler choice request next)
            | _, _ => none
    | .work index => match service.handlers[index]? with
        | none => none
        | some handler => match handler.alive, handler.worked, handler.rest with
            | true, false, .finish (.ok result) =>
                if backend.leavesWork result then some (service.workedOff index handler) else none
            | _, _, _ => none
    | .change change => some { service with store := backend.changes change service.store }
    | .crash process => some (service.crashed process)

/-! ## What a move does -/

variable {backend service}

/-- A handler hears how its operation was performed, -/
theorem heard_performed_self {index : Nat} {handler : Handler Call Answer Raised Result}
    {choice : Choice} {request : Request}
    {next : Except Raised (Answer request) → Coroutine Unit Answer Raised Result} :
    (service.performed backend index handler choice request next).heard index =
      service.heard index ++ [⟨request, (backend.performs choice service.store request).1⟩] := by
  simp [heard, performed, List.filterMap_append]

/-- and nothing of the operations of others. -/
theorem heard_performed_of_ne {index other : Nat} (differs : other ≠ index)
    {handler : Handler Call Answer Raised Result} {choice : Choice} {request : Request}
    {next : Except Raised (Answer request) → Coroutine Unit Answer Raised Result} :
    (service.performed backend index handler choice request next).heard other =
      service.heard other := by
  simp [heard, performed, List.filterMap_append, differs.symm]

/-- **What each event does**, and when it is enabled. -/
theorem step_cases {event : ServiceEvent Call Choice Change}
    {next : Service Call Store Answer Raised Result}
    (moved : step backend service event = some next) :
    (∃ process call, event = .start process call ∧ next = service.started backend process call) ∨
    (∃ index choice handler request rest, event = .perform index choice ∧
      service.handlers[index]? = some handler ∧ handler.alive = true ∧
      handler.rest = .await request rest ∧
      next = service.performed backend index handler choice request rest) ∨
    (∃ index handler result, event = .work index ∧ service.handlers[index]? = some handler ∧
      handler.alive = true ∧ handler.worked = false ∧ handler.rest = .finish (.ok result) ∧
      backend.leavesWork result = true ∧ next = service.workedOff index handler) ∨
    (∃ change, event = .change change ∧
      next = { service with store := backend.changes change service.store }) ∨
    (∃ process, event = .crash process ∧ next = service.crashed process) := by
  cases event with
  | start process call => exact .inl ⟨process, call, rfl, (Option.some.inj moved).symm⟩
  | perform index choice =>
      simp only [step] at moved
      split at moved
      · cases moved
      · rename_i handler found
        split at moved
        · rename_i request rest alive waits
          exact .inr (.inl ⟨index, choice, handler, request, rest, rfl, found, alive, waits,
            (Option.some.inj moved).symm⟩)
        · cases moved
  | work index =>
      simp only [step] at moved
      split at moved
      · cases moved
      · rename_i handler found
        split at moved
        · rename_i result alive worked finished
          split at moved
          · rename_i leaves
            exact .inr (.inr (.inl ⟨index, handler, result, rfl, found, alive, worked, finished,
              leaves, (Option.some.inj moved).symm⟩))
          · cases moved
        · cases moved
  | change change => exact .inr (.inr (.inr (.inl ⟨change, rfl, (Option.some.inj moved).symm⟩)))
  | crash process => exact .inr (.inr (.inr (.inr ⟨process, rfl, (Option.some.inj moved).symm⟩)))

/-- Background work runs once, for a handler that has finished and whose process is up. -/
theorem work_cases {index : Nat} {next : Service Call Store Answer Raised Result}
    (moved : step backend service (.work index) = some next) :
    ∃ handler result, service.handlers[index]? = some handler ∧ handler.alive = true ∧
      handler.worked = false ∧ handler.rest = .finish (.ok result) ∧
      backend.leavesWork result = true ∧ next = service.workedOff index handler := by
  rcases step_cases moved with ⟨_, _, starts, -⟩ | ⟨_, _, _, _, _, performs, -⟩ |
    ⟨_, handler, result, same, works⟩ | ⟨_, changes, -⟩ | ⟨_, crashes, -⟩
  · cases starts
  · cases performs
  · obtain rfl := ServiceEvent.work.inj same
    exact ⟨handler, result, works⟩
  · cases changes
  · cases crashes

/-- **What happens to the store**: nothing, or it performs an operation, or others
change it. -/
theorem store_cases {event : ServiceEvent Call Choice Change}
    {next : Service Call Store Answer Raised Result}
    (moved : step backend service event = some next) :
    (next.store = service.store ∧ next.log = service.log) ∨
    (∃ index choice handler request rest, event = .perform index choice ∧
      service.handlers[index]? = some handler ∧ handler.alive = true ∧
      handler.rest = .await request rest ∧
      next = service.performed backend index handler choice request rest) ∨
    ∃ change, event = .change change ∧
      next = { service with store := backend.changes change service.store } := by
  rcases step_cases moved with ⟨process, call, rfl, rfl⟩ | performs |
    ⟨index, handler, result, rfl, found, alive, -, finished, leaves, rfl⟩ | changes |
    ⟨process, rfl, rfl⟩
  · exact .inl ⟨rfl, rfl⟩
  · exact .inr (.inl performs)
  · exact .inl ⟨rfl, rfl⟩
  · exact .inr (.inr changes)
  · exact .inl ⟨rfl, rfl⟩

/-- **Where a handler comes from**: it was there before with the same call and
nothing else of its body run, or it has just been started, or its operation has
just been performed. -/
theorem handler_cases {event : ServiceEvent Call Choice Change}
    {next : Service Call Store Answer Raised Result}
    (moved : step backend service event = some next) {index : Nat}
    {handler : Handler Call Answer Raised Result} (found : next.handlers[index]? = some handler) :
    (∃ old, service.handlers[index]? = some old ∧ handler.call = old.call ∧
      handler.rest = old.rest ∧ (handler.alive = true → old.alive = true) ∧
      next.heard index = service.heard index) ∨
    (∃ process call, event = .start process call ∧ index = service.handlers.length ∧
      handler = ⟨process, call, ((backend.body call).segment ()).1, true, false⟩ ∧
      next = service.started backend process call) ∨
    (∃ choice old request rest, event = .perform index choice ∧
      service.handlers[index]? = some old ∧ old.alive = true ∧ old.rest = .await request rest ∧
      handler = { old with
        rest := ((rest (backend.performs choice service.store request).1).segment ()).1 } ∧
      next = service.performed backend index old choice request rest) := by
  rcases step_cases moved with ⟨process, call, rfl, rfl⟩ |
    ⟨other, choice, old, request, rest, rfl, foundOld, alive, waits, rfl⟩ |
    ⟨other, old, result, rfl, foundOld, alive, -, finished, leaves, rfl⟩ | ⟨change, rfl, rfl⟩ |
    ⟨process, rfl, rfl⟩
  · rcases Nat.lt_or_ge index service.handlers.length with old | new
    · rw [started, List.getElem?_append_left old] at found
      exact .inl ⟨handler, found, rfl, rfl, id, rfl⟩
    · rw [started, List.getElem?_append_right new, List.getElem?_singleton] at found
      split at found
      · rename_i last
        obtain rfl := Option.some.inj found
        exact .inr (.inl ⟨process, call, rfl, by omega, rfl, rfl⟩)
      · cases found
  · by_cases same : index = other
    · subst same
      obtain ⟨bound, -⟩ := List.getElem?_eq_some_iff.mp foundOld
      rw [performed, List.getElem?_set_self bound] at found
      obtain rfl := Option.some.inj found
      exact .inr (.inr ⟨choice, old, request, rest, rfl, foundOld, alive, waits, rfl, rfl⟩)
    · rw [performed, List.getElem?_set_ne (Ne.symm same)] at found
      exact .inl ⟨handler, found, rfl, rfl, id, heard_performed_of_ne same⟩
  · by_cases same : index = other
    · subst same
      obtain ⟨bound, -⟩ := List.getElem?_eq_some_iff.mp foundOld
      rw [workedOff, List.getElem?_set_self bound] at found
      obtain rfl := Option.some.inj found
      exact .inl ⟨old, foundOld, rfl, rfl, id, rfl⟩
    · rw [workedOff, List.getElem?_set_ne (Ne.symm same)] at found
      exact .inl ⟨handler, found, rfl, rfl, id, rfl⟩
  · exact .inl ⟨handler, found, rfl, rfl, id, rfl⟩
  · rw [crashed, List.getElem?_map] at found
    obtain ⟨old, foundOld, rfl⟩ := Option.map_eq_some_iff.mp found
    exact .inl ⟨old, foundOld, rfl, rfl, fun up => (Bool.and_eq_true_iff.mp up).1, rfl⟩

/-- A handler that has finished stays as it is, but for its background work and
a crash of its process. -/
theorem handler_stays {event : ServiceEvent Call Choice Change}
    {next : Service Call Store Answer Raised Result}
    (moved : step backend service event = some next) {index : Nat}
    {handler : Handler Call Answer Raised Result} {outcome : Except Raised Result}
    (found : service.handlers[index]? = some handler) (finished : handler.rest = .finish outcome) :
    ∃ later, next.handlers[index]? = some later ∧ later.call = handler.call ∧
      later.rest = handler.rest ∧ (handler.worked = true → later.worked = true) ∧
      (handler.alive = true → event ≠ .crash handler.process → later.alive = true) := by
  obtain ⟨bound, -⟩ := List.getElem?_eq_some_iff.mp found
  rcases step_cases moved with ⟨process, call, rfl, rfl⟩ |
    ⟨other, choice, old, request, rest, rfl, foundOld, alive, waits, rfl⟩ |
    ⟨other, old, result, rfl, foundOld, alive, -, finishedOld, leaves, rfl⟩ | ⟨change, rfl, rfl⟩ |
    ⟨process, rfl, rfl⟩
  · exact ⟨handler, (List.getElem?_append_left bound).trans found, rfl, rfl, id, fun up _ => up⟩
  · have differs : other ≠ index := by
      rintro rfl
      obtain rfl := Option.some.inj (found.symm.trans foundOld)
      rw [finished] at waits
      cases waits
    exact ⟨handler, (List.getElem?_set_ne differs).trans found, rfl, rfl, id, fun up _ => up⟩
  · by_cases same : other = index
    · subst same
      obtain rfl := Option.some.inj (found.symm.trans foundOld)
      exact ⟨_, List.getElem?_set_self bound, rfl, rfl, fun _ => rfl, fun up _ => up⟩
    · exact ⟨handler, (List.getElem?_set_ne same).trans found, rfl, rfl, id, fun up _ => up⟩
  · exact ⟨handler, found, rfl, rfl, id, fun up _ => up⟩
  · refine ⟨handler.afterCrash process, by rw [crashed, List.getElem?_map, found]; rfl, rfl, rfl,
      id, ?_⟩
    intro up spared
    have differs : handler.process ≠ process := fun same => spared (congrArg _ same.symm)
    exact Bool.and_eq_true_iff.mpr ⟨up, decide_eq_true differs⟩

/-- A handler stays in its process. -/
theorem process_stays {event : ServiceEvent Call Choice Change}
    {next : Service Call Store Answer Raised Result}
    (moved : step backend service event = some next) {index : Nat}
    {handler later : Handler Call Answer Raised Result}
    (found : service.handlers[index]? = some handler) (foundLater : next.handlers[index]? = some later) :
    later.process = handler.process := by
  obtain ⟨bound, -⟩ := List.getElem?_eq_some_iff.mp found
  have replaced : ∀ (other : Nat) (new old : Handler Call Answer Raised Result),
      service.handlers[other]? = some old → new.process = old.process →
        (service.handlers.set other new)[index]? = some later → later.process = handler.process := by
    intro other new old foundOld same foundLater
    by_cases isIndex : other = index
    · subst isIndex
      rw [List.getElem?_set_self bound] at foundLater
      obtain rfl := Option.some.inj foundLater
      obtain rfl := Option.some.inj (found.symm.trans foundOld)
      exact same
    · rw [List.getElem?_set_ne isIndex, found] at foundLater
      exact congrArg Handler.process (Option.some.inj foundLater).symm
  rcases step_cases moved with ⟨process, call, rfl, rfl⟩ |
    ⟨other, choice, old, request, rest, rfl, foundOld, -, -, rfl⟩ |
    ⟨other, old, result, rfl, foundOld, -, -, -, -, rfl⟩ | ⟨change, rfl, rfl⟩ |
    ⟨process, rfl, rfl⟩
  · rw [started, List.getElem?_append_left bound, found] at foundLater
    exact congrArg Handler.process (Option.some.inj foundLater).symm
  · refine replaced other _ old foundOld ?_ foundLater
    rfl
  · refine replaced other _ old foundOld ?_ foundLater
    rfl
  · rw [found] at foundLater
    exact congrArg Handler.process (Option.some.inj foundLater).symm
  · rw [crashed, List.getElem?_map, found] at foundLater
    obtain rfl := Option.some.inj foundLater
    rfl

/-! ## What holds of every handler -/

/-- The protocol of a handler: when it awaits an operation, what it has heard is
as `waits` says, and the operation is answered in an admitted way. -/
def serving (waits : List (Exchange Answer Raised) → Request → Prop)
    (admits : Exchange Answer Raised → Prop) :
    Protocol Unit Answer Raised (List (Exchange Answer Raised)) where
  leaves := fun _ heard request => waits heard request
  reacts := fun _ heard request answer _ moved =>
    admits ⟨request, answer⟩ ∧ moved = heard ++ [⟨request, answer⟩]

/-- Awaiting an operation. -/
theorem ensures_call_serving {waits : List (Exchange Answer Raised) → Request → Prop}
    {admits : Exchange Answer Raised → Prop} {request : Request}
    {after : Except Raised (Answer request) → Unit → List (Exchange Answer Raised) → Prop}
    {heard : List (Exchange Answer Raised)} :
    (Coroutine.call request : Coroutine Unit Answer Raised (Answer request)).Ensures
        (serving waits admits) after () heard ↔
      waits heard request ∧ ∀ answer, admits ⟨request, answer⟩ →
        after answer () (heard ++ [⟨request, answer⟩]) := by
  refine and_congr_right fun _ => ?_
  constructor
  · intro ensured answer admitted
    exact ensured answer () _ ⟨admitted, rfl⟩
  · rintro held answer _ _ ⟨admitted, rfl⟩
    exact held answer admitted

section Follows

variable {waits : Call → List (Exchange Answer Raised) → Request → Prop}
  {admits : Exchange Answer Raised → Prop}
  {after : Call → Except Raised Result → List (Exchange Answer Raised) → Prop}

/-- What a handler waits for and what it has finished with is as the body of its
call ensures, for what the handler has heard. -/
structure Follows (waits : Call → List (Exchange Answer Raised) → Request → Prop)
    (admits : Exchange Answer Raised → Prop)
    (after : Call → Except Raised Result → List (Exchange Answer Raised) → Prop)
    (service : Service Call Store Answer Raised Result) : Prop where
  logged : ∀ entry ∈ service.log, entry.1 < service.handlers.length
  settled : ∀ (index : Nat) (handler : Handler Call Answer Raised Result),
    service.handlers[index]? = some handler →
      (∃ outcome, handler.rest = .finish outcome) ∨
        ∃ request next, handler.rest = .await request next
  ensured : ∀ (index : Nat) (handler : Handler Call Answer Raised Result),
    service.handlers[index]? = some handler →
      handler.rest.Ensures (serving (waits handler.call) admits)
        (fun outcome _ heard => after handler.call outcome heard) () (service.heard index)

/-- What a handler has finished with. -/
theorem Follows.finished (follows : Follows waits admits after service) {index : Nat}
    {handler : Handler Call Answer Raised Result} {outcome : Except Raised Result}
    (found : service.handlers[index]? = some handler) (finished : handler.rest = .finish outcome) :
    after handler.call outcome (service.heard index) := by
  have ensured := follows.ensured index handler found
  rwa [finished] at ensured

/-- What a handler has heard where it waits. -/
theorem Follows.waiting (follows : Follows waits admits after service) {index : Nat}
    {handler : Handler Call Answer Raised Result} {request : Request}
    (found : service.handlers[index]? = some handler) (asks : handler.request? = some request) :
    waits handler.call (service.heard index) request := by
  have ensured := follows.ensured index handler found
  obtain ⟨next, waiting⟩ := Handler.request?_eq_some_iff.mp asks
  rw [waiting] at ensured
  exact ensured.1

/-- A handler that was not started has heard nothing. -/
theorem Follows.heard_length (follows : Follows waits admits after service) :
    service.heard service.handlers.length = [] := by
  refine List.filterMap_eq_nil_iff.mpr fun entry member => if_neg ?_
  exact Nat.ne_of_lt (follows.logged entry member)

/-- **What a handler has just heard**: it heard it before the move, where it stood
as it stands now, or the move has performed the operation it waited for. -/
theorem Follows.hears_cases {backend : Backend Call Store Choice Change Answer Raised Result}
    (follows : Follows waits admits after service) {event : ServiceEvent Call Choice Change}
    {next : Service Call Store Answer Raised Result}
    (moved : step backend service event = some next) {index : Nat}
    {handler : Handler Call Answer Raised Result} (found : next.handlers[index]? = some handler)
    {earlier : List (Exchange Answer Raised)} {exchange : Exchange Answer Raised}
    (hears : next.heard index = earlier ++ [exchange]) :
    (∃ old ∈ service.handlers, service.handlers[index]? = some old ∧ handler.call = old.call ∧
      handler.rest = old.rest ∧ (handler.alive = true → old.alive = true)) ∨
    ∃ choice, ∃ old ∈ service.handlers, event = .perform index choice ∧ old.alive = true ∧
      old.call = handler.call ∧ old.request? = some exchange.request ∧
      exchange.answer = (backend.performs choice service.store exchange.request).1 := by
  rcases handler_cases moved found with ⟨old, foundOld, call, rest, alive, -⟩ |
    ⟨process, call, rfl, rfl, rfl, rfl⟩ |
    ⟨choice, old, request, rest, rfl, foundOld, up, waiting, rfl, rfl⟩
  · exact .inl ⟨old, List.mem_of_getElem? foundOld, foundOld, call, rest, alive⟩
  · have nothing : (service.started backend process call).heard service.handlers.length = [] :=
      follows.heard_length
    rw [nothing] at hears
    exact absurd hears.symm (List.append_ne_nil_of_right_ne_nil _ (List.cons_ne_nil _ _))
  · rw [heard_performed_self] at hears
    obtain rfl := List.singleton_inj.mp (List.append_inj' hears rfl).2
    exact .inr ⟨choice, old, List.mem_of_getElem? foundOld, rfl, up, rfl,
      Handler.request?_eq_some_iff.mpr ⟨rest, waiting⟩, rfl⟩

/-- Whoever has heard something was started. -/
theorem Follows.exists_of_heard (follows : Follows waits admits after service) {index : Nat}
    {exchange : Exchange Answer Raised} (hears : exchange ∈ service.heard index) :
    ∃ handler, service.handlers[index]? = some handler := by
  obtain ⟨⟨owner, other⟩, logged, kept⟩ := List.mem_filterMap.mp hears
  split at kept
  · rename_i same
    obtain rfl : owner = index := same
    exact ⟨_, List.getElem?_eq_getElem (follows.logged _ logged)⟩
  · cases kept

variable
  (ensures : ∀ call, (backend.body call).Ensures (serving (waits call) admits)
    (fun outcome _ heard => after call outcome heard) () [])
  (admitted : ∀ choice store request, admits ⟨request, (backend.performs choice store request).1⟩)
include ensures admitted

/-- Every event of a service keeps its handlers to what their bodies ensure. -/
theorem follows_step (event : ServiceEvent Call Choice Change)
    (next : Service Call Store Answer Raised Result) (follows : Follows waits admits after service)
    (moved : step backend service event = some next) : Follows waits admits after next := by
  refine ⟨?_, ?_, ?_⟩
  · rcases step_cases moved with ⟨process, call, rfl, rfl⟩ |
      ⟨index, choice, handler, request, rest, rfl, found, alive, waits, rfl⟩ |
      ⟨index, handler, result, rfl, found, alive, -, finished, leaves, rfl⟩ | ⟨change, rfl, rfl⟩ |
      ⟨process, rfl, rfl⟩
    · intro entry member
      rw [started, List.length_append]
      exact Nat.lt_add_right 1 (follows.logged entry member)
    · intro entry member
      rw [performed, List.length_set]
      rcases List.mem_append.mp member with old | new
      · exact follows.logged entry old
      · obtain rfl := List.mem_singleton.mp new
        exact (List.getElem?_eq_some_iff.mp found).1
    · simpa [workedOff] using follows.logged
    · exact follows.logged
    · simpa [crashed] using follows.logged
  · intro index handler found
    rcases handler_cases moved found with ⟨old, foundOld, -, rest, -⟩ |
      ⟨process, call, -, -, rfl, -⟩ | ⟨choice, old, request, rest, -, -, -, -, rfl, -⟩
    · rw [rest]
      exact follows.settled index old foundOld
    · exact segment_cases _ _
    · exact segment_cases _ _
  · intro index handler found
    rcases handler_cases moved found with ⟨old, foundOld, call, rest, -, heard⟩ |
      ⟨process, call, -, rfl, rfl, rfl⟩ |
      ⟨choice, old, request, rest, -, foundOld, -, waits, rfl, rfl⟩
    · rw [call, rest, heard]
      exact follows.ensured index old foundOld
    · have nothing := follows.heard_length
      rw [started]
      unfold heard at nothing ⊢
      rw [nothing]
      exact (ensures call).segment
    · have ensured := follows.ensured index old foundOld
      rw [waits] at ensured
      rw [heard_performed_self]
      exact (ensured.2 _ () _ ⟨admitted _ _ _, rfl⟩).segment

/-- **The rule of services**: in every state visited, every handler is where its
body may be, for what it has heard. -/
theorem forall_visits_follows (store : Store) (events : List (ServiceEvent Call Choice Change)) :
    ∀ service ∈ (step backend).visits ⟨store, [], []⟩ events,
      Follows waits admits after service :=
  Machine.forall_visits
    (fun _ event next follows moved => follows_step ensures admitted event next follows moved)
    ⟨by simp, by simp, by simp⟩ events

end Follows

end Service

end Foundations
