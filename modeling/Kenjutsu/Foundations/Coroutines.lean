import Mathlib.Data.Option.Basic

/-!
# Coroutines and what they ensure

An asynchronous function is a coroutine: it finishes with a result or an
exception, reads and writes state that other coroutines share, and awaits
requests. Between two awaits it runs without interruption; an await is where
others may run, and where the awaited request is answered or raises.

`Ensures` is the weakest precondition of a coroutine. It is stated for a
`Protocol`, which says what must hold when the coroutine suspends and how the
rest of the world may have moved when it resumes, so one set of rules serves
coroutines that interleave and coroutines that run alone against a server.
-/

set_option autoImplicit false

namespace Foundations

/-- A coroutine over the shared state, the requests it may await with the type
of answer of each, the exceptions and the result. -/
inductive Coroutine (Shared : Type) {Request : Type} (Answer : Request → Type) (Raised : Type)
    (Result : Type) : Type where
  | finish (outcome : Except Raised Result)
  | read (next : Shared → Coroutine Shared Answer Raised Result)
  | write (shared : Shared) (next : Coroutine Shared Answer Raised Result)
  | await (request : Request)
      (next : Except Raised (Answer request) → Coroutine Shared Answer Raised Result)

/-- A request together with how it was answered. -/
structure Exchange {Request : Type} (Answer : Request → Type) (Raised : Type) where
  request : Request
  answer : Except Raised (Answer request)

namespace Coroutine

variable {Shared Request Raised Result Value : Type} {Answer : Request → Type}

/-! ## The language -/

/-- Run a coroutine and continue with its outcome, whether a result or an
exception. -/
def continueWith : Coroutine Shared Answer Raised Result →
    (Except Raised Result → Coroutine Shared Answer Raised Value) →
    Coroutine Shared Answer Raised Value
  | .finish outcome, next => next outcome
  | .read body, next => .read fun shared => (body shared).continueWith next
  | .write shared body, next => .write shared (body.continueWith next)
  | .await request body, next => .await request fun answer => (body answer).continueWith next

/-- Sequencing: an exception ends the whole. -/
def bind (body : Coroutine Shared Answer Raised Result)
    (next : Result → Coroutine Shared Answer Raised Value) :
    Coroutine Shared Answer Raised Value :=
  body.continueWith fun
    | .ok result => next result
    | .error raised => .finish (.error raised)

instance : Monad (Coroutine Shared Answer Raised) where
  pure result := .finish (.ok result)
  bind := bind

/-- `raise`. -/
def raise (raised : Raised) : Coroutine Shared Answer Raised Result := .finish (.error raised)

/-- The shared state as it is now. -/
def get : Coroutine Shared Answer Raised Shared := .read fun shared => .finish (.ok shared)

/-- Change the shared state. -/
def modify (change : Shared → Shared) : Coroutine Shared Answer Raised Unit :=
  .read fun shared => .write (change shared) (.finish (.ok ()))

/-- `await` of one request; an exception it is answered with is raised. -/
def call (request : Request) : Coroutine Shared Answer Raised (Answer request) :=
  .await request .finish

/-- A computation that may raise and touches nothing. -/
def ofExcept (outcome : Except Raised Result) : Coroutine Shared Answer Raised Result :=
  .finish outcome

theorem ofExcept_ok_bind (result : Result)
    (next : Result → Coroutine Shared Answer Raised Value) :
    (ofExcept (.ok result) : Coroutine Shared Answer Raised Result) >>= next = next result := rfl

theorem ofExcept_error_bind (raised : Raised)
    (next : Result → Coroutine Shared Answer Raised Value) :
    (ofExcept (.error raised) : Coroutine Shared Answer Raised Result) >>= next =
      .finish (.error raised) := rfl

/-- `try` with an `except` clause for some of the exceptions. -/
def tryExcept (body : Coroutine Shared Answer Raised Result) (catches : Raised → Bool)
    (handler : Raised → Coroutine Shared Answer Raised Result) :
    Coroutine Shared Answer Raised Result :=
  body.continueWith fun
    | .ok result => .finish (.ok result)
    | .error raised => if catches raised then handler raised else raise raised

/-- `try` with a `finally` clause: the clean-up runs on every way out, and the
outcome is kept unless the clean-up raises. -/
def tryFinally (body : Coroutine Shared Answer Raised Result)
    (cleanUp : Coroutine Shared Answer Raised Unit) : Coroutine Shared Answer Raised Result :=
  body.continueWith fun outcome => cleanUp.bind fun _ => .finish outcome

/-! ## What a coroutine ensures -/

/-- What is agreed between a coroutine and the rest of the world: what it leaves
when it suspends on a request, and where the shared state and the world may be
when the answer is there. -/
structure Protocol (Shared : Type) {Request : Type} (Answer : Request → Type) (Raised World : Type)
    where
  leaves : Shared → World → Request → Prop
  reacts : Shared → World → (request : Request) → Except Raised (Answer request) →
    Shared → World → Prop

variable {World : Type} (protocol : Protocol Shared Answer Raised World)

/-- **The weakest precondition.** Started in the given state, the coroutine keeps
the protocol at each await, and `after` holds of its outcome. -/
def Ensures (after : Except Raised Result → Shared → World → Prop) :
    Coroutine Shared Answer Raised Result → Shared → World → Prop
  | .finish outcome, shared, world => after outcome shared world
  | .read next, shared, world => (next shared).Ensures after shared world
  | .write written next, _, world => next.Ensures after written world
  | .await request next, shared, world => protocol.leaves shared world request ∧
      ∀ answer resumed moved, protocol.reacts shared world request answer resumed moved →
        (next answer).Ensures after resumed moved

variable {protocol} {after : Except Raised Result → Shared → World → Prop}
  {shared : Shared} {world : World}

/-- Consequence. -/
theorem Ensures.mono {weaker : Except Raised Result → Shared → World → Prop}
    {body : Coroutine Shared Answer Raised Result}
    (ensured : body.Ensures protocol after shared world)
    (weaken : ∀ outcome shared world, after outcome shared world → weaker outcome shared world) :
    body.Ensures protocol weaker shared world := by
  induction body generalizing shared world with
  | finish outcome => exact weaken _ _ _ ensured
  | read next ih => exact ih shared ensured
  | write written next ih => exact ih ensured
  | await request next ih =>
      refine ⟨ensured.1, ?_⟩
      intro answer resumed moved reaction
      exact ih answer (ensured.2 answer resumed moved reaction)

/-- Two things that are ensured hold together at the end of some run, if the rest of the
world always reacts in some way. -/
theorem Ensures.exists_and {other : Except Raised Result → Shared → World → Prop}
    {body : Coroutine Shared Answer Raised Result}
    (always : ∀ shared world request, ∃ answer resumed moved,
      protocol.reacts shared world request answer resumed moved)
    (ensured : body.Ensures protocol after shared world)
    (otherEnsured : body.Ensures protocol other shared world) :
    ∃ outcome resumed moved, after outcome resumed moved ∧ other outcome resumed moved := by
  induction body generalizing shared world with
  | finish outcome => exact ⟨outcome, shared, world, ensured, otherEnsured⟩
  | read next ih => exact ih shared ensured otherEnsured
  | write written next ih => exact ih ensured otherEnsured
  | await request next ih =>
      obtain ⟨answer, resumed, moved, reaction⟩ := always shared world request
      exact ih answer (ensured.2 answer resumed moved reaction)
        (otherEnsured.2 answer resumed moved reaction)

/-- **The rule of sequencing**, for every way of continuing. -/
theorem ensures_continueWith {after : Except Raised Value → Shared → World → Prop}
    {body : Coroutine Shared Answer Raised Result}
    {next : Except Raised Result → Coroutine Shared Answer Raised Value} :
    (body.continueWith next).Ensures protocol after shared world ↔
      body.Ensures protocol (fun outcome => (next outcome).Ensures protocol after)
        shared world := by
  induction body generalizing shared world with
  | finish outcome => rfl
  | read body ih => exact ih shared
  | write written body ih => exact ih
  | await request body ih =>
      refine and_congr_right fun _ => ?_
      refine forall_congr' fun answer => forall_congr' fun resumed => forall_congr' fun moved => ?_
      exact imp_congr_right fun _ => ih answer

/-- A property of the outcome, given for a result and for an exception. -/
def onOutcome (ok : Result → Shared → World → Prop) (error : Raised → Shared → World → Prop) :
    Except Raised Result → Shared → World → Prop
  | .ok result => ok result
  | .error raised => error raised

@[simp] theorem onOutcome_ok {ok : Result → Shared → World → Prop}
    {error : Raised → Shared → World → Prop} {result : Result} :
    onOutcome ok error (.ok result) = ok result := rfl

@[simp] theorem onOutcome_error {ok : Result → Shared → World → Prop}
    {error : Raised → Shared → World → Prop} {raised : Raised} :
    onOutcome ok error (.error raised) = error raised := rfl

/-- What always holds is ensured, if the protocol asks for nothing. -/
theorem ensures_of_forall (asksNothing : ∀ shared world request,
      protocol.leaves shared world request)
    (always : ∀ outcome shared world, after outcome shared world)
    (body : Coroutine Shared Answer Raised Result) :
    body.Ensures protocol after shared world := by
  induction body generalizing shared world with
  | finish outcome => exact always _ _ _
  | read next ih => exact ih shared
  | write written next ih => exact ih
  | await request next ih => exact ⟨asksNothing _ _ _, fun answer _ _ _ => ih answer⟩

@[simp] theorem ensures_finish {outcome : Except Raised Result} :
    (finish outcome : Coroutine Shared Answer Raised Result).Ensures protocol after shared world ↔
      after outcome shared world := Iff.rfl

@[simp] theorem ensures_pure {result : Result} :
    (pure result : Coroutine Shared Answer Raised Result).Ensures protocol after shared world ↔
      after (.ok result) shared world := Iff.rfl

@[simp] theorem ensures_raise {raised : Raised} :
    (raise raised : Coroutine Shared Answer Raised Result).Ensures protocol after shared world ↔
      after (.error raised) shared world := Iff.rfl

@[simp] theorem ensures_ofExcept {outcome : Except Raised Result} :
    (ofExcept outcome : Coroutine Shared Answer Raised Result).Ensures protocol after
      shared world ↔ after outcome shared world := Iff.rfl

@[simp] theorem ensures_get {after : Except Raised Shared → Shared → World → Prop} :
    (get : Coroutine Shared Answer Raised Shared).Ensures protocol after shared world ↔
      after (.ok shared) shared world := Iff.rfl

@[simp] theorem ensures_modify {after : Except Raised Unit → Shared → World → Prop}
    {change : Shared → Shared} :
    (modify change : Coroutine Shared Answer Raised Unit).Ensures protocol after shared world ↔
      after (.ok ()) (change shared) world := Iff.rfl

theorem ensures_call {request : Request}
    {after : Except Raised (Answer request) → Shared → World → Prop} :
    (call request : Coroutine Shared Answer Raised (Answer request)).Ensures protocol after
        shared world ↔
      protocol.leaves shared world request ∧
        ∀ answer resumed moved, protocol.reacts shared world request answer resumed moved →
          after answer resumed moved := Iff.rfl

@[simp] theorem ensures_bind {after : Except Raised Value → Shared → World → Prop}
    {body : Coroutine Shared Answer Raised Result}
    {next : Result → Coroutine Shared Answer Raised Value} :
    (body >>= next).Ensures protocol after shared world ↔
      body.Ensures protocol (onOutcome (fun result => (next result).Ensures protocol after)
        fun raised => after (.error raised)) shared world := by
  apply ensures_continueWith.trans
  constructor <;> refine fun ensured => ensured.mono ?_ <;> rintro (raised | result) _ _ held <;>
    exact held

theorem ensures_tryExcept {body : Coroutine Shared Answer Raised Result}
    {catches : Raised → Bool} {handler : Raised → Coroutine Shared Answer Raised Result} :
    (body.tryExcept catches handler).Ensures protocol after shared world ↔
      body.Ensures protocol (onOutcome (fun result => after (.ok result)) fun raised =>
        (if catches raised then handler raised else raise raised).Ensures protocol after)
        shared world := by
  apply ensures_continueWith.trans
  constructor <;> refine fun ensured => ensured.mono ?_ <;> rintro (raised | result) _ _ held <;>
    exact held

theorem ensures_tryFinally {body : Coroutine Shared Answer Raised Result}
    {cleanUp : Coroutine Shared Answer Raised Unit} :
    (body.tryFinally cleanUp).Ensures protocol after shared world ↔
      body.Ensures protocol (fun outcome => cleanUp.Ensures protocol
        (onOutcome (fun _ => after outcome) fun raised => after (.error raised)))
        shared world := by
  apply ensures_continueWith.trans
  have cleaned : ∀ outcome : Except Raised Result, ∀ shared world,
      (cleanUp >>= fun _ => finish outcome).Ensures protocol after shared world ↔
        cleanUp.Ensures protocol
          (onOutcome (fun _ => after outcome) fun raised => after (.error raised))
          shared world := fun _ _ _ => ensures_bind
  constructor
  · intro ensured
    exact ensured.mono fun outcome shared world held => (cleaned outcome shared world).mp held
  · intro ensured
    exact ensured.mono fun outcome shared world held => (cleaned outcome shared world).mpr held

/-! ## Segments -/

/-- Run a coroutine up to its next await, or to its end. -/
def segment : Coroutine Shared Answer Raised Result → Shared →
    Coroutine Shared Answer Raised Result × Shared
  | .finish outcome, shared => (.finish outcome, shared)
  | .read next, shared => (next shared).segment shared
  | .write written next, _ => next.segment written
  | .await request next, shared => (.await request next, shared)

/-- A segment is part of the coroutine: what is ensured before it is ensured
after it. -/
theorem Ensures.segment {World : Type} {protocol : Protocol Shared Answer Raised World}
    {after : Except Raised Result → Shared → World → Prop} {world : World}
    {body : Coroutine Shared Answer Raised Result} {shared : Shared}
    (ensured : body.Ensures protocol after shared world) :
    (body.segment shared).1.Ensures protocol after (body.segment shared).2 world := by
  induction body generalizing shared with
  | finish outcome => exact ensured
  | read next ih => exact ih shared ensured
  | write written next ih => exact ih ensured
  | await request next ih => exact ensured

@[simp] theorem segment_get {shared : Shared} :
    (get : Coroutine Shared Answer Raised Shared).segment shared =
      (.finish (.ok shared), shared) := rfl

/-- A body that finishes before its first await hands over to what follows. -/
theorem segment_bind {body : Coroutine Shared Answer Raised Result}
    {next : Result → Coroutine Shared Answer Raised Value} {shared moved : Shared}
    {result : Result} (ended : body.segment shared = (.finish (.ok result), moved)) :
    (body >>= next).segment shared = (next result).segment moved := by
  induction body generalizing shared with
  | finish outcome =>
      cases ended
      rfl
  | read body ih => exact ih shared ended
  | write written body ih => exact ih ended
  | await request body ih => cases ended

/-- A segment ends at the end of the coroutine or at an await. -/
theorem segment_cases (body : Coroutine Shared Answer Raised Result) (shared : Shared) :
    (∃ outcome, (body.segment shared).1 = .finish outcome) ∨
      ∃ request next, (body.segment shared).1 = .await request next := by
  induction body generalizing shared with
  | finish outcome => exact .inl ⟨outcome, rfl⟩
  | read next ih => exact ih shared shared
  | write written next ih => exact ih written
  | await request next ih => exact .inr ⟨request, next, rfl⟩

/-! ## First reads -/

/-- What is left of a coroutine after what it reads before anything else. -/
def afterReads : Coroutine Shared Answer Raised Result → Shared →
    Coroutine Shared Answer Raised Result
  | .read next, shared => (next shared).afterReads shared
  | body, _ => body

/-- A body that only reads hands over what it finishes with. -/
theorem afterReads_continueWith {body : Coroutine Shared Answer Raised Result}
    {next : Except Raised Result → Coroutine Shared Answer Raised Value} {shared : Shared}
    {outcome : Except Raised Result} (ended : body.afterReads shared = .finish outcome) :
    (body.continueWith next).afterReads shared = (next outcome).afterReads shared := by
  induction body with
  | finish outcome =>
      obtain rfl := Coroutine.finish.inj ended
      rfl
  | read body ih => exact ih shared ended
  | write written body ih => cases ended
  | await request body ih => cases ended

end Coroutine

end Foundations
