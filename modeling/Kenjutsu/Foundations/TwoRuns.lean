import Kenjutsu.Foundations.Transcripts

/-!
# Two runs in step

Two coroutines run in step when no observer of their requests can tell them
apart: as long as the answers look the same, the requests do, and both end in the
same way. Between two awaits each computes on its own; the shared states of the
two runs are related when they end.

Coroutines in step leave the same traces against every server that does not see
more than the observer does (`InStep.same_runs`). The rules follow the language,
so a proof goes through two programs side by side.
-/

set_option autoImplicit false

namespace Foundations.Coroutine

variable {Shared Request Raised Result Value Server Asked Seen : Type} {Answer : Request → Type}

/-- What is observed of a request, and of a request with its answer. -/
structure Observer {Request : Type} (Answer : Request → Type) (Raised Asked Seen : Type) where
  asks : Request → Asked
  sees : Exchange Answer Raised → Seen

/-- The two outcomes are related results, or the same exception. -/
def Agree (results : Result → Result → Prop) :
    Except Raised Result → Except Raised Result → Prop
  | .ok first, .ok second => results first second
  | .error first, .error second => first = second
  | _, _ => False

theorem agree_refl {results : Result → Result → Prop} (refl : ∀ result, results result result)
    (outcome : Except Raised Result) : Agree results outcome outcome := by
  cases outcome with
  | ok result => exact refl result
  | error raised => rfl

theorem eq_of_agree {first second : Except Raised Result} (agree : Agree Eq first second) :
    first = second := by
  match first, second, agree with
  | .ok _, .ok _, same => exact congrArg Except.ok same
  | .error _, .error _, same => exact congrArg Except.error same

variable (observer : Observer Answer Raised Asked Seen) (states : Shared → Shared → Prop)

/-- **Two coroutines in step**, each from its shared state. -/
inductive InStep (results : Result → Result → Prop) :
    Coroutine Shared Answer Raised Result → Shared →
      Coroutine Shared Answer Raised Result → Shared → Prop
  | finish {first second : Except Raised Result} {left right : Shared}
      (agree : Agree results first second) (related : states left right) :
      InStep results (.finish first) left (.finish second) right
  | readLeft {next : Shared → Coroutine Shared Answer Raised Result}
      {second : Coroutine Shared Answer Raised Result} {left right : Shared}
      (rest : InStep results (next left) left second right) :
      InStep results (.read next) left second right
  | readRight {first : Coroutine Shared Answer Raised Result}
      {next : Shared → Coroutine Shared Answer Raised Result} {left right : Shared}
      (rest : InStep results first left (next right) right) :
      InStep results first left (.read next) right
  | writeLeft {next second : Coroutine Shared Answer Raised Result} {left right written : Shared}
      (rest : InStep results next written second right) :
      InStep results (.write written next) left second right
  | writeRight {first next : Coroutine Shared Answer Raised Result} {left right written : Shared}
      (rest : InStep results first left next written) :
      InStep results first left (.write written next) right
  | await {request other : Request}
      {first : Except Raised (Answer request) → Coroutine Shared Answer Raised Result}
      {second : Except Raised (Answer other) → Coroutine Shared Answer Raised Result}
      {left right : Shared} (sameRequest : observer.asks request = observer.asks other)
      (rest : ∀ answer reply, observer.sees ⟨request, answer⟩ = observer.sees ⟨other, reply⟩ →
        InStep results (first answer) left (second reply) right) :
      InStep results (.await request first) left (.await other second) right

variable {observer states} {results : Result → Result → Prop} {left right : Shared}

/-! ## The rules -/

theorem inStep_pure {first second : Result} (same : results first second)
    (related : states left right) :
    InStep observer states results (pure first) left (pure second) right :=
  .finish same related

theorem inStep_ofExcept {first second : Except Raised Result} (agree : Agree results first second)
    (related : states left right) :
    InStep observer states results (ofExcept first) left (ofExcept second) right :=
  .finish agree related

/-- Both change their shared state, and the states stay related. -/
theorem inStep_modify {change other : Shared → Shared}
    (related : states (change left) (other right)) :
    InStep observer states Eq (modify change) left (modify other) right :=
  .readLeft (.readRight (.writeLeft (.writeRight (.finish rfl related))))

/-- **The rule of sequencing.** -/
theorem InStep.bind {first second : Coroutine Shared Answer Raised Result}
    {next other : Result → Coroutine Shared Answer Raised Value}
    {values : Value → Value → Prop}
    (start : InStep observer states results first left second right)
    (goesOn : ∀ result reply left right, results result reply → states left right →
      InStep observer states values (next result) left (other reply) right) :
    InStep observer states values (first >>= next) left (second >>= other) right := by
  induction start with
  | finish agree related =>
      rename_i outcome reply left right
      match outcome, reply, agree with
      | .ok result, .ok reply, same => exact goesOn result reply left right same related
      | .error _, .error _, same => exact .finish same related
  | readLeft _ ih => exact .readLeft ih
  | readRight _ ih => exact .readRight ih
  | writeLeft _ ih => exact .writeLeft ih
  | writeRight _ ih => exact .writeRight ih
  | await sameRequest _ ih => exact .await sameRequest ih

theorem inStep_of_afterReads_left {first second : Coroutine Shared Answer Raised Result}
    (rest : InStep observer states results (first.afterReads left) left second right) :
    InStep observer states results first left second right := by
  induction first with
  | read next ih => exact .readLeft (ih left rest)
  | _ => exact rest

theorem inStep_of_afterReads_right {first second : Coroutine Shared Answer Raised Result}
    (rest : InStep observer states results first left (second.afterReads right) right) :
    InStep observer states results first left second right := by
  induction second with
  | read next ih => exact .readRight (ih right rest)
  | _ => exact rest

/-- What is read first can be read beforehand. -/
theorem inStep_of_afterReads {first second : Coroutine Shared Answer Raised Result}
    (rest : InStep observer states results (first.afterReads left) left
      (second.afterReads right) right) :
    InStep observer states results first left second right :=
  inStep_of_afterReads_left (inStep_of_afterReads_right rest)

/-! ## What an observer sees -/

/-- A server that does not see more of a request than the observer. -/
def AnswersAlike (observer : Observer Answer Raised Asked Seen)
    (respond : Server → (request : Request) → Except Raised (Answer request) × Server) : Prop :=
  ∀ server request other, observer.asks request = observer.asks other →
    observer.sees ⟨request, (respond server request).1⟩ =
        observer.sees ⟨other, (respond server other).1⟩ ∧
      (respond server request).2 = (respond server other).2

/-- **Coroutines in step leave the same trace**, and end in the same way. -/
theorem InStep.same_runs
    {respond : Server → (request : Request) → Except Raised (Answer request) × Server}
    (alike : AnswersAlike observer respond)
    {first second : Coroutine Shared Answer Raised Result}
    (inStep : InStep observer states results first left second right) (server : Server) :
    (first.transcript respond left server).map observer.sees =
        (second.transcript respond right server).map observer.sees ∧
      Agree results (first.serve respond left server).1 (second.serve respond right server).1 ∧
      states (first.serve respond left server).2.1 (second.serve respond right server).2.1 := by
  induction inStep generalizing server with
  | finish agree related => exact ⟨rfl, agree, related⟩
  | readLeft _ ih => exact ih server
  | readRight _ ih => exact ih server
  | writeLeft _ ih => exact ih server
  | writeRight _ ih => exact ih server
  | @await request other first second left right sameRequest _ ih =>
      obtain ⟨sameSeen, sameServer⟩ := alike server request other sameRequest
      obtain ⟨trace, ends⟩ := ih _ _ sameSeen (respond server request).2
      simp only [transcript, journal, serve, List.filterMap_cons, Happening.exchange?,
        List.map_cons] at trace ⊢
      rw [sameSeen, trace, sameServer]
      rw [sameServer] at ends
      exact ⟨rfl, ends⟩

end Foundations.Coroutine
