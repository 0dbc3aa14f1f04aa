import Kenjutsu.Foundations.TwoRuns

/-!
# Judgements that follow the language

What a coroutine ensures, what it asks for and which other coroutine it runs in step with are all
shown by going through it. A judgement says what holds before two coroutines and what holds of
their result after them; it follows the language if it has the rules of a result, of sequencing
and of consequence. What is shown of a program for every judgement, from what the judgement says
of the program's calls, is shown once.
-/

set_option autoImplicit false

namespace Foundations.Coroutine

/-- A judgement on pairs of coroutines that follows the language. -/
structure Judgement (Shared : Type) {Request : Type} (Answer : Request → Type)
    (Raised State : Type) where
  judges : {Result : Type} → (State → Prop) → Coroutine Shared Answer Raised Result →
    Coroutine Shared Answer Raised Result → (Result → State → Prop) → Prop
  returning : ∀ {Result : Type} (result : Result) {before : State → Prop}
    {after : Result → State → Prop}, (∀ state, before state → after result state) →
      judges before (pure result) (pure result) after
  sequence : ∀ {Result Value : Type} {before : State → Prop}
    {body other : Coroutine Shared Answer Raised Result} {middle : Result → State → Prop}
    {next follow : Result → Coroutine Shared Answer Raised Value} {after : Value → State → Prop},
      judges before body other middle →
        (∀ result, judges (middle result) (next result) (follow result) after) →
          judges before (body >>= next) (other >>= follow) after
  consequence : ∀ {Result : Type} {before stronger : State → Prop}
    {body other : Coroutine Shared Answer Raised Result} {after : Result → State → Prop},
      judges before body other after → (∀ state, stronger state → before state) →
        judges stronger body other after

variable {Shared Request Raised World Asked Seen : Type} {Answer : Request → Type}

/-- What the first one ensures, with what is to hold where it raises. -/
def Judgement.ensuring (protocol : Protocol Shared Answer Raised World)
    (fails : Raised → Shared → World → Prop) :
    Judgement Shared Answer Raised (Shared × World) where
  judges before body _ after := ∀ shared world, before (shared, world) →
    body.Ensures protocol
      (onOutcome (fun result shared world => after result (shared, world)) fails) shared world
  returning _ _ _ holds shared world held := holds (shared, world) held
  sequence first rest shared world held := by
    refine ensures_bind.mpr ((first shared world held).mono ?_)
    rintro (raised | result) shared world held
    · exact held
    · exact rest result shared world held
  consequence judged implies shared world held := judged shared world (implies _ held)

/-- A property of the first one that a result has and that sequencing keeps. -/
def Judgement.closed (holds : {Result : Type} → Coroutine Shared Answer Raised Result → Prop)
    (ofPure : ∀ {Result : Type} (result : Result),
      holds (pure result : Coroutine Shared Answer Raised Result))
    (ofBind : ∀ {Result Value : Type} {body : Coroutine Shared Answer Raised Result}
      {next : Result → Coroutine Shared Answer Raised Value},
        holds body → (∀ result, holds (next result)) → holds (body >>= next)) :
    Judgement Shared Answer Raised Unit where
  judges _ body _ _ := holds body
  returning result _ _ _ := ofPure result
  sequence := ofBind
  consequence judged _ := judged

/-- That they run in step, from related states to the same result. -/
def Judgement.inStep (observer : Observer Answer Raised Asked Seen)
    (states : Shared → Shared → Prop) :
    Judgement Shared Answer Raised Unit where
  judges _ body other _ := ∀ left right, states left right →
    InStep observer states Eq body left other right
  returning _ _ _ _ _ _ related := inStep_pure rfl related
  sequence first rest left right related := by
    refine (first left right related).bind ?_
    rintro result _ left right rfl related
    exact rest result left right related
  consequence judged _ := judged

end Foundations.Coroutine
