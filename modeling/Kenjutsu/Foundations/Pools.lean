import Kenjutsu.Foundations.Runs
import Kenjutsu.Foundations.Coroutines

/-!
# Pools of interleaved coroutines

Any number of coroutines run concurrently over one shared state. A coroutine
runs from one await to the next without interruption; which of the waiting
coroutines is answered next, and with what, is the environment's choice, and so
is any drift of the shared state that no coroutine causes (a clock).

The pool keeps what every coroutine has heard so far, and the log of everything
any of them was answered. A proof about a pool is a proof about one coroutine
at a time: `Pool.forall_threads` turns what each body ensures under the
protocol of the pool into what holds in every state of every run.
-/

set_option autoImplicit false

namespace Foundations

open Coroutine

variable {Call Drift Shared Request Raised Result : Type} {Answer : Request → Type}

/-- A coroutine started for a call, what it has been answered, oldest first, and
what is left of it. -/
structure Thread (Call Shared : Type) {Request : Type} (Answer : Request → Type)
    (Raised Result : Type) where
  call : Call
  heard : List (Exchange Answer Raised)
  rest : Coroutine Shared Answer Raised Result

/-- The shared state, everything answered so far, and the coroutines in the
order they were started. -/
structure Pool (Call Shared : Type) {Request : Type} (Answer : Request → Type)
    (Raised Result : Type) where
  shared : Shared
  log : List (Exchange Answer Raised)
  threads : List (Thread Call Shared Answer Raised Result)

/-- What can happen in a pool. -/
inductive PoolEvent (Call Drift : Type) {Request : Type} (Answer : Request → Type)
    (Raised : Type) where
  | start (call : Call)
  | answer (thread : Nat) (respond : (request : Request) → Except Raised (Answer request))
  | drift (drift : Drift)

namespace Pool

/-- One event of a pool whose calls have the given bodies. -/
def step (body : Call → Coroutine Shared Answer Raised Result)
    (applyDrift : Drift → Shared → Shared) :
    Machine (Pool Call Shared Answer Raised Result) (PoolEvent Call Drift Answer Raised) :=
  fun pool event => match event with
    | .start call =>
        let (rest, shared) := (body call).segment pool.shared
        some { pool with shared, threads := pool.threads ++ [⟨call, [], rest⟩] }
    | .answer index respond => match pool.threads[index]? with
        | some ⟨call, heard, .await request next⟩ =>
            let exchange : Exchange Answer Raised := ⟨request, respond request⟩
            let (rest, shared) := (next exchange.answer).segment pool.shared
            some
              { shared
                log := pool.log ++ [exchange]
                threads := pool.threads.set index ⟨call, heard ++ [exchange], rest⟩ }
        | _ => none
    | .drift drift => some { pool with shared := applyDrift drift pool.shared }

/-- What a coroutine in a pool knows beside the shared state: the log, and what
it has heard itself. -/
structure Record {Request : Type} (Answer : Request → Type) (Raised : Type) where
  log : List (Exchange Answer Raised)
  heard : List (Exchange Answer Raised)

/-- What a coroutine knows when it resumes: others were answered first, then it
was. -/
def Record.hears (record : Record Answer Raised) (others : List (Exchange Answer Raised))
    (exchange : Exchange Answer Raised) : Record Answer Raised :=
  ⟨record.log ++ others ++ [exchange], record.heard ++ [exchange]⟩

@[simp] theorem Record.hears_log (record : Record Answer Raised)
    (others : List (Exchange Answer Raised)) (exchange : Exchange Answer Raised) :
    (record.hears others exchange).log = record.log ++ others ++ [exchange] := rfl

@[simp] theorem Record.hears_heard (record : Record Answer Raised)
    (others : List (Exchange Answer Raised)) (exchange : Exchange Answer Raised) :
    (record.hears others exchange).heard = record.heard ++ [exchange] := rfl

/-- The protocol of a pool that keeps an invariant: it holds at every await, and
it holds again when the coroutine resumes, with what others were answered in
between at the end of the log. -/
def protocol (invariant : Shared → List (Exchange Answer Raised) → Prop) :
    Protocol Shared Answer Raised (Record Answer Raised) where
  leaves := fun shared record _ => invariant shared record.log
  reacts := fun _ record request answer resumed moved =>
    ∃ others, invariant resumed (record.log ++ others) ∧
      moved = record.hears others ⟨request, answer⟩

variable {invariant : Shared → List (Exchange Answer Raised) → Prop}
  {holds : Call → Record Answer Raised → Except Raised Result → Prop}

/-- Awaiting in a pool: the invariant holds before, and again when the answer is
there, after whatever others were answered in between. -/
theorem ensures_call {request : Request}
    {after : Except Raised (Answer request) → Shared → Record Answer Raised → Prop}
    {shared : Shared} {record : Record Answer Raised} :
    (call request : Coroutine Shared Answer Raised (Answer request)).Ensures (protocol invariant)
        after shared record ↔
      invariant shared record.log ∧ ∀ answer resumed others,
        invariant resumed (record.log ++ others) → after answer resumed
          (record.hears others ⟨request, answer⟩) := by
  refine and_congr_right fun _ => ⟨fun ensured answer resumed others kept => ?_, ?_⟩
  · exact ensured answer resumed _ ⟨others, kept, rfl⟩
  · rintro ensured answer resumed _ ⟨others, kept, rfl⟩
    exact ensured answer resumed others kept

/-- The outcome keeps the invariant and has the property asked of it. -/
def Delivers (invariant : Shared → List (Exchange Answer Raised) → Prop)
    (holds : Call → Record Answer Raised → Except Raised Result → Prop) (call : Call)
    (outcome : Except Raised Result) (shared : Shared) (record : Record Answer Raised) : Prop :=
  invariant shared record.log ∧ holds call record outcome

/-- A property of an outcome that stands when others are answered later. -/
def Stands (holds : Call → Record Answer Raised → Except Raised Result → Prop) : Prop :=
  ∀ call log heard outcome more, holds call ⟨log, heard⟩ outcome →
    holds call ⟨log ++ more, heard⟩ outcome

/-- What a thread promises from now on, the log being as given: if it has
finished, the property of its outcome, and if it waits, that whatever the answer
it goes on as the protocol asks. -/
def Promises (invariant : Shared → List (Exchange Answer Raised) → Prop)
    (holds : Call → Record Answer Raised → Except Raised Result → Prop)
    (log : List (Exchange Answer Raised)) (thread : Thread Call Shared Answer Raised Result) :
    Prop :=
  match thread.rest with
  | .finish outcome => holds thread.call ⟨log, thread.heard⟩ outcome
  | .await request next => ∀ answer shared others, invariant shared (log ++ others) →
      (next answer).Ensures (protocol invariant) (Delivers invariant holds thread.call) shared
        (Record.hears ⟨log, thread.heard⟩ others ⟨request, answer⟩)
  | _ => False

/-- A promise stands when the log grows. -/
theorem Promises.grow (stands : Stands holds) {log : List (Exchange Answer Raised)}
    {thread : Thread Call Shared Answer Raised Result}
    (promised : Promises invariant holds log thread) (more : List (Exchange Answer Raised)) :
    Promises invariant holds (log ++ more) thread := by
  obtain ⟨call, heard, rest⟩ := thread
  cases rest with
  | finish outcome => exact stands call log heard outcome more promised
  | read next => exact promised.elim
  | write shared next => exact promised.elim
  | await request next =>
      intro answer shared others kept
      rw [List.append_assoc log more others] at kept
      simpa only [Record.hears, List.append_assoc] using
        promised answer shared (more ++ others) kept

/-- A coroutine that ensures its outcome, run to its next await, keeps the
invariant and promises the rest. -/
theorem promises_segment {call : Call} {heard log : List (Exchange Answer Raised)}
    {body : Coroutine Shared Answer Raised Result} {shared : Shared}
    (ensured : body.Ensures (protocol invariant) (Delivers invariant holds call) shared
      ⟨log, heard⟩) :
    invariant (body.segment shared).2 log ∧
      Promises invariant holds log ⟨call, heard, (body.segment shared).1⟩ := by
  have reached := ensured.segment
  rcases body.segment_cases shared with ⟨outcome, finished⟩ | ⟨request, next, waiting⟩
  · rw [finished] at reached ⊢
    exact reached
  · rw [waiting] at reached ⊢
    refine ⟨reached.1, ?_⟩
    intro answer resumed others kept
    exact reached.2 answer resumed _ ⟨others, kept, rfl⟩

/-- The invariant of a whole pool. -/
def Sound (invariant : Shared → List (Exchange Answer Raised) → Prop)
    (holds : Call → Record Answer Raised → Except Raised Result → Prop)
    (pool : Pool Call Shared Answer Raised Result) : Prop :=
  invariant pool.shared pool.log ∧ ∀ thread ∈ pool.threads, Promises invariant holds pool.log thread

section Rule

variable {body : Call → Coroutine Shared Answer Raised Result}
  {applyDrift : Drift → Shared → Shared} (stands : Stands holds)
  (ensured : ∀ call shared log, invariant shared log →
    (body call).Ensures (protocol invariant) (Delivers invariant holds call) shared ⟨log, []⟩)
  (drifts : ∀ drift shared log, invariant shared log → invariant (applyDrift drift shared) log)
include stands ensured drifts

/-- Every event of a pool keeps the invariant of the pool. -/
theorem sound_step (pool : Pool Call Shared Answer Raised Result)
    (event : PoolEvent Call Drift Answer Raised) (next : Pool Call Shared Answer Raised Result)
    (sound : Sound invariant holds pool) (moved : step body applyDrift pool event = some next) :
    Sound invariant holds next := by
  obtain ⟨kept, promised⟩ := sound
  cases event with
  | start call =>
      obtain rfl := Option.some.inj moved
      have segment := promises_segment (ensured call pool.shared pool.log kept)
      refine ⟨segment.1, ?_⟩
      intro thread member
      rcases List.mem_append.mp member with old | new
      · exact promised thread old
      · obtain rfl := List.mem_singleton.mp new
        exact segment.2
  | answer index respond =>
      simp only [step] at moved
      split at moved
      · rename_i call heard request continue_ waiting
        obtain rfl := Option.some.inj moved
        have promise := promised _ (List.mem_of_getElem? waiting) (respond request) pool.shared []
          (by simpa using kept)
        simp only [Record.hears, List.append_nil] at promise
        have segment := promises_segment promise
        refine ⟨segment.1, ?_⟩
        intro thread member
        rcases List.mem_or_eq_of_mem_set member with old | rfl
        · exact (promised thread old).grow stands _
        · exact segment.2
      · cases moved
  | drift drift =>
      obtain rfl := Option.some.inj moved
      exact ⟨drifts drift _ _ kept, promised⟩

/-- **The rule of pools.** If every body keeps the invariant and gives its
outcome the property, then along every run the invariant holds and every
coroutine that has finished has the property. -/
theorem forall_threads {shared : Shared} (initially : invariant shared [])
    (events : List (PoolEvent Call Drift Answer Raised)) :
    ∀ pool ∈ (step body applyDrift).visits ⟨shared, [], []⟩ events,
      invariant pool.shared pool.log ∧ ∀ thread ∈ pool.threads, ∀ outcome,
        thread.rest = .finish outcome → holds thread.call ⟨pool.log, thread.heard⟩ outcome := by
  intro pool visited
  have sound : Sound invariant holds pool :=
    Machine.forall_visits (fun state event next => sound_step stands ensured drifts state event next)
      ⟨initially, by simp⟩ events pool visited
  refine ⟨sound.1, ?_⟩
  intro thread member outcome finished
  have promised := sound.2 thread member
  simpa only [Promises, finished] using promised

end Rule

end Pool

end Foundations
