import Kenjutsu.Foundations.Pools

/-!
# Sessions

A session says what a coroutine may ask, in which order, and how the answers bear on
it: a machine over exchanges. A coroutine keeps its session if every request it makes
is allowed at the stage it has reached, whatever it reads and however it is answered.

Keeping a session is a matter of the coroutine alone. In a pool, where any number of
coroutines interleave over one shared state, what each of them has been answered so
far is then a path of its session (`forall_threads_inSession`), and if every exchange
takes a stage closer to the end, its length is bounded (`length_add_rank_le`).
-/

set_option autoImplicit false

namespace Foundations

variable {Call Drift Shared Request Raised Result Stage : Type} {Answer : Request → Type}

/-- A session: the stage after each exchange; `none` says that the request may not be
asked. -/
abbrev Session (Stage : Type) {Request : Type} (Answer : Request → Type) (Raised : Type) :=
  Machine Stage (Exchange Answer Raised)

namespace Session

open Coroutine

/-- The protocol of a session: at an await the request must be allowed, and the answer
is any that is admitted. -/
def protocol (session : Session Stage Answer Raised) (admits : Exchange Answer Raised → Prop) :
    Protocol Shared Answer Raised Stage where
  leaves := fun _ stage request =>
    ∀ answer, admits ⟨request, answer⟩ → (session stage ⟨request, answer⟩).isSome
  reacts := fun _ stage request answer _ next =>
    admits ⟨request, answer⟩ ∧ session stage ⟨request, answer⟩ = some next

variable {session : Session Stage Answer Raised} {admits : Exchange Answer Raised → Prop}

/-- Awaiting in a session: every admitted answer leads to a stage. -/
theorem ensures_call {request : Request}
    {after : Except Raised (Answer request) → Shared → Stage → Prop} {shared : Shared}
    {stage : Stage}
    (allowed : ∀ answer, admits ⟨request, answer⟩ → ∃ next,
      session stage ⟨request, answer⟩ = some next ∧ ∀ resumed, after answer resumed next) :
    (call request : Coroutine Shared Answer Raised (Answer request)).Ensures
      (session.protocol admits) after shared stage := by
  refine ⟨fun answer admitted => ?_, ?_⟩
  · obtain ⟨next, moved, -⟩ := allowed answer admitted
    rw [moved]
    rfl
  · rintro answer resumed next ⟨admitted, moved⟩
    obtain ⟨other, same, ensured⟩ := allowed answer admitted
    obtain rfl := Option.some.inj (moved.symm.trans same)
    exact ensured resumed

/-- If every exchange lowers a rank, a path has no more exchanges than its first stage
has ranks to lose. -/
theorem length_add_rank_le {rank : Stage → Nat}
    (lowers : ∀ stage exchange next, session stage exchange = some next → rank next < rank stage)
    {start last : Stage} {exchanges : List (Exchange Answer Raised)}
    (ran : session.run start exchanges = some last) :
    exchanges.length + rank last ≤ rank start := by
  induction exchanges generalizing start with
  | nil =>
      obtain rfl := Option.some.inj ran
      exact (Nat.zero_add _).le
  | cons exchange exchanges ih =>
      obtain ⟨next, moved, ran⟩ := Option.bind_eq_some_iff.mp ran
      have lower := lowers start exchange next moved
      have rest := ih ran
      rw [List.length_cons]
      omega

/-! ## Sessions in a pool -/

/-- What a thread has been answered is a path of its session, and it keeps the session
from there on, as long as the answers are admitted. -/
def InSession (session : Call → Session Stage Answer Raised) (start : Call → Stage)
    (admits : Exchange Answer Raised → Prop)
    (after : Call → Except Raised Result → Stage → Prop)
    (thread : Thread Call Shared Answer Raised Result) : Prop :=
  (∀ exchange ∈ thread.heard, admits exchange) →
    ∃ stage, (session thread.call).run (start thread.call) thread.heard = some stage ∧
      ∃ shared, thread.rest.Ensures ((session thread.call).protocol admits)
        (fun outcome _ stage => after thread.call outcome stage) shared stage

section Rule

variable {session : Call → Session Stage Answer Raised} {start : Call → Stage}
  {after : Call → Except Raised Result → Stage → Prop}
  {body : Call → Coroutine Shared Answer Raised Result}
  {applyDrift : Drift → Shared → Shared}
  (keeps : ∀ call shared, (body call).Ensures ((session call).protocol admits)
    (fun outcome _ stage => after call outcome stage) shared (start call))
include keeps

/-- Every event of a pool keeps every thread in its session. -/
theorem inSession_step {pool next : Pool Call Shared Answer Raised Result}
    {event : PoolEvent Call Drift Answer Raised}
    (inSession : ∀ thread ∈ pool.threads, InSession session start admits after thread)
    (moved : Pool.step body applyDrift pool event = some next) :
    ∀ thread ∈ next.threads, InSession session start admits after thread := by
  cases event with
  | start call =>
      obtain rfl := Option.some.inj moved
      intro thread member
      rcases List.mem_append.mp member with old | new
      · exact inSession thread old
      · obtain rfl := List.mem_singleton.mp new
        exact fun _ => ⟨start call, rfl, _, (keeps call pool.shared).segment⟩
  | answer index respond =>
      simp only [Pool.step] at moved
      split at moved
      · rename_i call heard request continue_ waiting
        obtain rfl := Option.some.inj moved
        intro thread member
        rcases List.mem_or_eq_of_mem_set member with old | rfl
        · exact inSession thread old
        · intro admitted
          obtain ⟨earlier, now⟩ := List.forall_mem_append.mp admitted
          have admittedNow := now _ (List.mem_singleton_self _)
          obtain ⟨stage, ran, shared, leaves, reacts⟩ :=
            inSession _ (List.mem_of_getElem? waiting) earlier
          obtain ⟨moved, isNext⟩ := Option.isSome_iff_exists.mp (leaves _ admittedNow)
          refine ⟨moved, ?_, _, (reacts _ pool.shared moved ⟨admittedNow, isNext⟩).segment⟩
          rw [Machine.run_append, ran, Option.bind_some, Machine.run_cons]
          exact congrArg (Option.bind · _) isNext
      · cases moved
  | drift drift =>
      obtain rfl := Option.some.inj moved
      exact inSession

/-- **The rule of sessions.** If every body keeps its session, then along every run
what any coroutine has been answered is a path of its session; one that waits asks
what the stage allows, and one that has finished did so at a stage where it may. -/
theorem forall_threads_inSession (shared : Shared)
    (events : List (PoolEvent Call Drift Answer Raised)) :
    ∀ pool ∈ (Pool.step body applyDrift).visits ⟨shared, [], []⟩ events,
      ∀ thread ∈ pool.threads, (∀ exchange ∈ thread.heard, admits exchange) →
        ∃ stage, (session thread.call).run (start thread.call) thread.heard = some stage ∧
          (∀ request next, thread.rest = .await request next → ∀ answer,
            admits ⟨request, answer⟩ → (session thread.call stage ⟨request, answer⟩).isSome) ∧
          ∀ outcome, thread.rest = .finish outcome → after thread.call outcome stage := by
  intro pool visited thread member admitted
  have inSession : ∀ thread ∈ pool.threads, InSession session start admits after thread :=
    Machine.forall_visits (fun _ _ _ kept moved => inSession_step keeps kept moved)
      (fun _ member => by cases member) events pool visited
  obtain ⟨stage, ran, shared, ensured⟩ := inSession thread member admitted
  refine ⟨stage, ran, fun request next waits => ?_, fun outcome finished => ?_⟩
  · rw [waits] at ensured
    exact ensured.1
  · rw [finished] at ensured
    exact ensured

end Rule

end Session

end Foundations
