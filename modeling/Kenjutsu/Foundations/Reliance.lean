import Kenjutsu.Foundations.Pools

/-!
# What the coroutines of a pool rely on

The environment of a pool chooses the answers, but seldom freely: what it may answer
depends on the shared state, and that state moves in one direction only, as a clock does.
`Terms` say so. Under them a coroutine keeps an invariant of the shared state and moves
that state in the same direction, and it relies on the others to do so.

As for pools in general, a proof is about one coroutine at a time: every event that the
terms allow keeps the whole pool sound (`Terms.sound_step`), and in a sound pool every
coroutine that has finished has the property asked of it (`Terms.Sound.finished`). The
property may be one that the shared state bears on, if it stands while that state moves.
-/

set_option autoImplicit false

namespace Foundations

open Coroutine

variable {Call Drift Shared Request Raised Result : Type} {Answer : Request → Type}

/-- An invariant of the shared state, how that state may move, when a call may begin and
which answers are given. -/
structure Terms (Call Shared : Type) {Request : Type} (Answer : Request → Type)
    (Raised : Type) where
  invariant : Shared → Prop
  moves : Shared → Shared → Prop
  begins : Call → Shared → Prop
  admits : Shared → Exchange Answer Raised → Prop
  refl : ∀ shared, moves shared shared
  trans : ∀ {first second third}, moves first second → moves second third → moves first third

namespace Terms

variable (terms : Terms Call Shared Answer Raised)

/-- The protocol of the terms; a coroutine knows the state in which it resumed. -/
def protocol : Protocol Shared Answer Raised Shared where
  leaves := fun shared resumed _ => terms.invariant shared ∧ terms.moves resumed shared
  reacts := fun left _ request answer shared resumed => terms.invariant shared ∧
    terms.moves left shared ∧ terms.admits shared ⟨request, answer⟩ ∧ resumed = shared

/-- The outcome keeps the terms and has the property asked of it. -/
def Delivers (holds : Call → Except Raised Result → Shared → Prop) (call : Call)
    (outcome : Except Raised Result) (shared resumed : Shared) : Prop :=
  terms.invariant shared ∧ terms.moves resumed shared ∧ holds call outcome shared

/-- What a thread promises, the shared state being as given. -/
def Promises (holds : Call → Except Raised Result → Shared → Prop) (shared : Shared)
    (thread : Thread Call Shared Answer Raised Result) : Prop :=
  match thread.rest with
  | .finish outcome => holds thread.call outcome shared
  | .await request next => ∀ answer later, terms.invariant later → terms.moves shared later →
      terms.admits later ⟨request, answer⟩ →
        (next answer).Ensures terms.protocol (terms.Delivers holds thread.call) later later
  | _ => False

/-- The invariant of a whole pool under its terms. -/
def Sound (holds : Call → Except Raised Result → Shared → Prop)
    (pool : Pool Call Shared Answer Raised Result) : Prop :=
  terms.invariant pool.shared ∧ ∀ thread ∈ pool.threads, terms.Promises holds pool.shared thread

/-- The terms allow the event. -/
def Allows (pool : Pool Call Shared Answer Raised Result) :
    PoolEvent Call Drift Answer Raised → Prop
  | .start call => terms.begins call pool.shared
  | .answer index respond => ∀ thread request next, pool.threads[index]? = some thread →
      thread.rest = .await request next → terms.admits pool.shared ⟨request, respond request⟩
  | .drift _ => True

variable {terms} {holds : Call → Except Raised Result → Shared → Prop}

/-- Awaiting under the terms. -/
theorem ensures_call {request : Request}
    {after : Except Raised (Answer request) → Shared → Shared → Prop} {shared resumed : Shared} :
    (call request : Coroutine Shared Answer Raised (Answer request)).Ensures terms.protocol after
        shared resumed ↔
      (terms.invariant shared ∧ terms.moves resumed shared) ∧ ∀ answer later,
        terms.invariant later → terms.moves shared later →
          terms.admits later ⟨request, answer⟩ → after answer later later := by
  refine and_congr_right fun _ => ⟨fun ensured answer later kept moved admitted => ?_, ?_⟩
  · exact ensured answer later later ⟨kept, moved, admitted, rfl⟩
  · rintro ensured answer _ later ⟨kept, moved, admitted, rfl⟩
    exact ensured answer later kept moved admitted

section Rule

variable (stands : ∀ call outcome shared later, holds call outcome shared →
  terms.moves shared later → holds call outcome later)

include stands in
/-- A promise stands when the shared state moves. -/
theorem Promises.later {shared later : Shared}
    {thread : Thread Call Shared Answer Raised Result}
    (promised : terms.Promises holds shared thread) (moved : terms.moves shared later) :
    terms.Promises holds later thread := by
  obtain ⟨call, heard, rest⟩ := thread
  cases rest with
  | finish outcome => exact stands call outcome shared later promised moved
  | read next => exact promised.elim
  | write written next => exact promised.elim
  | await request next =>
      exact fun answer last kept goesOn admitted =>
        promised answer last kept (terms.trans moved goesOn) admitted

/-- A coroutine that ensures its outcome, run to its next await, keeps the terms and
promises the rest. -/
theorem promises_segment {call : Call} (heard : List (Exchange Answer Raised))
    {body : Coroutine Shared Answer Raised Result} {shared resumed : Shared}
    (ensured : body.Ensures terms.protocol (terms.Delivers holds call) shared resumed) :
    terms.invariant (body.segment shared).2 ∧ terms.moves resumed (body.segment shared).2 ∧
      terms.Promises holds (body.segment shared).2 ⟨call, heard, (body.segment shared).1⟩ := by
  have reached := ensured.segment
  rcases body.segment_cases shared with ⟨outcome, finished⟩ | ⟨request, next, waiting⟩
  · rw [finished] at reached ⊢
    exact reached
  · rw [waiting] at reached ⊢
    obtain ⟨⟨kept, moved⟩, goesOn⟩ := reached
    exact ⟨kept, moved, fun answer later invariant moves admitted =>
      goesOn answer later later ⟨invariant, moves, admitted, rfl⟩⟩

variable {body : Call → Coroutine Shared Answer Raised Result}
  {applyDrift : Drift → Shared → Shared}
  (ensured : ∀ call shared, terms.invariant shared → terms.begins call shared →
    (body call).Ensures terms.protocol (terms.Delivers holds call) shared shared)
  (drifts : ∀ drift shared, terms.invariant shared →
    terms.invariant (applyDrift drift shared) ∧ terms.moves shared (applyDrift drift shared))
include stands ensured drifts

/-- **Every event that the terms allow keeps a pool sound.** -/
theorem sound_step {pool next : Pool Call Shared Answer Raised Result}
    {event : PoolEvent Call Drift Answer Raised} (sound : terms.Sound holds pool)
    (allowed : terms.Allows pool event) (moved : Pool.step body applyDrift pool event = some next) :
    terms.Sound holds next := by
  obtain ⟨kept, promised⟩ := sound
  -- the others keep what they promised, wherever a segment has moved the state
  have others : ∀ {later}, terms.moves pool.shared later → ∀ thread ∈ pool.threads,
      terms.Promises holds later thread := fun moves thread member =>
    (promised thread member).later stands moves
  cases event with
  | start call =>
      obtain rfl := Option.some.inj moved
      obtain ⟨stillKept, moves, promises⟩ := promises_segment []
        (ensured call pool.shared kept allowed)
      refine ⟨stillKept, fun thread member => ?_⟩
      rcases List.mem_append.mp member with old | new
      · exact others moves thread old
      · obtain rfl := List.mem_singleton.mp new
        exact promises
  | answer index respond =>
      simp only [Pool.step] at moved
      split at moved
      · rename_i call heard request continue_ waiting
        obtain rfl := Option.some.inj moved
        obtain ⟨stillKept, moves, promises⟩ := promises_segment (heard ++ [_])
          (promised _ (List.mem_of_getElem? waiting) (respond request) pool.shared kept
            (terms.refl _) (allowed _ request continue_ waiting rfl))
        refine ⟨stillKept, fun thread member => ?_⟩
        rcases List.mem_or_eq_of_mem_set member with old | rfl
        · exact others moves thread old
        · exact promises
      · cases moved
  | drift drift =>
      obtain rfl := Option.some.inj moved
      obtain ⟨stillKept, moves⟩ := drifts drift _ kept
      exact ⟨stillKept, others moves⟩

end Rule

/-- In a sound pool what has finished has the property asked of it. -/
theorem Sound.finished {pool : Pool Call Shared Answer Raised Result}
    (sound : terms.Sound holds pool) {thread : Thread Call Shared Answer Raised Result}
    (member : thread ∈ pool.threads) {outcome : Except Raised Result}
    (finished : thread.rest = .finish outcome) : holds thread.call outcome pool.shared := by
  have promised := sound.2 thread member
  simpa only [Promises, finished] using promised

end Terms

end Foundations
