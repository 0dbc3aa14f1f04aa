import Kenjutsu.Foundations.Coroutines

/-!
# Coroutines that run alone against a server

A coroutine that nobody interleaves with runs to its end: each request is
answered by the server at once, the server moves, and the shared state is as the
coroutine left it. The run is a function (`serve`), and a proof about it is a
proof about what the coroutine ensures (`ensures_servedBy_iff`).
-/

set_option autoImplicit false

namespace Foundations.Coroutine

variable {Shared Request Raised Result Server : Type} {Answer : Request → Type}

/-- Run a coroutine to its end against a server. -/
def serve (respond : Server → (request : Request) → Except Raised (Answer request) × Server) :
    Coroutine Shared Answer Raised Result → Shared → Server →
      Except Raised Result × Shared × Server
  | .finish outcome, shared, server => (outcome, shared, server)
  | .read next, shared, server => (next shared).serve respond shared server
  | .write written next, _, server => next.serve respond written server
  | .await request next, shared, server =>
      (next (respond server request).1).serve respond shared (respond server request).2

/-- The protocol of a coroutine that runs alone against a server. -/
def servedBy (respond : Server → (request : Request) → Except Raised (Answer request) × Server) :
    Protocol Shared Answer Raised Server where
  leaves := fun _ _ _ => True
  reacts := fun shared server request answer resumed moved =>
    resumed = shared ∧ respond server request = (answer, moved)

variable {respond : Server → (request : Request) → Except Raised (Answer request) × Server}
  {after : Except Raised Result → Shared → Server → Prop}

/-- Awaiting a request goes on with what the server answers. -/
theorem ensures_await_servedBy {request : Request}
    {next : Except Raised (Answer request) → Coroutine Shared Answer Raised Result}
    {shared : Shared} {server : Server} :
    (await request next).Ensures (servedBy respond) after shared server ↔
      (next (respond server request).1).Ensures (servedBy respond) after shared
        (respond server request).2 := by
  constructor
  · rintro ⟨-, ensured⟩
    exact ensured _ shared _ ⟨rfl, rfl⟩
  · intro held
    refine ⟨trivial, ?_⟩
    rintro answer _ moved ⟨rfl, answered⟩
    rw [answered] at held
    exact held

theorem ensures_call_servedBy {request : Request}
    {after : Except Raised (Answer request) → Shared → Server → Prop} {shared : Shared}
    {server : Server} :
    (call request : Coroutine Shared Answer Raised (Answer request)).Ensures (servedBy respond)
        after shared server ↔
      after (respond server request).1 shared (respond server request).2 :=
  ensures_await_servedBy

/-- **What a coroutine ensures is what its run ends in.** -/
theorem ensures_servedBy_iff {body : Coroutine Shared Answer Raised Result} {shared : Shared}
    {server : Server} :
    body.Ensures (servedBy respond) after shared server ↔
      after (body.serve respond shared server).1 (body.serve respond shared server).2.1
        (body.serve respond shared server).2.2 := by
  induction body generalizing shared server with
  | finish outcome => rfl
  | read next ih => exact ih shared
  | write written next ih => exact ih
  | await request next ih =>
      exact ensures_await_servedBy.trans (ih _)

end Foundations.Coroutine
