import Kenjutsu.Foundations.Serving

/-!
# Transcripts

A coroutine that runs alone against a server leaves a journal: what it asked, how
it was answered, and what it assigned to the shared state, in order. The
transcript is the part of the journal that the server sees.

What a coroutine ensures under `recorded`, the protocol in which every request
may be answered in every admitted way, holds of its transcript against every
server that answers in admitted ways (`holds_of_recorded`). What it asks is
bounded by what it asks for in all runs (`AsksOnly`).
-/

set_option autoImplicit false

namespace Foundations.Coroutine

variable {Shared Request Raised Result Value Server : Type} {Answer : Request → Type}
  {respond : Server → (request : Request) → Except Raised (Answer request) × Server}
  {body : Coroutine Shared Answer Raised Result} {shared : Shared} {server : Server}

/-! ## What a run leaves -/

/-- Something that happened in a run: a request was asked and answered, or the
shared state was assigned. -/
inductive Happening (Shared : Type) {Request : Type} (Answer : Request → Type) (Raised : Type) where
  | asked (exchange : Exchange Answer Raised)
  | assigned (shared : Shared)

/-- The journal of a run. -/
def journal (respond : Server → (request : Request) → Except Raised (Answer request) × Server) :
    Coroutine Shared Answer Raised Result → Shared → Server → List (Happening Shared Answer Raised)
  | .finish _, _, _ => []
  | .read next, shared, server => (next shared).journal respond shared server
  | .write written next, _, server => .assigned written :: next.journal respond written server
  | .await request next, shared, server =>
      .asked ⟨request, (respond server request).1⟩ ::
        (next (respond server request).1).journal respond shared (respond server request).2

/-- The exchange that a happening is. -/
def Happening.exchange? : Happening Shared Answer Raised → Option (Exchange Answer Raised)
  | .asked exchange => some exchange
  | .assigned _ => none

/-- The transcript of a run: what was asked and answered. -/
def transcript (respond : Server → (request : Request) → Except Raised (Answer request) × Server)
    (body : Coroutine Shared Answer Raised Result) (shared : Shared) (server : Server) :
    List (Exchange Answer Raised) :=
  (body.journal respond shared server).filterMap Happening.exchange?

/-- The run of a sequence. -/
theorem serve_continueWith {next : Except Raised Result → Coroutine Shared Answer Raised Value} :
    (body.continueWith next).serve respond shared server =
      (next (body.serve respond shared server).1).serve respond
        (body.serve respond shared server).2.1 (body.serve respond shared server).2.2 := by
  induction body generalizing shared server with
  | finish outcome => rfl
  | read body ih => exact ih shared
  | write written body ih => exact ih
  | await request body ih => exact ih _

/-- The run of a sequence whose first part returns. -/
theorem serve_bind_of_ok {next : Result → Coroutine Shared Answer Raised Value} {result : Result}
    {moved : Shared} {later : Server}
    (ran : body.serve respond shared server = (.ok result, moved, later)) :
    (body >>= next).serve respond shared server = (next result).serve respond moved later := by
  apply serve_continueWith.trans
  rw [ran]

/-- The run of a sequence whose first part raises. -/
theorem serve_bind_of_error {next : Result → Coroutine Shared Answer Raised Value} {raised : Raised}
    {moved : Shared} {later : Server}
    (ran : body.serve respond shared server = (.error raised, moved, later)) :
    (body >>= next).serve respond shared server = (.error raised, moved, later) := by
  apply serve_continueWith.trans
  rw [ran]
  rfl

/-- A sequence that returns: the first part returns, and then the rest does. -/
theorem serve_bind_cases {next : Result → Coroutine Shared Answer Raised Value} {value : Value}
    (ran : ((body >>= next).serve respond shared server).1 = .ok value) :
    ∃ result moved later, body.serve respond shared server = (.ok result, moved, later) ∧
      ((next result).serve respond moved later).1 = .ok value := by
  rcases first : body.serve respond shared server with ⟨raised | result, moved, later⟩
  · rw [serve_bind_of_error first] at ran
    cases ran
  · rw [serve_bind_of_ok first] at ran
    exact ⟨result, moved, later, rfl, ran⟩

section TryExcept

variable {catches : Raised → Bool} {handler : Raised → Coroutine Shared Answer Raised Result}
  {raised : Raised} {moved : Shared} {later : Server}

/-- The run of a `try` whose body returns, -/
theorem serve_tryExcept_of_ok {result : Result}
    (ran : body.serve respond shared server = (.ok result, moved, later)) :
    (body.tryExcept catches handler).serve respond shared server = (.ok result, moved, later) := by
  apply serve_continueWith.trans
  rw [ran]
  rfl

/-- whose body raises what is caught, -/
theorem serve_tryExcept_of_caught
    (ran : body.serve respond shared server = (.error raised, moved, later))
    (caught : catches raised = true) :
    (body.tryExcept catches handler).serve respond shared server =
      (handler raised).serve respond moved later := by
  apply serve_continueWith.trans
  rw [ran]
  simp only [caught, if_true]

/-- and whose body raises what is not caught. -/
theorem serve_tryExcept_of_uncaught
    (ran : body.serve respond shared server = (.error raised, moved, later))
    (uncaught : catches raised = false) :
    (body.tryExcept catches handler).serve respond shared server =
      (.error raised, moved, later) := by
  apply serve_continueWith.trans
  rw [ran]
  simp only [uncaught, if_false, Bool.false_eq_true]
  rfl

end TryExcept

theorem serve_call {request : Request} :
    (call request : Coroutine Shared Answer Raised (Answer request)).serve respond shared server =
      ((respond server request).1, shared, (respond server request).2) := rfl

theorem serve_call_of_answer {request : Request} {answer : Except Raised (Answer request)}
    (answered : (respond server request).1 = answer) :
    (call request : Coroutine Shared Answer Raised (Answer request)).serve respond shared server =
      (answer, shared, (respond server request).2) := by
  rw [serve_call, answered]

theorem transcript_call {request : Request} :
    (call request : Coroutine Shared Answer Raised (Answer request)).transcript respond shared
      server = [⟨request, (respond server request).1⟩] := rfl

/-- What is read first leaves no trace. -/
theorem serve_afterReads :
    (body.afterReads shared).serve respond shared server = body.serve respond shared server := by
  induction body generalizing server with
  | read next ih => exact ih shared
  | _ => rfl

theorem journal_afterReads :
    (body.afterReads shared).journal respond shared server =
      body.journal respond shared server := by
  induction body generalizing server with
  | read next ih => exact ih shared
  | _ => rfl

/-- The journal of a sequence. -/
theorem journal_continueWith {next : Except Raised Result → Coroutine Shared Answer Raised Value} :
    (body.continueWith next).journal respond shared server =
      body.journal respond shared server ++ (next (body.serve respond shared server).1).journal
        respond (body.serve respond shared server).2.1 (body.serve respond shared server).2.2 := by
  induction body generalizing shared server with
  | finish outcome => rfl
  | read body ih => exact ih shared
  | write written body ih => exact congrArg (List.cons _) ih
  | await request body ih => exact congrArg (List.cons _) (ih _)

/-- The transcript of a sequence whose first part returns. -/
theorem transcript_bind_of_ok {next : Result → Coroutine Shared Answer Raised Value}
    {result : Result} {moved : Shared} {later : Server}
    (ran : body.serve respond shared server = (.ok result, moved, later)) :
    (body >>= next).transcript respond shared server =
      body.transcript respond shared server ++ (next result).transcript respond moved later := by
  unfold transcript
  rw [← List.filterMap_append]
  refine congrArg (List.filterMap _) (journal_continueWith.trans ?_)
  rw [ran]

/-! ## Recorded runs -/

/-- The protocol that records every exchange, each answered in an admitted way. -/
def recorded (admits : Exchange Answer Raised → Prop) :
    Protocol Shared Answer Raised (List (Exchange Answer Raised)) where
  leaves := fun _ _ _ => True
  reacts := fun shared record request answer resumed moved =>
    resumed = shared ∧ admits ⟨request, answer⟩ ∧ moved = record ++ [⟨request, answer⟩]

variable {admits : Exchange Answer Raised → Prop}

/-- Awaiting a request, to be answered in any admitted way. -/
theorem ensures_call_recorded {request : Request}
    {after : Except Raised (Answer request) → Shared → List (Exchange Answer Raised) → Prop}
    {record : List (Exchange Answer Raised)} :
    (call request : Coroutine Shared Answer Raised (Answer request)).Ensures (recorded admits)
        after shared record ↔
      ∀ answer, admits ⟨request, answer⟩ →
        after answer shared (record ++ [⟨request, answer⟩]) := by
  constructor
  · rintro ⟨-, ensured⟩ answer admitted
    exact ensured answer shared _ ⟨rfl, admitted, rfl⟩
  · intro held
    refine ⟨trivial, ?_⟩
    rintro answer _ _ ⟨rfl, admitted, rfl⟩
    exact held answer admitted

/-- **What is ensured of every record holds of the transcript**, against every
server whose answers are admitted. -/
theorem holds_of_recorded
    (admitted : ∀ server request, admits ⟨request, (respond server request).1⟩)
    {after : Except Raised Result → Shared → List (Exchange Answer Raised) → Prop}
    {record : List (Exchange Answer Raised)}
    (ensured : body.Ensures (recorded admits) after shared record) :
    after (body.serve respond shared server).1 (body.serve respond shared server).2.1
      (record ++ body.transcript respond shared server) := by
  induction body generalizing shared server record with
  | finish outcome => simpa [transcript, journal, serve] using ensured
  | read next ih => exact ih shared ensured
  | write written next ih => exact ih ensured
  | await request next ih =>
      have continued := @ih _ shared (respond server request).2 _
        (ensured.2 _ shared _ ⟨rfl, admitted server request, rfl⟩)
      simpa [transcript, journal, serve, Happening.exchange?] using continued

/-! ## What a coroutine asks for -/

/-- The protocol of a coroutine that may only ask for what is allowed, and may be
answered anything. -/
def asking (allowed : Request → Prop) : Protocol Shared Answer Raised Unit where
  leaves := fun _ _ request => allowed request
  reacts := fun _ _ _ _ _ _ => True

/-- In all its runs, the coroutine asks for nothing but what is allowed. -/
def AsksOnly (allowed : Request → Prop) (body : Coroutine Shared Answer Raised Result) : Prop :=
  ∀ shared, body.Ensures (asking allowed) (fun _ _ _ => True) shared ()

variable {allowed : Request → Prop}

theorem asksOnly_finish (outcome : Except Raised Result) :
    AsksOnly allowed (.finish outcome : Coroutine Shared Answer Raised Result) :=
  fun _ => trivial

theorem asksOnly_modify (change : Shared → Shared) :
    AsksOnly allowed (modify change : Coroutine Shared Answer Raised Unit) :=
  fun _ => trivial

theorem asksOnly_get : AsksOnly allowed (get : Coroutine Shared Answer Raised Shared) :=
  fun _ => trivial

theorem asksOnly_call {request : Request} (may : allowed request) :
    AsksOnly allowed
      (call request : Coroutine Shared Answer Raised (Answer request)) :=
  fun _ => ⟨may, fun _ _ _ _ => trivial⟩

theorem AsksOnly.bind {next : Result → Coroutine Shared Answer Raised Value}
    (first : AsksOnly allowed body) (rest : ∀ result, AsksOnly allowed (next result)) :
    AsksOnly allowed (body >>= next) := by
  intro shared
  refine ensures_bind.mpr ((first shared).mono ?_)
  rintro (raised | result) shared ⟨⟩ -
  · trivial
  · exact rest result shared

/-- **A run asks only for what is allowed.** -/
theorem AsksOnly.journal (asks : AsksOnly allowed body) {exchange : Exchange Answer Raised}
    (asked : .asked exchange ∈ body.journal respond shared server) :
    allowed exchange.request := by
  replace asks := asks shared
  induction body generalizing shared server with
  | finish outcome => cases asked
  | read next ih => exact ih shared asked asks
  | write written next ih =>
      rcases List.mem_cons.mp asked with same | later
      · cases same
      · exact ih later asks
  | await request next ih =>
      rcases List.mem_cons.mp asked with same | later
      · obtain rfl := Happening.asked.inj same
        exact asks.1
      · exact ih _ later (asks.2 _ shared () trivial)

/-- What may ask for nothing has an empty transcript. -/
theorem AsksOnly.transcript_eq_nil (asks : AsksOnly (fun _ => False) body) :
    body.transcript respond shared server = [] := by
  refine List.filterMap_eq_nil_iff.mpr ?_
  rintro (exchange | written) member
  · exact absurd member fun asked => asks.journal asked
  · rfl

end Foundations.Coroutine
