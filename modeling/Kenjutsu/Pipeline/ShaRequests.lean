import Kenjutsu.Foundations.Sessions
import Kenjutsu.Pipeline.ShaCache
import Kenjutsu.Pipeline.ShaFailures

/-!
# What a guard call asks

A guard call that the cache does not answer sends at most three requests, all of them
for the pull request of the call and with the same headers. It sends another one only
after a server error or a transport error and a sleep of one second, then of two. If
it made the client itself, it closes it, once, after everything else and on every way
out, exceptions and cancellation included; a client it was passed it never closes.

All of this is one session, which every guard call of a process keeps, in every
interleaving.
-/

set_option autoImplicit false

namespace Kenjutsu.Pipeline

open Foundations Foundations.Coroutine Kenjutsu.Http

namespace ShaGuard

/-- How far a guard call is: it has asked nothing; its last await was a request (with its
headers, and whether it failed in a way that allows another) or the sleep after it (and
whether it slept through); or it has closed its client. `left` counts the attempts that
are allowed after this one, or after the one the sleep is for. -/
inductive ClientStage where
  | untouched
  | requested (left : Nat) (headers : List (String × String)) (retriable : Bool)
  | slept (left : Nat) (headers : List (String × String)) (through : Bool)
  | closed (last : ClientStage)
deriving DecidableEq

/-- A failure after which there is another attempt, unless it was the last. -/
def isRetriable : Except Raised Response → Bool
  | .error raised => catches raised
  | .ok response => 500 ≤ response.statusCode

/-- The session of a guard call. -/
def clientSession (pr : PrRef) (ownClient : Bool) : Session ClientStage GuardRequest.Answer Raised
  | .untouched, ⟨.get url headers, answer⟩ =>
      if url = pullUrl pr then some (.requested (maxRetries - 1) headers (isRetriable answer))
      else none
  | .requested (left + 1) headers true, ⟨.sleep seconds, answer⟩ =>
      if seconds = retryBaseDelay * 2 ^ (maxRetries - 2 - left) then
        some (.slept left headers answer.isOk)
      else none
  | .slept left headers true, ⟨.get url same, answer⟩ =>
      if url = pullUrl pr ∧ same = headers then some (.requested left headers (isRetriable answer))
      else none
  | .requested left headers retriable, ⟨.aclose, _⟩ =>
      if ownClient then some (.closed (.requested left headers retriable)) else none
  | .slept left headers through, ⟨.aclose, _⟩ =>
      if ownClient then some (.closed (.slept left headers through)) else none
  | _, _ => none

def GuardCall.ownClient : GuardCall → Bool
  | .checkShaCurrent _ _ ownClient | .entryGuard _ _ ownClient | .exitGuard _ _ ownClient =>
      ownClient

/-- The session of a call. -/
def GuardCall.session (call : GuardCall) : Session ClientStage GuardRequest.Answer Raised :=
  clientSession call.pr call.ownClient

/-- `asyncio.sleep` raises no transport error. -/
def SleepsPlainly : GuardExchange → Prop
  | ⟨.sleep _, .error raised⟩ => catches raised = false
  | _ => True

/-- The requests stop: the last one brought the answer or was the last one allowed, or a
sleep was interrupted. -/
def Stops : ClientStage → Except Raised GuardResult → Prop
  | .requested left _ retriable, _ => retriable = true → left = 0
  | .slept _ _ through, outcome => through = false ∧ ∃ raised, outcome = .error raised
  | _, _ => False

/-- A call ends: the cache answered, or the requests stopped and a client of its own is
closed. -/
def Ends (ownClient : Bool) (outcome : Except Raised GuardResult) : ClientStage → Prop
  | .untouched => outcome = .ok .current ∨ outcome = .ok .stale
  | .closed last => ownClient = true ∧ Stops last outcome
  | stage => ownClient = false ∧ Stops stage outcome

/-- The awaits that a stage leaves. -/
def ClientStage.rank : ClientStage → Nat
  | .untouched => 2 * maxRetries
  | .slept left _ _ => 2 * left + 2
  | .requested left _ _ => 2 * left + 1
  | .closed _ => 0

/-- Every await is one less. -/
theorem rank_lt {pr : PrRef} {ownClient : Bool} {stage next : ClientStage}
    {exchange : GuardExchange} (moved : clientSession pr ownClient stage exchange = some next) :
    next.rank < stage.rank := by
  unfold clientSession at moved
  split at moved
  case h_6 => cases moved
  all_goals
    split at moved
    · obtain rfl := Option.some.inj moved
      simp only [ClientStage.rank, maxRetries]
      omega
    · cases moved

/-! ## The attempts -/

variable {pr : PrRef} {ownClient : Bool} {headers : List (String × String)}
  {staleEntry : Option CacheEntry} {memory : GuardMemory} {stage : ClientStage}

/-- Between two attempts, with some still to come: the next request may be sent. -/
def Between (headers : List (String × String)) : ClientStage → Nat → Prop
  | .untouched, coming => coming = maxRetries
  | .slept left same through, coming => coming = left + 1 ∧ same = headers ∧ through = true
  | .requested left _ _, coming => left = 0 ∧ coming = 0
  | .closed _, _ => False

theorem Between.requests {left : Nat} (between : Between headers stage (left + 1))
    (answer : Except Raised Response) :
    clientSession pr ownClient stage ⟨.get (pullUrl pr) headers, answer⟩ =
      some (.requested left headers (isRetriable answer)) := by
  cases stage with
  | untouched =>
      obtain rfl : left = maxRetries - 1 := Nat.eq_sub_of_add_eq between
      exact if_pos rfl
  | requested before same retriable => cases between.2
  | slept before same through =>
      obtain ⟨coming, rfl, rfl⟩ := between
      obtain rfl := Nat.succ.inj coming
      exact if_pos ⟨rfl, rfl⟩
  | closed last => cases between

/-- What the body of an attempt leads to, with `left` attempts after it. -/
def Led (headers : List (String × String)) (left : Nat) :
    Except Raised (Option GuardResult) → ClientStage → Prop
  | .ok (some result), stage => Stops stage (.ok result)
  | .ok none, stage => Between headers stage left
  | .error raised, stage =>
      (catches raised = true ∧ stage = .requested left headers true) ∨
        (catches raised = false ∧ Stops stage (.error raised))

/-- What the sleep before the next attempt leads to. -/
def Recovers (headers : List (String × String)) (left : Nat) :
    Except Raised (Option GuardResult) → ClientStage → Prop
  | .ok (some _), _ => False
  | .ok none, stage => Between headers stage left
  | .error raised, stage => catches raised = false ∧ Stops stage (.error raised)

theorem Recovers.led {left : Nat} {outcome : Except Raised (Option GuardResult)}
    (recovers : Recovers headers left outcome stage) : Led headers left outcome stage := by
  rcases outcome with raised | _ | result
  · exact .inr recovers
  · exact recovers
  · exact recovers.elim

/-- The sleep before the next attempt. -/
theorem backOff_recovers {attempt left : Nat} (whole : attempt + left + 2 = maxRetries) :
    (do backOff attempt; pure none : Guard (Option GuardResult)).Ensures
      ((clientSession pr ownClient).protocol SleepsPlainly)
      (fun outcome _ stage => Recovers headers (left + 1) outcome stage) memory
      (.requested (left + 1) headers true) := by
  rw [ensures_bind]
  refine Session.ensures_call fun answer plain => ?_
  refine ⟨.slept left headers answer.isOk, ?_, fun resumed => ?_⟩
  · have seconds : retryBaseDelay * 2 ^ attempt =
        retryBaseDelay * 2 ^ (maxRetries - 2 - left) := by
      congr 2
      omega
    exact if_pos seconds
  · rcases answer with raised | _
    · exact ⟨plain, rfl, raised, rfl⟩
    · exact ⟨rfl, rfl, rfl⟩

theorem clientGet_keepsSession {url : String}
    {after : Except Raised Response → GuardMemory → ClientStage → Prop}
    (allowed : ∀ answer : Except Raised Response, ∃ next,
      clientSession pr ownClient stage ⟨.get url headers, answer⟩ = some next ∧
        ∀ resumed, after answer resumed next) :
    (clientGet url headers).Ensures ((clientSession pr ownClient).protocol SleepsPlainly) after
      memory stage :=
  Session.ensures_call fun answer _ => allowed answer

/-- The body of one attempt. -/
theorem attemptOnce_led {attempt left : Nat} (whole : attempt + left + 1 = maxRetries)
    (between : Between headers stage (left + 1)) :
    (attemptOnce pr headers staleEntry attempt).Ensures
      ((clientSession pr ownClient).protocol SleepsPlainly)
      (fun outcome _ stage => Led headers left outcome stage) memory stage := by
  unfold attemptOnce
  rw [ensures_bind]
  refine clientGet_keepsSession fun answer => ⟨_, between.requests answer, fun resumed => ?_⟩
  rcases answer with raised | response
  · -- the clause of the attempt catches what a request raised exactly if that is retriable
    cases caught : catches raised with
    | true => exact .inl ⟨caught, congrArg (ClientStage.requested left headers) caught⟩
    | false => exact .inr ⟨caught, fun retriable => absurd (caught.symm.trans retriable) nofun⟩
  · rw [onOutcome_ok]
    have stops : response.statusCode < 500 → ∀ outcome,
        Stops (.requested left headers (isRetriable (.ok response))) outcome := by
      intro below outcome retriable
      exact absurd (of_decide_eq_true retriable) (not_le.mpr below)
    split_ifs with success notModified rateLimited serverError
    · have below : response.statusCode < 500 := by omega
      cases reported : response.headSha with
      | error raised => exact .inr ⟨catches_headSha reported, stops below _⟩
      | ok sha => exact stops below (.ok (verdict pr sha))
    · have below : response.statusCode < 500 := by omega
      cases staleEntry with
      | none => exact stops below (.ok .apiError)
      | some entry => exact stops below (.ok (verdict pr entry.sha))
    · have below : response.statusCode < 500 := by omega
      exact stops below (.ok .apiError)
    · obtain ⟨failed, more⟩ := serverError
      cases left with
      | zero => exact absurd more (by omega)
      | succ left =>
          have retriable : isRetriable (.ok response) = true := decide_eq_true failed
          rw [retriable]
          exact (backOff_recovers (by omega)).mono fun _ _ _ recovers => recovers.led
    · intro retriable
      have failed : 500 ≤ response.statusCode := of_decide_eq_true retriable
      by_contra more
      exact serverError ⟨failed, by omega⟩

/-- The `except` clause of an attempt. -/
theorem onTransportError_recovers {attempt left : Nat} (whole : attempt + left + 1 = maxRetries) :
    (onTransportError attempt).Ensures ((clientSession pr ownClient).protocol SleepsPlainly)
      (fun outcome _ stage => Recovers headers left outcome stage) memory
      (.requested left headers true) := by
  unfold onTransportError
  cases left with
  | zero =>
      rw [if_neg (by omega)]
      exact ⟨rfl, rfl⟩
  | succ left =>
      rw [if_pos (by omega)]
      exact backOff_recovers (by omega)

/-- **The attempts** stop where they may. -/
theorem attempts_stop (coming attempt : Nat) (whole : attempt + coming = maxRetries)
    (between : Between headers stage coming) :
    (attempts pr headers staleEntry (List.range' attempt coming)).Ensures
      ((clientSession pr ownClient).protocol SleepsPlainly)
      (fun outcome _ stage => Stops stage outcome) memory stage := by
  induction coming generalizing attempt stage memory with
  | zero =>
      cases stage with
      | untouched => cases between
      | requested left same retriable => exact fun _ => between.1
      | slept left same through => cases between.1
      | closed last => cases between
  | succ left ih =>
      rw [List.range'_succ]
      simp only [attempts, ensures_bind, ensures_tryExcept]
      refine (attemptOnce_led (by omega) between).mono ?_
      rintro (raised | _ | result) memory stage led
      · rw [onOutcome_error]
        obtain ⟨caught, rfl⟩ | ⟨uncaught, stops⟩ := led
        · rw [if_pos caught]
          refine (onTransportError_recovers (by omega)).mono ?_
          rintro (raised | _ | result) memory stage recovers
          · exact recovers.2
          · exact ih (attempt + 1) (by omega) recovers
          · exact recovers.elim
        · rw [if_neg (by simp [uncaught])]
          exact stops
      · exact ih (attempt + 1) (by omega) led
      · exact led

/-! ## The call -/

/-- A call that the cache did not answer closes a client of its own. -/
theorem closeOwn_ends {outcome : Except Raised GuardResult} (stops : Stops stage outcome) :
    (closeOwn ownClient).Ensures ((clientSession pr ownClient).protocol SleepsPlainly)
      (onOutcome (fun _ _ stage => Ends ownClient outcome stage)
        fun raised _ stage => Ends ownClient (.error raised) stage) memory stage := by
  cases ownClient with
  | false =>
      cases stage with
      | requested left headers retriable => exact ⟨rfl, stops⟩
      | slept left headers through => exact ⟨rfl, stops⟩
      | untouched => exact stops.elim
      | closed last => exact stops.elim
  | true =>
      have raises : ∀ raised, Stops stage (.error raised) := by
        intro raised
        cases stage with
        | requested left headers retriable => exact stops
        | slept left headers through => exact ⟨stops.1, raised, rfl⟩
        | untouched => exact stops.elim
        | closed last => exact stops.elim
      have closes : ∀ answer, clientSession pr true stage ⟨.aclose, answer⟩ =
          some (.closed stage) := by
        intro answer
        cases stage with
        | requested left headers retriable => cases left <;> cases retriable <;> rfl
        | slept left headers through => cases through <;> rfl
        | untouched => exact stops.elim
        | closed last => exact stops.elim
      refine Session.ensures_call fun answer _ => ⟨_, closes answer, fun resumed => ?_⟩
      rcases answer with raised | _
      · exact ⟨rfl, raises raised⟩
      · exact ⟨rfl, stops⟩

theorem verdict_cases (sha : Json) : verdict pr sha = .current ∨ verdict pr sha = .stale := by
  unfold verdict
  split
  · exact .inl rfl
  · exact .inr rfl

/-- **A check keeps the session** of its call. -/
theorem checkShaCurrent_keepsSession (githubToken : String) :
    (checkShaCurrent pr githubToken ownClient).Ensures
      ((clientSession pr ownClient).protocol SleepsPlainly)
      (fun outcome _ stage => Ends ownClient outcome stage) memory .untouched := by
  have asks : ∀ staleEntry, (tryFinally
      (attempts pr (requestHeaders githubToken staleEntry) staleEntry (List.range maxRetries))
      (closeOwn ownClient)).Ensures ((clientSession pr ownClient).protocol SleepsPlainly)
        (fun outcome _ stage => Ends ownClient outcome stage) memory .untouched := by
    intro staleEntry
    have starts : Between (requestHeaders githubToken staleEntry) .untouched maxRetries := rfl
    rw [ensures_tryFinally, List.range_eq_range']
    refine (attempts_stop maxRetries 0 (Nat.zero_add _) starts).mono ?_
    intro outcome memory stage stops
    exact closeOwn_ends stops
  simp only [checkShaCurrent, getCached, ensures_bind, ensures_get, onOutcome_ok]
  cases found : memory.shaCache.get (cacheKey pr) with
  | none => simpa [found] using asks none
  | some entry =>
      by_cases fresh : memory.monotonic - entry.fetchedAt < shaCacheTtl
      · have answers : Ends ownClient (.ok (verdict pr entry.sha)) .untouched :=
          (verdict_cases entry.sha).imp (congrArg Except.ok) (congrArg Except.ok)
        simpa [fresh] using answers
      · simpa [found, fresh] using asks (some entry)

/-! ## Guard calls in one process -/

theorem body_keepsSession (call : GuardCall) (memory : GuardMemory) :
    call.body.Ensures (call.session.protocol SleepsPlainly)
      (fun outcome _ stage => Ends call.ownClient outcome stage) memory .untouched := by
  cases call with
  | checkShaCurrent pr githubToken ownClient => exact checkShaCurrent_keepsSession githubToken
  | entryGuard pr githubToken ownClient => exact checkShaCurrent_keepsSession githubToken
  | exitGuard pr githubToken ownClient =>
      refine ensures_bind.mpr ?_
      exact checkShaCurrent_keepsSession githubToken

/-- **Every guard call keeps its session**, in every interleaving: what it has asked is a
path of the session and has at most six awaits, what it waits for is allowed there, and
when it has finished, its requests had stopped and a client of its own is closed. -/
theorem guardCalls_keepSession (memory : GuardMemory) (events : List GuardEvent) :
    ∀ pool ∈ step.visits ⟨memory, [], []⟩ events, ∀ thread ∈ pool.threads,
      (∀ exchange ∈ thread.heard, SleepsPlainly exchange) →
        ∃ stage, thread.call.session.run .untouched thread.heard = some stage ∧
          thread.heard.length ≤ 6 ∧
          (∀ request next, thread.rest = .await request next → ∀ answer,
            SleepsPlainly ⟨request, answer⟩ →
              (thread.call.session stage ⟨request, answer⟩).isSome) ∧
          ∀ outcome, thread.rest = .finish outcome → Ends thread.call.ownClient outcome stage := by
  intro pool visited thread member plain
  obtain ⟨stage, ran, waits, ends⟩ :=
    Session.forall_threads_inSession body_keepsSession memory events pool visited thread member plain
  have bounded := Session.length_add_rank_le (fun _ _ _ => rank_lt) ran
  exact ⟨stage, ran, (Nat.le_add_right ..).trans bounded, waits, ends⟩

/-- A server that fails the first request, and knows the head afterwards. -/
def respondUnavailable : (request : GuardRequest) → Except Raised request.Answer
  | .get _ _ => .ok ⟨503, fun _ => none, none⟩
  | .sleep _ => .ok ()
  | .aclose => .ok ()

/-- A call is answered with a server error, sleeps, tries again and closes its client; another
one is answered in between. -/
theorem retriedCall_keepsSession :
    ∃ stage, (GuardCall.entryGuard ⟨"acme", "myapp", 42, "abc123"⟩ "token" true).session.run
        .untouched
        [⟨.get (pullUrl ⟨"acme", "myapp", 42, "abc123"⟩) (requestHeaders "token" none),
            respondUnavailable (.get _ _)⟩,
          ⟨.sleep (retryBaseDelay * 2 ^ 0), .ok ()⟩,
          ⟨.get (pullUrl ⟨"acme", "myapp", 42, "abc123"⟩) (requestHeaders "token" none),
            respondWithHead "abc123" (.get _ _)⟩,
          ⟨.aclose, .ok ()⟩] = some stage ∧ Ends true (.ok .current) stage := by
  let pr : PrRef := ⟨"acme", "myapp", 42, "abc123"⟩
  let events : List GuardEvent :=
    [.start (.entryGuard pr "token" true), .start (.exitGuard pr "token" false),
      .answer 0 respondUnavailable, .answer 0 (respondWithHead "abc123"),
      .answer 1 (respondWithHead "abc123"), .answer 0 (respondWithHead "abc123"),
      .answer 0 (respondWithHead "abc123")]
  obtain ⟨pool, ran⟩ : ∃ pool, step.run ⟨{}, [], []⟩ events = some pool := ⟨_, rfl⟩
  have visited : pool ∈ step.visits ⟨{}, [], []⟩ events :=
    (Machine.mem_visits_iff ..).mpr ⟨events, [], by simp, ran⟩
  have first : pool.threads[0]? = some ⟨.entryGuard pr "token" true,
      [⟨.get (pullUrl pr) (requestHeaders "token" none), respondUnavailable (.get _ _)⟩,
        ⟨.sleep (retryBaseDelay * 2 ^ 0), .ok ()⟩,
        ⟨.get (pullUrl pr) (requestHeaders "token" none), respondWithHead "abc123" (.get _ _)⟩,
        ⟨.aclose, .ok ()⟩], .finish (.ok .current)⟩ := by
    obtain rfl := Option.some.inj ran
    rfl
  obtain ⟨stage, path, -, -, ends⟩ := guardCalls_keepSession {} events pool visited _
    (List.mem_of_getElem? first) (by simp [SleepsPlainly])
  exact ⟨stage, path, ends _ rfl⟩

end ShaGuard

end Kenjutsu.Pipeline
