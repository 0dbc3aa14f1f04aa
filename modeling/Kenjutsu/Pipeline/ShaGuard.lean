import Mathlib.Data.NNRat.Defs
import Kenjutsu.Foundations.Dicts
import Kenjutsu.Foundations.Pools
import Kenjutsu.Http

/-!
# The sha guards

`entry_guard` and `exit_guard` bracket the review pipeline: each asks GitHub for
the head of the pull request and compares it with the sha under review. Calls
run concurrently and share `_sha_cache`, which answers for five seconds and
lends its etags to conditional requests.

The model is a pool of coroutines over the cache and the monotonic clock. It
interleaves the guard calls at their awaits (a request, the sleep before a
retry, the closing of a client of its own) and lets the server answer anything.

The exit guard never relies on the cache: it evicts the entry, finds none, and
captures no stale entry, all before its first await, so whatever other calls
write meanwhile, its verdict is read from a `200` it received itself.
-/

set_option autoImplicit false

namespace Kenjutsu.Pipeline

open Foundations Foundations.Coroutine Kenjutsu.Http

/-- Outcome of a sha guard check. -/
inductive GuardResult where
  | current
  | stale
  | apiError
deriving DecidableEq, Repr

/-- What a guard needs to know of a pull request. -/
structure PrRef where
  repoOwner : String
  repoName : String
  prNumber : Int
  expectedHeadSha : String
deriving DecidableEq, Repr

/-- An entry of `_sha_cache`. -/
structure CacheEntry where
  sha : Json
  fetchedAt : ℚ
  etag : Option String

/-- What the guard calls of a process share: `_sha_cache`, and the clock that
`time.monotonic` reads. No two readings fall between the same two awaits. -/
structure GuardMemory where
  shaCache : Dict (String × String × Int) CacheEntry := ∅
  monotonic : ℚ := 0

/-- The awaits of a guard. -/
inductive GuardRequest where
  | get (url : String) (headers : List (String × String))
  | sleep (seconds : ℚ)
  | aclose
deriving DecidableEq

/-- A request is answered with a response, the other awaits with nothing. -/
def GuardRequest.Answer : GuardRequest → Type
  | .get _ _ => Response
  | .sleep _ => Unit
  | .aclose => Unit

/-- An asynchronous function of the module. -/
abbrev Guard := Coroutine GuardMemory GuardRequest.Answer Raised

namespace ShaGuard

def githubApiBase : String := "https://api.github.com"

def maxRetries : Nat := 3

def retryBaseDelay : ℚ := 1

/-- `_SHA_CACHE_TTL`, in seconds. -/
def shaCacheTtl : ℚ := 5

/-- `_cache_key`. -/
def cacheKey (pr : PrRef) : String × String × Int := (pr.repoOwner, pr.repoName, pr.prNumber)

/-- `_get_cached`: the sha and etag of an entry that is still fresh. -/
def getCached (pr : PrRef) : Guard (Option (Json × Option String)) := do
  let memory ← get
  match memory.shaCache.get (cacheKey pr) with
  | none => pure none
  | some entry =>
      if memory.monotonic - entry.fetchedAt < shaCacheTtl then
        pure (some (entry.sha, entry.etag))
      else pure none

/-- `_set_cached`. -/
def setCached (pr : PrRef) (sha : Json) (etag : Option String) : Guard Unit :=
  modify fun memory =>
    { memory with shaCache := memory.shaCache.set (cacheKey pr) ⟨sha, memory.monotonic, etag⟩ }

/-- `_evict_cached`. -/
def evictCached (pr : PrRef) : Guard Unit :=
  modify fun memory => { memory with shaCache := memory.shaCache.erase (cacheKey pr) }

/-- `CURRENT` if the sha is the expected one, `STALE` otherwise. -/
def verdict (pr : PrRef) (sha : Json) : GuardResult :=
  if sha.isText pr.expectedHeadSha then .current else .stale

def pullUrl (pr : PrRef) : String :=
  githubApiBase ++ "/repos/" ++ pr.repoOwner ++ "/" ++ pr.repoName ++ "/pulls/" ++
    toString pr.prNumber

/-- The headers of the request: conditional when there is an entry, however old,
with a non-empty etag. -/
def requestHeaders (githubToken : String) (staleEntry : Option CacheEntry) :
    List (String × String) :=
  [("Authorization", "Bearer " ++ githubToken), ("Accept", "application/vnd.github+json"),
    ("X-GitHub-Api-Version", "2022-11-28")] ++
    match staleEntry.bind CacheEntry.etag with
    | none => []
    | some etag => if etag = "" then [] else [("If-None-Match", etag)]

/-- `client.get`. -/
def clientGet (url : String) (headers : List (String × String)) : Guard Response :=
  call (GuardRequest.get url headers)

/-- `asyncio.sleep` before the retry of an attempt. -/
def backOff (attempt : Nat) : Guard Unit := call (GuardRequest.sleep (retryBaseDelay * 2 ^ attempt))

/-- The body of the `try` of one attempt; `none` is `continue`. -/
def attemptOnce (pr : PrRef) (headers : List (String × String)) (staleEntry : Option CacheEntry)
    (attempt : Nat) : Guard (Option GuardResult) := do
  let response ← clientGet (pullUrl pr) headers
  if response.statusCode = 200 then do
    let currentSha ← ofExcept response.headSha
    setCached pr currentSha (response.headers "ETag")
    pure (some (verdict pr currentSha))
  else if response.statusCode = 304 then
    -- not modified: the entry captured before the request is still current
    match staleEntry with
    | none => pure (some .apiError)
    | some entry => do
        setCached pr entry.sha entry.etag
        pure (some (verdict pr entry.sha))
  else if response.statusCode = 403 ∨ response.statusCode = 429 then pure (some .apiError)
  else if 500 ≤ response.statusCode ∧ attempt < maxRetries - 1 then do
    backOff attempt
    pure none
  else pure (some .apiError)

/-- The exceptions the `except` clause of an attempt names. -/
def catches : Raised → Bool
  | .timeoutException | .connectError | .networkError => true
  | _ => false

/-- The `except` clause of an attempt: it sleeps unless the attempt is the last. -/
def onTransportError (attempt : Nat) : Guard (Option GuardResult) :=
  if attempt < maxRetries - 1 then do
    backOff attempt
    pure none
  else pure none

/-- The `for` loop over the attempts, and the answer after the last of them. -/
def attempts (pr : PrRef) (headers : List (String × String)) (staleEntry : Option CacheEntry) :
    List Nat → Guard GuardResult
  | [] => pure .apiError
  | attempt :: rest => do
      let result ← tryExcept (attemptOnce pr headers staleEntry attempt) catches
        fun _ => onTransportError attempt
      match result with
      | some result => pure result
      | none => attempts pr headers staleEntry rest

/-- `client.aclose()` in the `finally`, for a client the call made itself. -/
def closeOwn (ownClient : Bool) : Guard Unit :=
  if ownClient then call GuardRequest.aclose else pure ()

/-- `check_sha_current`. -/
def checkShaCurrent (pr : PrRef) (githubToken : String) (ownClient : Bool) :
    Guard GuardResult := do
  match ← getCached pr with
  | some (cachedSha, _) => pure (verdict pr cachedSha)
  | none => do
      let memory ← get
      let staleEntry := memory.shaCache.get (cacheKey pr)
      tryFinally
        (attempts pr (requestHeaders githubToken staleEntry) staleEntry (List.range maxRetries))
        (closeOwn ownClient)

/-- `entry_guard`. -/
def entryGuard (pr : PrRef) (githubToken : String) (ownClient : Bool) : Guard GuardResult :=
  checkShaCurrent pr githubToken ownClient

/-- `exit_guard`. -/
def exitGuard (pr : PrRef) (githubToken : String) (ownClient : Bool) : Guard GuardResult := do
  evictCached pr
  checkShaCurrent pr githubToken ownClient

/-! ## Guard calls in one process -/

/-- A call of one of the three functions. `ownClient` says that no client was
passed. -/
inductive GuardCall where
  | checkShaCurrent (pr : PrRef) (githubToken : String) (ownClient : Bool)
  | entryGuard (pr : PrRef) (githubToken : String) (ownClient : Bool)
  | exitGuard (pr : PrRef) (githubToken : String) (ownClient : Bool)
deriving DecidableEq, Repr

def GuardCall.body : GuardCall → Guard GuardResult
  | .checkShaCurrent pr githubToken ownClient => ShaGuard.checkShaCurrent pr githubToken ownClient
  | .entryGuard pr githubToken ownClient => ShaGuard.entryGuard pr githubToken ownClient
  | .exitGuard pr githubToken ownClient => ShaGuard.exitGuard pr githubToken ownClient

/-- Time passes. -/
def tick (elapsed : ℚ≥0) (memory : GuardMemory) : GuardMemory :=
  { memory with monotonic := memory.monotonic + elapsed }

abbrev GuardExchange := Exchange GuardRequest.Answer Raised

abbrev GuardRecord := Pool.Record GuardRequest.Answer Raised

abbrev GuardPool := Pool GuardCall GuardMemory GuardRequest.Answer Raised GuardResult

abbrev GuardEvent := PoolEvent GuardCall ℚ≥0 GuardRequest.Answer Raised

/-- Calls start, are answered at their awaits, and time passes. -/
def step : Machine GuardPool GuardEvent := Pool.step GuardCall.body tick

/-! ## A guard call, from its first request on -/

/-- The response an exchange brought, if it was a request and did not raise. -/
def received : GuardExchange → Option Response
  | ⟨.get _ _, .ok response⟩ => some response
  | _ => none

/-- The exchange brought neither a `200` nor a `304`. -/
def Idle (exchange : GuardExchange) : Prop :=
  ∀ response, received exchange = some response →
    response.statusCode ≠ 200 ∧ response.statusCode ≠ 304

/-- The memory after `_set_cached`. -/
def stored (pr : PrRef) (sha : Json) (etag : Option String) (memory : GuardMemory) : GuardMemory :=
  { memory with shaCache := memory.shaCache.set (cacheKey pr) ⟨sha, memory.monotonic, etag⟩ }

/-- The request of a call, answered with a response. -/
def answered (pr : PrRef) (headers : List (String × String)) (response : Response) :
    GuardExchange :=
  ⟨.get (pullUrl pr) headers, .ok response⟩

@[simp] theorem received_answered (pr : PrRef) (headers : List (String × String))
    (response : Response) : received (answered pr headers response) = some response := rfl

/-- What the requests of a call come to, for an invariant of the pool, a fact
that stands while the call goes on, and a property of its outcome: each of the
ways an attempt can end keeps them. -/
structure Account (pr : PrRef) (headers : List (String × String))
    (staleEntry : Option CacheEntry) (invariant : GuardMemory → List GuardExchange → Prop)
    (going : GuardRecord → Prop) (settled : Except Raised GuardResult → GuardRecord → Prop) :
    Prop where
  idle : ∀ memory log exchange, invariant memory log → Idle exchange →
    invariant memory (log ++ [exchange])
  goes_on : ∀ record others exchange, going record → Idle exchange →
    going (record.hears others exchange)
  stays_settled : ∀ outcome record others answer, settled outcome record →
    settled outcome (record.hears others ⟨.aclose, answer⟩)
  givesUp : ∀ record, going record → settled (.ok .apiError) record
  fails : ∀ raised record, settled (.error raised) record
  /-- A `200` reports a sha. -/
  reports : ∀ memory record others response sha, going record →
    invariant memory (record.log ++ others) → response.statusCode = 200 →
    response.headSha = .ok sha →
    invariant (stored pr sha (response.headers "ETag") memory)
        (record.hears others (answered pr headers response)).log ∧
      settled (.ok (verdict pr sha)) (record.hears others (answered pr headers response))
  /-- A `200` reports none. -/
  undecodable : ∀ memory record others response raised, going record →
    invariant memory (record.log ++ others) → response.statusCode = 200 →
    response.headSha = .error raised →
    invariant memory (record.hears others (answered pr headers response)).log ∧
      going (record.hears others (answered pr headers response))
  /-- A `304` confirms the entry captured before the request. -/
  confirms : ∀ memory record others response entry, going record →
    invariant memory (record.log ++ others) → response.statusCode = 304 →
    staleEntry = some entry →
    invariant (stored pr entry.sha entry.etag memory)
        (record.hears others (answered pr headers response)).log ∧
      settled (.ok (verdict pr entry.sha)) (record.hears others (answered pr headers response))
  /-- A `304` has no entry to confirm. -/
  unfounded : ∀ memory record others response, going record →
    invariant memory (record.log ++ others) → response.statusCode = 304 → staleEntry = none →
    invariant memory (record.hears others (answered pr headers response)).log ∧
      settled (.ok .apiError) (record.hears others (answered pr headers response))

theorem idle_sleep (seconds : ℚ) (answer : Except Raised Unit) :
    Idle ⟨.sleep seconds, answer⟩ := by
  rintro response ⟨⟩

theorem idle_aclose (answer : Except Raised Unit) : Idle ⟨.aclose, answer⟩ := by
  rintro response ⟨⟩

theorem idle_raised (request : GuardRequest) (raised : Raised) :
    Idle ⟨request, .error raised⟩ := by
  rintro response brought
  cases request <;> cases brought

theorem idle_answered {pr : PrRef} {headers : List (String × String)} {response : Response}
    (notFull : response.statusCode ≠ 200) (modified : response.statusCode ≠ 304) :
    Idle (answered pr headers response) := by
  rintro response' ⟨⟩
  exact ⟨notFull, modified⟩

namespace Account

variable {pr : PrRef} {headers : List (String × String)} {staleEntry : Option CacheEntry}
  {invariant : GuardMemory → List GuardExchange → Prop} {going : GuardRecord → Prop}
  {settled : Except Raised GuardResult → GuardRecord → Prop}

/-- What an attempt leads to: a verdict, another attempt, or an exception. -/
def Leads (invariant : GuardMemory → List GuardExchange → Prop) (going : GuardRecord → Prop)
    (settled : Except Raised GuardResult → GuardRecord → Prop)
    (outcome : Except Raised (Option GuardResult)) (memory : GuardMemory) (record : GuardRecord) :
    Prop :=
  invariant memory record.log ∧
    match outcome with
    | .ok (some result) => settled (.ok result) record
    | .ok none | .error _ => going record

variable (account : Account pr headers staleEntry invariant going settled)
include account

omit account in
theorem ensures_clientGet {url : String} {after : Except Raised Response → GuardMemory →
    GuardRecord → Prop} {memory : GuardMemory} {record : GuardRecord} :
    (clientGet url headers).Ensures (Pool.protocol invariant) after memory record ↔
      invariant memory record.log ∧ ∀ answer resumed others,
        invariant resumed (record.log ++ others) →
          after answer resumed (record.hears others ⟨.get url headers, answer⟩) :=
  Pool.ensures_call

/-- The sleep before the next attempt. -/
theorem backOff_leads (attempt : Nat) {memory : GuardMemory} {record : GuardRecord}
    (kept : invariant memory record.log) (goes : going record) :
    (do backOff attempt; pure none : Guard (Option GuardResult)).Ensures
      (Pool.protocol invariant) (Leads invariant going settled) memory record := by
  refine ensures_bind.mpr (Pool.ensures_call.mpr ⟨kept, ?_⟩)
  rintro (raised | _) resumed others kept
  · exact ⟨account.idle _ _ _ kept (idle_sleep _ _),
      account.goes_on _ _ _ goes (idle_sleep _ _)⟩
  · exact ⟨account.idle _ _ _ kept (idle_sleep _ _),
      account.goes_on _ _ _ goes (idle_sleep _ _)⟩

/-- One attempt. -/
theorem attemptOnce_leads (attempt : Nat) {memory : GuardMemory} {record : GuardRecord}
    (kept : invariant memory record.log) (goes : going record) :
    (attemptOnce pr headers staleEntry attempt).Ensures (Pool.protocol invariant)
      (Leads invariant going settled) memory record := by
  refine ensures_bind.mpr (ensures_clientGet.mpr ⟨kept, ?_⟩)
  rintro (raised | response) resumed others kept
  · exact ⟨account.idle _ _ _ kept (idle_raised _ raised),
      account.goes_on _ _ _ goes (idle_raised _ raised)⟩
  -- a response that is neither a `200` nor a `304` changes nothing
  have waits : response.statusCode ≠ 200 → response.statusCode ≠ 304 →
      invariant resumed (record.hears others (answered pr headers response)).log ∧
        going (record.hears others (answered pr headers response)) := fun notFull modified =>
    ⟨account.idle _ _ _ kept (idle_answered notFull modified),
      account.goes_on _ _ _ goes (idle_answered notFull modified)⟩
  rw [onOutcome_ok]
  split_ifs with success notModified rateLimited serverError
  · cases reported : response.headSha with
    | error raised => exact account.undecodable _ _ _ _ _ goes kept success reported
    | ok sha => exact account.reports _ _ _ _ _ goes kept success reported
  · cases captured : staleEntry with
    | none => exact account.unfounded _ _ _ _ goes kept notModified captured
    | some entry => exact account.confirms _ _ _ _ _ goes kept notModified captured
  · obtain ⟨kept, stillGoes⟩ := waits success notModified
    exact ⟨kept, account.givesUp _ stillGoes⟩
  · obtain ⟨kept, stillGoes⟩ := waits success notModified
    exact account.backOff_leads attempt kept stillGoes
  · obtain ⟨kept, stillGoes⟩ := waits success notModified
    exact ⟨kept, account.givesUp _ stillGoes⟩

/-- The `except` clause of an attempt. -/
theorem onTransportError_leads (attempt : Nat) {memory : GuardMemory} {record : GuardRecord}
    (kept : invariant memory record.log) (goes : going record) :
    (onTransportError attempt).Ensures (Pool.protocol invariant)
      (Leads invariant going settled) memory record := by
  unfold onTransportError
  split_ifs
  · exact account.backOff_leads attempt kept goes
  · exact ⟨kept, goes⟩

/-- What the requests of a call ensure: the invariant is kept, and the outcome is
settled. -/
abbrev Settles (invariant : GuardMemory → List GuardExchange → Prop)
    (settled : Except Raised GuardResult → GuardRecord → Prop)
    (outcome : Except Raised GuardResult) (memory : GuardMemory) (record : GuardRecord) : Prop :=
  invariant memory record.log ∧ settled outcome record

/-- The attempts together. -/
theorem attempts_settle (left : List Nat) {memory : GuardMemory} {record : GuardRecord}
    (kept : invariant memory record.log) (goes : going record) :
    (attempts pr headers staleEntry left).Ensures (Pool.protocol invariant)
      (Settles invariant settled) memory record := by
  induction left generalizing memory record with
  | nil => exact ⟨kept, account.givesUp _ goes⟩
  | cons attempt left ih =>
      -- an attempt, or its handler, yields a verdict, raises, or goes on to the attempts left
      have goesOn : ∀ (outcome : Except Raised (Option GuardResult)) memory record,
          Leads invariant going settled outcome memory record →
          onOutcome (fun result memory record =>
              (match result with
                | some result => pure result
                | none => attempts pr headers staleEntry left).Ensures (Pool.protocol invariant)
                (Settles invariant settled) memory record)
            (fun raised memory record => Settles invariant settled (.error raised) memory record)
            outcome memory record := by
        rintro (raised | _ | result) memory record ⟨kept, rest⟩
        · exact ⟨kept, account.fails raised record⟩
        · exact ih kept rest
        · exact ⟨kept, rest⟩
      simp only [attempts, ensures_bind, ensures_tryExcept]
      apply (account.attemptOnce_leads attempt kept goes).mono
      rintro (raised | result) memory record leads
      · rw [onOutcome_error]
        split_ifs
        · exact (account.onTransportError_leads attempt leads.1 leads.2).mono goesOn
        · exact ⟨leads.1, account.fails raised record⟩
      · exact goesOn (.ok result) memory record leads

/-- Closing the client of the call. -/
theorem closeOwn_settles (ownClient : Bool) {outcome : Except Raised GuardResult}
    {memory : GuardMemory} {record : GuardRecord}
    (settles : Settles invariant settled outcome memory record) :
    (closeOwn ownClient).Ensures (Pool.protocol invariant)
      (onOutcome (fun _ => Settles invariant settled outcome)
        fun raised => Settles invariant settled (.error raised)) memory record := by
  cases ownClient with
  | false => exact settles
  | true =>
      refine Pool.ensures_call.mpr ⟨settles.1, ?_⟩
      rintro (raised | _) resumed others kept
      · exact ⟨account.idle _ _ _ kept (idle_aclose _), account.fails raised _⟩
      · exact ⟨account.idle _ _ _ kept (idle_aclose _),
          account.stays_settled _ _ _ _ settles.2⟩

/-- **The requests of a call, and the closing of its client.** -/
theorem requests_settle (ownClient : Bool) {memory : GuardMemory} {record : GuardRecord}
    (kept : invariant memory record.log) (goes : going record) :
    (tryFinally (attempts pr headers staleEntry (List.range maxRetries))
        (closeOwn ownClient)).Ensures (Pool.protocol invariant) (Settles invariant settled)
      memory record := by
  rw [ensures_tryFinally]
  apply (account.attempts_settle _ kept goes).mono
  intro outcome memory record settles
  exact account.closeOwn_settles ownClient settles

end Account

/-- **A check, from an account of its requests**: an entry that is still fresh
answers at once, and otherwise the call captures the entry it finds, if any. -/
theorem checkShaCurrent_settles {pr : PrRef} {githubToken : String} {ownClient : Bool}
    {invariant : GuardMemory → List GuardExchange → Prop} {going : GuardRecord → Prop}
    {settled : Except Raised GuardResult → GuardRecord → Prop} {memory : GuardMemory}
    {record : GuardRecord}
    (account : Account pr (requestHeaders githubToken (memory.shaCache.get (cacheKey pr)))
      (memory.shaCache.get (cacheKey pr)) invariant going settled)
    (kept : invariant memory record.log) (goes : going record)
    (cached : ∀ entry, memory.shaCache.get (cacheKey pr) = some entry →
      settled (.ok (verdict pr entry.sha)) record) :
    (checkShaCurrent pr githubToken ownClient).Ensures (Pool.protocol invariant)
      (Account.Settles invariant settled) memory record := by
  have asks := account.requests_settle ownClient kept goes
  simp only [checkShaCurrent, getCached, ensures_bind, ensures_get, onOutcome_ok]
  cases found : memory.shaCache.get (cacheKey pr) with
  | none => simpa [found] using asks
  | some entry =>
      rw [found] at asks
      by_cases fresh : memory.monotonic - entry.fetchedAt < shaCacheTtl
      · simpa [fresh] using And.intro kept (cached entry found)
      · simpa [found, fresh] using asks

/-! ## The exit guard decides on fresh evidence -/

/-- A verdict rests on the last response received: it is a `200`, and the head
sha it reports is compared with the expected one. -/
def FreshVerdict (pr : PrRef) (heard : List GuardExchange) (result : GuardResult) : Prop :=
  ∃ response sha, (heard.filterMap received).getLast? = some response ∧
    response.statusCode = 200 ∧ response.headSha = .ok sha ∧
    (result = .current ∧ sha = .string pr.expectedHeadSha ∨
      result = .stale ∧ sha ≠ .string pr.expectedHeadSha)

/-- What an exit guard's outcome rests on: `CURRENT` and `STALE` are fresh
verdicts. -/
def RestsOnFresh (pr : PrRef) (heard : List GuardExchange) :
    Except Raised GuardResult → Prop
  | .ok .apiError => True
  | .ok result => FreshVerdict pr heard result
  | .error _ => True

/-- What hears nothing new but the end of a sleep or a close leaves the last
response as it was. -/
theorem restsOnFresh_append {pr : PrRef} {heard : List GuardExchange} {exchange : GuardExchange}
    {outcome : Except Raised GuardResult} (silent : received exchange = none)
    (fresh : RestsOnFresh pr heard outcome) : RestsOnFresh pr (heard ++ [exchange]) outcome := by
  have same : (heard ++ [exchange]).filterMap received = heard.filterMap received := by
    simp [silent]
  cases outcome with
  | error raised => trivial
  | ok result =>
      cases result with
      | apiError => trivial
      | current => simpa only [RestsOnFresh, FreshVerdict, same] using fresh
      | stale => simpa only [RestsOnFresh, FreshVerdict, same] using fresh

/-- A `200` just received makes its verdict fresh. -/
theorem restsOnFresh_verdict {pr : PrRef} {heard : List GuardExchange} {url : String}
    {headers : List (String × String)} {response : Response} {sha : Json}
    (success : response.statusCode = 200) (reported : response.headSha = .ok sha) :
    RestsOnFresh pr (heard ++ [⟨.get url headers, .ok response⟩]) (.ok (verdict pr sha)) := by
  let heardNow : GuardExchange := ⟨.get url headers, .ok response⟩
  have last : ((heard ++ [heardNow]).filterMap received).getLast? = some response := by
    simp [heardNow, received]
  unfold verdict
  split
  case isTrue same =>
    exact ⟨response, sha, last, success, reported, .inl ⟨rfl, (Json.isText_iff ..).mp same⟩⟩
  case isFalse differs =>
    refine ⟨response, sha, last, success, reported, .inr ⟨rfl, ?_⟩⟩
    exact fun same => differs ((Json.isText_iff ..).mpr same)

/-- The exit guard asks nothing of the shared cache. -/
abbrev anyMemory : GuardMemory → List GuardExchange → Prop := fun _ _ => True

/-- Without a stale entry a `304` yields no verdict, so every verdict is fresh. -/
theorem account_fresh (pr : PrRef) (headers : List (String × String)) :
    Account pr headers none anyMemory (fun _ => True)
      (fun outcome record => RestsOnFresh pr record.heard outcome) where
  idle _ _ _ _ _ := trivial
  goes_on _ _ _ _ _ := trivial
  stays_settled _ _ _ _ fresh := restsOnFresh_append rfl fresh
  givesUp _ _ := trivial
  fails _ _ := trivial
  reports _ _ _ _ _ _ _ success reported := ⟨trivial, restsOnFresh_verdict success reported⟩
  undecodable _ _ _ _ _ _ _ _ _ := ⟨trivial, trivial⟩
  confirms _ _ _ _ _ _ _ _ captured := nomatch captured
  unfounded _ _ _ _ _ _ _ _ := ⟨trivial, trivial⟩

/-- The exit guard finds no entry, fresh or stale: it has just evicted it, and
nothing runs between the eviction and the two lookups. -/
theorem exitGuard_ensures_fresh (pr : PrRef) (githubToken : String) (ownClient : Bool)
    (memory : GuardMemory) (record : GuardRecord) :
    (exitGuard pr githubToken ownClient).Ensures (Pool.protocol anyMemory)
      (Account.Settles anyMemory fun outcome record => RestsOnFresh pr record.heard outcome)
      memory record := by
  let evicted : GuardMemory :=
    { memory with shaCache := memory.shaCache.erase (cacheKey pr) }
  have nothing : evicted.shaCache.get (cacheKey pr) = none := by simp [evicted]
  have account : Account pr (requestHeaders githubToken (evicted.shaCache.get (cacheKey pr)))
      (evicted.shaCache.get (cacheKey pr)) anyMemory (fun _ => True)
      (fun outcome record => RestsOnFresh pr record.heard outcome) := by
    rw [nothing]
    exact account_fresh pr _
  refine ensures_bind.mpr (checkShaCurrent_settles account trivial trivial ?_)
  intro entry found
  rw [nothing] at found
  cases found

/-- What is asked of the exit guards, and of no other call. -/
def ExitRestsOnFresh : GuardCall → GuardRecord → Except Raised GuardResult → Prop
  | .exitGuard pr _ _, record, outcome => RestsOnFresh pr record.heard outcome
  | _, _, _ => True

theorem exitRestsOnFresh_stands : Pool.Stands ExitRestsOnFresh := by
  intro call log heard outcome more fresh
  cases call <;> exact fresh

theorem body_ensures_fresh (call : GuardCall) (memory : GuardMemory) (log : List GuardExchange) :
    call.body.Ensures (Pool.protocol anyMemory) (Pool.Delivers anyMemory ExitRestsOnFresh call)
      memory ⟨log, []⟩ := by
  cases call with
  | checkShaCurrent pr githubToken ownClient =>
      exact ensures_of_forall (fun _ _ _ => trivial) (fun _ _ _ => ⟨trivial, trivial⟩) _
  | entryGuard pr githubToken ownClient =>
      exact ensures_of_forall (fun _ _ _ => trivial) (fun _ _ _ => ⟨trivial, trivial⟩) _
  | exitGuard pr githubToken ownClient =>
      exact exitGuard_ensures_fresh pr githubToken ownClient memory ⟨log, []⟩

/-- **The exit guard always decides on fresh evidence.** Whatever the cache holds
and however the calls of a process interleave, an exit guard that returned
`CURRENT` or `STALE` has received a `200` in this very call, no other response
after it, and its verdict is the comparison of the head sha reported there with
the expected one. -/
theorem exitGuard_decides_fresh (memory : GuardMemory) (events : List GuardEvent) :
    ∀ pool ∈ step.visits ⟨memory, [], []⟩ events, ∀ thread ∈ pool.threads,
      ∀ pr githubToken ownClient, thread.call = .exitGuard pr githubToken ownClient →
        ∀ result, thread.rest = .finish (.ok result) → result ≠ .apiError →
          FreshVerdict pr thread.heard result := by
  intro pool visited thread member pr githubToken ownClient called result finished decided
  have rests := (Pool.forall_threads exitRestsOnFresh_stands
    (fun call memory log _ => body_ensures_fresh call memory log)
    (fun _ _ _ _ => trivial) trivial events pool visited).2 thread member _ finished
  rw [called] at rests
  cases result with
  | apiError => exact absurd rfl decided
  | current => exact rests
  | stale => exact rests

/-- A server whose pull request has the given head answers every request. -/
def respondWithHead (sha : String) : (request : GuardRequest) → Except Raised request.Answer
  | .get _ _ => .ok ⟨200, fun _ => none, some (.object [("head", .object [("sha", .string sha)])])⟩
  | .sleep _ => .ok ()
  | .aclose => .ok ()

/-- The cache still holds the expected sha, a push has moved the head, and
another call refills the cache while the exit guard waits. -/
theorem exitGuard_stale_after_push :
    FreshVerdict ⟨"acme", "myapp", 42, "abc123def456"⟩
      [⟨.get (pullUrl ⟨"acme", "myapp", 42, "abc123def456"⟩) (requestHeaders "token" none),
        respondWithHead "999000111222" (.get _ _)⟩] .stale := by
  let pr : PrRef := ⟨"acme", "myapp", 42, "abc123def456"⟩
  let primed : GuardMemory :=
    { shaCache := Dict.set ∅ (cacheKey pr) ⟨.string "abc123def456", 0, none⟩ }
  let events : List GuardEvent :=
    [.start (.exitGuard pr "token" false), .start (.entryGuard pr "token" false),
      .answer 1 (respondWithHead "abc123def456"), .answer 0 (respondWithHead "999000111222")]
  obtain ⟨pool, ran⟩ : ∃ pool, step.run ⟨primed, [], []⟩ events = some pool := ⟨_, rfl⟩
  have visited : pool ∈ step.visits ⟨primed, [], []⟩ events :=
    (Machine.mem_visits_iff ..).mpr ⟨events, [], by simp, ran⟩
  have first : pool.threads[0]? = some ⟨.exitGuard pr "token" false,
      [⟨.get (pullUrl pr) (requestHeaders "token" none),
        respondWithHead "999000111222" (.get _ _)⟩], .finish (.ok .stale)⟩ := by
    obtain rfl := Option.some.inj ran
    rfl
  exact exitGuard_decides_fresh primed events pool visited _ (List.mem_of_getElem? first) pr "token"
    false rfl .stale rfl (by decide)

end ShaGuard

end Kenjutsu.Pipeline
