import Kenjutsu.Pipeline.ShaGuard

/-!
# Conditional requests

A guard call puts the etag of the entry it finds into the headers before its
first await, and reads the sha of the entry it captured then when a `304`
arrives, after up to three attempts. In between other calls evict and rewrite
the entry.

Every entry holds a sha and an etag that one `200` delivered together, whoever
wrote it and on which branch (`Paired`). So the verdict on a `304` compares the
sha that was delivered with the very etag the request carried. If GitHub
answers `304` only while the representation with that etag is the current one,
a `200` would have led to the same verdict.
-/

set_option autoImplicit false

namespace Kenjutsu.Pipeline

open Foundations Foundations.Coroutine Kenjutsu.Http

namespace ShaGuard

/-! ## What the cache holds -/

/-- A `200` for the pull request delivered the sha together with the etag. -/
def Delivered (log : List GuardExchange) (pr : PrRef) (sha : Json) (etag : Option String) : Prop :=
  ∃ headers response, answered pr headers response ∈ log ∧ response.statusCode = 200 ∧
    response.headSha = .ok sha ∧ response.headers "ETag" = etag

/-- Every entry holds a sha and an etag that were delivered together for its
pull request. -/
def Paired (memory : GuardMemory) (log : List GuardExchange) : Prop :=
  ∀ pr entry, memory.shaCache.get (cacheKey pr) = some entry →
    Delivered log pr entry.sha entry.etag

theorem Delivered.grow {log : List GuardExchange} {pr : PrRef} {sha : Json}
    {etag : Option String} (delivered : Delivered log pr sha etag)
    (more : List GuardExchange) : Delivered (log ++ more) pr sha etag := by
  obtain ⟨headers, response, member, rest⟩ := delivered
  exact ⟨headers, response, List.mem_append_left more member, rest⟩

theorem Paired.grow {memory : GuardMemory} {log : List GuardExchange}
    (paired : Paired memory log) (more : List GuardExchange) : Paired memory (log ++ more) :=
  fun pr entry found => (paired pr entry found).grow more

theorem pullUrl_eq_of_cacheKey_eq {first second : PrRef}
    (same : cacheKey first = cacheKey second) : pullUrl first = pullUrl second := by
  simp only [cacheKey, Prod.mk.injEq] at same
  obtain ⟨owner, name, number⟩ := same
  simp only [pullUrl, owner, name, number]

/-- Requests are made for a pull request, whatever sha is expected of it. -/
theorem Delivered.congr {log : List GuardExchange} {first second : PrRef} {sha : Json}
    {etag : Option String} (delivered : Delivered log first sha etag)
    (same : cacheKey first = cacheKey second) : Delivered log second sha etag := by
  obtain ⟨headers, response, member, rest⟩ := delivered
  have sameExchange : answered first headers response = answered second headers response :=
    congrArg (fun url => (⟨.get url headers, .ok response⟩ : GuardExchange))
      (pullUrl_eq_of_cacheKey_eq same)
  exact ⟨headers, response, sameExchange ▸ member, rest⟩

/-- Storing what was delivered keeps the entries paired. -/
theorem Paired.stored {memory : GuardMemory} {log : List GuardExchange}
    (paired : Paired memory log) {pr : PrRef} {sha : Json} {etag : Option String}
    (delivered : Delivered log pr sha etag) : Paired (stored pr sha etag memory) log := by
  intro other entry found
  simp only [ShaGuard.stored, Dict.get_set] at found
  by_cases same : cacheKey other = cacheKey pr
  · rw [if_pos same] at found
    obtain rfl := Option.some.inj found
    exact delivered.congr same.symm
  · rw [if_neg same] at found
    exact paired other entry found

theorem Paired.evicted {memory : GuardMemory} {log : List GuardExchange}
    (paired : Paired memory log) (pr : PrRef) :
    Paired { memory with shaCache := memory.shaCache.erase (cacheKey pr) } log := by
  intro other entry found
  simp only [Dict.get_erase] at found
  split at found
  · cases found
  · exact paired other entry found

/-! ## What a verdict on a `304` compares -/

/-- The etag a request carries. -/
def ifNoneMatch (headers : List (String × String)) : Option String :=
  headers.lookup "If-None-Match"

/-- A request carries the etag of the entry it captured, unless that is empty. -/
theorem ifNoneMatch_requestHeaders (githubToken : String) (staleEntry : Option CacheEntry) :
    ifNoneMatch (requestHeaders githubToken staleEntry) =
      (staleEntry.bind CacheEntry.etag).filter fun etag => etag ≠ "" := by
  unfold requestHeaders ifNoneMatch
  cases staleEntry.bind CacheEntry.etag with
  | none => rfl
  | some etag =>
      by_cases empty : etag = ""
      · simp [empty, List.lookup_cons, Option.filter_some]
      · simp [empty, List.lookup_cons, Option.filter_some]

/-- The headers of the request that was answered with a response, and the
response. -/
def responded : GuardExchange → Option (List (String × String) × Response)
  | ⟨.get _ headers, .ok response⟩ => some (headers, response)
  | _ => none

/-- The last response a call has received. -/
def lastResponse (heard : List GuardExchange) : Option (List (String × String) × Response) :=
  (heard.filterMap responded).getLast?

theorem received_eq (exchange : GuardExchange) :
    received exchange = (responded exchange).map Prod.snd := by
  obtain ⟨request, answer⟩ := exchange
  cases request <;> cases answer <;> rfl

theorem lastResponse_append (heard : List GuardExchange) (exchange : GuardExchange) :
    lastResponse (heard ++ [exchange]) = (responded exchange).or (lastResponse heard) := by
  unfold lastResponse
  cases last : responded exchange with
  | none => simp [last]
  | some response => simp [last]

/-- The last response is not a `304`. -/
def NotConfirmed (heard : List GuardExchange) : Prop :=
  ∀ headers response, lastResponse heard = some (headers, response) → response.statusCode ≠ 304

theorem NotConfirmed.idle {heard : List GuardExchange} (notConfirmed : NotConfirmed heard)
    {exchange : GuardExchange} (idle : Idle exchange) : NotConfirmed (heard ++ [exchange]) := by
  intro headers response last
  rw [lastResponse_append] at last
  cases brought : responded exchange with
  | none =>
      rw [brought] at last
      exact notConfirmed headers response last
  | some pair =>
      rw [brought] at last
      obtain rfl := Option.some.inj last
      exact (idle response (by rw [received_eq, brought]; rfl)).2

/-- A verdict compares the sha that was delivered with exactly the etag that the
request carried. -/
def ComparesSent (log : List GuardExchange) (pr : PrRef) (headers : List (String × String))
    (result : GuardResult) : Prop :=
  ∃ sha etag, Delivered log pr sha etag ∧
    ifNoneMatch headers = etag.filter (fun etag => etag ≠ "") ∧ result = verdict pr sha

/-- What a call that was answered `304` returns: the request carried no etag and
the call answers `API_ERROR`, or the verdict compares what was delivered with the
etag. -/
structure OnNotModified (log : List GuardExchange) (pr : PrRef)
    (headers : List (String × String)) (response : Response) (result : GuardResult) : Prop where
  logged : answered pr headers response ∈ log
  compares : result = .apiError ∧ ifNoneMatch headers = none ∨ ComparesSent log pr headers result

/-- The property of an outcome: if the last response was a `304`, the result
follows from it as it should. -/
def SettledByEtag (pr : PrRef) (outcome : Except Raised GuardResult) (record : GuardRecord) :
    Prop :=
  ∀ result headers response, outcome = .ok result →
    lastResponse record.heard = some (headers, response) → response.statusCode = 304 →
    OnNotModified record.log pr headers response result

theorem OnNotModified.grow {log : List GuardExchange} {pr : PrRef}
    {headers : List (String × String)} {response : Response} {result : GuardResult}
    (settled : OnNotModified log pr headers response result) (more : List GuardExchange) :
    OnNotModified (log ++ more) pr headers response result := by
  refine ⟨List.mem_append_left more settled.logged, ?_⟩
  rcases settled.compares with unconditional | ⟨sha, etag, delivered, rest⟩
  · exact .inl unconditional
  · exact .inr ⟨sha, etag, delivered.grow more, rest⟩

/-- What stands while a call goes on: what it captured was delivered, and it has
not been answered `304`. -/
def Asking (pr : PrRef) (staleEntry : Option CacheEntry) (record : GuardRecord) : Prop :=
  (∀ entry, staleEntry = some entry → Delivered record.log pr entry.sha entry.etag) ∧
    NotConfirmed record.heard

/-- The exchange just answered is in the log. -/
theorem answered_mem_hears (pr : PrRef) (headers : List (String × String)) (response : Response)
    (record : GuardRecord) (others : List GuardExchange) :
    answered pr headers response ∈ (record.hears others (answered pr headers response)).log :=
  List.mem_append_right _ (List.mem_singleton_self _)

/-- A response that is not a `304` settles nothing. -/
theorem NotConfirmed.settled {pr : PrRef} {outcome : Except Raised GuardResult}
    {record : GuardRecord} (notConfirmed : NotConfirmed record.heard) :
    SettledByEtag pr outcome record :=
  fun _ headers response _ last notModified =>
    absurd notModified (notConfirmed headers response last)

/-- What was captured is still delivered when the call hears more. -/
theorem Delivered.hears {pr : PrRef} {sha : Json} {etag : Option String} {record : GuardRecord}
    (delivered : Delivered record.log pr sha etag) (others : List GuardExchange)
    (exchange : GuardExchange) :
    Delivered (record.hears others exchange).log pr sha etag := by
  rw [Pool.Record.hears_log, List.append_assoc]
  exact delivered.grow (others ++ [exchange])

theorem notConfirmed_of_success {heard : List GuardExchange} {pr : PrRef}
    {headers : List (String × String)} {response : Response} (success : response.statusCode = 200) :
    NotConfirmed (heard ++ [answered pr headers response]) := by
  intro headers' response' last
  rw [lastResponse_append] at last
  obtain ⟨rfl, rfl⟩ := Prod.mk.inj (Option.some.inj last)
  rw [success]
  decide

/-- A `304` just received settles what the request carried. -/
theorem settledByEtag_answered {pr : PrRef} {headers : List (String × String)}
    {response : Response} {result : GuardResult} {record : GuardRecord}
    {others : List GuardExchange}
    (compares : result = .apiError ∧ ifNoneMatch headers = none ∨
      ComparesSent (record.hears others (answered pr headers response)).log pr headers result) :
    SettledByEtag pr (.ok result) (record.hears others (answered pr headers response)) := by
  intro result' headers' response' returned last notModified
  rw [Pool.Record.hears_heard, lastResponse_append] at last
  obtain ⟨rfl, rfl⟩ := Prod.mk.inj (Option.some.inj last)
  obtain rfl := Except.ok.inj returned
  exact ⟨answered_mem_hears .., compares⟩

/-- What the requests of a call come to, when it captured the entry it found:
entries stay paired, and a `304` is settled by the etag. -/
theorem account_paired (pr : PrRef) (githubToken : String) (staleEntry : Option CacheEntry) :
    Account pr (requestHeaders githubToken staleEntry) staleEntry Paired (Asking pr staleEntry)
      (SettledByEtag pr) := by
  constructor
  case idle => exact fun memory log exchange paired _ => paired.grow [exchange]
  case goes_on =>
    rintro record others exchange ⟨captured, notConfirmed⟩ idle
    exact ⟨fun entry found => (captured entry found).hears others exchange,
      notConfirmed.idle idle⟩
  case stays_settled =>
    intro outcome record others answer settled result headers response returned last notModified
    rw [Pool.Record.hears_heard, lastResponse_append] at last
    rw [Pool.Record.hears_log, List.append_assoc]
    exact (settled result headers response returned last notModified).grow _
  case givesUp => exact fun record asking => asking.2.settled
  case fails => exact fun raised record result headers response returned => nomatch returned
  case reports =>
    intro memory record others response sha asking paired success reported
    have delivered : Delivered (record.hears others
        (answered pr (requestHeaders githubToken staleEntry) response)).log pr sha
        (response.headers "ETag") :=
      ⟨_, response, answered_mem_hears .., success, reported, rfl⟩
    exact ⟨(paired.grow _).stored delivered, (notConfirmed_of_success success).settled⟩
  case undecodable =>
    rintro memory record others response raised ⟨captured, -⟩ paired success undecoded
    exact ⟨paired.grow _, fun entry found => (captured entry found).hears others _,
      notConfirmed_of_success success⟩
  case confirms =>
    rintro memory record others response entry ⟨captured, -⟩ paired notModified found
    have delivered := (captured entry found).hears others
      (answered pr (requestHeaders githubToken staleEntry) response)
    refine ⟨(paired.grow _).stored delivered, settledByEtag_answered (.inr ?_)⟩
    exact ⟨entry.sha, entry.etag, delivered,
      by rw [ifNoneMatch_requestHeaders, found, Option.bind_some], rfl⟩
  case unfounded =>
    intro memory record others response asking paired notModified absent
    refine ⟨paired.grow _, settledByEtag_answered (.inl ⟨rfl, ?_⟩)⟩
    rw [ifNoneMatch_requestHeaders, absent]
    rfl

/-- `check_sha_current` keeps the entries paired and settles a `304` by the
etag. -/
theorem checkShaCurrent_paired (pr : PrRef) (githubToken : String) (ownClient : Bool)
    {memory : GuardMemory} {log : List GuardExchange} (paired : Paired memory log) :
    (checkShaCurrent pr githubToken ownClient).Ensures (Pool.protocol Paired)
      (Account.Settles Paired (SettledByEtag pr)) memory ⟨log, []⟩ := by
  have nothingHeard : NotConfirmed ([] : List GuardExchange) := fun _ _ last => nomatch last
  exact checkShaCurrent_settles (account_paired pr githubToken _) paired
    ⟨fun entry found => paired pr entry found, nothingHeard⟩ fun _ _ => nothingHeard.settled

/-! ## Conditional and full requests -/

/-- The pull request a call is about. -/
def GuardCall.pr : GuardCall → PrRef
  | .checkShaCurrent pr _ _ | .entryGuard pr _ _ | .exitGuard pr _ _ => pr

theorem body_paired (call : GuardCall) (memory : GuardMemory) (log : List GuardExchange)
    (paired : Paired memory log) :
    call.body.Ensures (Pool.protocol Paired)
      (Pool.Delivers Paired (fun call record outcome => SettledByEtag call.pr outcome record) call)
      memory ⟨log, []⟩ := by
  cases call with
  | checkShaCurrent pr githubToken ownClient =>
      exact checkShaCurrent_paired pr githubToken ownClient paired
  | entryGuard pr githubToken ownClient =>
      exact checkShaCurrent_paired pr githubToken ownClient paired
  | exitGuard pr githubToken ownClient =>
      exact ensures_bind.mpr
        (checkShaCurrent_paired pr githubToken ownClient (paired.evicted pr))

theorem Paired.tick {memory : GuardMemory} {log : List GuardExchange} (elapsed : ℚ≥0)
    (paired : Paired memory log) : Paired (tick elapsed memory) log := paired

theorem settledByEtag_stands :
    Pool.Stands fun (call : GuardCall) (record : GuardRecord) outcome =>
      SettledByEtag call.pr outcome record :=
  fun _ _ _ _ more settled result headers response returned last notModified =>
    (settled result headers response returned last notModified).grow more

/-- What GitHub serves for a pull request at a moment. -/
structure Representation where
  sha : String
  etag : String
deriving DecidableEq, Repr

/-- The exchange is one that GitHub conducts at the moment: a `200` brings the
head sha and its etag, and a `304` says that the etag sent is the one of the
representation served at that moment. -/
def Conforms (represent : String → Nat → Representation) (moment : Nat) : GuardExchange → Prop
  | ⟨.get url headers, .ok response⟩ =>
      (response.statusCode = 200 →
        response.headSha = .ok (.string (represent url moment).sha) ∧
          response.headers "ETag" = some (represent url moment).etag) ∧
      (response.statusCode = 304 → ifNoneMatch headers = some (represent url moment).etag)
  | _ => True

/-- An etag identifies what is served with it. -/
def EtagsIdentify (represent : String → Nat → Representation) : Prop :=
  ∀ url first second, (represent url first).etag = (represent url second).etag →
    (represent url first).sha = (represent url second).sha

/-- An attempt that is answered with the response returns the result. -/
def Returns (pr : PrRef) (headers : List (String × String)) (response : Response)
    (result : GuardResult) : Prop :=
  ∀ staleEntry attempt memory, ∃ next,
    attemptOnce pr headers staleEntry attempt = .await (.get (pullUrl pr) headers) next ∧
      ((next (.ok response)).segment memory).1 = .finish (.ok (some result))

/-- A `200` that reports a sha returns the verdict on it. -/
theorem returns_verdict (pr : PrRef) (headers : List (String × String)) {response : Response}
    {sha : Json} (success : response.statusCode = 200) (reported : response.headSha = .ok sha) :
    Returns pr headers response (verdict pr sha) := by
  intro staleEntry attempt memory
  refine ⟨_, rfl, ?_⟩
  change (Coroutine.segment (if response.statusCode = 200 then _ else _) memory).1 = _
  rw [if_pos success, reported]
  rfl

/-- **A `304` comes from the representation a `200` would have brought.** The
verdict is the one that an attempt answered `200` at that moment returns. -/
theorem OnNotModified.same_as_full {log : List GuardExchange} {pr : PrRef}
    {headers : List (String × String)} {response : Response} {result : GuardResult}
    (settled : OnNotModified log pr headers response result)
    (notModified : response.statusCode = 304) {represent : String → Nat → Representation}
    (identify : EtagsIdentify represent)
    (conducted : ∀ exchange ∈ log, ∃ moment, Conforms represent moment exchange)
    {moment : Nat} (conforms : Conforms represent moment (answered pr headers response))
    {full : Response} (success : full.statusCode = 200)
    (current : Conforms represent moment (answered pr headers full)) :
    Returns pr headers full result := by
  have sent := conforms.2 notModified
  rcases settled.compares with ⟨-, unconditional⟩ | ⟨sha, etag, delivered, carried, rfl⟩
  · rw [unconditional] at sent
    cases sent
  · obtain ⟨headers', response', member, success', reported, etagged⟩ := delivered
    obtain ⟨earlier, conforms'⟩ := conducted _ member
    obtain ⟨reported', etagged'⟩ := conforms'.1 success'
    -- the etag of the entry is the one that was sent, so the shas agree
    have sameEtag : (represent (pullUrl pr) earlier).etag =
        (represent (pullUrl pr) moment).etag := by
      rw [sent, ← etagged, etagged'] at carried
      have kept := Option.filter_eq_some_iff.mp carried.symm
      exact Option.some.inj kept.1
    have sameSha := identify _ _ _ sameEtag
    rw [reported] at reported'
    rw [Except.ok.inj reported', sameSha]
    exact returns_verdict pr headers success (current.1 success).1

/-- **A conditional request gives the same verdict as a full one.** In every state
reached by guard calls on any pull requests, answered in any way:

* every cache entry holds a sha and an etag that one `200` for its pull request
  delivered together;
* a call that was answered `304` compares the sha delivered with exactly the
  etag it sent (it answers `API_ERROR` if it had no entry, and then it sent no
  etag);
* if GitHub conducted the exchanges, each at some moment, and etags identify
  what they come with, then the result is the one that a `200` at the moment of
  the `304`, instead of it, would have returned. -/
theorem conditional_verdicts (clock : ℚ) (events : List GuardEvent) :
    ∀ pool ∈ step.visits ⟨{ monotonic := clock }, [], []⟩ events,
      Paired pool.shared pool.log ∧
      ∀ thread ∈ pool.threads, ∀ result headers response,
        thread.rest = .finish (.ok result) →
        lastResponse thread.heard = some (headers, response) → response.statusCode = 304 →
        OnNotModified pool.log thread.call.pr headers response result ∧
        ∀ represent, EtagsIdentify represent →
          (∀ exchange ∈ pool.log, ∃ moment, Conforms represent moment exchange) →
          ∀ moment, Conforms represent moment (answered thread.call.pr headers response) →
            ∀ full : Response, full.statusCode = 200 →
              Conforms represent moment (answered thread.call.pr headers full) →
              Returns thread.call.pr headers full result := by
  intro pool visited
  have nothingCached : Paired { monotonic := clock } [] := by
    intro pr entry found
    simp at found
  obtain ⟨paired, finished⟩ := Pool.forall_threads settledByEtag_stands body_paired
    (fun elapsed _ _ paired => paired.tick elapsed) nothingCached events pool visited
  refine ⟨paired, ?_⟩
  intro thread member result headers response ends last notModified
  have settled := finished thread member _ ends result headers response rfl last notModified
  exact ⟨settled, fun represent identify conducted moment conforms full success current =>
    settled.same_as_full notModified identify conducted conforms success current⟩

/-- A full response of a pull request with the given head. -/
def fullResponse (sha etag : String) : Response :=
  ⟨200, fun name => if name = "ETag" then some etag else none,
    some (.object [("head", .object [("sha", .string sha)])])⟩

/-- The answer `304 Not Modified`. -/
def notModifiedResponse : Response := ⟨304, fun _ => none, none⟩

/-- Every request is answered with the response. -/
def respondWith (response : Response) : (request : GuardRequest) → Except Raised request.Answer
  | .get _ _ => .ok response
  | .sleep _ => .ok ()
  | .aclose => .ok ()

/-- With an entry that has expired, a call starts by asking with its etag. -/
theorem segment_checkShaCurrent_expired {pr : PrRef} {memory : GuardMemory} {entry : CacheEntry}
    (found : memory.shaCache.get (cacheKey pr) = some entry)
    (expired : ¬ memory.monotonic - entry.fetchedAt < shaCacheTtl) (githubToken : String)
    (ownClient : Bool) :
    (checkShaCurrent pr githubToken ownClient).segment memory =
      (tryFinally (attempts pr (requestHeaders githubToken (some entry)) (some entry)
        (List.range maxRetries)) (closeOwn ownClient)).segment memory := by
  have notFresh : (getCached pr).segment memory = (.finish (.ok none), memory) := by
    refine (segment_bind segment_get).trans ?_
    rw [found]
    exact congrArg (fun body => Coroutine.segment body memory) (if_neg expired)
  rw [checkShaCurrent, segment_bind notFresh]
  refine (segment_bind segment_get).trans ?_
  rw [found]

/-- The entry has expired when the second call asks, so the request carries its
etag, and the `304` gives the verdict a `200` would have given. -/
theorem expiredEntry_same_verdict :
    ∃ headers, ifNoneMatch headers = some "etag" ∧
      Returns ⟨"acme", "myapp", 42, "abc123def456"⟩ headers (fullResponse "abc123def456" "etag")
        .current := by
  let pr : PrRef := ⟨"acme", "myapp", 42, "abc123def456"⟩
  let entry : CacheEntry := ⟨.string "abc123def456", 0, some "etag"⟩
  let headers := requestHeaders "token" (some entry)
  let events : List GuardEvent :=
    [.start (.entryGuard pr "token" false),
      .answer 0 (respondWith (fullResponse "abc123def456" "etag")), .drift 6,
      .start (.entryGuard pr "token" false), .answer 1 (respondWith notModifiedResponse)]
  let represent : String → Nat → Representation := fun _ _ => ⟨"abc123def456", "etag"⟩
  let later : GuardMemory := ⟨Dict.set ∅ (cacheKey pr) entry, 0 + ((6 : ℚ≥0) : ℚ)⟩
  have expired : ¬ later.monotonic - entry.fetchedAt < shaCacheTtl := by decide +kernel
  have asks : (GuardCall.entryGuard pr "token" false).body.segment later = _ :=
    segment_checkShaCurrent_expired (by simp [later]) expired "token" false
  let delivered := answered pr (requestHeaders "token" none) (fullResponse "abc123def456" "etag")
  let confirmed := answered pr headers notModifiedResponse
  let first : Thread GuardCall GuardMemory GuardRequest.Answer Raised GuardResult :=
    ⟨.entryGuard pr "token" false, [delivered], .finish (.ok .current)⟩
  have before : step.run ⟨{ monotonic := 0 }, [], []⟩ (events.take 3) =
      some ⟨later, [delivered], [first]⟩ := rfl
  obtain ⟨memory, ran⟩ : ∃ memory, step.run ⟨later, [delivered], [first]⟩ (events.drop 3) =
      some ⟨memory, [delivered, confirmed], [first,
        ⟨.entryGuard pr "token" false, [confirmed], .finish (.ok .current)⟩]⟩ := by
    simp only [events, List.drop_succ_cons, List.drop_zero, Machine.run_cons, step, Pool.step]
    rw [asks]
    exact ⟨_, rfl⟩
  have visited := (Machine.mem_visits_iff step _ _ events).mpr ⟨events, [], by simp,
    (Machine.run_append step _ (events.take 3) (events.drop 3)).trans
      ((congrArg (Option.bind · _) before).trans ran)⟩
  have conforms : Conforms represent 0 confirmed :=
    ⟨fun success => absurd success (by decide), fun _ => rfl⟩
  have conforms' : Conforms represent 0 delivered :=
    ⟨fun _ => ⟨rfl, rfl⟩, fun confirms => absurd confirms (by decide)⟩
  have conducted : ∀ exchange ∈ [delivered, confirmed], ∃ moment,
      Conforms represent moment exchange := by
    intro exchange member
    rcases List.mem_pair.mp member with rfl | rfl
    · exact ⟨0, conforms'⟩
    · exact ⟨0, conforms⟩
  refine ⟨headers, rfl, ?_⟩
  exact ((conditional_verdicts 0 events _ visited).2
    ⟨.entryGuard pr "token" false, [confirmed], .finish (.ok .current)⟩ (by simp) .current headers
    notModifiedResponse rfl rfl rfl).2 represent (fun _ _ _ _ => rfl) conducted 0 conforms
    (fullResponse "abc123def456" "etag") rfl
    ⟨fun _ => ⟨rfl, rfl⟩, fun confirms => absurd confirms (by decide)⟩

end ShaGuard

end Kenjutsu.Pipeline
