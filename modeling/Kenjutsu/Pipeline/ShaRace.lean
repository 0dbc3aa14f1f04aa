import Kenjutsu.Pipeline.ShaCache

/-!
# Answers that overtake each other

The head of a pull request moves, requests are answered from the head at some
moment between sending and receipt, and the answers may arrive in any order.
Both branches of `check_sha_current` that store an entry do so whatever the
cache holds by then, and with a fresh time.

So the cache holds the head that the last answer received reports
(`LastReported`), which is the newest one reported exactly as long as no answer
is received after one that was generated from a newer head.
-/

set_option autoImplicit false

namespace Kenjutsu.Http

/-- Whether a decoded value is a given text. -/
instance decidableEqOkString (outcome : Except Raised Json) (text : String) :
    Decidable (outcome = .ok (.string text)) :=
  match outcome with
  | .ok value => decidable_of_iff (value.isText text)
      ((Json.isText_iff text value).trans ⟨congrArg Except.ok, Except.ok.inj⟩)
  | .error _ => .isFalse nofun

end Kenjutsu.Http

namespace Kenjutsu.Pipeline

open Foundations Foundations.Coroutine Kenjutsu.Http

namespace ShaGuard

instance decidableConforms (represent : String → Nat → Representation) (moment : Nat) :
    (exchange : GuardExchange) → Decidable (Conforms represent moment exchange)
  | ⟨.get _ _, .ok _⟩ => inferInstanceAs (Decidable (_ ∧ _))
  | ⟨.get _ _, .error _⟩ => .isTrue trivial
  | ⟨.sleep _, _⟩ => .isTrue trivial
  | ⟨.aclose, _⟩ => .isTrue trivial

/-! ## The checks of one pull request and its moving head -/

/-- A call that checks the head of the pull request. -/
inductive HeadCheck where
  | checkShaCurrent (expectedHeadSha githubToken : String) (ownClient : Bool)
  | entryGuard (expectedHeadSha githubToken : String) (ownClient : Bool)
deriving DecidableEq, Repr

variable (key : String × String × Int) (represent : Nat → Representation)

/-- The pull request, with the head that is expected of it. -/
def prOf (expectedHeadSha : String) : PrRef := ⟨key.1, key.2.1, key.2.2, expectedHeadSha⟩

def HeadCheck.call : HeadCheck → GuardCall
  | .checkShaCurrent expectedHeadSha githubToken ownClient =>
      .checkShaCurrent (prOf key expectedHeadSha) githubToken ownClient
  | .entryGuard expectedHeadSha githubToken ownClient =>
      .entryGuard (prOf key expectedHeadSha) githubToken ownClient

abbrev HeadPool := Pool HeadCheck GuardMemory GuardRequest.Answer Raised GuardResult

/-- The checks, how often the head has moved, and for each check the head at
which its pending request was sent. -/
structure HeadWatch where
  pool : HeadPool
  head : Nat := 0
  sentAt : List Nat := []

/-- A check starts, the head moves, a check is answered from the head at a
moment, and time passes. -/
inductive HeadEvent where
  | start (check : HeadCheck)
  | push
  | answer (thread generated : Nat) (respond : (request : GuardRequest) → Except Raised request.Answer)
  | elapse (elapsed : ℚ≥0)

/-- One event of the pool of checks. -/
def checkStep : Machine HeadPool (PoolEvent HeadCheck ℚ≥0 GuardRequest.Answer Raised) :=
  Pool.step (fun check => (check.call key).body) tick

/-- What a check waits for. -/
def waiting (pool : HeadPool) (thread : Nat) : Option GuardRequest :=
  match pool.threads[thread]? with
  | some ⟨_, _, .await request _⟩ => some request
  | _ => none

namespace HeadWatch

/-- One event. An answer is generated from a head that was current after the
request was sent. -/
def step : Machine HeadWatch HeadEvent
  | watch, .start check =>
      (checkStep key watch.pool (.start check)).map fun pool =>
        { watch with pool, sentAt := watch.sentAt ++ [watch.head] }
  | watch, .push => some { watch with head := watch.head + 1 }
  | watch, .answer thread generated respond =>
      match watch.sentAt[thread]?, waiting watch.pool thread with
      | some sent, some request =>
          if sent ≤ generated ∧ generated ≤ watch.head ∧
              Conforms (fun _ => represent) generated ⟨request, respond request⟩ then
            (checkStep key watch.pool (.answer thread respond)).map fun pool =>
              { watch with pool, sentAt := watch.sentAt.set thread watch.head }
          else none
      | _, _ => none
  | watch, .elapse elapsed =>
      (checkStep key watch.pool (.drift elapsed)).map fun pool => { watch with pool }

/-- What a step can do: the event, what was checked, and the watch after it. -/
inductive Moved (watch : HeadWatch) : HeadEvent → HeadWatch → Prop where
  | start {check : HeadCheck} {pool : HeadPool}
      (moved : checkStep key watch.pool (.start check) = some pool) :
      Moved watch (.start check) { watch with pool, sentAt := watch.sentAt ++ [watch.head] }
  | push : Moved watch .push { watch with head := watch.head + 1 }
  | answer {thread generated sent : Nat}
      {respond : (request : GuardRequest) → Except Raised request.Answer} {request : GuardRequest}
      {pool : HeadPool} (sentAt : watch.sentAt[thread]? = some sent)
      (waits : waiting watch.pool thread = some request) (sentBefore : sent ≤ generated)
      (current : generated ≤ watch.head)
      (conforms : Conforms (fun _ => represent) generated ⟨request, respond request⟩)
      (moved : checkStep key watch.pool (.answer thread respond) = some pool) :
      Moved watch (.answer thread generated respond)
        { watch with pool, sentAt := watch.sentAt.set thread watch.head }
  | elapse {elapsed : ℚ≥0} {pool : HeadPool}
      (moved : checkStep key watch.pool (.drift elapsed) = some pool) :
      Moved watch (.elapse elapsed) { watch with pool }

variable {key represent}

/-- Every step is one of the moves. -/
theorem moved_of_step {watch next : HeadWatch} {event : HeadEvent}
    (stepped : step key represent watch event = some next) :
    Moved key represent watch event next := by
  cases event with
  | start check =>
      simp only [step, Option.map_eq_some_iff] at stepped
      obtain ⟨pool, moved, rfl⟩ := stepped
      exact .start moved
  | push =>
      obtain rfl := Option.some.inj stepped
      exact .push
  | answer thread generated respond =>
      simp only [step] at stepped
      split at stepped
      · rename_i sent request sentAt waits
        simp only [Option.ite_none_right_eq_some, Option.map_eq_some_iff] at stepped
        obtain ⟨⟨sentBefore, current, conforms⟩, pool, moved, rfl⟩ := stepped
        exact .answer sentAt waits sentBefore current conforms moved
      · cases stepped
  | elapse elapsed =>
      simp only [step, Option.map_eq_some_iff] at stepped
      obtain ⟨pool, moved, rfl⟩ := stepped
      exact .elapse moved

end HeadWatch

variable {key} in
/-- The exchange that answers a waiting check is added to the log. -/
theorem checkStep_answer_log {pool next : HeadPool} {thread : Nat}
    {respond : (request : GuardRequest) → Except Raised request.Answer} {request : GuardRequest}
    (waits : waiting pool thread = some request)
    (moved : checkStep key pool (.answer thread respond) = some next) :
    next.log = pool.log ++ [⟨request, respond request⟩] := by
  simp only [checkStep, Pool.step] at moved
  unfold waiting at waits
  split at moved
  · rename_i call heard request' continue_ found
    rw [found] at waits
    obtain rfl := Option.some.inj waits
    obtain rfl := Option.some.inj moved
    rfl
  · cases moved

/-! ## What has been reported -/

/-- The exchange reports a head: it is a `200` or a `304`. -/
def reports (exchange : GuardExchange) : Bool :=
  (received exchange).any fun response => response.statusCode = 200 ∨ response.statusCode = 304

/-- The exchange reports the head of the given number. -/
def Reports (exchange : GuardExchange) (number : Nat) : Prop :=
  reports exchange ∧ Conforms (fun _ => represent) number exchange

/-- Every exchange was conducted at some moment. -/
def Conducted (log : List GuardExchange) : Prop :=
  ∀ exchange ∈ log, ∃ moment, Conforms (fun _ => represent) moment exchange

/-- The last exchange that reports a head. -/
def lastReport (log : List GuardExchange) : Option GuardExchange := (log.filter reports).getLast?

/-- The sha in the cache is the newest head sha that any answer received so far
has reported; there is none as long as nothing was reported. -/
def NewestCached (watch : HeadWatch) : Prop :=
  match watch.pool.shared.shaCache.get key with
  | none => ∀ exchange ∈ watch.pool.log, reports exchange = false
  | some entry => ∃ newest, entry.sha = .string (represent newest).sha ∧
      (∃ exchange ∈ watch.pool.log, Reports represent exchange newest) ∧
      ∀ exchange ∈ watch.pool.log, ∀ number, Reports represent exchange number → number ≤ newest

/-- The cache holds the head that the last report was generated from. -/
structure LastReported (memory : GuardMemory) (log : List GuardExchange) : Prop where
  absent : lastReport log = none → memory.shaCache.get key = none
  present : ∀ exchange, lastReport log = some exchange →
    ∃ entry, memory.shaCache.get key = some entry ∧
      ∃ number, Reports represent exchange number ∧
        entry.sha = .string (represent number).sha ∧ entry.etag = some (represent number).etag

/-- The last report is the newest one. -/
def NewestLast (log : List GuardExchange) : Prop :=
  ∀ last, lastReport log = some last → ∀ newest, Reports represent last newest →
    ∀ exchange ∈ log, ∀ number, Reports represent exchange number → number ≤ newest

theorem reports_iff (exchange : GuardExchange) :
    reports exchange ↔ ∃ response, received exchange = some response ∧
      (response.statusCode = 200 ∨ response.statusCode = 304) := by
  simp [reports, Option.any_eq_true]

@[simp] theorem reports_answered (pr : PrRef) (headers : List (String × String))
    (response : Response) : reports (answered pr headers response) ↔
      response.statusCode = 200 ∨ response.statusCode = 304 := by
  simp [reports]

theorem reports_of_idle {exchange : GuardExchange} (idle : Idle exchange) :
    reports exchange = false := by
  rw [← Bool.not_eq_true]
  intro reported
  obtain ⟨response, brought, full | notModified⟩ := (reports_iff exchange).mp reported
  · exact (idle response brought).1 full
  · exact (idle response brought).2 notModified

/-- A conducted exchange that reports a head reports one of a number. -/
theorem Conducted.reports {represent : Nat → Representation} {log : List GuardExchange}
    (conducted : Conducted represent log) {exchange : GuardExchange} (member : exchange ∈ log)
    (reported : ShaGuard.reports exchange) : ∃ number, Reports represent exchange number := by
  obtain ⟨moment, conforms⟩ := conducted exchange member
  exact ⟨moment, reported, conforms⟩

/-- The last answer of a conducted log reports a head. -/
theorem Conducted.answered {represent : Nat → Representation} {record : GuardRecord}
    {others : List GuardExchange} {pr : PrRef} {headers : List (String × String)}
    {response : Response}
    (conducted : Conducted represent (record.hears others (answered pr headers response)).log)
    (reported : response.statusCode = 200 ∨ response.statusCode = 304) :
    ∃ number, Reports represent (answered pr headers response) number :=
  conducted.reports (List.mem_append_right _ (List.mem_singleton_self _))
    ((reports_answered ..).mpr reported)

theorem Conducted.of_append {represent : Nat → Representation} {log more : List GuardExchange}
    (conducted : Conducted represent (log ++ more)) : Conducted represent log :=
  fun exchange member => conducted exchange (List.mem_append_left more member)

theorem lastReport_mem {log : List GuardExchange} {exchange : GuardExchange}
    (last : lastReport log = some exchange) : exchange ∈ log ∧ reports exchange :=
  List.mem_filter.mp (List.mem_of_getLast? last)

@[simp] theorem lastReport_append_report {log : List GuardExchange} {exchange : GuardExchange}
    (reported : reports exchange) : lastReport (log ++ [exchange]) = some exchange := by
  simp [lastReport, reported]

@[simp] theorem lastReport_append_silent {log : List GuardExchange} {exchange : GuardExchange}
    (silent : reports exchange = false) : lastReport (log ++ [exchange]) = lastReport log := by
  simp [lastReport, silent]

section Identified

variable {key represent} (distinct : ∀ first second,
    (represent first).sha = (represent second).sha → first = second)
  (identify : EtagsIdentify fun _ => represent)
include distinct identify

/-- An exchange reports at most one head. -/
theorem reports_unique {exchange : GuardExchange} {first second : Nat}
    (one : Reports represent exchange first) (other : Reports represent exchange second) :
    first = second := by
  obtain ⟨response, brought, status⟩ := (reports_iff exchange).mp one.1
  obtain ⟨request, answer⟩ := exchange
  cases request with
  | sleep | aclose => cases brought
  | get url headers =>
      cases answer with
      | error raised => cases brought
      | ok answer =>
          obtain rfl := Option.some.inj brought
          rcases status with full | notModified
          · have same := (one.2.1 full).1.symm.trans (other.2.1 full).1
            exact distinct first second (Json.string.inj (Except.ok.inj same))
          · have same := (one.2.2 notModified).symm.trans (other.2.2 notModified)
            exact distinct first second (identify url first second (Option.some.inj same))

omit distinct identify in
/-- The cache holds what GitHub served, so far as GitHub conducted the log. -/
theorem LastReported.served {memory : GuardMemory} {log : List GuardExchange}
    (last : LastReported key represent memory log) {entry : CacheEntry}
    (found : memory.shaCache.get key = some entry) :
    ∃ number, entry.sha = .string (represent number).sha ∧
      entry.etag = some (represent number).etag := by
  cases reported : lastReport log with
  | none =>
      rw [last.absent reported] at found
      cases found
  | some exchange =>
      obtain ⟨entry', found', number, -, sha, etag⟩ := last.present exchange reported
      obtain rfl := Option.some.inj (found.symm.trans found')
      exact ⟨number, sha, etag⟩

omit distinct identify in
/-- Storing what the last exchange reports. -/
theorem lastReported_stored {memory : GuardMemory} {log : List GuardExchange}
    {exchange : GuardExchange} {number : Nat} {expected : String} {sha : Json}
    {etag : Option String} (reported : Reports represent exchange number)
    (sameSha : sha = .string (represent number).sha)
    (sameEtag : etag = some (represent number).etag) :
    LastReported key represent (stored (prOf key expected) sha etag memory)
      (log ++ [exchange]) := by
  constructor
  · intro absent
    rw [lastReport_append_report reported.1] at absent
    cases absent
  · intro last found
    rw [lastReport_append_report reported.1] at found
    obtain rfl := Option.some.inj found
    exact ⟨⟨sha, memory.monotonic, etag⟩, by simp [stored, cacheKey, prOf], number, reported,
      sameSha, sameEtag⟩

omit distinct identify in
/-- An exchange that reports nothing leaves the last report as it was. -/
theorem LastReported.silent {memory : GuardMemory} {log : List GuardExchange}
    (last : LastReported key represent memory log) {exchange : GuardExchange}
    (silent : reports exchange = false) :
    LastReported key represent memory (log ++ [exchange]) := by
  constructor
  · intro absent
    rw [lastReport_append_silent silent] at absent
    exact last.absent absent
  · intro reported found
    rw [lastReport_append_silent silent] at found
    exact last.present reported found

/-- The invariant of the checks, for whatever part of the log GitHub
conducted. -/
def CachesLast (key : String × String × Int) (represent : Nat → Representation)
    (memory : GuardMemory) (log : List GuardExchange) : Prop :=
  Conducted represent log → LastReported key represent memory log

omit distinct identify in
/-- Time changes nothing in the cache. -/
theorem CachesLast.tick {memory : GuardMemory} {log : List GuardExchange} (elapsed : ℚ≥0)
    (caches : CachesLast key represent memory log) :
    CachesLast key represent (tick elapsed memory) log :=
  fun conducted => ⟨(caches conducted).absent, (caches conducted).present⟩

/-- A captured entry is one that GitHub served. -/
abbrev CapturesServed (represent : Nat → Representation) (staleEntry : Option CacheEntry)
    (record : GuardRecord) : Prop :=
  Conducted represent record.log → ∀ entry, staleEntry = some entry →
    ∃ number, entry.sha = .string (represent number).sha ∧
      entry.etag = some (represent number).etag

omit distinct in
/-- **What the requests of a check come to**: the cache holds the head reported
last, whichever branch stored it. -/
theorem account_lastReported (expected githubToken : String) (staleEntry : Option CacheEntry) :
    Account (prOf key expected) (requestHeaders githubToken staleEntry) staleEntry
      (CachesLast key represent) (CapturesServed represent staleEntry) (fun _ _ => True) := by
  constructor
  case idle =>
    intro memory log exchange caches idle conducted
    exact (caches conducted.of_append).silent (reports_of_idle idle)
  case goes_on =>
    intro record others exchange captures idle conducted
    rw [Pool.Record.hears_log, List.append_assoc] at conducted
    exact captures conducted.of_append
  case stays_settled => exact fun _ _ _ _ _ => trivial
  case givesUp => exact fun _ _ => trivial
  case fails => exact fun _ _ => trivial
  case reports =>
    intro memory record others response sha captures caches success reported
    refine ⟨fun conducted => ?_, trivial⟩
    obtain ⟨number, full⟩ := conducted.answered (.inl success)
    obtain ⟨headSha, headEtag⟩ := full.2.1 success
    exact lastReported_stored full (Except.ok.inj (reported.symm.trans headSha)) headEtag
  case undecodable =>
    intro memory record others response raised captures caches success undecoded
    have neverConducted : ¬ Conducted represent (record.hears others
        (answered (prOf key expected) (requestHeaders githubToken staleEntry) response)).log := by
      intro conducted
      obtain ⟨number, full⟩ := conducted.answered (.inl success)
      have headSha := (full.2.1 success).1
      rw [undecoded] at headSha
      cases headSha
    exact ⟨fun conducted => absurd conducted neverConducted,
      fun conducted => absurd conducted neverConducted⟩
  case confirms =>
    intro memory record others response entry captures caches notModified captured
    refine ⟨fun conducted => ?_, trivial⟩
    obtain ⟨number, confirmed⟩ := conducted.answered (.inr notModified)
    have sent := confirmed.2.2 notModified
    rw [Pool.Record.hears_log, List.append_assoc] at conducted
    obtain ⟨served, sameSha, sameEtag⟩ := captures conducted.of_append entry captured
    rw [ifNoneMatch_requestHeaders, captured, Option.bind_some, sameEtag] at sent
    -- the etag that was sent is the one of the captured entry, so the shas agree
    have current := Option.some.inj (Option.filter_eq_some_iff.mp sent).1
    exact lastReported_stored confirmed
      (sameSha.trans (congrArg Json.string (identify "" served number current)))
      (sameEtag.trans (congrArg some current))
  case unfounded =>
    intro memory record others response captures caches notModified absent
    refine ⟨fun conducted => ?_, trivial⟩
    obtain ⟨number, confirmed⟩ := conducted.answered (.inr notModified)
    have sent := confirmed.2.2 notModified
    rw [ifNoneMatch_requestHeaders, absent] at sent
    cases sent

omit distinct in
/-- A check keeps the head reported last in the cache. -/
theorem check_cachesLast (check : HeadCheck) (memory : GuardMemory) (log : List GuardExchange)
    (caches : CachesLast key represent memory log) :
    (check.call key).body.Ensures (Pool.protocol (CachesLast key represent))
      (Pool.Delivers (CachesLast key represent) (fun _ _ _ => True) check) memory ⟨log, []⟩ := by
  have checks : ∀ expected githubToken ownClient,
      (checkShaCurrent (prOf key expected) githubToken ownClient).Ensures
        (Pool.protocol (CachesLast key represent))
        (Account.Settles (CachesLast key represent) fun _ _ => True) memory ⟨log, []⟩ :=
    fun expected githubToken ownClient =>
      checkShaCurrent_settles (account_lastReported identify expected githubToken _) caches
        (fun conducted entry found => (caches conducted).served found) fun _ _ => trivial
  cases check with
  | checkShaCurrent expected githubToken ownClient => exact checks expected githubToken ownClient
  | entryGuard expected githubToken ownClient => exact checks expected githubToken ownClient

/-- What every run of the watch keeps. -/
structure Healthy (key : String × String × Int) (represent : Nat → Representation)
    (watch : HeadWatch) : Prop where
  sound : Pool.Sound (CachesLast key represent) (fun _ _ _ => True) watch.pool
  conducted : Conducted represent watch.pool.log

omit identify distinct in
theorem healthy_empty (clock : ℚ) :
    Healthy key represent { pool := ⟨{ monotonic := clock }, [], []⟩ } := by
  refine ⟨⟨fun _ => ⟨fun _ => Dict.get_empty key, fun _ found => nomatch found⟩, ?_⟩, ?_⟩
  · intro thread member
    cases member
  · intro exchange member
    cases member

/-- The cache holds the newest head reported exactly when the newest report is
the last one. -/
theorem Healthy.newestCached_iff {watch : HeadWatch} (healthy : Healthy key represent watch) :
    NewestCached key represent watch ↔ NewestLast represent watch.pool.log := by
  have last := healthy.sound.1 healthy.conducted
  unfold NewestCached NewestLast
  cases reported : lastReport watch.pool.log with
  | none =>
      rw [last.absent reported]
      have nothing : ∀ exchange ∈ watch.pool.log, reports exchange = false := by
        simpa [lastReport] using reported
      simpa using nothing
  | some exchange =>
      obtain ⟨entry, found, number, fromExchange, sha, -⟩ := last.present exchange reported
      rw [found]
      constructor
      · rintro ⟨newest, sha', -, maximal⟩ _ ⟨⟩ number' fromExchange'
        obtain rfl := reports_unique distinct identify fromExchange' fromExchange
        obtain rfl := distinct _ _ (Json.string.inj (sha'.symm.trans sha))
        exact maximal
      · intro newestLast
        exact ⟨number, sha, ⟨exchange, (lastReport_mem reported).1, fromExchange⟩,
          newestLast exchange rfl number fromExchange⟩

omit distinct in
/-- **A step keeps the watch healthy.** -/
theorem Healthy.step {watch next : HeadWatch} {event : HeadEvent}
    (healthy : Healthy key represent watch)
    (stepped : HeadWatch.step key represent watch event = some next) :
    Healthy key represent next := by
  have soundAfter : ∀ poolEvent pool, checkStep key watch.pool poolEvent = some pool →
      Pool.Sound (CachesLast key represent) (fun _ _ _ => True) pool := by
    intro poolEvent pool moved
    exact Pool.sound_step (fun _ _ _ _ _ _ => trivial)
      (fun check memory log caches => check_cachesLast identify check memory log caches)
      (fun elapsed _ _ caches => caches.tick elapsed) watch.pool poolEvent pool healthy.sound moved
  cases HeadWatch.moved_of_step stepped with
  | start moved =>
      refine ⟨soundAfter _ _ moved, ?_⟩
      obtain rfl := Option.some.inj moved
      exact healthy.conducted
  | push => exact ⟨healthy.sound, healthy.conducted⟩
  | @answer thread generated sent respond request pool sentAt waits sentBefore current conforms
      moved =>
      refine ⟨soundAfter _ _ moved, ?_⟩
      intro exchange member
      rw [checkStep_answer_log waits moved] at member
      rcases List.mem_append.mp member with earlier | last
      · exact healthy.conducted exchange earlier
      · obtain rfl := List.mem_singleton.mp last
        exact ⟨generated, conforms⟩
  | elapse moved =>
      refine ⟨soundAfter _ _ moved, ?_⟩
      obtain rfl := Option.some.inj moved
      exact healthy.conducted

omit distinct identify in
/-- The newest report stays the last one when what is added reports nothing. -/
theorem newestLast_append_silent {log : List GuardExchange} {exchange : GuardExchange}
    (silent : reports exchange = false) :
    NewestLast represent (log ++ [exchange]) ↔ NewestLast represent log := by
  unfold NewestLast
  rw [lastReport_append_silent silent]
  refine forall_congr' fun last => imp_congr_right fun _ => forall_congr' fun newest =>
    imp_congr_right fun _ => ?_
  constructor
  · intro maximal earlier member
    exact maximal earlier (List.mem_append_left _ member)
  · intro maximal earlier member number reported
    rcases List.mem_append.mp member with before | last
    · exact maximal earlier before number reported
    · obtain rfl := List.mem_singleton.mp last
      exact absurd reported.1 (by simp [silent])

/-- A report that is added is the newest one if nothing newer was reported
before. -/
theorem newestLast_append_report {log : List GuardExchange} {exchange : GuardExchange}
    {generated : Nat} (reported : Reports represent exchange generated) :
    NewestLast represent (log ++ [exchange]) ↔
      ∀ earlier ∈ log, ∀ number, Reports represent earlier number → number ≤ generated := by
  unfold NewestLast
  rw [lastReport_append_report reported.1]
  constructor
  · intro newestLast earlier member
    exact newestLast exchange rfl generated reported earlier (List.mem_append_left _ member)
  · rintro maximal _ ⟨⟩ newest fromExchange earlier member number reported'
    obtain rfl := reports_unique distinct identify reported fromExchange
    rcases List.mem_append.mp member with before | last
    · exact maximal earlier before number reported'
    · obtain rfl := List.mem_singleton.mp last
      exact (reports_unique distinct identify reported' reported).le

end Identified

/-! ## Answers in order -/

/-- No head that was reported before is newer than the one the answer was
generated from, if the answer reports one. -/
def InOrder (watch : HeadWatch) : HeadEvent → Prop
  | .answer thread generated respond =>
      ∀ request, waiting watch.pool thread = some request →
        reports ⟨request, respond request⟩ →
        ∀ earlier ∈ watch.pool.log, ∀ number, Reports represent earlier number →
          number ≤ generated
  | _ => True

section Identified

variable {key represent} (distinct : ∀ first second,
    (represent first).sha = (represent second).sha → first = second)
  (identify : EtagsIdentify fun _ => represent)
include distinct identify

/-- After a step the newest report is the last one exactly when it was before,
or the step's own report is the newest, so that the event was in order. -/
theorem newestLast_step {watch next : HeadWatch} {event : HeadEvent}
    (newestLast : NewestLast represent watch.pool.log)
    (stepped : HeadWatch.step key represent watch event = some next) :
    NewestLast represent next.pool.log ↔ InOrder represent watch event := by
  cases HeadWatch.moved_of_step stepped with
  | start moved =>
      obtain rfl := Option.some.inj moved
      exact iff_of_true newestLast trivial
  | push => exact iff_of_true newestLast trivial
  | @answer thread generated sent respond request pool sentAt waits sentBefore current conforms
      moved =>
      simp only [checkStep_answer_log waits moved]
      cases reported : reports ⟨request, respond request⟩ with
      | false =>
          refine iff_of_true ((newestLast_append_silent reported).mpr newestLast) ?_
          intro request' waits' reported'
          obtain rfl := Option.some.inj (waits.symm.trans waits')
          rw [reported] at reported'
          cases reported'
      | true =>
          refine (newestLast_append_report distinct identify ⟨reported, conforms⟩).trans ?_
          constructor
          · intro maximal request' waits' _
            exact maximal
          · intro inOrder
            exact inOrder request waits reported
  | elapse moved =>
      obtain rfl := Option.some.inj moved
      exact iff_of_true newestLast trivial

/-- **The cache holds the newest head reported, in every state of a run, exactly
when no answer of the run is received after one that was generated from a newer
head.** -/
theorem newestCached_iff_inOrder (clock : ℚ) (events : List HeadEvent) :
    (∀ watch ∈ (HeadWatch.step key represent).visits
        { pool := ⟨{ monotonic := clock }, [], []⟩ } events,
      NewestCached key represent watch) ↔
      ∀ move ∈ (HeadWatch.step key represent).moves
        { pool := ⟨{ monotonic := clock }, [], []⟩ } events,
        InOrder represent move.1 move.2 := by
  refine Machine.forall_visits_iff_guarded
    (fun (watch : HeadWatch)
      (kept : Healthy key represent watch ∧ NewestLast represent watch.pool.log) =>
      (kept.1.newestCached_iff distinct identify).mpr kept.2)
    ?keeps ?breaks ⟨healthy_empty clock, ?initially⟩ events
  case keeps =>
    intro watch event next kept inOrder stepped
    exact ⟨kept.1.step identify stepped,
      (newestLast_step distinct identify kept.2 stepped).mpr inOrder⟩
  case breaks =>
    intro watch event next kept outOfOrder stepped newestCached
    have newestLast := ((kept.1.step identify stepped).newestCached_iff distinct identify).mp
      newestCached
    exact outOfOrder ((newestLast_step distinct identify kept.2 stepped).mp newestLast)
  case initially =>
    intro last found
    cases found

end Identified

/-- Heads told apart by the length of their shas. -/
def numbered (number : Nat) : Representation :=
  ⟨String.ofList (List.replicate number 'a'), String.ofList (List.replicate number 'a')⟩

theorem numbered_distinct (first second : Nat)
    (same : (numbered first).sha = (numbered second).sha) : first = second := by
  have lengths := congrArg (fun text => text.toList.length) same
  simpa [numbered] using lengths

theorem numbered_identify : EtagsIdentify fun _ => numbered :=
  fun _ _ _ same => same

/-- GitHub answers every request in full from the head of the number. -/
def respondFrom (number : Nat) : (request : GuardRequest) → Except Raised request.Answer :=
  respondWith (fullResponse (numbered number).sha (numbered number).etag)

/-- The head moves before the request of a check is answered. -/
theorem answered_after_push_newest :
    ∃ watch ∈ (HeadWatch.step ("acme", "myapp", 42) numbered).visits
        { pool := ⟨{ monotonic := 0 }, [], []⟩ }
        [.start (.entryGuard "" "token" false), .push, .answer 0 1 (respondFrom 1)],
      NewestCached ("acme", "myapp", 42) numbered watch ∧
        (watch.pool.shared.shaCache.get ("acme", "myapp", 42)).any fun entry =>
          entry.sha.isText (numbered 1).sha := by
  let key : String × String × Int := ("acme", "myapp", 42)
  let events : List HeadEvent :=
    [.start (.entryGuard "" "token" false), .push, .answer 0 1 (respondFrom 1)]
  obtain ⟨watch, ran⟩ : ∃ watch, (HeadWatch.step key numbered).run
      { pool := ⟨{ monotonic := 0 }, [], []⟩ } events = some watch := ⟨_, rfl⟩
  have visited := (Machine.mem_visits_iff (HeadWatch.step key numbered) _ _ events).mpr
    ⟨events, [], (List.append_nil _).symm, ran⟩
  refine ⟨watch, visited, ?_, ?_⟩
  · refine (newestCached_iff_inOrder numbered_distinct numbered_identify 0 events).mpr ?_ watch
      visited
    intro move made
    have nothingBefore : move.1.pool.log = [] := by
      have logs : ((HeadWatch.step key numbered).moves
          { pool := ⟨{ monotonic := 0 }, [], []⟩ } events).map (fun move => move.1.pool.log) =
          [[], [], []] := rfl
      have member := List.mem_map_of_mem (f := fun move : HeadWatch × HeadEvent =>
        move.1.pool.log) made
      rw [logs] at member
      simpa using member
    obtain ⟨watch, event⟩ := move
    cases event with
    | answer thread generated respond =>
        intro request waits reported earlier member
        rw [nothingBefore] at member
        cases member
    | start | push | elapse => trivial
  · obtain rfl := Option.some.inj ran
    decide

/-- Two checks ask, a push moves the head, the second check is answered from the
new head, and then the answer to the first arrives, generated before the push:
the cache falls back to the old head. -/
theorem overtaken_answer_regresses :
    ∃ represent : Nat → Representation,
      (∀ first second, (represent first).sha = (represent second).sha → first = second) ∧
      (EtagsIdentify fun _ => represent) ∧
      ∃ watch ∈ (HeadWatch.step ("acme", "myapp", 42) represent).visits
          { pool := ⟨{ monotonic := 0 }, [], []⟩ }
          [.start (.entryGuard "" "token" false), .start (.entryGuard "" "token" false), .push,
            .answer 1 1 (respondWith (fullResponse (represent 1).sha (represent 1).etag)),
            .answer 0 0 (respondWith (fullResponse (represent 0).sha (represent 0).etag))],
        ¬ NewestCached ("acme", "myapp", 42) represent watch ∧
          (watch.pool.shared.shaCache.get ("acme", "myapp", 42)).any fun entry =>
            entry.sha.isText (represent 0).sha := by
  let key : String × String × Int := ("acme", "myapp", 42)
  let events : List HeadEvent :=
    [.start (.entryGuard "" "token" false), .start (.entryGuard "" "token" false), .push,
      .answer 1 1 (respondFrom 1), .answer 0 0 (respondFrom 0)]
  obtain ⟨watch, ran⟩ : ∃ watch, (HeadWatch.step key numbered).run
      { pool := ⟨{ monotonic := 0 }, [], []⟩ } events = some watch := ⟨_, rfl⟩
  have visited := (Machine.mem_visits_iff (HeadWatch.step key numbered) _ _ events).mpr
    ⟨events, [], (List.append_nil _).symm, ran⟩
  have cached : (watch.pool.shared.shaCache.get key).map (fun entry => entry.sha) =
      some (.string (numbered 0).sha) := by
    obtain rfl := Option.some.inj ran
    rfl
  have newer : ∃ exchange ∈ watch.pool.log, Reports numbered exchange 1 := by
    obtain rfl := Option.some.inj ran
    exact ⟨_, List.mem_cons_self, rfl, by decide⟩
  refine ⟨numbered, numbered_distinct, numbered_identify, watch, visited, ?_, ?_⟩
  · intro newestCached
    obtain ⟨entry, found, sha⟩ := Option.map_eq_some_iff.mp cached
    unfold NewestCached at newestCached
    rw [found] at newestCached
    obtain ⟨newest, sha', -, maximal⟩ := newestCached
    obtain rfl := numbered_distinct _ _ (Json.string.inj (sha'.symm.trans sha))
    obtain ⟨exchange, member, reported⟩ := newer
    exact absurd (maximal exchange member 1 reported) (by decide)
  · obtain ⟨entry, found, sha⟩ := Option.map_eq_some_iff.mp cached
    rw [found, Option.any_some, sha]
    exact (Json.isText_iff ..).mpr rfl

end ShaGuard

end Kenjutsu.Pipeline
