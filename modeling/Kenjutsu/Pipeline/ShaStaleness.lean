import Mathlib.Tactic.Linarith
import Kenjutsu.Foundations.Reliance
import Kenjutsu.Pipeline.ShaRace

/-!
# How old a verdict can be

What GitHub serves for a pull request changes with time. An answer that reaches the
process has been generated at most `latency` seconds before, and an entry of `_sha_cache`
answers for five seconds after it was stored. So a verdict compares the expected sha with
a head that was the head at most five seconds and the latency before the call was made;
the exit guard, which never relies on the cache, leaves out the five seconds
(`verdicts_recent`).

Entries may be stored in any order, and a `304` stores again what the call captured before
its requests. That is no harm here: an etag identifies the head that it came with, so the
`304` vouches for it anew.
-/

set_option autoImplicit false

namespace Kenjutsu.Pipeline

open Foundations Foundations.Coroutine Kenjutsu.Http

namespace ShaGuard

/-! ## Calls, answers and the clock -/

/-- A call and when it is made. -/
structure TimedCall where
  call : GuardCall
  madeAt : ℚ
deriving DecidableEq, Repr

abbrev TimedPool := Pool TimedCall GuardMemory GuardRequest.Answer Raised GuardResult

/-- A call is made, a call is answered with what was generated at some time, or time
passes. -/
inductive TimedEvent where
  | start (call : GuardCall)
  | answer (thread : Nat) (generatedAt : ℚ)
      (respond : (request : GuardRequest) → Except Raised request.Answer)
  | elapse (elapsed : ℚ≥0)

/-- One event of the pool of calls. -/
def callStep : Machine TimedPool (PoolEvent TimedCall ℚ≥0 GuardRequest.Answer Raised) :=
  Pool.step (fun timed => timed.call.body) tick

/-- What a call waits for. -/
def awaited (pool : TimedPool) (thread : Nat) : Option GuardRequest :=
  match pool.threads[thread]? with
  | some ⟨_, _, .await request _⟩ => some request
  | _ => none

variable (represent : String → Nat → Representation) (momentAt : ℚ → Nat) (latency : ℚ)

/-- One event; an answer takes at most the latency from where it is generated. -/
def timedStep : Machine TimedPool TimedEvent
  | pool, .start call => callStep pool (.start ⟨call, pool.shared.monotonic⟩)
  | pool, .answer thread generatedAt respond =>
      match awaited pool thread with
      | none => none
      | some request =>
          if pool.shared.monotonic - latency ≤ generatedAt ∧
              generatedAt ≤ pool.shared.monotonic ∧
              Conforms represent (momentAt generatedAt) ⟨request, respond request⟩ then
            callStep pool (.answer thread respond)
          else none
  | pool, .elapse elapsed => callStep pool (.drift elapsed)

/-! ## What the cache vouches for -/

/-- The sha is that of the head at the time. -/
def HeadAt (pr : PrRef) (sha : Json) (time : ℚ) : Prop :=
  sha = .string (represent (pullUrl pr) (momentAt time)).sha

/-- The sha and the etag are what was served at the time. -/
def ServedAt (pr : PrRef) (sha : Json) (etag : Option String) (time : ℚ) : Prop :=
  HeadAt represent momentAt pr sha time ∧
    etag = some (represent (pullUrl pr) (momentAt time)).etag

/-- Every entry holds what was served at most the latency before it was stored. -/
def RecentEntries (memory : GuardMemory) : Prop :=
  ∀ pr entry, memory.shaCache.get (cacheKey pr) = some entry →
    ∃ time, entry.fetchedAt - latency ≤ time ∧ time ≤ memory.monotonic ∧
      ServedAt represent momentAt pr entry.sha entry.etag time

/-- The time goes back from the making of a call no further than the guard allows. -/
def NotOlder : GuardCall → ℚ → ℚ → Prop
  | .exitGuard _ _ _, madeAt, time => madeAt - latency ≤ time
  | _, madeAt, time => madeAt - (shaCacheTtl + latency) < time

/-- A verdict is on the head at a time within the bound. -/
def DecidedWithin (bound : ℚ → Prop) (pr : PrRef) (outcome : Except Raised GuardResult)
    (memory : GuardMemory) : Prop :=
  ∀ result, outcome = .ok result → result ≠ .apiError → ∃ time sha, bound time ∧
    time ≤ memory.monotonic ∧ HeadAt represent momentAt pr sha time ∧ result = verdict pr sha

/-- What the guard calls rely on: recent entries, a clock that goes on, and answers that
are at most the latency old. -/
def recentTerms : Terms TimedCall GuardMemory GuardRequest.Answer Raised where
  invariant := RecentEntries represent momentAt latency
  moves := fun first second => first.monotonic ≤ second.monotonic
  begins := fun timed memory => timed.madeAt = memory.monotonic
  admits := fun memory exchange => ∃ time, memory.monotonic - latency ≤ time ∧
    time ≤ memory.monotonic ∧ Conforms represent (momentAt time) exchange
  refl := fun _ => le_rfl
  trans := le_trans

variable {represent momentAt latency} {pr : PrRef} {sha : Json} {etag : Option String}
  {time madeAt : ℚ} {bound : ℚ → Prop} {memory resumed : GuardMemory}
  {outcome : Except Raised GuardResult}

theorem ServedAt.congr {other : PrRef} (served : ServedAt represent momentAt pr sha etag time)
    (same : cacheKey other = cacheKey pr) : ServedAt represent momentAt other sha etag time := by
  unfold ServedAt HeadAt
  rw [pullUrl_eq_of_cacheKey_eq same]
  exact served

/-- Storing what has just been served keeps the entries recent. -/
theorem RecentEntries.stored (recent : RecentEntries represent momentAt latency memory)
    (served : ServedAt represent momentAt pr sha etag time)
    (after : memory.monotonic - latency ≤ time) (before : time ≤ memory.monotonic) :
    RecentEntries represent momentAt latency (stored pr sha etag memory) := by
  intro other entry found
  simp only [ShaGuard.stored, Dict.get_set] at found
  by_cases same : cacheKey other = cacheKey pr
  · rw [if_pos same] at found
    obtain rfl := Option.some.inj found
    exact ⟨time, after, before, served.congr same⟩
  · rw [if_neg same] at found
    exact recent other entry found

theorem RecentEntries.evicted (recent : RecentEntries represent momentAt latency memory)
    (pr : PrRef) : RecentEntries represent momentAt latency
      { memory with shaCache := memory.shaCache.erase (cacheKey pr) } := by
  intro other entry found
  simp only [Dict.get_erase] at found
  split at found
  · cases found
  · exact recent other entry found

theorem RecentEntries.tick (recent : RecentEntries represent momentAt latency memory)
    (elapsed : ℚ≥0) : RecentEntries represent momentAt latency (tick elapsed memory) := by
  intro pr entry found
  obtain ⟨time, after, before, served⟩ := recent pr entry found
  exact ⟨time, after, before.trans (le_add_of_nonneg_right elapsed.2), served⟩

theorem decidedWithin_apiError : DecidedWithin represent momentAt bound pr (.ok .apiError) memory :=
  fun _ same decided => absurd (Except.ok.inj same).symm decided

theorem decidedWithin_error (raised : Raised) :
    DecidedWithin represent momentAt bound pr (.error raised) memory :=
  fun _ same => nomatch same

theorem decidedWithin_verdict (head : HeadAt represent momentAt pr sha time) (within : bound time)
    (before : time ≤ memory.monotonic) :
    DecidedWithin represent momentAt bound pr (.ok (verdict pr sha)) memory := by
  intro result same _
  exact ⟨time, sha, within, before, head, (Except.ok.inj same).symm⟩

/-- A verdict stands when time goes on. -/
theorem DecidedWithin.later (decided : DecidedWithin represent momentAt bound pr outcome memory)
    {later : GuardMemory} (moved : memory.monotonic ≤ later.monotonic) :
    DecidedWithin represent momentAt bound pr outcome later := by
  intro result same isVerdict
  obtain ⟨time, sha, within, before, head, isResult⟩ := decided result same isVerdict
  exact ⟨time, sha, within, before.trans moved, head, isResult⟩

/-! ## The requests of a call -/

/-- What an attempt leads to. -/
def LeadsRecently (represent : String → Nat → Representation) (momentAt : ℚ → Nat) (latency : ℚ)
    (bound : ℚ → Prop) (pr : PrRef) (madeAt : ℚ) (outcome : Except Raised (Option GuardResult))
    (memory resumed : GuardMemory) : Prop :=
  RecentEntries represent momentAt latency memory ∧ resumed.monotonic ≤ memory.monotonic ∧
    madeAt ≤ memory.monotonic ∧ ∀ result, outcome = .ok (some result) →
      DecidedWithin represent momentAt bound pr (.ok result) memory

/-- What a call comes to. -/
def SettlesRecently (represent : String → Nat → Representation) (momentAt : ℚ → Nat)
    (latency : ℚ) (bound : ℚ → Prop) (pr : PrRef) (outcome : Except Raised GuardResult)
    (memory resumed : GuardMemory) : Prop :=
  RecentEntries represent momentAt latency memory ∧ resumed.monotonic ≤ memory.monotonic ∧
    DecidedWithin represent momentAt bound pr outcome memory

theorem ensures_clientGet_terms {terms : Terms TimedCall GuardMemory GuardRequest.Answer Raised}
    {url : String} {headers : List (String × String)}
    {after : Except Raised Response → GuardMemory → GuardMemory → Prop} :
    (clientGet url headers).Ensures terms.protocol after memory resumed ↔
      (terms.invariant memory ∧ terms.moves resumed memory) ∧
        ∀ (answer : Except Raised Response) later, terms.invariant later →
          terms.moves memory later → terms.admits later ⟨.get url headers, answer⟩ →
            after answer later later :=
  Terms.ensures_call

/-- The sleep before the next attempt. -/
theorem backOff_leadsRecently (attempt : Nat)
    (recent : RecentEntries represent momentAt latency memory)
    (moved : resumed.monotonic ≤ memory.monotonic) (made : madeAt ≤ memory.monotonic) :
    (do backOff attempt; pure none : Guard (Option GuardResult)).Ensures
      (recentTerms represent momentAt latency).protocol
      (LeadsRecently represent momentAt latency bound pr madeAt) memory resumed := by
  refine ensures_bind.mpr (Terms.ensures_call.mpr ⟨⟨recent, moved⟩, ?_⟩)
  rintro (raised | _) later stillRecent goesOn -
  · exact ⟨stillRecent, le_rfl, made.trans goesOn, nofun⟩
  · exact ⟨stillRecent, le_rfl, made.trans goesOn, nofun⟩

/-- The `except` clause of an attempt. -/
theorem onTransportError_leadsRecently (attempt : Nat)
    (recent : RecentEntries represent momentAt latency memory)
    (moved : resumed.monotonic ≤ memory.monotonic) (made : madeAt ≤ memory.monotonic) :
    (onTransportError attempt).Ensures (recentTerms represent momentAt latency).protocol
      (LeadsRecently represent momentAt latency bound pr madeAt) memory resumed := by
  unfold onTransportError
  split_ifs
  · exact backOff_leadsRecently attempt recent moved made
  · exact ⟨recent, moved, made, nofun⟩

section Attempts

variable {githubToken : String} {staleEntry : Option CacheEntry}
  (identify : EtagsIdentify represent)
  (captured : ∀ entry, staleEntry = some entry →
    ∃ time, ServedAt represent momentAt pr entry.sha entry.etag time)
  (own : ∀ time, madeAt - latency ≤ time → bound time)

include identify captured in
/-- A `304` vouches anew for what was captured. -/
theorem servedAt_of_notModified {entry : CacheEntry} (isCaptured : staleEntry = some entry)
    (sent : ifNoneMatch (requestHeaders githubToken staleEntry) =
      some (represent (pullUrl pr) (momentAt time)).etag) :
    ServedAt represent momentAt pr entry.sha entry.etag time := by
  obtain ⟨earlier, head, isEtag⟩ := captured entry isCaptured
  rw [ifNoneMatch_requestHeaders, isCaptured, Option.bind_some, isEtag] at sent
  have sameEtag := Option.some.inj (Option.filter_eq_some_iff.mp sent).1
  refine ⟨?_, isEtag.trans (congrArg some sameEtag)⟩
  rw [HeadAt, head, identify _ _ _ sameEtag]

include identify captured own

/-- One attempt. -/
theorem attemptOnce_leadsRecently (attempt : Nat)
    (recent : RecentEntries represent momentAt latency memory)
    (moved : resumed.monotonic ≤ memory.monotonic) (made : madeAt ≤ memory.monotonic) :
    (attemptOnce pr (requestHeaders githubToken staleEntry) staleEntry attempt).Ensures
      (recentTerms represent momentAt latency).protocol
      (LeadsRecently represent momentAt latency bound pr madeAt) memory resumed := by
  refine ensures_bind.mpr (ensures_clientGet_terms.mpr ⟨⟨recent, moved⟩, ?_⟩)
  rintro (raised | response) later stillRecent goesOn ⟨time, after, before, conforms⟩
  · exact ⟨stillRecent, le_rfl, made.trans goesOn, nofun⟩
  have begun : madeAt ≤ later.monotonic := made.trans goesOn
  have within : bound time := own time ((sub_le_sub_right begun latency).trans after)
  have givesUp : LeadsRecently represent momentAt latency bound pr madeAt (.ok (some .apiError))
      later later := by
    refine ⟨stillRecent, le_rfl, begun, ?_⟩
    rintro _ ⟨⟩
    exact decidedWithin_apiError
  rw [onOutcome_ok]
  split_ifs with success notModified rateLimited serverError
  · obtain ⟨reported, isEtag⟩ := conforms.1 success
    have served : ServedAt represent momentAt pr
        (.string (represent (pullUrl pr) (momentAt time)).sha) (response.headers "ETag") time :=
      ⟨rfl, isEtag⟩
    rw [reported]
    refine ⟨stillRecent.stored served after before, le_rfl, begun, ?_⟩
    rintro _ ⟨⟩
    exact decidedWithin_verdict served.1 within before
  · cases isCaptured : staleEntry with
    | none => exact givesUp
    | some entry =>
        have served := servedAt_of_notModified identify captured isCaptured
          (conforms.2 notModified)
        refine ⟨stillRecent.stored served after before, le_rfl, begun, ?_⟩
        rintro _ ⟨⟩
        exact decidedWithin_verdict served.1 within before
  · exact givesUp
  · exact backOff_leadsRecently attempt stillRecent le_rfl begun
  · exact givesUp

/-- The attempts together. -/
theorem attempts_settleRecently (left : List Nat)
    (recent : RecentEntries represent momentAt latency memory)
    (moved : resumed.monotonic ≤ memory.monotonic) (made : madeAt ≤ memory.monotonic) :
    (attempts pr (requestHeaders githubToken staleEntry) staleEntry left).Ensures
      (recentTerms represent momentAt latency).protocol
      (SettlesRecently represent momentAt latency bound pr) memory resumed := by
  induction left generalizing memory resumed with
  | nil => exact ⟨recent, moved, decidedWithin_apiError⟩
  | cons attempt left ih =>
      -- an attempt, or its handler, yields a verdict, raises, or goes on to the attempts left
      simp only [attempts, ensures_bind, ensures_tryExcept]
      refine (attemptOnce_leadsRecently identify captured own attempt recent moved made).mono ?_
      rintro (raised | _ | result) memory resumed ⟨recent, moved, made, decided⟩
      · rw [onOutcome_error]
        split_ifs
        · have handled : (onTransportError attempt).Ensures
              (recentTerms represent momentAt latency).protocol
              (LeadsRecently represent momentAt latency bound pr madeAt) memory resumed :=
            onTransportError_leadsRecently attempt recent moved made
          apply handled.mono
          rintro (raised | _ | result) memory resumed ⟨recent, moved, made, decided⟩
          · exact ⟨recent, moved, decidedWithin_error raised⟩
          · exact ih recent moved made
          · exact ⟨recent, moved, decided result rfl⟩
        · exact ⟨recent, moved, decidedWithin_error raised⟩
      · exact ih recent moved made
      · exact ⟨recent, moved, decided result rfl⟩

variable (githubToken) in
/-- The requests of a call, and the closing of its client. -/
theorem requests_settleRecently (ownClient : Bool)
    (recent : RecentEntries represent momentAt latency memory)
    (moved : resumed.monotonic ≤ memory.monotonic) (made : madeAt ≤ memory.monotonic) :
    (tryFinally (attempts pr (requestHeaders githubToken staleEntry) staleEntry
        (List.range maxRetries)) (closeOwn ownClient)).Ensures
      (recentTerms represent momentAt latency).protocol
      (SettlesRecently represent momentAt latency bound pr) memory resumed := by
  rw [ensures_tryFinally]
  refine (attempts_settleRecently identify captured own _ recent moved made).mono ?_
  rintro outcome memory resumed ⟨recent, moved, decided⟩
  cases ownClient with
  | false => exact ⟨recent, moved, decided⟩
  | true =>
      refine Terms.ensures_call.mpr ⟨⟨recent, moved⟩, ?_⟩
      rintro (raised | _) later stillRecent goesOn -
      · exact ⟨stillRecent, le_rfl, decidedWithin_error raised⟩
      · exact ⟨stillRecent, le_rfl, decided.later goesOn⟩

end Attempts

/-- **A check**: an entry that is fresh answers if it is within the bound, and otherwise the
requests do. -/
theorem checkShaCurrent_settlesRecently (identify : EtagsIdentify represent)
    (own : ∀ time, madeAt - latency ≤ time → bound time) (githubToken : String)
    (ownClient : Bool) (recent : RecentEntries represent momentAt latency memory)
    (moved : resumed.monotonic ≤ memory.monotonic) (made : madeAt ≤ memory.monotonic)
    (cached : ∀ entry, memory.shaCache.get (cacheKey pr) = some entry →
      memory.monotonic - entry.fetchedAt < shaCacheTtl →
        ∀ time, entry.fetchedAt - latency ≤ time → bound time) :
    (checkShaCurrent pr githubToken ownClient).Ensures
      (recentTerms represent momentAt latency).protocol
      (SettlesRecently represent momentAt latency bound pr) memory resumed := by
  have captured : ∀ entry, memory.shaCache.get (cacheKey pr) = some entry →
      ∃ time, ServedAt represent momentAt pr entry.sha entry.etag time := by
    intro entry found
    obtain ⟨time, -, -, served⟩ := recent pr entry found
    exact ⟨time, served⟩
  have asks := requests_settleRecently githubToken identify captured own ownClient recent moved
    made
  simp only [checkShaCurrent, getCached, ensures_bind, ensures_get, onOutcome_ok]
  cases found : memory.shaCache.get (cacheKey pr) with
  | none => simpa [found] using asks
  | some entry =>
      rw [found] at asks
      by_cases fresh : memory.monotonic - entry.fetchedAt < shaCacheTtl
      · obtain ⟨time, after, before, served⟩ := recent pr entry found
        have within : bound time := cached entry found fresh time after
        have settles : SettlesRecently represent momentAt latency bound pr
            (.ok (verdict pr entry.sha)) memory resumed :=
          ⟨recent, moved, decidedWithin_verdict served.1 within before⟩
        simpa [fresh] using settles
      · simpa [found, fresh] using asks

/-! ## All calls -/

/-- What is asked of every call. -/
def DecidesRecently (represent : String → Nat → Representation) (momentAt : ℚ → Nat) (latency : ℚ)
    (timed : TimedCall) (outcome : Except Raised GuardResult) (memory : GuardMemory) : Prop :=
  DecidedWithin represent momentAt (NotOlder latency timed.call timed.madeAt) timed.call.pr outcome
    memory

/-- What a fresh entry holds, and what a request brings, is not older than the cache allows. -/
theorem cached_notOlder {entry : CacheEntry} (fresh : madeAt - entry.fetchedAt < shaCacheTtl)
    (after : entry.fetchedAt - latency ≤ time) : madeAt - (shaCacheTtl + latency) < time := by
  linarith

theorem own_notOlder (after : madeAt - latency ≤ time) :
    madeAt - (shaCacheTtl + latency) < time := by
  have positive : 0 < shaCacheTtl := by norm_num [shaCacheTtl]
  linarith

theorem body_decidesRecently (identify : EtagsIdentify represent) (timed : TimedCall)
    (recent : RecentEntries represent momentAt latency memory)
    (begins : timed.madeAt = memory.monotonic) :
    timed.call.body.Ensures (recentTerms represent momentAt latency).protocol
      ((recentTerms represent momentAt latency).Delivers
        (DecidesRecently represent momentAt latency) timed) memory memory := by
  obtain ⟨call, madeAt⟩ := timed
  obtain rfl : madeAt = memory.monotonic := begins
  cases call with
  | checkShaCurrent pr githubToken ownClient =>
      exact checkShaCurrent_settlesRecently identify (fun _ => own_notOlder) githubToken ownClient
        recent le_rfl le_rfl fun _ _ fresh _ after => cached_notOlder fresh after
  | entryGuard pr githubToken ownClient =>
      exact checkShaCurrent_settlesRecently identify (fun _ => own_notOlder) githubToken ownClient
        recent le_rfl le_rfl fun _ _ fresh _ after => cached_notOlder fresh after
  | exitGuard pr githubToken ownClient =>
      -- it has just evicted the entry, so no fresh one answers
      refine ensures_bind.mpr (checkShaCurrent_settlesRecently identify (fun _ after => after)
        githubToken ownClient (recent.evicted pr) le_rfl le_rfl ?_)
      intro entry found
      have evicted : (memory.shaCache.erase (cacheKey pr)).get (cacheKey pr) = none := by simp
      cases evicted.symm.trans found

theorem decidesRecently_stands (timed : TimedCall) (outcome : Except Raised GuardResult)
    (memory later : GuardMemory) (decides : DecidesRecently represent momentAt latency timed
      outcome memory) (moved : (recentTerms represent momentAt latency).moves memory later) :
    DecidesRecently represent momentAt latency timed outcome later :=
  decides.later moved

/-- An event that happens is one that the terms allow. -/
theorem exists_callStep {pool next : TimedPool} {event : TimedEvent}
    (moved : timedStep represent momentAt latency pool event = some next) :
    ∃ poolEvent, (recentTerms represent momentAt latency).Allows pool poolEvent ∧
      callStep pool poolEvent = some next := by
  cases event with
  | start call => exact ⟨.start ⟨call, pool.shared.monotonic⟩, rfl, moved⟩
  | elapse elapsed => exact ⟨.drift elapsed, trivial, moved⟩
  | answer thread generatedAt respond =>
      rw [timedStep] at moved
      split at moved
      · cases moved
      · rename_i request waits
        split at moved
        · rename_i inTime
          refine ⟨.answer thread respond, ?_, moved⟩
          intro waiting other next isThread rest
          have same : awaited pool thread = some other := by
            obtain ⟨call, heard, _⟩ := waiting
            obtain rfl := rest
            rw [awaited, isThread]
          obtain rfl := Option.some.inj (waits.symm.trans same)
          exact ⟨generatedAt, inTime⟩
        · cases moved

/-- **How old a verdict can be.** In every run of guard calls, whatever they are answered
and however they interleave, a verdict is the comparison with a head of the pull request
that was the head at most five seconds and the latency before the call was made, and at
most the latency if the call is an exit guard. -/
theorem verdicts_recent (identify : EtagsIdentify represent) (momentAt : ℚ → Nat)
    (latency clock : ℚ) (events : List TimedEvent) :
    ∀ pool ∈ (timedStep represent momentAt latency).visits ⟨{ monotonic := clock }, [], []⟩ events,
      ∀ thread ∈ pool.threads, ∀ result, thread.rest = .finish (.ok result) →
        result ≠ .apiError → ∃ time sha,
          NotOlder latency thread.call.call thread.call.madeAt time ∧
          time ≤ pool.shared.monotonic ∧ HeadAt represent momentAt thread.call.call.pr sha time ∧
          result = verdict thread.call.call.pr sha := by
  intro pool visited thread member result finished isVerdict
  have initially : (recentTerms represent momentAt latency).Sound
      (DecidesRecently represent momentAt latency)
      (⟨{ monotonic := clock }, [], []⟩ : TimedPool) :=
    ⟨fun _ _ found => by simp at found, fun _ member => by cases member⟩
  have sound : (recentTerms represent momentAt latency).Sound
      (DecidesRecently represent momentAt latency) pool := by
    refine Machine.forall_visits (fun pool event next kept moved => ?_) initially events pool
      visited
    obtain ⟨poolEvent, allowed, moved⟩ := exists_callStep moved
    exact Terms.sound_step decidesRecently_stands
      (fun timed memory recent begins => body_decidesRecently identify timed recent begins)
      (fun elapsed memory recent => ⟨recent.tick elapsed, le_add_of_nonneg_right elapsed.2⟩)
      kept allowed moved
  exact sound.finished member finished result rfl isVerdict

/-- With a fresh entry, a call answers at once. -/
theorem segment_checkShaCurrent_fresh {entry : CacheEntry}
    (found : memory.shaCache.get (cacheKey pr) = some entry)
    (fresh : memory.monotonic - entry.fetchedAt < shaCacheTtl) (githubToken : String)
    (ownClient : Bool) :
    (checkShaCurrent pr githubToken ownClient).segment memory =
      (.finish (.ok (verdict pr entry.sha)), memory) := by
  have hit : (getCached pr).segment memory =
      (.finish (.ok (some (entry.sha, entry.etag))), memory) := by
    refine (segment_bind segment_get).trans ?_
    rw [found]
    exact congrArg (fun body => Coroutine.segment body memory) (if_pos fresh)
  rw [checkShaCurrent, segment_bind hit]
  rfl

theorem timedStep_start {pool : TimedPool} {call : GuardCall} {rest : Guard GuardResult}
    (segment : call.body.segment pool.shared = (rest, memory)) :
    timedStep represent momentAt latency pool (.start call) = some ⟨memory, pool.log,
      pool.threads ++ [⟨⟨call, pool.shared.monotonic⟩, [], rest⟩]⟩ := by
  simp only [timedStep, callStep, Pool.step, segment]

/-- A head and the one that is pushed after it. -/
def pushedHead : String → Nat → Representation
  | _, 0 => ⟨"abc123def456", "first"⟩
  | _, _ => ⟨"999000111222", "second"⟩

/-- The push happens at the second second. -/
def pushAtTwo (time : ℚ) : Nat := if time < 2 then 0 else 1

/-- Three seconds after a request, and one after the push, the cache still answers with the
head before it, which was the head at most six seconds before. -/
theorem cachedHead_recent :
    ∃ time sha, (3 : ℚ) - (shaCacheTtl + 1) < time ∧ time ≤ 3 ∧
      HeadAt pushedHead pushAtTwo ⟨"acme", "myapp", 42, "abc123def456"⟩ sha time ∧
      GuardResult.current = verdict ⟨"acme", "myapp", 42, "abc123def456"⟩ sha := by
  let pr : PrRef := ⟨"acme", "myapp", 42, "abc123def456"⟩
  have identify : EtagsIdentify pushedHead := by
    intro url first second same
    cases first <;> cases second <;> simp_all [pushedHead]
  let call : GuardCall := .entryGuard pr "token" false
  let entry : CacheEntry := ⟨.string "abc123def456", 0, some "first"⟩
  let delivered := answered pr (requestHeaders "token" none) (fullResponse "abc123def456" "first")
  let first : Thread TimedCall GuardMemory GuardRequest.Answer Raised GuardResult :=
    ⟨⟨call, 0⟩, [delivered], .finish (.ok .current)⟩
  let later : GuardMemory := ⟨Dict.set ∅ (cacheKey pr) entry, 0 + ((3 : ℚ≥0) : ℚ)⟩
  let asked : TimedPool :=
    ⟨{ monotonic := 0 }, [], [⟨⟨call, 0⟩, [], (call.body.segment { monotonic := 0 }).1⟩]⟩
  let second : Thread TimedCall GuardMemory GuardRequest.Answer Raised GuardResult :=
    ⟨⟨call, 0 + ((3 : ℚ≥0) : ℚ)⟩, [], .finish (.ok .current)⟩
  have conforms : Conforms pushedHead (pushAtTwo 0) delivered := by
    have early : pushAtTwo 0 = 0 := if_pos (by norm_num)
    rw [early]
    exact ⟨fun _ => ⟨rfl, rfl⟩, fun confirms => absurd confirms (by decide)⟩
  have answers : timedStep pushedHead pushAtTwo 1 asked
      (.answer 0 0 (respondWith (fullResponse "abc123def456" "first"))) =
        some ⟨⟨Dict.set ∅ (cacheKey pr) entry, 0⟩, [delivered], [first]⟩ :=
    if_pos ⟨by norm_num, le_rfl, conforms⟩
  have found : later.shaCache.get (cacheKey pr) = some entry := by simp [later]
  have fresh : later.monotonic - entry.fetchedAt < shaCacheTtl := by
    norm_num [later, entry, shaCacheTtl]
  have hit : call.body.segment later = (.finish (.ok .current), later) :=
    segment_checkShaCurrent_fresh found fresh "token" false
  let events : List TimedEvent :=
    [.start call, .answer 0 0 (respondWith (fullResponse "abc123def456" "first")), .elapse 3,
      .start call]
  have ran : (timedStep pushedHead pushAtTwo 1).run ⟨{ monotonic := 0 }, [], []⟩ events =
      some ⟨later, [delivered], [first, second]⟩ := by
    have asks : timedStep pushedHead pushAtTwo 1 ⟨{ monotonic := 0 }, [], []⟩ (.start call) =
        some asked := rfl
    have waits : timedStep pushedHead pushAtTwo 1
        ⟨⟨Dict.set ∅ (cacheKey pr) entry, 0⟩, [delivered], [first]⟩ (.elapse 3) =
          some ⟨later, [delivered], [first]⟩ := rfl
    rw [Machine.run_cons, asks, Option.bind_some, Machine.run_cons, answers, Option.bind_some,
      Machine.run_cons, waits, Option.bind_some, Machine.run_cons, timedStep_start hit]
    rfl
  have visited := (Machine.mem_visits_iff _ _ _ events).mpr ⟨events, [], by simp, ran⟩
  obtain ⟨time, sha, after, before, head, same⟩ :=
    verdicts_recent identify pushAtTwo 1 0 events _ visited second (by simp) .current rfl
      (by decide)
  exact ⟨time, sha, by simpa [NotOlder, second, call] using after, by simpa [later] using before,
    head, same⟩

end ShaGuard

end Kenjutsu.Pipeline
