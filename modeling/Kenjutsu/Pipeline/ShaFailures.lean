import Kenjutsu.Pipeline.ShaGuard

/-!
# Failed attempts of the sha guard

A call of `check_sha_current` that runs alone is decided by the outcomes of its attempts:
each is a response or a transport error. The loop goes on after server errors and after
the transport errors that its `except` clause names. Other transport errors leave it as
exceptions, and so does a `200` whose body cannot be read; a `200` with something else
than a text for a sha is compared all the same.
-/

set_option autoImplicit false

namespace Kenjutsu.Pipeline.ShaGuard

open Foundations Foundations.Coroutine Kenjutsu.Http

/-! ## Outcomes of attempts -/

/-- The subclasses of `httpx.TransportError`. -/
def isTransportError : Raised → Bool
  | .timeoutException | .connectError | .networkError | .protocolError | .proxyError
  | .unsupportedProtocol => true
  | _ => false

/-- An attempt brings a response or a transport error. -/
abbrev Outcome := Except {raised : Raised // isTransportError raised} Response

/-- What `client.get` does for an outcome. -/
def answerOf : Outcome → Except Raised Response
  | .ok response => .ok response
  | .error raised => .error raised.1

/-- A server error or a transport error. -/
def Transient : Outcome → Prop
  | .ok response => 500 ≤ response.statusCode
  | .error _ => True

/-- A transport error that the `except` clause does not name, or a `200` without a sha. -/
def Escapes : Outcome → Prop
  | .ok response => response.statusCode = 200 ∧ ∀ sha, response.headSha ≠ .ok (.string sha)
  | .error raised => catches raised.1 = false

/-- The entry that answers without a request. -/
def freshEntry (memory : GuardMemory) (pr : PrRef) : Option CacheEntry :=
  (memory.shaCache.get (cacheKey pr)).filter fun entry =>
    memory.monotonic - entry.fetchedAt < shaCacheTtl

/-! ## A call that runs alone -/

/-- What an await returns after some requests, and how many requests there are then. -/
def Answers (outcomes : Nat → Outcome) (requests : Nat) :
    (request : GuardRequest) → Except Raised request.Answer → Nat → Prop
  | .get _ _, answer, moved => answer = answerOf (outcomes requests) ∧ moved = requests + 1
  | .sleep _, answer, moved => answer = .ok () ∧ moved = requests
  | .aclose, answer, moved => answer = .ok () ∧ moved = requests

/-- The requests of the call have the outcomes, one after the other, its other awaits
return, and time passes. -/
def alone (outcomes : Nat → Outcome) : Protocol GuardMemory GuardRequest.Answer Raised Nat where
  leaves := fun _ _ _ => True
  reacts := fun memory requests request answer resumed moved =>
    resumed.shaCache = memory.shaCache ∧ memory.monotonic ≤ resumed.monotonic ∧
      Answers outcomes requests request answer moved

variable {outcomes : Nat → Outcome}

theorem alone_always (memory : GuardMemory) (requests : Nat) (request : GuardRequest) :
    ∃ answer resumed moved,
      (alone outcomes).reacts memory requests request answer resumed moved := by
  cases request with
  | get url headers => exact ⟨answerOf (outcomes requests), memory, _, rfl, le_rfl, rfl, rfl⟩
  | sleep seconds => exact ⟨.ok (), memory, _, rfl, le_rfl, rfl, rfl⟩
  | aclose => exact ⟨.ok (), memory, _, rfl, le_rfl, rfl, rfl⟩

/-! ## What an attempt comes to -/

variable (pr : PrRef) (headers : List (String × String)) (staleEntry : Option CacheEntry)

/-- What an attempt with its handler comes to, for its outcome. -/
def concludes (attempt : Nat) : Outcome → Except Raised (Option GuardResult)
  | .error raised => if catches raised.1 then .ok none else .error raised.1
  | .ok response =>
      if response.statusCode = 200 then response.headSha.map fun sha => some (verdict pr sha)
      else if response.statusCode = 304 then
        match staleEntry with
        | none => .ok (some .apiError)
        | some entry => .ok (some (verdict pr entry.sha))
      else if response.statusCode = 403 ∨ response.statusCode = 429 then .ok (some .apiError)
      else if 500 ≤ response.statusCode ∧ attempt < maxRetries - 1 then .ok none
      else .ok (some .apiError)

/-- The attempts that are left come to a result or an exception, after so many requests. -/
def settles (outcomes : Nat → Outcome) : List Nat → Nat → Except Raised GuardResult × Nat
  | [], requests => (.ok .apiError, requests)
  | attempt :: rest, requests =>
      match concludes pr staleEntry attempt (outcomes requests) with
      | .error raised => (.error raised, requests + 1)
      | .ok (some result) => (.ok result, requests + 1)
      | .ok none => settles outcomes rest (requests + 1)

theorem verdict_ne_apiError (sha : Json) : verdict pr sha ≠ .apiError := by
  unfold verdict
  split <;> simp

/-- What reading the sha raises is not caught. -/
theorem catches_headSha {response : Response} {raised : Raised}
    (undecodable : response.headSha = .error raised) : catches raised = false := by
  have item : ∀ (key : String) (value : Json) (raised : Raised),
      value.item key = .error raised → catches raised = false := by
    intro key value raised absent
    unfold Json.item at absent
    split at absent
    · split at absent
      · cases absent
      · obtain rfl := Except.error.inj absent
        rfl
    · obtain rfl := Except.error.inj absent
      rfl
  unfold Response.headSha Response.json at undecodable
  split at undecodable
  · rename_i value _
    rw [ok_bind] at undecodable
    cases head : value.item "head" with
    | error missing =>
        rw [head, error_bind] at undecodable
        obtain rfl := Except.error.inj undecodable
        exact item "head" value missing head
    | ok inner =>
        rw [head, ok_bind] at undecodable
        exact item "sha" inner raised undecodable
  · obtain rfl := Except.error.inj undecodable
    rfl

/-- The sleep before the next attempt. -/
theorem backOff_ensures (attempt : Nat) {memory : GuardMemory} {requests : Nat} :
    (do backOff attempt; pure none : Guard (Option GuardResult)).Ensures (alone outcomes)
      (fun result resumed moved => result = .ok none ∧ moved = requests ∧
        resumed.shaCache = memory.shaCache) memory requests := by
  refine ensures_bind.mpr (ensures_call.mpr ⟨trivial, ?_⟩)
  rintro answer resumed moved ⟨sameCache, -, rfl, rfl⟩
  exact ⟨rfl, rfl, sameCache⟩

/-- **One attempt** comes to what its outcome says, and leaves the cache as it is unless it
has a verdict. -/
theorem attempt_ensures (attempt : Nat) {memory : GuardMemory} {requests : Nat} :
    (tryExcept (attemptOnce pr headers staleEntry attempt) catches
        fun _ => onTransportError attempt).Ensures (alone outcomes)
      (fun result resumed moved =>
        result = concludes pr staleEntry attempt (outcomes requests) ∧ moved = requests + 1 ∧
        (result = .ok none ∨ result = .ok (some .apiError) →
          resumed.shaCache = memory.shaCache)) memory requests := by
  refine ensures_tryExcept.mpr (ensures_bind.mpr (ensures_call.mpr ⟨trivial, ?_⟩))
  rintro answer resumed moved ⟨sameCache, -, rfl, rfl⟩
  cases outcome : outcomes requests with
  | error raised =>
      simp only [answerOf, onOutcome_error, concludes]
      split_ifs with caught
      · unfold onTransportError
        split_ifs
        · refine (backOff_ensures attempt).mono ?_
          rintro result later moved ⟨rfl, rfl, kept⟩
          exact ⟨rfl, rfl, fun _ => kept.trans sameCache⟩
        · exact ⟨rfl, rfl, fun _ => sameCache⟩
      · exact ⟨rfl, rfl, fun _ => sameCache⟩
  | ok response =>
      simp only [answerOf, onOutcome_ok, concludes]
      split_ifs with success notModified rateLimited serverError
      · cases decoded : response.headSha with
        | error raised =>
            have uncaught : ¬catches raised = true := by simp [catches_headSha decoded]
            change Ensures (alone outcomes) _
              (if catches raised then onTransportError attempt else raise raised) resumed _
            rw [if_neg uncaught]
            exact ⟨rfl, rfl, fun _ => sameCache⟩
        | ok sha =>
            refine ⟨rfl, rfl, fun either => ?_⟩
            rcases either with going | failed
            · cases going
            · exact absurd (Option.some.inj (Except.ok.inj failed)) (verdict_ne_apiError pr sha)
      · cases staleEntry with
        | none => exact ⟨rfl, rfl, fun _ => sameCache⟩
        | some entry =>
            refine ⟨rfl, rfl, fun either => ?_⟩
            rcases either with going | failed
            · cases going
            · exact absurd (Option.some.inj (Except.ok.inj failed))
                (verdict_ne_apiError pr entry.sha)
      · exact ⟨rfl, rfl, fun _ => sameCache⟩
      · refine ensures_bind.mpr (ensures_call.mpr ⟨trivial, ?_⟩)
        rintro answer later moved ⟨kept, -, rfl, rfl⟩
        exact ⟨rfl, rfl, fun _ => kept.trans sameCache⟩
      · exact ⟨rfl, rfl, fun _ => sameCache⟩

/-- The attempts that are left come to what their outcomes say. -/
theorem attempts_ensure (left : List Nat) {memory : GuardMemory} {requests : Nat} :
    (attempts pr headers staleEntry left).Ensures (alone outcomes)
      (fun outcome resumed moved =>
        (outcome, moved) = settles pr staleEntry outcomes left requests ∧
        (outcome = .ok .apiError → resumed.shaCache = memory.shaCache)) memory requests := by
  induction left generalizing memory requests with
  | nil => exact ⟨rfl, fun _ => rfl⟩
  | cons attempt left ih =>
      simp only [attempts, ensures_bind]
      apply (attempt_ensures pr headers staleEntry attempt).mono
      rintro result resumed moved ⟨concluded, rfl, kept⟩
      rw [settles, ← concluded]
      rcases result with raised | _ | result
      · exact ⟨rfl, fun failed => by cases failed⟩
      · refine ih.mono ?_
        rintro outcome later moved ⟨settled, keptLater⟩
        exact ⟨settled, fun failed => (keptLater failed).trans (kept (.inl rfl))⟩
      · refine ⟨rfl, fun failed => kept (.inr ?_)⟩
        rw [Except.ok.inj failed]

/-! ## What is promised of a call -/

/-- Where a verdict comes from: a fresh entry if there was no request, and otherwise the
last response, which brought a sha or confirmed the entry. -/
def Decided (pr : PrRef) (memory : GuardMemory) (outcomes : Nat → Outcome)
    (result : GuardResult) : Nat → Prop
  | 0 => ∃ entry, freshEntry memory pr = some entry ∧ result = verdict pr entry.sha
  | last + 1 => ∃ response, outcomes last = .ok response ∧
      ((response.statusCode = 200 ∧ ∃ sha, response.headSha = .ok (.string sha) ∧
        result = verdict pr (.string sha)) ∨
      (response.statusCode = 304 ∧ ∃ entry, memory.shaCache.get (cacheKey pr) = some entry ∧
        result = verdict pr entry.sha))

/-- The call returned after at most three requests: a verdict was decided, transient
failures were followed by another request, and without a verdict the cache is as it was. -/
structure Handled (pr : PrRef) (memory : GuardMemory) (outcomes : Nat → Outcome)
    (outcome : Except Raised GuardResult) (resumed : GuardMemory) (requests : Nat) : Prop where
  atMost : requests ≤ 3
  returns : ∃ result, outcome = .ok result
  decided : ∀ result, outcome = .ok result → result ≠ .apiError →
    Decided pr memory outcomes result requests
  retried : ∀ attempt < requests, Transient (outcomes attempt) → attempt + 1 < 3 →
    attempt + 1 < requests
  unchanged : outcome = .ok .apiError → resumed.shaCache = memory.shaCache

/-- Every run of the call alone is handled. -/
def HandlesFailures (pr : PrRef) (githubToken : String) (ownClient : Bool) (memory : GuardMemory)
    (outcomes : Nat → Outcome) : Prop :=
  (checkShaCurrent pr githubToken ownClient).Ensures (alone outcomes)
    (Handled pr memory outcomes) memory 0

/-- No attempt that is reached escapes. -/
def NoneEscapes (outcomes : Nat → Outcome) : Prop :=
  ∀ attempt < 3, (∀ earlier < attempt, Transient (outcomes earlier)) → ¬Escapes (outcomes attempt)

/-- Closing the client changes nothing. -/
theorem closeOwn_ensures (ownClient : Bool) {outcome : Except Raised GuardResult}
    {memory : GuardMemory} {requests : Nat}
    {after : Except Raised GuardResult → GuardMemory → Nat → Prop}
    (held : ∀ resumed : GuardMemory, resumed.shaCache = memory.shaCache →
      after outcome resumed requests) :
    (closeOwn ownClient).Ensures (alone outcomes)
      (onOutcome (fun _ => after outcome) fun raised => after (.error raised)) memory requests := by
  cases ownClient with
  | false => exact held memory rfl
  | true =>
      refine ensures_call.mpr ⟨trivial, ?_⟩
      rintro answer resumed moved ⟨sameCache, -, rfl, rfl⟩
      exact held resumed sameCache

theorem freshEntry_eq_some {memory : GuardMemory} {entry : CacheEntry}
    (fresh : freshEntry memory pr = some entry) :
    memory.shaCache.get (cacheKey pr) = some entry ∧
      memory.monotonic - entry.fetchedAt < shaCacheTtl := by
  simpa [freshEntry, Option.filter_eq_some_iff] using fresh

/-- **A call with a fresh entry** answers from it, without a request. -/
theorem checkShaCurrent_ensures_of_fresh (githubToken : String) (ownClient : Bool)
    {memory : GuardMemory} {entry : CacheEntry} (fresh : freshEntry memory pr = some entry) :
    (checkShaCurrent pr githubToken ownClient).Ensures (alone outcomes)
      (fun outcome resumed requests => outcome = .ok (verdict pr entry.sha) ∧
        resumed = memory ∧ requests = 0) memory 0 := by
  obtain ⟨isStored, young⟩ := freshEntry_eq_some pr fresh
  simp only [checkShaCurrent, getCached, ensures_bind, ensures_get, onOutcome_ok, isStored, young,
    if_true]
  exact ⟨rfl, rfl, rfl⟩

/-- The outcome of a call is what its attempts come to, and without a verdict the cache is
as it was. -/
def Settles (pr : PrRef) (memory : GuardMemory) (outcomes : Nat → Outcome)
    (outcome : Except Raised GuardResult) (resumed : GuardMemory) (requests : Nat) : Prop :=
  (outcome, requests) = settles pr (memory.shaCache.get (cacheKey pr)) outcomes
      (List.range maxRetries) 0 ∧
    (outcome = .ok .apiError → resumed.shaCache = memory.shaCache)

/-- **A call without a fresh entry** is what its attempts come to. -/
theorem checkShaCurrent_ensures_of_none (githubToken : String) (ownClient : Bool)
    {memory : GuardMemory} (fresh : freshEntry memory pr = none) :
    (checkShaCurrent pr githubToken ownClient).Ensures (alone outcomes)
      (Settles pr memory outcomes) memory 0 := by
  have asks : (tryFinally (attempts pr (requestHeaders githubToken
      (memory.shaCache.get (cacheKey pr))) (memory.shaCache.get (cacheKey pr))
      (List.range maxRetries)) (closeOwn ownClient)).Ensures (alone outcomes)
        (Settles pr memory outcomes) memory 0 := by
    rw [ensures_tryFinally]
    apply (attempts_ensure pr _ _ _).mono
    rintro outcome resumed requests ⟨settled, kept⟩
    refine @closeOwn_ensures outcomes ownClient outcome resumed requests
      (Settles pr memory outcomes) ?_
    exact fun closed sameCache => ⟨settled, fun failed => sameCache.trans (kept failed)⟩
  simp only [checkShaCurrent, getCached, ensures_bind, ensures_get, onOutcome_ok]
  cases found : memory.shaCache.get (cacheKey pr) with
  | none => simpa [found] using asks
  | some entry =>
      have old : ¬memory.monotonic - entry.fetchedAt < shaCacheTtl := by
        simpa [freshEntry, found] using fresh
      simpa [found, old] using asks

/-! ## Outcomes that are handled -/

/-- What the attempts from one on come to, if they are handled. -/
structure Sound (pr : PrRef) (memory : GuardMemory) (outcomes : Nat → Outcome) (start : Nat)
    (settled : Except Raised GuardResult × Nat) : Prop where
  returns : ∃ result, settled.1 = .ok result
  decided : ∀ result, settled.1 = .ok result → result ≠ .apiError →
    Decided pr memory outcomes result settled.2
  retried : ∀ attempt, start ≤ attempt → attempt < settled.2 → Transient (outcomes attempt) →
    attempt + 1 < 3 → attempt + 1 < settled.2

variable {pr} {staleEntry}

/-- After a failure that is transient and does not escape, the next attempts decide. -/
theorem settles_of_transient {start left : Nat} (last : start + (left + 1) = maxRetries)
    (transient : Transient (outcomes start)) (handled : ¬Escapes (outcomes start)) :
    settles pr staleEntry outcomes (List.range' start (left + 1)) start =
      settles pr staleEntry outcomes (List.range' (start + 1) left) (start + 1) := by
  rw [List.range'_succ, settles]
  cases outcome : outcomes start with
  | error raised =>
      rw [outcome] at handled
      have caught : catches raised.1 = true := by simpa [Escapes] using handled
      simp only [concludes, if_pos caught]
  | ok response =>
      rw [outcome] at transient
      have server : 500 ≤ response.statusCode := transient
      have notFull : response.statusCode ≠ 200 := by omega
      have modified : response.statusCode ≠ 304 := by omega
      have unlimited : ¬(response.statusCode = 403 ∨ response.statusCode = 429) := by omega
      simp only [concludes, if_neg notFull, if_neg modified, if_neg unlimited]
      cases left with
      | zero =>
          have isLast : ¬(500 ≤ response.statusCode ∧ start < maxRetries - 1) := by omega
          rw [if_neg isLast]
          rfl
      | succ left =>
          have notLast : 500 ≤ response.statusCode ∧ start < maxRetries - 1 := by omega
          rw [if_pos notLast]

/-- After anything else, the attempt decides. -/
theorem settles_of_final {start left : Nat} (final : ¬Transient (outcomes start)) :
    ∃ response, outcomes start = .ok response ∧
      settles pr staleEntry outcomes (List.range' start (left + 1)) start =
        (if response.statusCode = 200 then response.headSha.map (verdict pr)
          else if response.statusCode = 304 then
            .ok ((staleEntry.map fun entry => verdict pr entry.sha).getD .apiError)
          else .ok .apiError, start + 1) := by
  rw [List.range'_succ, settles]
  cases outcome : outcomes start with
  | error raised =>
      rw [outcome] at final
      exact absurd trivial final
  | ok response =>
      rw [outcome] at final
      have noServer : ¬500 ≤ response.statusCode := final
      refine ⟨response, rfl, ?_⟩
      simp only [concludes, noServer, false_and, if_false]
      split_ifs
      · cases response.headSha <;> rfl
      · cases staleEntry <;> rfl
      · rfl
      · rfl

theorem settles_snd (left : List Nat) (requests : Nat) :
    (settles pr staleEntry outcomes left requests).2 ≤ requests + left.length ∧
      (left ≠ [] → requests < (settles pr staleEntry outcomes left requests).2) := by
  induction left generalizing requests with
  | nil => exact ⟨le_rfl, fun nonempty => absurd rfl nonempty⟩
  | cons attempt left ih =>
      rw [settles, List.length_cons]
      split
      · exact ⟨by simp only; omega, fun _ => Nat.lt_succ_self requests⟩
      · exact ⟨by simp only; omega, fun _ => Nat.lt_succ_self requests⟩
      · obtain ⟨atMost, atLeast⟩ := ih (requests + 1)
        refine ⟨by omega, fun _ => ?_⟩
        cases left with
        | nil => exact Nat.lt_succ_self requests
        | cons next left => exact (Nat.lt_succ_self requests).trans (atLeast (by simp))

variable {memory : GuardMemory}

/-- An attempt that escapes is not handled, whether it raises or is compared. -/
theorem not_sound_of_escapes (left : Nat) {start : Nat} (escapes : Escapes (outcomes start)) :
    ¬Sound pr memory outcomes start
      (settles pr staleEntry outcomes (List.range' start (left + 1)) start) := by
  intro sound
  cases outcome : outcomes start with
  | error raised =>
      rw [outcome] at escapes
      have uncaught : ¬catches raised.1 = true := by simpa [Escapes] using escapes
      obtain ⟨result, returned⟩ := sound.returns
      rw [List.range'_succ, settles, outcome] at returned
      simp [concludes, uncaught] at returned
  | ok response =>
      rw [outcome] at escapes
      obtain ⟨success, noSha⟩ := escapes
      have final : ¬Transient (outcomes start) := by
        rw [outcome]
        change ¬500 ≤ response.statusCode
        omega
      obtain ⟨decider, same, settled⟩ := @settles_of_final outcomes pr staleEntry start left final
      obtain rfl := Except.ok.inj (outcome.symm.trans same)
      rw [settled, if_pos success] at sound
      cases decoded : response.headSha with
      | error raised =>
          obtain ⟨result, returned⟩ := sound.returns
          rw [decoded] at returned
          cases returned
      | ok sha =>
          rw [decoded] at sound
          obtain ⟨other, isOther, ⟨-, text, isText, -⟩ | ⟨notModified, -⟩⟩ :=
            sound.decided _ rfl (verdict_ne_apiError pr sha)
          · obtain rfl := Except.ok.inj (outcome.symm.trans isOther)
            exact noSha text isText
          · obtain rfl := Except.ok.inj (outcome.symm.trans isOther)
            omega

/-- An attempt that decides without escaping is handled. -/
theorem sound_of_final (isStored : memory.shaCache.get (cacheKey pr) = staleEntry) (left : Nat)
    {start : Nat} (final : ¬Transient (outcomes start)) (handled : ¬Escapes (outcomes start)) :
    Sound pr memory outcomes start
      (settles pr staleEntry outcomes (List.range' start (left + 1)) start) := by
  obtain ⟨response, outcome, settled⟩ := @settles_of_final outcomes pr staleEntry start left final
  have retried : ∀ attempt, start ≤ attempt → attempt < start + 1 →
      Transient (outcomes attempt) → attempt + 1 < 3 → attempt + 1 < start + 1 := by
    intro attempt above below transient
    obtain rfl : attempt = start := by omega
    exact absurd transient final
  rw [settled]
  split_ifs with success notModified
  · have hasSha : ∃ sha, response.headSha = .ok (.string sha) := by
      by_contra none
      push Not at none
      rw [outcome] at handled
      exact handled ⟨success, none⟩
    obtain ⟨sha, isSha⟩ := hasSha
    rw [isSha]
    refine ⟨⟨_, rfl⟩, fun result isResult _ => ?_, retried⟩
    obtain rfl := Except.ok.inj isResult
    exact ⟨response, outcome, .inl ⟨success, sha, isSha, rfl⟩⟩
  · refine ⟨⟨_, rfl⟩, fun result isResult notError => ?_, retried⟩
    obtain rfl := Except.ok.inj isResult
    cases staleEntry with
    | none => exact absurd rfl notError
    | some entry => exact ⟨response, outcome, .inr ⟨notModified, entry, isStored, rfl⟩⟩
  · exact ⟨⟨_, rfl⟩, fun result isResult notError =>
      absurd (Except.ok.inj isResult).symm notError, retried⟩

/-- No attempt from one on that is reached escapes. -/
def NoneEscapesFrom (outcomes : Nat → Outcome) (start : Nat) : Prop :=
  ∀ attempt, start ≤ attempt → attempt < maxRetries →
    (∀ earlier, start ≤ earlier → earlier < attempt → Transient (outcomes earlier)) →
      ¬Escapes (outcomes attempt)

/-- After a transient failure it depends on the attempts that follow. -/
theorem noneEscapesFrom_succ {start : Nat} (transient : Transient (outcomes start))
    (handled : ¬Escapes (outcomes start)) :
    NoneEscapesFrom outcomes start ↔ NoneEscapesFrom outcomes (start + 1) := by
  constructor
  · intro none attempt above below earlier
    refine none attempt (by omega) below fun other otherAbove otherBelow => ?_
    by_cases isStart : other = start
    · rwa [isStart]
    · exact earlier other (by omega) otherBelow
  · intro none attempt above below earlier
    by_cases isStart : attempt = start
    · rwa [isStart]
    · exact none attempt (by omega) below fun other otherAbove => earlier other (by omega)

/-- A failure that another request followed is handled if what follows is. -/
theorem sound_succ {start : Nat} {settled : Except Raised GuardResult × Nat}
    (more : start + 1 < 3 → start + 1 < settled.2) :
    Sound pr memory outcomes start settled ↔ Sound pr memory outcomes (start + 1) settled := by
  constructor
  · intro sound
    exact ⟨sound.returns, sound.decided, fun attempt above =>
      sound.retried attempt (by omega)⟩
  · intro sound
    refine ⟨sound.returns, sound.decided, fun attempt above below failed notLast => ?_⟩
    by_cases isStart : attempt = start
    · rw [isStart] at notLast ⊢
      exact more notLast
    · exact sound.retried attempt (by omega) below failed notLast

/-- **What the attempts come to is sound** exactly when none that is reached escapes. -/
theorem sound_iff (isStored : memory.shaCache.get (cacheKey pr) = staleEntry)
    (left : Nat) {start : Nat} (last : start + left = maxRetries) :
    Sound pr memory outcomes start
        (settles pr staleEntry outcomes (List.range' start left) start) ↔
      NoneEscapesFrom outcomes start := by
  induction left generalizing start with
  | zero =>
      have sound : Sound pr memory outcomes start (.ok .apiError, start) := by
        refine ⟨⟨_, rfl⟩, fun result isResult notError => ?_, fun attempt above below => ?_⟩
        · exact absurd (Except.ok.inj isResult).symm notError
        · simp only at below
          omega
      refine iff_of_true sound fun attempt above below => ?_
      omega
  | succ left ih =>
      by_cases escapes : Escapes (outcomes start)
      · exact iff_of_false (not_sound_of_escapes left escapes) fun none =>
          none start le_rfl (by omega) (fun earlier above below => by omega) escapes
      · by_cases transient : Transient (outcomes start)
        · have later := (@settles_snd outcomes pr staleEntry (List.range' (start + 1) left)
            (start + 1)).2
          have more : start + 1 < 3 → start + 1 <
              (settles pr staleEntry outcomes (List.range' (start + 1) left) (start + 1)).2 := by
            intro notLast
            cases left with
            | zero =>
                have isThree : maxRetries = 3 := rfl
                omega
            | succ left => exact later (by simp [List.range'_succ])
          rw [settles_of_transient last transient escapes, sound_succ more,
            noneEscapesFrom_succ transient escapes]
          exact ih (by omega)
        · refine iff_of_true (sound_of_final isStored left transient escapes) ?_
          intro attempt above below earlier
          by_cases isStart : attempt = start
          · rwa [isStart]
          · exact absurd (earlier start le_rfl (by omega)) transient

/-- **Every outcome of every attempt is handled** exactly when a fresh entry answers, or no
attempt that is reached escapes. -/
theorem handlesFailures_iff (pr : PrRef) (githubToken : String) (ownClient : Bool)
    (memory : GuardMemory) (outcomes : Nat → Outcome) :
    HandlesFailures pr githubToken ownClient memory outcomes ↔
      (freshEntry memory pr).isSome ∨ NoneEscapes outcomes := by
  cases fresh : freshEntry memory pr with
  | some entry =>
      refine iff_of_true ?_ (.inl rfl)
      apply (checkShaCurrent_ensures_of_fresh pr githubToken ownClient fresh).mono
      rintro outcome resumed requests ⟨rfl, rfl, rfl⟩
      refine ⟨by omega, ⟨_, rfl⟩, fun result isResult _ => ⟨entry, fresh, ?_⟩,
        fun attempt below => by omega, fun _ => rfl⟩
      exact (Except.ok.inj isResult).symm
  | none =>
      have settled := @checkShaCurrent_ensures_of_none outcomes pr githubToken ownClient memory
        fresh
      have exact := @sound_iff outcomes pr _ memory rfl maxRetries 0 (Nat.zero_add _)
      rw [← List.range_eq_range'] at exact
      have none : NoneEscapesFrom outcomes 0 ↔ NoneEscapes outcomes := by
        simp [NoneEscapesFrom, NoneEscapes, maxRetries]
      rw [Option.isSome_none, or_iff_right Bool.false_ne_true, ← none, ← exact]
      constructor
      · intro handles
        obtain ⟨outcome, resumed, requests, handled, isSettled, -⟩ :=
          handles.exists_and alone_always settled
        rw [← isSettled]
        exact ⟨handled.returns, handled.decided, fun attempt _ => handled.retried attempt⟩
      · intro sound
        apply settled.mono
        rintro outcome resumed requests ⟨isSettled, kept⟩
        have atMost := (@settles_snd outcomes pr (memory.shaCache.get (cacheKey pr))
          (List.range maxRetries) 0).1
        rw [← isSettled] at sound atMost
        rw [List.length_range] at atMost
        exact ⟨atMost, sound.returns, sound.decided, fun attempt => sound.retried attempt
          (Nat.zero_le attempt), kept⟩

/-- A server that hangs up without a response, on a call with an empty cache. -/
theorem not_handlesFailures_protocolError :
    ¬∀ (pr : PrRef) (githubToken : String) (ownClient : Bool) (memory : GuardMemory)
      (outcomes : Nat → Outcome), HandlesFailures pr githubToken ownClient memory outcomes := by
  intro handles
  let pr : PrRef := ⟨"owner", "repo", 1, "abc123"⟩
  let outcomes : Nat → Outcome := fun _ => .error ⟨.protocolError, rfl⟩
  have settled := @checkShaCurrent_ensures_of_none outcomes pr "token" false {} rfl
  obtain ⟨outcome, resumed, requests, handled, isSettled, -⟩ :=
    (handles pr "token" false {} outcomes).exists_and alone_always settled
  have raised : settles pr none outcomes (List.range maxRetries) 0 =
    (.error .protocolError, 1) := rfl
  obtain ⟨result, returned⟩ := handled.returns
  have same := congrArg Prod.fst (isSettled.trans raised)
  rw [returned] at same
  cases same

end Kenjutsu.Pipeline.ShaGuard
