import Kenjutsu.Foundations.Transcripts
import Mathlib.Data.List.TakeWhile
import Kenjutsu.Pipeline.PublisherStages

/-!
# Writing against the reviewed head only

`publish_review` first loads what it needs, then asks for the head of the pull
request, and only then writes, to GitHub or to its rows. An attempt that gives up
before the head is confirmed has written nothing; whatever an attempt creates
carries the confirmed commit.

An attempt has one normal form (`publishReview_serve`, `publishReview_journal`):
the loading is a function of the database, the verdict on the head a function of
the answer to the GET, and the rest is `publishLoaded`.
-/

set_option autoImplicit false

namespace Kenjutsu.Pipeline

open Foundations Foundations.Coroutine Kenjutsu.Http Kenjutsu.Db

namespace Publisher

variable {Server : Type}
  {respond : Server → (request : PublisherRequest) → Except Raised request.Answer × Server}
  {database : Database} {server : Server} {reviewId installationId : UUID} {token : String}
  {review : Review} {target : PublishTarget}

/-! ## The normal form of an attempt -/

/-- The review and the pull request that an attempt loads. -/
def loading (database : Database) (reviewId installationId : UUID) (token : String) :
    Except Raised (Review × PublishTarget) :=
  match scalarOneOrNone (selectReviews database reviewId installationId) with
  | .error raised => .error raised
  | .ok none => .error (.valueError ("Review " ++ reviewId.str ++ " not found"))
  | .ok (some review) =>
      match scalarOneOrNone (selectRepos database review.repoId installationId) with
      | .error raised => .error raised
      | .ok none => .error (.valueError ("Repo " ++ review.repoId.str ++ " not found"))
      | .ok (some repo) => do
          let (owner, repoName) ← splitFullName repo.fullName
          .ok (review, ⟨owner, repoName, review.prNumber, review.headSha, token⟩)

/-- The head that the answer to the GET reports. -/
def reportedHead (answer : Except Raised Response) : Except Raised Json := do
  let response ← answer
  response.raiseForStatus
  response.headSha

/-- The verdict of the sha guard on the answer to the GET. -/
def headVerdict (target : PublishTarget) (answer : Except Raised Response) :
    Except Raised Unit := do
  let currentSha ← reportedHead answer
  if currentSha.isText target.headSha then .ok ()
  else .error (.valueError ("Head SHA mismatch for PR #" ++ toString target.prNumber ++
    ": expected " ++ target.headSha ++ ", got " ++ currentSha.text))

/-- The GET of the pull request. -/
def headRequest (target : PublishTarget) : PublisherRequest := .http ⟨target, .getPull⟩

theorem checkHead_eq (target : PublishTarget) :
    checkHead target =
      .await (headRequest target) fun answer => .finish (headVerdict target answer) := by
  refine congrArg (Coroutine.await (headRequest target)) (funext fun answer => ?_)
  rcases answer with raised | (response : Response)
  · rfl
  · change (Coroutine.ofExcept response.raiseForStatus >>= _) =
      finish (headVerdict target (.ok response))
    unfold headVerdict reportedHead
    cases raises : response.raiseForStatus with
    | error raised => simp [ofExcept_error_bind, raises]
    | ok _ =>
        rw [ofExcept_ok_bind]
        cases reports : response.headSha with
        | error raised => simp [ofExcept_error_bind, raises, reports]
        | ok currentSha =>
            simp only [ofExcept_ok_bind, ok_bind, raises, reports]
            split <;> rfl

/-- The review an attempt loads. -/
theorem loadReview_afterReads :
    (loadReview reviewId installationId).afterReads database =
      .finish (match scalarOneOrNone (selectReviews database reviewId installationId) with
        | .error raised => .error raised
        | .ok none => .error (.valueError ("Review " ++ reviewId.str ++ " not found"))
        | .ok (some review) => .ok review) := by
  refine (afterReads_continueWith rfl).trans ?_
  change (Coroutine.ofExcept _ >>= _ : Publisher Review).afterReads database = _
  rcases scalarOneOrNone (selectReviews database reviewId installationId) with raised | (_ | review)
  · rfl
  · rfl
  · rfl

/-- The repo an attempt loads. -/
theorem loadRepo_afterReads {repoId : UUID} :
    (loadRepo repoId installationId).afterReads database =
      .finish (match scalarOneOrNone (selectRepos database repoId installationId) with
        | .error raised => .error raised
        | .ok none => .error (.valueError ("Repo " ++ repoId.str ++ " not found"))
        | .ok (some repo) => .ok repo) := by
  refine (afterReads_continueWith rfl).trans ?_
  change (Coroutine.ofExcept _ >>= _ : Publisher Repo).afterReads database = _
  rcases scalarOneOrNone (selectRepos database repoId installationId) with raised | (_ | repo)
  · rfl
  · rfl
  · rfl

/-- **The normal form of an attempt.** -/
theorem publishReview_afterReads :
    (publishReview reviewId installationId token).afterReads database =
      match loading database reviewId installationId token with
      | .error raised => .finish (.error raised)
      | .ok (review, target) => .await (headRequest target) fun answer =>
          finish (headVerdict target answer) >>= fun _ =>
            publishLoaded target review (publishableFindings database reviewId) := by
  refine (afterReads_continueWith loadReview_afterReads).trans ?_
  unfold loading
  rcases scalarOneOrNone (selectReviews database reviewId installationId) with raised | (_ | review)
  · rfl
  · rfl
  · refine (afterReads_continueWith loadRepo_afterReads).trans ?_
    simp only
    rcases scalarOneOrNone (selectRepos database review.repoId installationId) with
      raised | (_ | repo)
    · rfl
    · rfl
    · simp only
      cases split : splitFullName repo.fullName with
      | error raised => rfl
      | ok name =>
          rw [ofExcept_ok_bind]
          refine (afterReads_continueWith rfl).trans ?_
          simp only [checkHead_eq]
          rfl

/-! ## The three ways of an attempt -/

/-- A run of `publish_review`: how it ends, and its journal. -/
def attemptRun (respond : Server → (request : PublisherRequest) →
      Except Raised request.Answer × Server)
    (reviewId installationId : UUID) (token : String) (database : Database) (server : Server) :
    Except Raised Unit × Database × List (Happening Database PublisherRequest.Answer Raised) :=
  let attempt := publishReview reviewId installationId token
  ((attempt.serve respond database server).1, (attempt.serve respond database server).2.1,
    attempt.journal respond database server)

/-- The exchange in which the head of the pull request is asked for. -/
def headExchange (target : PublishTarget) (answer : Except Raised Response) :
    Exchange PublisherRequest.Answer Raised :=
  ⟨headRequest target, answer⟩

theorem attemptRun_eq :
    attemptRun respond reviewId installationId token database server =
      let attempt := (publishReview reviewId installationId token).afterReads database
      ((attempt.serve respond database server).1, (attempt.serve respond database server).2.1,
        attempt.journal respond database server) := by
  simp only [attemptRun, serve_afterReads, journal_afterReads]

/-- The loading fails: nothing happens. -/
theorem attemptRun_of_loading_error {raised : Raised}
    (fails : loading database reviewId installationId token = .error raised) :
    attemptRun respond reviewId installationId token database server =
      (.error raised, database, []) := by
  rw [attemptRun_eq, publishReview_afterReads, fails]
  rfl

/-- The head is not confirmed: it was asked for, and that is all. -/
theorem attemptRun_of_verdict_error {raised : Raised}
    (loaded : loading database reviewId installationId token = .ok (review, target))
    (verdict : headVerdict target (respond server (headRequest target)).1 = .error raised) :
    attemptRun respond reviewId installationId token database server =
      (.error raised, database,
        [.asked (headExchange target (respond server (headRequest target)).1)]) := by
  rw [attemptRun_eq, publishReview_afterReads, loaded]
  simp only [serve, journal, verdict]
  rfl

/-- The head is confirmed: the attempt goes on to write. -/
theorem journal_of_confirmed
    (loaded : loading database reviewId installationId token = .ok (review, target))
    (verdict : headVerdict target (respond server (headRequest target)).1 = .ok ()) :
    (attemptRun respond reviewId installationId token database server).2.2 =
      .asked (headExchange target (respond server (headRequest target)).1) ::
        (publishLoaded target review (publishableFindings database reviewId)).journal respond
          database (respond server (headRequest target)).2 := by
  rw [attemptRun_eq, publishReview_afterReads, loaded]
  simp only [journal, verdict]
  rfl

/-! ## What the writing stages ask for -/

/-- A request to the pull request of the attempt that is not the GET, or a flush. -/
def WritesTo (target : PublishTarget) (request : PublisherRequest) : Prop :=
  ∀ call, request = .http call → call.target = target ∧ call.operation ≠ .getPull

theorem writesTo_flush : WritesTo target .flush := by
  rintro _ ⟨⟩

theorem writesTo_of_ne {operation : GitHubOperation} (writes : operation ≠ .getPull) :
    WritesTo target (.http ⟨target, operation⟩) := by
  rintro _ ⟨⟩
  exact ⟨rfl, writes⟩

section AsksOnly

variable {allowed : PublisherRequest → Prop} {operation : GitHubOperation}

theorem asksOnly_create (may : allowed (.http ⟨target, operation⟩)) :
    AsksOnly allowed (create target operation) :=
  (asksOnly_call may).bind fun _ => (asksOnly_finish _).bind fun _ => asksOnly_finish _

theorem asksOnly_update (may : allowed (.http ⟨target, operation⟩)) :
    AsksOnly allowed (update target operation) := by
  refine (asksOnly_call may).bind fun (response : Response) => ?_
  by_cases missing : response.statusCode = 404
  · rw [if_pos missing]
    exact asksOnly_finish _
  · rw [if_neg missing]
    exact (asksOnly_finish _).bind fun _ => asksOnly_finish _

/-- To ask only for what is allowed is a judgement. -/
def asking (allowed : PublisherRequest → Prop) :
    Judgement Database PublisherRequest.Answer Raised Unit :=
  .closed (AsksOnly allowed) (fun result => asksOnly_finish (.ok result)) AsksOnly.bind

theorem asking_session {findings : List Finding} (flushes : allowed .flush) :
    FollowsSession (asking allowed) (fun _ _ _ => True) reviewId findings where
  assigns _ _ change _ := asksOnly_modify change
  flushes _ _ := asksOnly_call flushes

theorem asksOnly_ensureReview {githubReviewId : Option Int} {commentIdMap : Dict String Int}
    (flushes : allowed .flush) (creates : allowed (.http ⟨target, .createReview⟩))
    (updates : ∀ githubReviewId, allowed (.http ⟨target, .updateReview githubReviewId⟩)) :
    AsksOnly allowed (ensureReview target reviewId githubReviewId commentIdMap) := by
  intro database
  refine @judged_ensureReview Unit (asking allowed) (fun _ _ _ => True) reviewId target []
    commentIdMap database (fun _ _ => True) githubReviewId (asking_session flushes) ?_ ?_ ?_ ?_ ?_
    database
  · exact fun _ _ _ => trivial
  · exact fun old _ => asksOnly_update (updates old)
  · exact asksOnly_create creates
  · exact fun _ _ => trivial
  · exact fun _ _ _ => trivial

theorem asksOnly_publishFinding {commentIdMap : Dict String Int} {finding : Finding}
    (flushes : allowed .flush)
    (creates : ∀ finding, allowed (.http ⟨target, .createComment finding⟩))
    (updates : ∀ commentId finding, allowed (.http ⟨target, .updateComment commentId finding⟩)) :
    AsksOnly allowed (publishFinding target reviewId commentIdMap finding) := by
  intro database
  refine @judged_publishFinding Unit (asking allowed) (fun _ _ _ => True) reviewId target [finding]
    commentIdMap database (fun _ _ => True) finding finding List.mem_cons_self rfl rfl
    (asking_session flushes) ?_ ?_ ?_ ?_ ?_ database
  · exact fun _ _ _ => trivial
  · exact fun old _ => asksOnly_update (updates old finding)
  · exact asksOnly_create (creates finding)
  · exact fun _ _ => trivial
  · exact fun _ _ _ => trivial

theorem asksOnly_publishFindings {commentIdMap : Dict String Int} {findings : List Finding}
    (flushes : allowed .flush)
    (creates : ∀ finding, allowed (.http ⟨target, .createComment finding⟩))
    (updates : ∀ commentId finding, allowed (.http ⟨target, .updateComment commentId finding⟩)) :
    AsksOnly allowed (publishFindings target reviewId commentIdMap findings) := by
  induction findings generalizing commentIdMap with
  | nil => exact asksOnly_finish _
  | cons finding findings ih =>
      exact (asksOnly_publishFinding flushes creates updates).bind fun _ => ih

end AsksOnly

/-- After the sha guard, an attempt asks for nothing but writes to its pull request,
and flushes. -/
theorem asksOnly_publishLoaded {findings : List Finding} :
    AsksOnly (WritesTo target) (publishLoaded target review findings) := by
  refine (asksOnly_ensureReview writesTo_flush ?_ fun _ => ?_).bind fun _ =>
    (asksOnly_publishFindings writesTo_flush (fun _ => ?_) fun _ _ => ?_).bind fun _ =>
      asksOnly_modify _
  all_goals exact writesTo_of_ne nofun

/-! ## Nothing is written against another head -/

/-- What an attempt on the database publishes, and to which pull request. -/
structure Targets (database : Database) (reviewId installationId : UUID) (token : String)
    (review : Review) (target : PublishTarget) : Prop where
  selected : selectReviews database reviewId installationId = [review]
  named : ∃ repo owner repoName, selectRepos database review.repoId installationId = [repo] ∧
    splitFullName repo.fullName = .ok (owner, repoName) ∧
      target = ⟨owner, repoName, review.prNumber, review.headSha, token⟩

theorem scalarOneOrNone_eq_some_iff {Row : Type} {rows : List Row} {row : Row} :
    scalarOneOrNone rows = .ok (some row) ↔ rows = [row] := by
  match rows with
  | [] => simp [scalarOneOrNone]
  | [_] => simp [scalarOneOrNone]
  | _ :: _ :: _ => simp [scalarOneOrNone]

theorem loading_eq_ok_iff :
    loading database reviewId installationId token = .ok (review, target) ↔
      Targets database reviewId installationId token review target := by
  constructor
  · intro loaded
    unfold loading at loaded
    split at loaded <;> try cases loaded
    rename_i found
    split at loaded <;> try cases loaded
    rename_i repo owned
    cases split : splitFullName repo.fullName with
    | error raised =>
        rw [split] at loaded
        cases loaded
    | ok name =>
        rw [split] at loaded
        cases loaded
        exact ⟨scalarOneOrNone_eq_some_iff.mp found, repo, name.1, name.2,
          scalarOneOrNone_eq_some_iff.mp owned, split, rfl⟩
  · rintro ⟨found, repo, owner, repoName, owned, split, rfl⟩
    simp [loading, scalarOneOrNone_eq_some_iff.mpr found, scalarOneOrNone_eq_some_iff.mpr owned,
      split]

/-- A write: a POST, PUT or PATCH is sent, or a row is assigned to. -/
def isWrite (upper : String → String) : Happening Database PublisherRequest.Answer Raised → Bool
  | .asked ⟨.http call, _⟩ => ["POST", "PUT", "PATCH"].contains (request upper call).method
  | .asked ⟨.flush, _⟩ => false
  | .assigned _ => true

/-- The GET of the pull request returned success, with the given head. -/
def HeadConfirmed (target : PublishTarget) (sha : String)
    (record : List (Happening Database PublisherRequest.Answer Raised)) : Prop :=
  ∃ answer, .asked (headExchange target answer) ∈ record ∧
    reportedHead answer = .ok (.string sha)

/-- The commit that a call names. -/
def commitId (upper : String → String) (call : GitHubCall) : Option Json :=
  match (request upper call).payload with
  | some (.object members) => members.lookup "commit_id"
  | _ => none

/-- Why an attempt gives up before it writes, and what it raises. -/
inductive GivesUp (database : Database) (reviewId installationId : UUID) (token : String)
    (record : List (Happening Database PublisherRequest.Answer Raised)) : Raised → Prop
  | reviewUnknown (unknown : selectReviews database reviewId installationId = []) :
      GivesUp database reviewId installationId token record
        (.valueError ("Review " ++ reviewId.str ++ " not found"))
  | repoMissing (review : Review)
      (found : selectReviews database reviewId installationId = [review])
      (missing : selectRepos database review.repoId installationId = []) :
      GivesUp database reviewId installationId token record
        (.valueError ("Repo " ++ review.repoId.str ++ " not found"))
  | noSlash (review : Review) (repo : Repo)
      (found : selectReviews database reviewId installationId = [review])
      (owned : selectRepos database review.repoId installationId = [repo])
      (noSlash : '/' ∉ repo.fullName.toList) :
      GivesUp database reviewId installationId token record
        (.valueError "not enough values to unpack (expected 2, got 1)")
  | pullFails (review : Review) (target : PublishTarget) (answer : Except Raised Response)
      (raised : Raised) (targets : Targets database reviewId installationId token review target)
      (asked : .asked (headExchange target answer) ∈ record)
      (fails : reportedHead answer = .error raised) :
      GivesUp database reviewId installationId token record raised
  | headMoved (review : Review) (target : PublishTarget) (answer : Except Raised Response)
      (current : Json) (targets : Targets database reviewId installationId token review target)
      (asked : .asked (headExchange target answer) ∈ record)
      (reports : reportedHead answer = .ok current)
      (differs : current ≠ .string review.headSha) :
      GivesUp database reviewId installationId token record
        (.valueError ("Head SHA mismatch for PR #" ++ toString review.prNumber ++
          ": expected " ++ review.headSha ++ ", got " ++ current.text))

/-- **What an attempt may write, and when.** -/
structure WritesAgainstHead (upper : String → String) (database : Database)
    (reviewId installationId : UUID) (token : String)
    (run : Except Raised Unit × Database ×
      List (Happening Database PublisherRequest.Answer Raised)) : Prop where
  afterHead : ∀ before happening after, run.2.2 = before ++ happening :: after →
    isWrite upper happening → ∃ review target,
      Targets database reviewId installationId token review target ∧
        HeadConfirmed target review.headSha before
  commit : ∀ call answer, .asked ⟨.http call, answer⟩ ∈ run.2.2 →
    (request upper call).method = "POST" → ∃ review target,
      Targets database reviewId installationId token review target ∧
        commitId upper call = some (.string review.headSha)
  givesUp : ∀ raised, GivesUp database reviewId installationId token run.2.2 raised →
    run.1 = .error raised ∧ run.2.1 = database ∧
      ∀ happening ∈ run.2.2, isWrite upper happening = false

/-- The verdict is good exactly if the answer reports the head. -/
theorem headVerdict_eq_ok_iff {answer : Except Raised Response} :
    headVerdict target answer = .ok () ↔ reportedHead answer = .ok (.string target.headSha) := by
  unfold headVerdict
  cases reportedHead answer with
  | error raised => simp
  | ok current =>
      rw [ok_bind, Except.ok.injEq, ← Json.isText_iff]
      split <;> simp_all

/-- A POST to the target names its head. -/
theorem commitId_of_post {upper : String → String} {call : GitHubCall}
    (posts : (request upper call).method = "POST") :
    commitId upper call = some (.string call.target.headSha) := by
  obtain ⟨target, operation⟩ := call
  cases operation with
  | createReview => rfl
  | createComment finding => simp [request, wire, commitId, List.lookup_cons]
  | _ => simp [request, wire] at posts

theorem splitFullName_of_noSlash {fullName : String} (noSlash : '/' ∉ fullName.toList) :
    splitFullName fullName =
      .error (.valueError "not enough values to unpack (expected 2, got 1)") := by
  have noRest : fullName.toList.dropWhile (· ≠ '/') = [] := by
    refine List.dropWhile_eq_nil_iff.mpr fun char member => ?_
    exact decide_eq_true fun slash => noSlash (slash ▸ member)
  rw [splitFullName, List.span_eq_takeWhile_dropWhile, noRest]

/-! ## The promise -/

/-- The answer to the GET is the only one of its kind in the journal. -/
theorem answer_of_asked {answer : Except Raised Response}
    (targets : Targets database reviewId installationId token review target)
    (asked : .asked (headExchange target answer) ∈
      (attemptRun respond reviewId installationId token database server).2.2) :
    (respond server (headRequest target)).1 = answer := by
  have loaded := loading_eq_ok_iff.mpr targets
  cases verdict : headVerdict target (respond server (headRequest target)).1 with
  | error raised =>
      rw [attemptRun_of_verdict_error loaded verdict] at asked
      have same := Happening.asked.inj (List.mem_singleton.mp asked)
      exact (eq_of_heq (Exchange.mk.inj same).2).symm
  | ok _ =>
      rw [journal_of_confirmed loaded verdict] at asked
      rcases List.mem_cons.mp asked with first | later
      · exact (eq_of_heq (Exchange.mk.inj (Happening.asked.inj first)).2).symm
      · exact absurd rfl (asksOnly_publishLoaded.journal later _ rfl).2

/-- An attempt that gives up raises what it says and has written nothing. -/
theorem attemptRun_of_givesUp (upper : String → String) {raised : Raised}
    (gives : GivesUp database reviewId installationId token
      (attemptRun respond reviewId installationId token database server).2.2 raised) :
    ∃ record, attemptRun respond reviewId installationId token database server =
        (.error raised, database, record) ∧
      ∀ happening ∈ record, isWrite upper happening = false := by
  have unloaded : ∀ {raised}, loading database reviewId installationId token = .error raised →
      ∃ record, attemptRun respond reviewId installationId token database server =
          (.error raised, database, record) ∧
        ∀ happening ∈ record, isWrite upper happening = false :=
    fun fails => ⟨[], attemptRun_of_loading_error fails, by simp⟩
  have unconfirmed : ∀ {raised review target},
      Targets database reviewId installationId token review target →
      headVerdict target (respond server (headRequest target)).1 = .error raised →
      ∃ record, attemptRun respond reviewId installationId token database server =
          (.error raised, database, record) ∧
        ∀ happening ∈ record, isWrite upper happening = false := by
    intro raised review target targets verdict
    refine ⟨_, attemptRun_of_verdict_error (loading_eq_ok_iff.mpr targets) verdict, ?_⟩
    intro happening member
    obtain rfl := List.mem_singleton.mp member
    rfl
  cases gives with
  | reviewUnknown unknown =>
      apply unloaded
      simp [loading, unknown, scalarOneOrNone]
  | repoMissing review found missing =>
      apply unloaded
      simp [loading, found, missing, scalarOneOrNone]
  | noSlash review repo found owned noSlash =>
      apply unloaded
      simp [loading, found, owned, scalarOneOrNone, splitFullName_of_noSlash noSlash]
  | pullFails review target answer raised targets asked fails =>
      apply unconfirmed targets
      rw [answer_of_asked targets asked, headVerdict, fails, error_bind]
  | headMoved review target answer current targets asked reports differs =>
      apply unconfirmed targets
      have answered := answer_of_asked targets asked
      obtain ⟨-, repo, owner, repoName, -, -, rfl⟩ := targets
      rw [answered, headVerdict, reports, ok_bind, if_neg]
      exact fun same => differs ((Json.isText_iff _ _).mp same)

/-- The journal of an attempt: nothing, or the GET, followed by writes to the pull
request if it confirmed the head. -/
theorem journal_cases :
    (attemptRun respond reviewId installationId token database server).2.2 = [] ∨
      ∃ review target answer rest,
        Targets database reviewId installationId token review target ∧
        (attemptRun respond reviewId installationId token database server).2.2 =
          .asked (headExchange target answer) :: rest ∧
        (∀ exchange, .asked exchange ∈ rest → WritesTo target exchange.request) ∧
        (rest ≠ [] → reportedHead answer = .ok (.string review.headSha)) := by
  cases loaded : loading database reviewId installationId token with
  | error raised =>
      rw [attemptRun_of_loading_error loaded]
      exact .inl rfl
  | ok loading =>
      obtain ⟨review, target⟩ := loading
      have targets := loading_eq_ok_iff.mp loaded
      cases verdict : headVerdict target (respond server (headRequest target)).1 with
      | error raised =>
          have record := congrArg (fun run => run.2.2) (attemptRun_of_verdict_error loaded verdict)
          exact .inr ⟨review, target, _, [], targets, record,
            fun _ asked => absurd asked List.not_mem_nil, fun rest => absurd rfl rest⟩
      | ok _ =>
          have record := journal_of_confirmed loaded verdict
          have confirmed : reportedHead (respond server (headRequest target)).1 =
              .ok (.string review.headSha) := by
            have sameSha : target.headSha = review.headSha := by
              obtain ⟨-, repo, owner, repoName, -, -, same⟩ := targets
              rw [same]
            rw [← sameSha]
            exact headVerdict_eq_ok_iff.mp verdict
          exact .inr ⟨review, target, _, _, targets, record,
            fun exchange asked => asksOnly_publishLoaded.journal asked, fun _ => confirmed⟩

/-- **Nothing is written against another head.** On every database and against
every behaviour of GitHub and of the session, an attempt writes only after the GET
of its pull request confirmed the reviewed head; everything it creates names that
commit; and if it gives up before, nothing has been written. -/
theorem publishReview_writesAgainstHead (upper : String → String)
    (respond : Server → (request : PublisherRequest) → Except Raised request.Answer × Server)
    (reviewId installationId : UUID) (token : String) (database : Database) (server : Server) :
    WritesAgainstHead upper database reviewId installationId token
      (attemptRun respond reviewId installationId token database server) := by
  refine ⟨?_, ?_, fun raised gives => ?_⟩
  · intro before happening after split writes
    obtain nothing | ⟨review, target, answer, rest, targets, record, -, confirmed⟩ :=
      @journal_cases Server respond database server reviewId installationId token
    · rw [nothing] at split
      cases before <;> cases split
    · rw [record] at split
      cases before with
      | nil =>
          obtain ⟨rfl, -⟩ := List.cons.inj split
          cases writes
      | cons first before =>
          obtain ⟨rfl, rfl⟩ := List.cons.inj split
          exact ⟨review, target, targets, answer, List.mem_cons_self, confirmed (by simp)⟩
  · intro call answered asked posts
    obtain nothing | ⟨review, target, answer, rest, targets, record, writesTo, -⟩ :=
      journal_cases
    · rw [nothing] at asked
      cases asked
    · rw [record] at asked
      rcases List.mem_cons.mp asked with first | later
      · have same := (Exchange.mk.inj (Happening.asked.inj first)).1
        obtain rfl := PublisherRequest.http.inj same
        simp [request, wire] at posts
      · refine ⟨review, target, targets, ?_⟩
        obtain ⟨rfl, -⟩ := writesTo _ later call rfl
        rw [commitId_of_post posts]
        obtain ⟨-, repo, owner, repoName, -, -, same⟩ := targets
        rw [same]
  · obtain ⟨record, ran, noWrite⟩ := attemptRun_of_givesUp upper gives
    rw [ran]
    exact ⟨rfl, rfl, noWrite⟩

end Publisher

end Kenjutsu.Pipeline
