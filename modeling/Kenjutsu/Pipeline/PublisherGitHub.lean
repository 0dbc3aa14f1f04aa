import Kenjutsu.Foundations.Postings
import Kenjutsu.Pipeline.PublisherStages

/-!
# The publisher against GitHub

GitHub keeps the reviews and comments that the attempts posted. A POST that
succeeds adds an object under an id never used before; a PUT or PATCH answers
`404` exactly when the object is not live; and any call may instead fail without
an effect. Which of these happens is decided call by call by the environment.

Each function of the publisher then has one specification: the ways it can end,
with what each leaves in the database and on GitHub. Those of the two stages are
instances of what is shown for every judgement.
-/

set_option autoImplicit false

namespace Kenjutsu.Pipeline

open Foundations Foundations.Coroutine Kenjutsu.Http Kenjutsu.Db

/-- What becomes of a call: the transport fails, GitHub answers with an error, or
GitHub accepts it, with the id that a created object gets. -/
inductive Decision where
  | raise (raised : Raised)
  | error (statusCode : Nat)
  | accept (id : Int)
deriving DecidableEq, Repr

/-- The objects the attempts posted, the comments with the finding each was
posted for; how the GET of the pull request and the calls after it will be
answered; and the calls sent so far. -/
structure GitHub where
  reviews : List (Posting Int Unit) := []
  comments : List (Posting Int UUID) := []
  pull : Except Raised Response := .error .other
  decisions : List Decision := []
  sent : List GitHubCall := []

namespace GitHub

/-- The next decision; a call nobody decided on fails. -/
def decide (github : GitHub) : Decision × GitHub :=
  match github.decisions with
  | [] => (.raise .other, github)
  | decision :: decisions => (decision, { github with decisions })

/-- A POST: the answer, and the id of the created object. An id in use is not
handed out again. -/
def create (fresh : Int → Bool) : Decision → Except Raised Response × Option Int
  | .raise raised => (.error raised, none)
  | .error statusCode => (.ok ⟨statusCode, fun _ => none, none⟩, none)
  | .accept id =>
      if fresh id then (.ok ⟨201, fun _ => none, some (.object [("id", .integer id)])⟩, some id)
      else (.error .other, none)

/-- A PUT or PATCH of an object that is live or not. -/
def edit (live : Bool) : Decision → Except Raised Response
  | .raise raised => .error raised
  | .error statusCode =>
      if (200 ≤ statusCode ∧ statusCode < 300) ∨ statusCode = 404 then
        .ok ⟨if live then 200 else 404, fun _ => none, none⟩
      else .ok ⟨statusCode, fun _ => none, none⟩
  | .accept _ => .ok ⟨if live then 200 else 404, fun _ => none, none⟩

/-- A call is sent. -/
def record (github : GitHub) (call : GitHubCall) : GitHub :=
  { github with sent := github.sent ++ [call] }

/-- A review was created, or not. -/
def addReview (github : GitHub) : Option Int → GitHub
  | none => github
  | some id => { github with reviews := Posting.post github.reviews () id }

/-- A comment was created for a finding, or not. -/
def addComment (github : GitHub) (finding : UUID) : Option Int → GitHub
  | none => github
  | some id => { github with comments := Posting.post github.comments finding id }

/-- GitHub answers a call. -/
def answer (github : GitHub) : GitHubOperation → Except Raised Response × GitHub
  | .getPull => (github.pull, github)
  | .createReview =>
      let created := create (Posting.isFresh github.reviews) github.decide.1
      (created.1, github.decide.2.addReview created.2)
  | .updateReview id =>
      (edit (Posting.isLive github.reviews id) github.decide.1, github.decide.2)
  | .createComment finding =>
      let created := create (Posting.isFresh github.comments) github.decide.1
      (created.1, github.decide.2.addComment finding.id created.2)
  | .updateComment id _ =>
      (edit (Posting.isLive github.comments id) github.decide.1, github.decide.2)

/-- The other side of the publisher: a call is sent and answered, a flush
succeeds. -/
def respond (github : GitHub) : (request : PublisherRequest) → Except Raised request.Answer × GitHub
  | .http call => (github.record call).answer call.operation
  | .flush => (.ok (), github)

/-- The call creates an object. -/
def isPost (call : GitHubCall) : Bool :=
  match call.operation with
  | .createReview | .createComment _ => true
  | _ => false

/-- The POSTs sent so far. -/
def posts (github : GitHub) : List GitHubCall := github.sent.filter isPost

/-- Nothing was posted or removed in between. -/
def SameObjects (github later : GitHub) : Prop :=
  later.reviews = github.reviews ∧ later.comments = github.comments

theorem SameObjects.trans {first second third : GitHub} (one : first.SameObjects second)
    (two : second.SameObjects third) : first.SameObjects third :=
  ⟨two.1.trans one.1, two.2.trans one.2⟩

/-- Nothing was posted, removed or sent as a POST in between. -/
def Quiet (github later : GitHub) : Prop :=
  github.SameObjects later ∧ later.posts = github.posts

theorem Quiet.trans {first second third : GitHub} (one : first.Quiet second)
    (two : second.Quiet third) : first.Quiet third :=
  ⟨one.1.trans two.1, two.2.trans one.2⟩

theorem decide_quiet (github : GitHub) : github.Quiet github.decide.2 := by
  unfold decide
  split <;> exact ⟨⟨rfl, rfl⟩, rfl⟩

/-- Sending anything but a POST. -/
theorem record_quiet {call : GitHubCall} (edits : isPost call = false) (github : GitHub) :
    github.Quiet (github.record call) :=
  ⟨⟨rfl, rfl⟩, by simp [posts, record, edits]⟩

end GitHub

namespace Publisher

variable {target : PublishTarget} {database : Database} {github : GitHub}

/-- The protocol of an attempt. -/
abbrev attemptProtocol := @servedBy Database PublisherRequest Raised GitHub PublisherRequest.Answer
  GitHub.respond

/-! ## Calls -/

theorem ensures_send {operation : GitHubOperation}
    {after : Except Raised Response → Database → GitHub → Prop} :
    (send target operation).Ensures attemptProtocol after database github ↔
      after ((github.record ⟨target, operation⟩).answer operation).1 database
        ((github.record ⟨target, operation⟩).answer operation).2 :=
  ensures_call_servedBy

@[simp] theorem ensures_flush {after : Except Raised Unit → Database → GitHub → Prop} :
    flush.Ensures attemptProtocol after database github ↔ after (.ok ()) database github :=
  ensures_call_servedBy

/-- What a POST makes of its answer: the id of the created object. -/
def createdId (answer : Except Raised Response) : Except Raised Int := do
  let response ← answer
  response.raiseForStatus
  responseId response

/-- What a PUT or PATCH makes of its answer: whether the object still exists. -/
def stillExists (answer : Except Raised Response) : Except Raised Bool := do
  let response ← answer
  if response.statusCode = 404 then .ok false
  else do
    response.raiseForStatus
    .ok true

/-- A POST is sent, and the rest is a function of its answer. -/
theorem create_eq (operation : GitHubOperation) :
    create target operation =
      (send target operation).continueWith fun answer => .finish (createdId answer) := by
  refine congrArg (Coroutine.await (PublisherRequest.http ⟨target, operation⟩))
    (funext fun answer => ?_)
  rcases answer with raised | (response : Response)
  · rfl
  · change (Coroutine.ofExcept response.raiseForStatus >>= _) = finish (createdId (.ok response))
    unfold createdId
    cases raises : response.raiseForStatus with
    | error raised => simp [ofExcept_error_bind, raises]
    | ok _ =>
        simp only [ofExcept_ok_bind, ok_bind, raises]
        rfl

/-- And so is a PUT or PATCH. -/
theorem update_eq (operation : GitHubOperation) :
    update target operation =
      (send target operation).continueWith fun answer => .finish (stillExists answer) := by
  refine congrArg (Coroutine.await (PublisherRequest.http ⟨target, operation⟩))
    (funext fun answer => ?_)
  rcases answer with raised | (response : Response)
  · rfl
  · change (if response.statusCode = 404 then pure false else _) =
      finish (stillExists (.ok response))
    unfold stillExists
    by_cases missing : response.statusCode = 404
    · simp only [ok_bind, if_pos missing]
      rfl
    · cases raises : response.raiseForStatus with
      | error raised => simp [ofExcept_error_bind, missing, raises]
      | ok _ =>
          simp only [ofExcept_ok_bind, ok_bind, if_neg missing, raises]
          rfl

theorem ensures_create {operation : GitHubOperation}
    {after : Except Raised Int → Database → GitHub → Prop} :
    (create target operation).Ensures attemptProtocol after database github ↔
      after (createdId ((github.record ⟨target, operation⟩).answer operation).1) database
        ((github.record ⟨target, operation⟩).answer operation).2 := by
  rw [create_eq, ensures_continueWith, ensures_send]
  rfl

theorem ensures_update {operation : GitHubOperation}
    {after : Except Raised Bool → Database → GitHub → Prop} :
    (update target operation).Ensures attemptProtocol after database github ↔
      after (stillExists ((github.record ⟨target, operation⟩).answer operation).1) database
        ((github.record ⟨target, operation⟩).answer operation).2 := by
  rw [update_eq, ensures_continueWith, ensures_send]
  rfl

/-- A POST yields the id of an object that was created, or raises. -/
theorem createdId_create (fresh : Int → Bool) (decision : Decision) :
    (∃ id, fresh id ∧ (GitHub.create fresh decision).2 = some id ∧
      createdId (GitHub.create fresh decision).1 = .ok id) ∨
    ((GitHub.create fresh decision).2 = none ∧
      ∃ raised, createdId (GitHub.create fresh decision).1 = .error raised) := by
  cases decision with
  | raise raised => exact .inr ⟨rfl, raised, rfl⟩
  | error statusCode =>
      refine .inr ⟨rfl, ?_⟩
      by_cases success : 200 ≤ statusCode ∧ statusCode < 300
      · exact ⟨.jsonDecodeError, by simp [GitHub.create, createdId, Response.raiseForStatus, success,
          responseId, Response.json]⟩
      · exact ⟨.httpStatusError statusCode, by simp [GitHub.create, createdId,
          Response.raiseForStatus, success]⟩
  | accept id =>
      by_cases unused : fresh id
      · exact .inl ⟨id, unused, by simp [GitHub.create, unused], by
          simp [GitHub.create, createdId, Response.raiseForStatus, unused, responseId,
            Response.json, Json.item, Json.asInt]⟩
      · exact .inr ⟨by simp [GitHub.create, unused], .other, by
          simp [GitHub.create, createdId, unused]⟩

/-- A PUT or PATCH yields whether the object is live, or raises. -/
theorem stillExists_edit (live : Bool) (decision : Decision) :
    stillExists (GitHub.edit live decision) = .ok live ∨
      ∃ raised, stillExists (GitHub.edit live decision) = .error raised := by
  have usual : stillExists (.ok ⟨if live then 200 else 404, fun _ => none, none⟩) = .ok live := by
    cases live <;> simp [stillExists, Response.raiseForStatus]
  cases decision with
  | raise raised => exact .inr ⟨raised, rfl⟩
  | error statusCode =>
      by_cases answered : (200 ≤ statusCode ∧ statusCode < 300) ∨ statusCode = 404
      · exact .inl (by rw [GitHub.edit, if_pos answered, usual])
      · obtain ⟨failure, found⟩ := not_or.mp answered
        exact .inr ⟨.httpStatusError statusCode, by
          simp [GitHub.edit, stillExists, found, Response.raiseForStatus, failure]⟩
  | accept id => exact .inl usual

/-! ## The functions of the publisher -/

/-- `_create_review` fails without an effect, or yields the fresh id of a new
review. -/
theorem createReview_ensures {after : Except Raised Int → Database → GitHub → Prop}
    (fails : ∀ raised later, github.SameObjects later → after (.error raised) database later)
    (creates : ∀ id later, Posting.isFresh github.reviews id →
      later.reviews = Posting.post github.reviews () id → later.comments = github.comments →
        after (.ok id) database later) :
    (createReview target).Ensures attemptProtocol after database github := by
  have same := (github.record ⟨target, .createReview⟩).decide_quiet.1
  apply ensures_create.mpr
  simp only [GitHub.answer]
  rcases createdId_create (Posting.isFresh github.reviews)
    (github.record ⟨target, .createReview⟩).decide.1 with
    ⟨id, fresh, created, yields⟩ | ⟨nothing, raised, yields⟩
  · rw [show (github.record ⟨target, .createReview⟩).reviews = github.reviews from rfl, yields,
      created]
    exact creates id _ fresh (congrArg (Posting.post · () id) same.1) same.2
  · rw [show (github.record ⟨target, .createReview⟩).reviews = github.reviews from rfl, yields,
      nothing]
    exact fails raised _ same

/-- `_create_comment` fails without an effect, or yields the fresh id of a new
comment for the finding. -/
theorem createComment_ensures {finding : Finding}
    {after : Except Raised Int → Database → GitHub → Prop}
    (fails : ∀ raised later, github.SameObjects later → after (.error raised) database later)
    (creates : ∀ id later, Posting.isFresh github.comments id → later.reviews = github.reviews →
      later.comments = Posting.post github.comments finding.id id →
        after (.ok id) database later) :
    (createComment target finding).Ensures attemptProtocol after database github := by
  have same := (github.record ⟨target, .createComment finding⟩).decide_quiet.1
  apply ensures_create.mpr
  simp only [GitHub.answer]
  rcases createdId_create (Posting.isFresh github.comments)
    (github.record ⟨target, .createComment finding⟩).decide.1 with
    ⟨id, fresh, created, yields⟩ | ⟨nothing, raised, yields⟩
  · rw [show (github.record ⟨target, .createComment finding⟩).comments = github.comments from rfl,
      yields, created]
    exact creates id _ fresh same.1 (congrArg (Posting.post · finding.id id) same.2)
  · rw [show (github.record ⟨target, .createComment finding⟩).comments = github.comments from rfl,
      yields, nothing]
    exact fails raised _ same

/-- `_update_review` changes nothing on record, and tells whether the review is
live or raises. -/
theorem updateReview_ensures {id : Int} {after : Except Raised Bool → Database → GitHub → Prop}
    (answers : ∀ outcome later, outcome = .ok (Posting.isLive github.reviews id) ∨
      (∃ raised, outcome = .error raised) → github.Quiet later → after outcome database later) :
    (updateReview target id).Ensures attemptProtocol after database github := by
  refine ensures_update.mpr (answers _ _ (stillExists_edit _ _) ?_)
  exact (github.record_quiet rfl).trans (GitHub.decide_quiet _)

/-- `_update_comment` likewise. -/
theorem updateComment_ensures {id : Int} {finding : Finding}
    {after : Except Raised Bool → Database → GitHub → Prop}
    (answers : ∀ outcome later, outcome = .ok (Posting.isLive github.comments id) ∨
      (∃ raised, outcome = .error raised) → github.Quiet later → after outcome database later) :
    (updateComment target id finding).Ensures attemptProtocol after database github := by
  refine ensures_update.mpr (answers _ _ (stillExists_edit _ _) ?_)
  exact (github.record_quiet rfl).trans (GitHub.decide_quiet _)

/-- The sha guard passes or raises, and changes nothing. -/
theorem checkHead_ensures {after : Except Raised Unit → Database → GitHub → Prop}
    (ends : ∀ outcome later, github.Quiet later → after outcome database later) :
    (checkHead target).Ensures attemptProtocol after database github := by
  have quiet : github.Quiet (github.record ⟨target, .getPull⟩) := github.record_quiet rfl
  rw [checkHead, ensures_bind, ensures_send]
  simp only [GitHub.answer]
  rcases (github.record ⟨target, .getPull⟩).pull with raised | response
  · exact ends _ _ quiet
  · rw [onOutcome_ok, ensures_bind, ensures_ofExcept]
    cases response.raiseForStatus with
    | error raised => exact ends _ _ quiet
    | ok _ =>
        rw [onOutcome_ok, ensures_bind, ensures_ofExcept]
        cases response.headSha with
        | error raised => exact ends _ _ quiet
        | ok currentSha =>
            rw [onOutcome_ok]
            split
            · exact ends _ _ quiet
            · exact ends _ _ quiet

/-- How GitHub stands in a stage that updates the known object, if it is live, or posts one. -/
def Stands (known : Option Int) (live : Int → Bool) (posted : Int → GitHub → Prop)
    (github : GitHub) : Phase → GitHub → Prop
  | .starting, later => later = github
  | .found, later => (∃ old, known = some old ∧ live old) ∧ github.Quiet later
  | .missing, later => (∀ old, known = some old → live old = false) ∧ github.Quiet later
  | .created id, later | .flushed id, later =>
      (∀ old, known = some old → live old = false) ∧ posted id later

section Stages

variable {known : Option Int} {live : Int → Bool} {posted : Int → GitHub → Prop}
  {fails : Raised → Database → GitHub → Prop}

theorem stands_missing (unknown : known = none) :
    ∀ state, Holding (Stands known live posted github) .starting database state →
      Holding (Stands known live posted github) .missing database state := by
  rintro ⟨_, later⟩ ⟨rfl, (rfl : later = github)⟩
  exact ⟨rfl, by simp [unknown], ⟨⟨rfl, rfl⟩, rfl⟩⟩

theorem attempt_session {reviewId : UUID} {findings : List Finding} :
    FollowsSession (.ensuring attemptProtocol fails) (Holding (Stands known live posted github))
      reviewId findings :=
  ensuring_session fun _ _ _ held => ensures_flush.mpr ⟨rfl, held⟩

/-- What an update makes of it, given that the known object is live or the update raises. -/
theorem stands_updated {old : Int} {outcome : Except Raised Bool} {later : GitHub}
    (isKnown : known = some old)
    (answers : outcome = .ok (live old) ∨ ∃ raised, outcome = .error raised)
    (quiet : github.Quiet later) (raises : ∀ raised, fails raised database later) :
    onOutcome (fun updated moved last => Holding (Stands known live posted github)
      (if updated then .found else .missing) database (moved, last)) fails outcome database
        later := by
  rcases answers with rfl | ⟨raised, rfl⟩
  · cases isLive : live old with
    | true => exact ⟨rfl, ⟨old, isKnown, isLive⟩, quiet⟩
    | false =>
        refine ⟨rfl, fun other same => ?_, quiet⟩
        obtain rfl := Option.some.inj (isKnown.symm.trans same)
        exact isLive
  · exact raises raised

end Stages

/-- A property of outcomes is one of results and one of exceptions. -/
theorem ensures_of_onOutcome {Result : Type} {body : Publisher Result}
    {after : Except Raised Result → Database → GitHub → Prop}
    (ensured : body.Ensures attemptProtocol
      (onOutcome (fun result => after (.ok result)) fun raised => after (.error raised))
        database github) : body.Ensures attemptProtocol after database github := by
  refine ensured.mono ?_
  rintro (raised | result) _ _ held <;> exact held

/-- Ensuring the review: it raises and changes nothing on record, finds the stored
review live, or stores a new one because none was stored or the stored one is
gone. -/
theorem ensureReview_ensures {reviewId : UUID} {githubReviewId : Option Int}
    {commentIdMap : Dict String Int}
    {after : Except Raised (Dict String Int) → Database → GitHub → Prop}
    (fails : ∀ raised later, github.SameObjects later →
      (∀ id, githubReviewId = some id → Posting.isLive github.reviews id → github.Quiet later) →
        after (.error raised) database later)
    (updates : ∀ id later, githubReviewId = some id → Posting.isLive github.reviews id →
      github.Quiet later → after (.ok commentIdMap) database later)
    (creates : ∀ id later,
      (∀ old, githubReviewId = some old → Posting.isLive github.reviews old = false) →
      Posting.isFresh github.reviews id → later.reviews = Posting.post github.reviews () id →
      later.comments = github.comments →
        after (.ok (if githubReviewId.isNone then commentIdMap else ∅))
          (database.setReviewId reviewId id) later) :
    (ensureReview target reviewId githubReviewId commentIdMap).Ensures attemptProtocol after
      database github := by
  have fails_quiet : ∀ raised later, github.Quiet later → after (.error raised) database later :=
    fun raised later quiet => fails raised later quiet.1 fun _ _ _ => quiet
  refine ensures_of_onOutcome (@judged_ensureReview (Database × GitHub)
    (.ensuring attemptProtocol fun raised => after (.error raised))
    (Holding (Stands githubReviewId (Posting.isLive github.reviews) (fun id later =>
      Posting.isFresh github.reviews id ∧ later.reviews = Posting.post github.reviews () id ∧
        later.comments = github.comments) github))
    reviewId target [] commentIdMap database (fun next state => after (.ok next) state.1 state.2)
    githubReviewId attempt_session stands_missing ?_ ?_ ?_ ?_ database github ⟨rfl, rfl⟩)
  · rintro old isKnown _ _ ⟨rfl, rfl⟩
    apply updateReview_ensures
    intro outcome later answers quiet
    exact stands_updated isKnown answers quiet fun raised => fails_quiet raised later quiet
  · rintro _ middle ⟨rfl, gone, quiet⟩
    refine createReview_ensures ?_ ?_
    · intro raised later same
      refine fails raised later (quiet.1.trans same) fun id isKnown isLive => ?_
      rw [gone id isKnown] at isLive
      cases isLive
    · intro id later fresh reviews comments
      rw [quiet.1.1] at fresh reviews
      exact ⟨rfl, gone, fresh, reviews, comments.trans quiet.1.2⟩
  · rintro ⟨_, later⟩ ⟨rfl, ⟨old, isKnown, isLive⟩, quiet⟩
    exact updates old later isKnown isLive quiet
  · rintro id ⟨_, later⟩ ⟨rfl, gone, fresh, reviews, comments⟩
    exact creates id later gone fresh reviews comments

/-- Publishing one finding: it raises and changes nothing on record, finds the
stored comment live, or stores a new one because none was stored or the stored one
is gone. -/
theorem publishFinding_ensures {reviewId : UUID} {commentIdMap : Dict String Int}
    {finding : Finding} {after : Except Raised (Dict String Int) → Database → GitHub → Prop}
    (fails : ∀ raised later, github.SameObjects later →
      (∀ id, existingCommentId commentIdMap finding = some id →
        Posting.isLive github.comments id → github.Quiet later) →
        after (.error raised) database later)
    (updates : ∀ id later, existingCommentId commentIdMap finding = some id →
      Posting.isLive github.comments id → github.Quiet later →
        after (.ok commentIdMap) (database.setPublished finding.id) later)
    (creates : ∀ id later, (∀ old, existingCommentId commentIdMap finding = some old →
        Posting.isLive github.comments old = false) →
      Posting.isFresh github.comments id → later.reviews = github.reviews →
      later.comments = Posting.post github.comments finding.id id →
        after (.ok (commentIdMap.set finding.id.str id))
          (database.recordComment reviewId finding.id id (commentIdMap.set finding.id.str id))
          later) :
    (publishFinding target reviewId commentIdMap finding).Ensures attemptProtocol after
      database github := by
  have fails_quiet : ∀ raised later, github.Quiet later → after (.error raised) database later :=
    fun raised later quiet => fails raised later quiet.1 fun _ _ _ => quiet
  refine ensures_of_onOutcome (@judged_publishFinding (Database × GitHub)
    (.ensuring attemptProtocol fun raised => after (.error raised))
    (Holding (Stands (existingCommentId commentIdMap finding) (Posting.isLive github.comments)
      (fun id later => Posting.isFresh github.comments id ∧ later.reviews = github.reviews ∧
        later.comments = Posting.post github.comments finding.id id) github))
    reviewId target [finding] commentIdMap database
    (fun next state => after (.ok next) state.1 state.2) finding finding List.mem_cons_self rfl rfl
    attempt_session stands_missing ?_ ?_ ?_ ?_ database github ⟨rfl, rfl⟩)
  · rintro old isKnown _ _ ⟨rfl, rfl⟩
    apply updateComment_ensures
    intro outcome later answers quiet
    exact stands_updated isKnown answers quiet fun raised => fails_quiet raised later quiet
  · rintro _ middle ⟨rfl, gone, quiet⟩
    refine createComment_ensures ?_ ?_
    · intro raised later same
      refine fails raised later (quiet.1.trans same) fun id isKnown isLive => ?_
      rw [gone id isKnown] at isLive
      cases isLive
    · intro id later fresh reviews comments
      rw [quiet.1.2] at fresh comments
      exact ⟨rfl, gone, fresh, reviews.trans quiet.1.1, comments⟩
  · rintro ⟨_, later⟩ ⟨rfl, ⟨old, isKnown, isLive⟩, quiet⟩
    exact updates old later isKnown isLive quiet
  · rintro id ⟨_, later⟩ ⟨rfl, gone, fresh, reviews, comments⟩
    exact creates id later gone fresh reviews comments

/-- The rows a query asks for, at most one. -/
theorem scalarOneOrNone_eq {Row : Type} {rows : List Row} {row : Row}
    (found : scalarOneOrNone rows = .ok (some row)) : row ∈ rows := by
  match rows, found with
  | [_], found =>
      obtain rfl := Option.some.inj (Except.ok.inj found)
      exact List.mem_singleton_self _

/-- Loading the review raises, or yields the row with the id. -/
theorem loadReview_ensures {reviewId installationId : UUID}
    {after : Except Raised Review → Database → GitHub → Prop}
    (fails : ∀ raised, after (.error raised) database github)
    (loads : ∀ review, database.reviews.find reviewId = some review →
      after (.ok review) database github) :
    (loadReview reviewId installationId).Ensures attemptProtocol after database github := by
  simp only [loadReview, ensures_bind, ensures_get, onOutcome_ok, ensures_ofExcept]
  cases found : scalarOneOrNone (selectReviews database reviewId installationId) with
  | error raised => exact fails raised
  | ok review =>
      cases review with
      | none => exact fails _
      | some review =>
          have selected := List.mem_filter.mp (scalarOneOrNone_eq found)
          refine loads review ((Table.find_eq_some_iff ..).mpr ⟨selected.1, ?_⟩)
          exact of_decide_eq_true (Bool.and_eq_true_iff.mp selected.2).1

/-- Loading the repo raises, or yields a row. -/
theorem loadRepo_ensures {repoId installationId : UUID}
    {after : Except Raised Repo → Database → GitHub → Prop}
    (fails : ∀ raised, after (.error raised) database github)
    (loads : ∀ repo, after (.ok repo) database github) :
    (loadRepo repoId installationId).Ensures attemptProtocol after database github := by
  simp only [loadRepo, ensures_bind, ensures_get, onOutcome_ok, ensures_ofExcept]
  cases scalarOneOrNone (selectRepos database repoId installationId) with
  | error raised => exact fails raised
  | ok repo =>
      cases repo with
      | none => exact fails _
      | some repo => exact loads repo

/-- **An attempt** raises and changes nothing on record, or gets past the sha guard
with nothing changed and goes on with the review row and its publishable
findings. -/
theorem publishReview_ensures {reviewId installationId : UUID} {token : String}
    {after : Except Raised Unit → Database → GitHub → Prop}
    (fails : ∀ raised later, github.Quiet later → after (.error raised) database later)
    (goesOn : ∀ target review later, database.reviews.find reviewId = some review →
      github.Quiet later →
        (publishLoaded target review (publishableFindings database reviewId)).Ensures
          attemptProtocol after database later) :
    (publishReview reviewId installationId token).Ensures attemptProtocol after database
      github := by
  have unchanged : github.Quiet github := ⟨⟨rfl, rfl⟩, rfl⟩
  unfold publishReview
  rw [ensures_bind]
  refine loadReview_ensures (fun raised => fails raised github unchanged) fun review found => ?_
  rw [onOutcome_ok, ensures_bind]
  refine loadRepo_ensures (fun raised => fails raised github unchanged) fun repo => ?_
  rw [onOutcome_ok, ensures_bind, ensures_ofExcept]
  cases splitFullName repo.fullName with
  | error raised => exact fails raised github unchanged
  | ok name =>
      simp only [onOutcome_ok, ensures_bind, ensures_get]
      apply checkHead_ensures
      rintro (raised | _) later quiet
      · exact fails raised later quiet
      · exact goesOn _ review later found quiet

end Publisher

end Kenjutsu.Pipeline
