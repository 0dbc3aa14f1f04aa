import Kenjutsu.Foundations.Runs
import Kenjutsu.Pipeline.PublisherInvariant

/-!
# Publishing over retries

Attempts of `publish_review` for one review follow each other. Each may fail at
any call, what it assigned up to then is committed, and between attempts objects
are deleted on GitHub and the rows change in everything but the stored ids.

In every state at most one review and one comment for each finding is live, and
after an attempt that returned, further attempts post nothing until something is
deleted. The two records of the comment ids are another matter: an attempt that
recreates the review drops the map, and does not restore the entry of a comment
that it finds live.
-/

set_option autoImplicit false

namespace Kenjutsu.Pipeline

open Foundations Foundations.Coroutine Kenjutsu.Http Kenjutsu.Db

namespace Publisher

variable {reviewId : UUID} {database : Database} {github : GitHub}

/-! ## Attempts and what happens between them -/

/-- A change of the database between two attempts: anything but what is stored of
GitHub's ids for the review. -/
structure Revision (reviewId : UUID) where
  change : Database → Database
  reviewId_eq : ∀ database,
    (change database).storedReviewId reviewId = database.storedReviewId reviewId
  commentIds_eq : ∀ database,
    (change database).storedCommentIds reviewId = database.storedCommentIds reviewId
  commentId_eq : ∀ database findingId,
    (change database).storedCommentId reviewId findingId =
      database.storedCommentId reviewId findingId

/-- The database, GitHub, and how the last attempt ended if nothing happened since. -/
structure Publication where
  database : Database
  github : GitHub := {}
  outcome : Option (Except Raised Unit) := none

/-- An attempt, with the answer to its GET and what becomes of the calls after it;
a deletion of reviews and comments on GitHub; a change of the database. -/
inductive PublicationEvent (reviewId : UUID) where
  | attempt (pull : Except Raised Response) (decisions : List Decision)
  | delete (reviews comments : List Int)
  | revise (revision : Revision reviewId)

/-- The objects with the given ids are removed from GitHub. -/
def removeObjects (reviews comments : List Int) (github : GitHub) : GitHub :=
  { github with
    reviews := Posting.remove reviews github.reviews
    comments := Posting.remove comments github.comments }

/-- An attempt on a publication. -/
def attempt (reviewId installationId : UUID) (token : String) (publication : Publication)
    (pull : Except Raised Response) (decisions : List Decision) : Publication :=
  let ended := (publishReview reviewId installationId token).serve GitHub.respond
    publication.database { publication.github with pull, decisions }
  ⟨ended.2.1, ended.2.2, some ended.1⟩

/-- One event in the life of a publication. -/
def step (reviewId installationId : UUID) (token : String) :
    Machine Publication (PublicationEvent reviewId)
  | publication, .attempt pull decisions =>
      some (attempt reviewId installationId token publication pull decisions)
  | publication, .delete reviews comments =>
      some ⟨publication.database, removeObjects reviews comments publication.github, none⟩
  | publication, .revise revision =>
      some ⟨revision.change publication.database, publication.github, none⟩

/-- No ids are stored for the review. -/
def Unpublished (reviewId : UUID) (database : Database) : Prop :=
  (∀ review ∈ database.reviews.rows, review.id = reviewId →
    review.githubReviewId = none ∧ review.githubCommentIds = none) ∧
  ∀ finding ∈ database.findings.rows, finding.reviewId = reviewId →
    finding.githubCommentId = none

theorem Unpublished.recorded (unpublished : Unpublished reviewId database) :
    Recorded reviewId database {} where
  review := by
    refine Posting.tracks_nil fun _ => ?_
    cases found : database.reviews.find reviewId with
    | none => simp [Database.storedReviewId, found]
    | some review =>
        obtain ⟨member, same⟩ := (Table.find_eq_some_iff ..).mp found
        simp [Database.storedReviewId, found, (unpublished.1 review member same).1]
  comments := by
    refine Posting.tracks_nil fun findingId => ?_
    cases found : database.findings.find findingId with
    | none => simp [Database.storedCommentId, found]
    | some finding =>
        obtain ⟨member, -⟩ := (Table.find_eq_some_iff ..).mp found
        simpa [Database.storedCommentId, found] using unpublished.2 finding member
  mapped := by
    intro findingId commentId entry
    cases found : database.reviews.find reviewId with
    | none => simp [Database.storedCommentIds, found] at entry
    | some review =>
        obtain ⟨member, same⟩ := (Table.find_eq_some_iff ..).mp found
        simp [Database.storedCommentIds, found, (unpublished.1 review member same).2] at entry

/-- What an attempt ensures holds of the publication it leaves. -/
theorem of_ensures {installationId : UUID} {token : String} {publication : Publication}
    {pull : Except Raised Response} {decisions : List Decision}
    {after : Except Raised Unit → Database → GitHub → Prop}
    (ensured : (publishReview reviewId installationId token).Ensures attemptProtocol after
      publication.database { publication.github with pull, decisions }) :
    ∃ outcome,
      (attempt reviewId installationId token publication pull decisions).outcome = some outcome ∧
      after outcome (attempt reviewId installationId token publication pull decisions).database
        (attempt reviewId installationId token publication pull decisions).github :=
  ⟨_, rfl, ensures_servedBy_iff.mp ensured⟩

/-- An attempt raises and keeps the invariant, or returns and has completed. -/
theorem attempt_cases (installationId : UUID) (token : String) {publication : Publication}
    (pull : Except Raised Response) (decisions : List Decision)
    (recorded : Recorded reviewId publication.database publication.github) :
    let next := attempt reviewId installationId token publication pull decisions
    (∃ raised, next.outcome = some (.error raised) ∧
        Recorded reviewId next.database next.github) ∨
      next.outcome = some (.ok ()) ∧
        Completed reviewId publication.database publication.github next.database next.github := by
  have loaded : Recorded reviewId publication.database
      { publication.github with pull, decisions } := recorded.quiet ⟨rfl, rfl⟩
  obtain ⟨raised | _, ended, kept⟩ :=
    of_ensures (publishReview_completes installationId token loaded)
  · exact .inl ⟨raised, ended, kept⟩
  · exact .inr ⟨ended, kept.recorded, kept.ids, kept.review, kept.done⟩

/-- Every event keeps the invariant. -/
theorem recorded_step {installationId : UUID} {token : String} {publication next : Publication}
    {event : PublicationEvent reviewId}
    (recorded : Recorded reviewId publication.database publication.github)
    (moved : step reviewId installationId token publication event = some next) :
    Recorded reviewId next.database next.github := by
  cases event with
  | attempt pull decisions =>
      obtain rfl := Option.some.inj moved
      obtain ⟨-, -, kept⟩ | ⟨-, completed⟩ :=
        attempt_cases installationId token pull decisions recorded
      · exact kept
      · exact completed.recorded
  | delete reviews comments =>
      obtain rfl := Option.some.inj moved
      exact ⟨recorded.review.remove reviews, recorded.comments.remove comments, recorded.mapped⟩
  | revise revision =>
      obtain rfl := Option.some.inj moved
      refine ⟨recorded.review.congr fun _ => revision.reviewId_eq _,
        recorded.comments.congr fun _ => revision.commentId_eq _ _, ?_⟩
      intro findingId commentId entry
      rw [revision.commentIds_eq] at entry
      exact (revision.commentId_eq _ _).trans (recorded.mapped findingId commentId entry)

/-- The stored ids track what is live, and all of it is live if the last event was
an attempt that returned. -/
structure Consistent (reviewId : UUID) (publication : Publication) : Prop where
  recorded : Recorded reviewId publication.database publication.github
  settled : publication.outcome = some (.ok ()) →
    Settled reviewId publication.database publication.github

/-- Every event leaves a consistent publication. -/
theorem consistent_step {installationId : UUID} {token : String} {publication next : Publication}
    {event : PublicationEvent reviewId} (consistent : Consistent reviewId publication)
    (moved : step reviewId installationId token publication event = some next) :
    Consistent reviewId next where
  recorded := recorded_step consistent.recorded moved
  settled returned := by
    cases event with
    | attempt pull decisions =>
        obtain rfl := Option.some.inj moved
        obtain ⟨raised, ended, -⟩ | ⟨-, completed⟩ :=
          attempt_cases installationId token pull decisions consistent.recorded
        · rw [ended] at returned
          cases returned
        · exact completed.settled
    | delete reviews comments =>
        obtain rfl := Option.some.inj moved
        cases returned
    | revise revision =>
        obtain rfl := Option.some.inj moved
        cases returned

theorem Unpublished.consistent (unpublished : Unpublished reviewId database) :
    Consistent reviewId { database } where
  recorded := unpublished.recorded
  settled returned := by cases returned

/-! ## No duplicates -/

/-- At most one review and one comment for each finding is live. -/
def NoDuplicates (github : GitHub) : Prop :=
  (github.reviews.filter fun posting => posting.live).length ≤ 1 ∧
    ∀ findingId, (github.comments.filter fun posting =>
      posting.live && posting.subject = findingId).length ≤ 1

theorem Recorded.noDuplicates (recorded : Recorded reviewId database github) :
    NoDuplicates github := by
  refine ⟨?_, recorded.comments.live_le_one⟩
  simpa using recorded.review.live_le_one ()

def PublicationEvent.isAttempt : PublicationEvent reviewId → Bool
  | .attempt .. => true
  | _ => false

/-- Once everything is live, attempts post nothing. -/
theorem run_attempts_posts {installationId : UUID} {token : String}
    {publication final : Publication}
    (recorded : Recorded reviewId publication.database publication.github)
    (settled : Settled reviewId publication.database publication.github)
    {retries : List (PublicationEvent reviewId)} (attempts : retries.all (·.isAttempt))
    (ran : (step reviewId installationId token).run publication retries = some final) :
    final.github.posts = publication.github.posts := by
  induction retries generalizing publication with
  | nil =>
      obtain rfl := Option.some.inj ran
      rfl
  | cons event retries ih =>
      obtain ⟨isAttempt, attempts⟩ := Bool.and_eq_true_iff.mp (List.all_cons.symm.trans attempts)
      obtain ⟨next, moved, ran⟩ := Option.bind_eq_some_iff.mp ran
      have kept := recorded_step recorded moved
      cases event with
      | attempt pull decisions =>
          obtain rfl := Option.some.inj moved
          have loaded : Recorded reviewId publication.database
              { publication.github with pull, decisions } := recorded.quiet ⟨rfl, rfl⟩
          obtain ⟨outcome, -, quiet, stillSettled⟩ := of_ensures
            (publishReview_settled installationId token loaded (settled.quiet ⟨rfl, rfl⟩))
          exact (ih kept stillSettled attempts ran).trans quiet.2
      | delete reviews comments => cases isAttempt
      | revise revision => cases isAttempt

/-- **No duplicates over retries.** From rows without stored ids, in every state at
most one review and one comment for each finding is live; and attempts that follow
one that returned, with nothing in between, send no POST. -/
theorem noDuplicates_over_retries (installationId : UUID) (token : String)
    (unpublished : Unpublished reviewId database) (events : List (PublicationEvent reviewId)) :
    ∀ publication ∈ (step reviewId installationId token).visits { database } events,
      NoDuplicates publication.github ∧
        (publication.outcome = some (.ok ()) →
          ∀ (retries : List (PublicationEvent reviewId)) (final : Publication),
            retries.all (·.isAttempt) →
              (step reviewId installationId token).run publication retries = some final →
                final.github.posts = publication.github.posts) := by
  intro publication visited
  have consistent : Consistent reviewId publication :=
    Machine.forall_visits (fun _ _ _ => consistent_step) unpublished.consistent events publication
      visited
  refine ⟨consistent.recorded.noDuplicates, fun returned retries final attempts ran => ?_⟩
  exact run_attempts_posts consistent.recorded (consistent.settled returned) attempts ran

/-- One review with one publishable finding, and nothing published. -/
def oneFinding : Database where
  repos := octoRepos
  reviews := octoReviews
  findings := ⟨[
    { id := idEndingIn 3, reviewId := idEndingIn 2, fingerprint := "f", filePath := "src/a.py",
      lineStart := 10, lineEnd := 12, origin := "llm", confidence := "verified",
      severity := "warning", category := "bug", publishability := "publish",
      description := "off by one" }], by simp⟩

theorem oneFinding_unpublished : Unpublished (idEndingIn 2) oneFinding := by
  constructor <;> simp [oneFinding, octoReviews]

/-- The comment fails in the first attempt and is created in the second; a third
attempt posts nothing. -/
theorem failedThenReturned_noDuplicates :
    ∃ publication, (step (idEndingIn 2) (idEndingIn 0) "token").run { database := oneFinding }
        [.attempt pullAtHead [.accept 10, .error 500],
          .attempt pullAtHead [.accept 0, .accept 20]] = some publication ∧
      NoDuplicates publication.github ∧
      ∃ final, (step (idEndingIn 2) (idEndingIn 0) "token").run publication
          [.attempt pullAtHead [.accept 0, .accept 0]] = some final ∧
        final.github.posts = publication.github.posts := by
  obtain ⟨publication, ran, returned⟩ : ∃ publication,
      (step (idEndingIn 2) (idEndingIn 0) "token").run { database := oneFinding }
        [.attempt pullAtHead [.accept 10, .error 500],
          .attempt pullAtHead [.accept 0, .accept 20]] = some publication ∧
      publication.outcome = some (.ok ()) := ⟨_, rfl, by decide⟩
  obtain ⟨noDuplicates, posts⟩ := noDuplicates_over_retries (idEndingIn 0) "token"
    oneFinding_unpublished _ publication
      ((Machine.mem_visits_iff ..).mpr ⟨_, [], (List.append_nil _).symm, ran⟩)
  exact ⟨publication, ran, noDuplicates, _, rfl,
    posts returned [.attempt pullAtHead [.accept 0, .accept 0]] _ rfl rfl⟩

/-! ## The two records of comment ids -/

/-- Every publishable finding is published with a live comment, and the map has the
comment's id. -/
def RecordsAgree (reviewId : UUID) (database : Database) (github : GitHub) : Prop :=
  ∀ finding ∈ publishableFindings database reviewId,
    finding.published ∧ hasLiveComment github finding ∧
      (database.storedCommentIds reviewId).get finding.id.str = finding.githubCommentId

instance (reviewId : UUID) (database : Database) (github : GitHub) :
    Decidable (RecordsAgree reviewId database github) := by
  unfold RecordsAgree
  infer_instance

/-- For every publishable finding whose stored comment is live, the map has an
entry; and if there is such a finding, a stored review is live as well. -/
def CommentsMapped (reviewId : UUID) (database : Database) (github : GitHub) : Prop :=
  ∀ finding ∈ publishableFindings database reviewId, hasLiveComment github finding →
    (∀ old ∈ database.storedReviewId reviewId, Posting.isLive github.reviews old) ∧
      ((database.storedCommentIds reviewId).get finding.id.str).isSome

instance (reviewId : UUID) (database : Database) (github : GitHub) :
    Decidable (CommentsMapped reviewId database github) := by
  unfold CommentsMapped
  infer_instance

theorem commentsMapped_iff_endsMapped :
    CommentsMapped reviewId database github ↔
      ∀ id ∈ (publishableFindings database reviewId).map Finding.id,
        EndsMapped reviewId database github id := by
  rw [List.forall_mem_map]
  refine forall₂_congr fun finding member => ?_
  unfold EndsMapped
  rw [(loaded_publishableFindings database reviewId).stored member, ← hasLiveComment]
  cases hasLiveComment github finding <;> simp

/-- **What an attempt that returned makes of the records**: they agree exactly if
they were fit for it. -/
theorem Completed.recordsAgree_iff {final : Database} {later : GitHub}
    (completed : Completed reviewId database github final later) :
    RecordsAgree reviewId final later ↔ CommentsMapped reviewId database github := by
  rw [commentsMapped_iff_endsMapped, ← completed.ids, List.forall_mem_map]
  refine forall₂_congr fun finding member => ?_
  obtain ⟨published, live, ends⟩ := completed.done finding member
  obtain ⟨commentId, stored, -⟩ := hasLiveComment_iff.mp live
  rw [ends, stored, and_iff_right published, and_iff_right live]
  constructor
  · intro entry
    rw [entry]
    rfl
  · intro present
    obtain ⟨other, entry⟩ := Option.isSome_iff_exists.mp present
    rw [entry, ← completed.recorded.mapped finding.id other entry,
      (loaded_publishableFindings final reviewId).stored member, stored]

/-- If the last event was an attempt that returned, the records agree. -/
def AgreesIfReturned (reviewId : UUID) (publication : Publication) : Prop :=
  publication.outcome = some (.ok ()) →
    RecordsAgree reviewId publication.database publication.github

/-- An attempt that is going to return starts with its comments mapped. -/
def StartsMapped (reviewId installationId : UUID) (token : String) (publication : Publication) :
    PublicationEvent reviewId → Prop
  | .attempt pull decisions =>
      (attempt reviewId installationId token publication pull decisions).outcome =
          some (.ok ()) →
        CommentsMapped reviewId publication.database publication.github
  | _ => True

/-- What an event makes of the records. -/
theorem agreesIfReturned_step {installationId : UUID} {token : String}
    {publication next : Publication} {event : PublicationEvent reviewId}
    (recorded : Recorded reviewId publication.database publication.github)
    (moved : step reviewId installationId token publication event = some next) :
    AgreesIfReturned reviewId next ↔
      StartsMapped reviewId installationId token publication event := by
  cases event with
  | attempt pull decisions =>
      obtain rfl := Option.some.inj moved
      obtain ⟨raised, ended, -⟩ | ⟨ended, completed⟩ :=
        attempt_cases installationId token pull decisions recorded
      · simp [AgreesIfReturned, StartsMapped, ended]
      · simp only [AgreesIfReturned, StartsMapped, ended, forall_const]
        exact completed.recordsAgree_iff
  | delete reviews comments =>
      obtain rfl := Option.some.inj moved
      simp [AgreesIfReturned, StartsMapped]
  | revise revision =>
      obtain rfl := Option.some.inj moved
      simp [AgreesIfReturned, StartsMapped]

/-- **When the two records of comment ids agree.** From rows without stored ids,
the records agree after every attempt that returns if and only if before each of
them, whatever has a live comment was mapped and the stored review was live. -/
theorem recordsAgree_iff_startsMapped (installationId : UUID) (token : String)
    (unpublished : Unpublished reviewId database) (events : List (PublicationEvent reviewId)) :
    (∀ publication ∈ (step reviewId installationId token).visits { database } events,
        AgreesIfReturned reviewId publication) ↔
      ∀ move ∈ (step reviewId installationId token).moves { database } events,
        StartsMapped reviewId installationId token move.1 move.2 := by
  refine Machine.forall_visits_iff_guarded
    (fun (publication : Publication) (invariant :
      Recorded reviewId publication.database publication.github ∧
        AgreesIfReturned reviewId publication) => invariant.2)
    ?keeps ?breaks ⟨unpublished.recorded, ?initially⟩ events
  case keeps =>
    intro publication event next invariant starts moved
    exact ⟨recorded_step invariant.1 moved, (agreesIfReturned_step invariant.1 moved).mpr starts⟩
  case breaks =>
    intro publication event next invariant missed moved agrees
    exact missed ((agreesIfReturned_step invariant.1 moved).mp agrees)
  case initially =>
    intro returned
    cases returned

/-- The comment is deleted and created again: the records agree after both
attempts. -/
theorem recreatedComment_recordsAgree :
    ∃ publication, (step (idEndingIn 2) (idEndingIn 0) "token").run { database := oneFinding }
        [.attempt pullAtHead [.accept 10, .accept 20], .delete [] [20],
          .attempt pullAtHead [.accept 0, .accept 0, .accept 21]] = some publication ∧
      publication.outcome = some (.ok ()) ∧
      RecordsAgree (idEndingIn 2) publication.database publication.github := by
  obtain ⟨publication, ran, returned⟩ : ∃ publication,
      (step (idEndingIn 2) (idEndingIn 0) "token").run { database := oneFinding }
        [.attempt pullAtHead [.accept 10, .accept 20], .delete [] [20],
          .attempt pullAtHead [.accept 0, .accept 0, .accept 21]] = some publication ∧
      publication.outcome = some (.ok ()) := ⟨_, rfl, by decide⟩
  refine ⟨publication, ran, returned, (recordsAgree_iff_startsMapped (idEndingIn 0) "token"
    oneFinding_unpublished _).mpr ?_ publication
      ((Machine.mem_visits_iff ..).mpr ⟨_, [], (List.append_nil _).symm, ran⟩) returned⟩
  simp only [Machine.moves, step, List.forall_mem_cons]
  exact ⟨fun _ => by decide, trivial, fun _ => by decide, by simp⟩

/-- The review is deleted and its comment is not: the next attempt returns, and the
map has no entry for the comment it updated. -/
theorem recreatedReview_records_differ :
    ∃ publication ∈ (step (idEndingIn 2) (idEndingIn 0) "token").visits { database := oneFinding }
        [.attempt pullAtHead [.accept 10, .accept 20], .delete [10] [],
          .attempt pullAtHead [.accept 0, .accept 11, .accept 0]],
      Unpublished (idEndingIn 2) oneFinding ∧ publication.outcome = some (.ok ()) ∧
        ¬ RecordsAgree (idEndingIn 2) publication.database publication.github := by
  refine ⟨_, (Machine.mem_visits_iff ..).mpr ⟨_, [], (List.append_nil _).symm, rfl⟩,
    oneFinding_unpublished, ?_, ?_⟩
  · decide
  · decide

end Publisher

end Kenjutsu.Pipeline
