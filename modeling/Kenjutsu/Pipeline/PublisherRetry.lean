import Kenjutsu.Pipeline.PublisherHead
import Kenjutsu.Pipeline.PublisherRuns

/-!
# Retrying after a rollback

Each checkpoint of `publish_review` is a flush inside the caller's transaction. If
an attempt raises and the caller rolls back, the ids of what the attempt created
are gone from the database and the objects are still on GitHub.

The attempt created an object only because the stored id named nothing live. The
rollback restores that id, so the retry finds the same and creates the object
again (`AttemptCompleted` after `AttemptPosted`), unless it fails before; and GitHub
can always answer in such a way that it does not fail (`publishLoaded_finishes`).
-/

set_option autoImplicit false

namespace Kenjutsu.Pipeline

open Foundations Foundations.Coroutine Kenjutsu.Http Kenjutsu.Db

namespace Publisher

variable {reviewId : UUID} {database : Database} {github : GitHub} {target : PublishTarget}
  {commentIdMap : Dict String Int} {findings : List Finding}

/-! ## Stored ids -/

section StoredIds

variable {Subject : Type} {stored : Option Int} {old new : List (Posting Int Subject)}

/-- A stored id, if any, names nothing live. -/
def Missing (stored : Option Int) (postings : List (Posting Int Subject)) : Prop :=
  ∀ id, stored = some id → Posting.isLive postings id = false

/-- A stored id, if any, was handed out. -/
def Issued (stored : Option Int) (postings : List (Posting Int Subject)) : Prop :=
  ∀ id, stored = some id → Posting.isFresh postings id = false

theorem Issued.missing_iff (issued : Issued stored old) (extends_ : Posting.Extends old new) :
    Missing stored new ↔ Missing stored old := by
  refine forall_congr' fun id => imp_congr_right fun isStored => ?_
  rw [extends_.isLive_eq (issued id isStored)]

theorem Issued.mono (issued : Issued stored old) (extends_ : Posting.Extends old new) :
    Issued stored new :=
  fun id isStored => extends_.issued (issued id isStored)

end StoredIds

/-! ## What the loop posts -/

/-- What the loop over the findings has posted: only comments for findings whose
stored comment was missing. -/
structure LoopPosted (comments : List (Posting Int UUID)) (commentIdMap : Dict String Int)
    (findings : List Finding) (later : List (Posting Int UUID)) : Prop where
  extended : Posting.Extends comments later
  wasMissing : ∀ findingId,
    Posting.countFor comments findingId < Posting.countFor later findingId →
      ∃ finding ∈ findings, finding.id = findingId ∧
        Missing (existingCommentId commentIdMap finding) comments

/-- What the loop posts if it returns: a comment for each such finding. -/
def LoopCompleted (comments : List (Posting Int UUID)) (commentIdMap : Dict String Int)
    (findings : List Finding) (later : List (Posting Int UUID)) : Prop :=
  ∀ finding ∈ findings, Missing (existingCommentId commentIdMap finding) comments →
    Posting.countFor comments finding.id < Posting.countFor later finding.id

theorem existingCommentId_set_of_ne {finding other : Finding} (differs : other.id ≠ finding.id)
    (commentId : Int) :
    existingCommentId (commentIdMap.set finding.id.str commentId) other =
      existingCommentId commentIdMap other := by
  rw [existingCommentId, Dict.get_set, if_neg fun same => differs (UUID.str_injective same),
    existingCommentId]

section LoopSteps

variable {comments later : List (Posting Int UUID)} {finding : Finding} {rest : List Finding}

/-- Nothing is posted for the next finding. -/
theorem LoopPosted.skip (posted : LoopPosted comments commentIdMap rest later) :
    LoopPosted comments commentIdMap (finding :: rest) later where
  extended := posted.extended
  wasMissing findingId more := by
    obtain ⟨other, member, same, missing⟩ := posted.wasMissing findingId more
    exact ⟨other, List.mem_cons_of_mem finding member, same, missing⟩

theorem loopPosted_refl : LoopPosted comments commentIdMap rest comments where
  extended := .refl comments
  wasMissing _ more := absurd more (Nat.lt_irrefl _)

/-- A comment is posted for the next finding, and the loop goes on. -/
theorem LoopPosted.create {commentId : Int}
    (issued : ∀ other ∈ rest, Issued (existingCommentId commentIdMap other) comments)
    (missing : Missing (existingCommentId commentIdMap finding) comments)
    (fresh : Posting.isFresh comments commentId = true)
    (posted : LoopPosted (Posting.post comments finding.id commentId)
      (commentIdMap.set finding.id.str commentId) rest later) :
    LoopPosted comments commentIdMap (finding :: rest) later where
  extended := (Posting.Extends.post fresh).trans posted.extended
  wasMissing findingId more := by
    by_cases same : finding.id = findingId
    · exact ⟨finding, List.mem_cons_self, same, missing⟩
    · have countNow := Posting.countFor_post comments finding.id findingId commentId
      rw [if_neg same, Nat.add_zero] at countNow
      rw [← countNow] at more
      obtain ⟨other, member, sameId, wasMissing⟩ := posted.wasMissing findingId more
      rw [existingCommentId_set_of_ne fun equal => same (equal.symm.trans sameId),
        (issued other member).missing_iff (.post fresh)] at wasMissing
      exact ⟨other, List.mem_cons_of_mem finding member, sameId, wasMissing⟩

theorem LoopCompleted.skip {stored : Int}
    (existing : existingCommentId commentIdMap finding = some stored)
    (live : Posting.isLive comments stored = true)
    (completed : LoopCompleted comments commentIdMap rest later) :
    LoopCompleted comments commentIdMap (finding :: rest) later := by
  intro other member missing
  rcases List.mem_cons.mp member with rfl | member
  · rw [missing stored existing] at live
    cases live
  · exact completed other member missing

theorem LoopCompleted.create {commentId : Int}
    (distinct : ((finding :: rest).map Finding.id).Nodup)
    (issued : ∀ other ∈ rest, Issued (existingCommentId commentIdMap other) comments)
    (fresh : Posting.isFresh comments commentId = true)
    (extended : Posting.Extends (Posting.post comments finding.id commentId) later)
    (completed : LoopCompleted (Posting.post comments finding.id commentId)
      (commentIdMap.set finding.id.str commentId) rest later) :
    LoopCompleted comments commentIdMap (finding :: rest) later := by
  intro other member missing
  have posted : Posting.Extends comments (Posting.post comments finding.id commentId) := .post fresh
  have notLess := posted.countFor_le other.id
  rcases List.mem_cons.mp member with rfl | member
  · have countNow := Posting.countFor_post comments other.id other.id commentId
    have more := extended.countFor_le other.id
    rw [if_pos rfl] at countNow
    omega
  · have differs : other.id ≠ finding.id := fun same =>
      (List.nodup_cons.mp distinct).1 (same ▸ List.mem_map_of_mem member)
    have more := completed other member (by
      rwa [existingCommentId_set_of_ne differs, (issued other member).missing_iff (.post fresh)])
    omega

end LoopSteps

/-- The loop posts comments for the missing ones, and for all of them if it returns. -/
theorem publishFindings_posts (distinct : (findings.map Finding.id).Nodup)
    (issued : ∀ finding ∈ findings,
      Issued (existingCommentId commentIdMap finding) github.comments) :
    (publishFindings target reviewId commentIdMap findings).Ensures attemptProtocol
      (fun outcome _ later => later.reviews = github.reviews ∧
        LoopPosted github.comments commentIdMap findings later.comments ∧
        ((∃ result, outcome = .ok result) →
          LoopCompleted github.comments commentIdMap findings later.comments))
      database github := by
  induction findings generalizing database github commentIdMap with
  | nil => exact ⟨rfl, loopPosted_refl, fun _ => nofun⟩
  | cons finding findings ih =>
      have restDistinct := (List.nodup_cons.mp distinct).2
      have restIssued := fun other member => issued other (List.mem_cons_of_mem finding member)
      rw [publishFindings, ensures_bind]
      refine publishFinding_ensures ?_ ?_ ?_
      · intro raised later same _
        refine ⟨same.1, ?_, ?_⟩
        · rw [same.2]
          exact loopPosted_refl
        · rintro ⟨_, returned⟩
          cases returned
      · intro id later existing live quiet
        refine (ih restDistinct ?_).mono ?_
        · rwa [quiet.1.2]
        · rintro outcome final last ⟨reviews, posted, completed⟩
          rw [quiet.1.2] at posted completed
          exact ⟨reviews.trans quiet.1.1, posted.skip,
            fun returned => (completed returned).skip existing live⟩
      · intro id later missing fresh reviews comments
        refine (ih restDistinct ?_).mono ?_
        · intro other member
          have differs : other.id ≠ finding.id := fun same =>
            (List.nodup_cons.mp distinct).1 (same ▸ List.mem_map_of_mem member)
          rw [existingCommentId_set_of_ne differs, comments]
          exact (restIssued other member).mono (.post fresh)
        · rintro outcome final last ⟨lastReviews, posted, completed⟩
          rw [comments] at posted completed
          exact ⟨lastReviews.trans reviews, posted.create restIssued missing fresh,
            fun returned =>
              (completed returned).create distinct restIssued fresh posted.extended⟩

/-! ## What an attempt posts -/

/-- Every id stored for the review was handed out by GitHub. -/
structure StoredIdsIssued (reviewId : UUID) (database : Database) (github : GitHub) : Prop where
  review : Issued (database.storedReviewId reviewId) github.reviews
  mapped : ∀ findingId : UUID,
    Issued ((database.storedCommentIds reviewId).get findingId.str) github.comments
  comments : ∀ finding ∈ publishableFindings database reviewId,
    Issued finding.githubCommentId github.comments

/-- The map that the loop starts with: an emptied one if the stored review is gone. -/
def loopMap (reviewId : UUID) (database : Database) (github : GitHub) : Dict String Int :=
  match database.storedReviewId reviewId with
  | none => database.storedCommentIds reviewId
  | some old =>
      if Posting.isLive github.reviews old then database.storedCommentIds reviewId else ∅

/-- What an attempt has posted: only a missing review, and comments for findings
whose stored comment was missing. -/
structure AttemptPosted (reviewId : UUID) (database : Database) (github later : GitHub) : Prop where
  reviews : Posting.Extends github.reviews later.reviews
  wasMissing : github.reviews.length < later.reviews.length →
    Missing (database.storedReviewId reviewId) github.reviews
  comments : LoopPosted github.comments (loopMap reviewId database github)
    (publishableFindings database reviewId) later.comments

/-- What an attempt that returned has posted: everything that was missing. -/
structure AttemptCompleted (reviewId : UUID) (database : Database) (github later : GitHub) :
    Prop where
  review : Missing (database.storedReviewId reviewId) github.reviews →
    github.reviews.length < later.reviews.length
  comments : LoopCompleted github.comments (loopMap reviewId database github)
    (publishableFindings database reviewId) later.comments

theorem StoredIdsIssued.existing {finding : Finding}
    (issued : StoredIdsIssued reviewId database github)
    (member : finding ∈ publishableFindings database reviewId) :
    Issued (existingCommentId (loopMap reviewId database github) finding) github.comments := by
  have stored := issued.comments finding member
  have mapped : Issued ((loopMap reviewId database github).get finding.id.str)
      github.comments := by
    unfold loopMap
    split
    · exact issued.mapped _
    · split
      · exact issued.mapped _
      · intro id entry
        simp at entry
  unfold existingCommentId
  split
  · exact stored
  · split
    · exact stored
    · rename_i entry _
      exact entry ▸ mapped

theorem attemptPosted_quiet {later : GitHub} (same : github.SameObjects later) :
    AttemptPosted reviewId database github later where
  reviews := same.1 ▸ .refl _
  wasMissing more := absurd more (by simp [same.1])
  comments := same.2 ▸ loopPosted_refl

/-- The loop of an attempt, and the assignment of the final map. -/
theorem loop_posts {middle : Database} {later : GitHub}
    (issued : StoredIdsIssued reviewId database github)
    (startsWith : commentIdMap = loopMap reviewId database github)
    (comments : later.comments = github.comments) :
    (publishFindings target reviewId commentIdMap (publishableFindings database reviewId) >>=
        assignCommentIds reviewId).Ensures attemptProtocol
      (fun outcome _ last => last.reviews = later.reviews ∧
        LoopPosted github.comments (loopMap reviewId database github)
          (publishableFindings database reviewId) last.comments ∧
        (outcome = .ok () → LoopCompleted github.comments (loopMap reviewId database github)
          (publishableFindings database reviewId) last.comments))
      middle later := by
  subst startsWith
  have loops := @publishFindings_posts reviewId middle later target _ _
    (loaded_publishableFindings database reviewId).distinct
    (fun finding member => comments ▸ issued.existing member)
  rw [comments] at loops
  refine ensures_bind.mpr (loops.mono ?_)
  rintro (raised | commentIdMap) final last ⟨reviews, posted, completed⟩
  · exact ⟨reviews, posted, fun returned => by cases returned⟩
  · exact ⟨reviews, posted, fun _ => completed ⟨commentIdMap, rfl⟩⟩

/-- An attempt posts what is missing only, and everything that is if it returns. -/
theorem publishReview_posts (installationId : UUID) (token : String)
    (issued : StoredIdsIssued reviewId database github) :
    (publishReview reviewId installationId token).Ensures attemptProtocol
      (fun outcome _ later => AttemptPosted reviewId database github later ∧
        (outcome = .ok () → AttemptCompleted reviewId database github later))
      database github := by
  refine publishReview_ensures ?_ ?_
  · intro raised later quiet
    exact ⟨attemptPosted_quiet quiet.1, fun returned => by cases returned⟩
  · intro target review middle found quiet
    obtain ⟨rfl, storedReview, storedMap⟩ := stored_of_find found
    rw [publishLoaded, ensures_bind, ← storedReview, ← storedMap]
    refine ensureReview_ensures ?_ ?_ ?_
    · intro raised later same _
      exact ⟨attemptPosted_quiet (quiet.1.trans same), fun returned => by cases returned⟩
    · intro id later stored live edited
      have same := quiet.1.trans edited.1
      rw [quiet.1.1] at live
      have map : database.storedCommentIds review.id = loopMap review.id database github := by
        rw [loopMap, stored]
        exact (if_pos live).symm
      refine (loop_posts issued map same.2).mono ?_
      rintro outcome final last ⟨reviews, posted, completed⟩
      have unchanged : last.reviews = github.reviews := reviews.trans same.1
      refine ⟨⟨unchanged ▸ .refl _, fun more => absurd more (by simp [unchanged]), posted⟩, ?_⟩
      intro returned
      refine ⟨fun missing => ?_, completed returned⟩
      rw [missing id stored] at live
      cases live
    · intro id later missing fresh reviews comments
      rw [quiet.1.1] at missing fresh reviews
      have map : (if (database.storedReviewId review.id).isNone then
          database.storedCommentIds review.id else ∅) = loopMap review.id database github := by
        unfold loopMap
        cases stored : database.storedReviewId review.id with
        | none => rfl
        | some old => simp [missing old stored]
      refine (loop_posts issued map (comments.trans quiet.1.2)).mono ?_
      rintro outcome final last ⟨lastReviews, posted, completed⟩
      have created : last.reviews = Posting.post github.reviews () id := lastReviews.trans reviews
      refine ⟨⟨created ▸ .post fresh, fun _ => missing, posted⟩, fun returned => ?_⟩
      exact ⟨fun _ => by simp [created, Posting.post], completed returned⟩

/-! ## A retry can return -/

/-- From anywhere, GitHub can answer in such a way that the body returns; what it
decides after that is left open. -/
def Finishes {Result : Type} (body : Publisher Result) : Prop :=
  ∀ (database : Database) (github : GitHub), ∃ result final, ∃ later : GitHub,
    ∀ decisions, ∃ earlier, body.serve GitHub.respond database { github with decisions := earlier } =
      (.ok result, final, { later with decisions })

section Finishing

variable {Result Value : Type}

theorem finishes_pure (result : Result) : Finishes (pure result) :=
  fun database github => ⟨result, database, github, fun decisions => ⟨decisions, rfl⟩⟩

theorem finishes_modify (change : Database → Database) : Finishes (modify change) :=
  fun database github => ⟨(), change database, github, fun decisions => ⟨decisions, rfl⟩⟩

theorem finishes_flush : Finishes flush :=
  fun database github => ⟨(), database, github, fun decisions => ⟨decisions, rfl⟩⟩

theorem Finishes.bind {body : Publisher Result} {next : Result → Publisher Value}
    (first : Finishes body) (rest : ∀ result, Finishes (next result)) :
    Finishes (body >>= next) := by
  intro database github
  obtain ⟨result, middle, between, starts⟩ := first database github
  obtain ⟨value, final, later, goesOn⟩ := rest result middle between
  refine ⟨value, final, later, fun decisions => ?_⟩
  obtain ⟨second, ends⟩ := goesOn decisions
  obtain ⟨earlier, ran⟩ := starts second
  refine ⟨earlier, ?_⟩
  change (body.continueWith _).serve GitHub.respond database _ = _
  rw [serve_continueWith, ran]
  exact ends

theorem serve_create {operation : GitHubOperation} :
    (create target operation).serve GitHub.respond database github =
      (createdId ((github.record ⟨target, operation⟩).answer operation).1, database,
        ((github.record ⟨target, operation⟩).answer operation).2) := by
  rw [create_eq, serve_continueWith]
  rfl

theorem serve_update {operation : GitHubOperation} :
    (update target operation).serve GitHub.respond database github =
      (stillExists ((github.record ⟨target, operation⟩).answer operation).1, database,
        ((github.record ⟨target, operation⟩).answer operation).2) := by
  rw [update_eq, serve_continueWith]
  rfl

/-- GitHub accepts a POST under a fresh id. -/
theorem createdId_accept {fresh : Int → Bool} {id : Int} (unused : fresh id = true) :
    GitHub.create fresh (.accept id) =
        (.ok ⟨201, fun _ => none, some (.object [("id", .integer id)])⟩, some id) ∧
      createdId (.ok ⟨201, fun _ => none, some (.object [("id", .integer id)])⟩) = .ok id := by
  simp [GitHub.create, unused, createdId, Response.raiseForStatus, responseId, Response.json,
    Json.item, Json.asInt]

theorem stillExists_accept (live : Bool) (id : Int) :
    stillExists (GitHub.edit live (.accept id)) = .ok live := by
  cases live <;> simp [GitHub.edit, stillExists, Response.raiseForStatus]

/-- A POST finishes: there is a fresh id to hand out. -/
theorem finishes_createReview : Finishes (createReview target) := by
  intro database github
  obtain ⟨id, fresh⟩ := Posting.exists_fresh github.reviews
  refine ⟨id, database, (github.record ⟨target, .createReview⟩).addReview (some id),
    fun decisions => ⟨.accept id :: decisions, ?_⟩⟩
  rw [createReview, serve_create]
  simp only [GitHub.answer, GitHub.record, GitHub.decide, createdId_accept fresh]
  rfl

theorem finishes_createComment (finding : Finding) : Finishes (createComment target finding) := by
  intro database github
  obtain ⟨id, fresh⟩ := Posting.exists_fresh github.comments
  refine ⟨id, database,
    (github.record ⟨target, .createComment finding⟩).addComment finding.id (some id),
    fun decisions => ⟨.accept id :: decisions, ?_⟩⟩
  rw [createComment, serve_create]
  simp only [GitHub.answer, GitHub.record, GitHub.decide, createdId_accept fresh]
  rfl

theorem finishes_updateReview (githubReviewId : Int) :
    Finishes (updateReview target githubReviewId) := by
  intro database github
  refine ⟨Posting.isLive github.reviews githubReviewId, database,
    github.record ⟨target, .updateReview githubReviewId⟩,
    fun decisions => ⟨.accept 0 :: decisions, ?_⟩⟩
  rw [updateReview, serve_update]
  simp only [GitHub.answer, GitHub.record, GitHub.decide, stillExists_accept]

theorem finishes_updateComment (commentId : Int) (finding : Finding) :
    Finishes (updateComment target commentId finding) := by
  intro database github
  refine ⟨Posting.isLive github.comments commentId, database,
    github.record ⟨target, .updateComment commentId finding⟩,
    fun decisions => ⟨.accept 0 :: decisions, ?_⟩⟩
  rw [updateComment, serve_update]
  simp only [GitHub.answer, GitHub.record, GitHub.decide, stillExists_accept]

/-- To be able to finish is a judgement. -/
def finishing : Judgement Database PublisherRequest.Answer Raised Unit :=
  .closed Finishes finishes_pure Finishes.bind

theorem finishing_session :
    FollowsSession finishing (fun _ _ _ => True) reviewId findings where
  assigns _ _ change _ := finishes_modify change
  flushes _ _ := finishes_flush

theorem finishes_ensureReview {githubReviewId : Option Int} :
    Finishes (ensureReview target reviewId githubReviewId commentIdMap) := by
  intro database
  refine @judged_ensureReview Unit finishing (fun _ _ _ => True) reviewId target [] commentIdMap
    database (fun _ _ => True) githubReviewId finishing_session ?_ ?_ ?_ ?_ ?_ database
  · exact fun _ _ _ => trivial
  · exact fun old _ => finishes_updateReview old
  · exact finishes_createReview
  · exact fun _ _ => trivial
  · exact fun _ _ _ => trivial

theorem finishes_publishFinding {finding : Finding} :
    Finishes (publishFinding target reviewId commentIdMap finding) := by
  intro database
  refine @judged_publishFinding Unit finishing (fun _ _ _ => True) reviewId target [finding]
    commentIdMap database (fun _ _ => True) finding finding List.mem_cons_self rfl rfl
    finishing_session ?_ ?_ ?_ ?_ ?_ database
  · exact fun _ _ _ => trivial
  · exact fun old _ => finishes_updateComment old finding
  · exact finishes_createComment finding
  · exact fun _ _ => trivial
  · exact fun _ _ _ => trivial

theorem finishes_publishFindings :
    Finishes (publishFindings target reviewId commentIdMap findings) := by
  induction findings generalizing commentIdMap with
  | nil => exact finishes_pure commentIdMap
  | cons finding findings ih => exact finishes_publishFinding.bind fun _ => ih

/-- The writing stages can return. -/
theorem finishes_publishLoaded {review : Review} :
    Finishes (publishLoaded target review findings) :=
  finishes_ensureReview.bind fun _ => finishes_publishFindings.bind fun _ => finishes_modify _

end Finishing

/-! ## The retry -/

variable {installationId : UUID} {token : String}

/-- The caller rolls back after an attempt: the database is as before it, GitHub is
as the attempt left it. -/
def rolledBack (publication after : Publication) : Publication :=
  ⟨publication.database, after.github, none⟩

/-- A review was created between the two states of GitHub. -/
def CreatedReview (before after : GitHub) : Prop :=
  before.reviews.length < after.reviews.length

instance (before after : GitHub) : Decidable (CreatedReview before after) :=
  inferInstanceAs (Decidable (before.reviews.length < after.reviews.length))

/-- A comment was created for the finding between the two states of GitHub. -/
def CreatedComment (findingId : UUID) (before after : GitHub) : Prop :=
  Posting.countFor before.comments findingId < Posting.countFor after.comments findingId

/-- The second run creates nothing for what the first run created something for. -/
structure RepeatsNothing (before first second : GitHub) : Prop where
  review : CreatedReview before first → ¬ CreatedReview first second
  comments : ∀ findingId, CreatedComment findingId before first →
    ¬ CreatedComment findingId first second

/-- What an attempt on a publication posts. -/
theorem attempt_posts {publication : Publication} (pull : Except Raised Response)
    (decisions : List Decision)
    (issued : StoredIdsIssued reviewId publication.database publication.github) :
    let after := attempt reviewId installationId token publication pull decisions
    AttemptPosted reviewId publication.database publication.github after.github ∧
      (after.outcome = some (.ok ()) →
        AttemptCompleted reviewId publication.database publication.github after.github) := by
  have loaded : StoredIdsIssued reviewId publication.database
      { publication.github with pull, decisions } :=
    ⟨issued.review, issued.mapped, issued.comments⟩
  obtain ⟨outcome, ended, posted, completed⟩ :=
    of_ensures (publishReview_posts installationId token loaded)
  refine ⟨⟨posted.reviews, posted.wasMissing, posted.comments⟩, fun returned => ?_⟩
  have all := completed (Option.some.inj (ended.symm.trans returned))
  exact ⟨all.review, all.comments⟩

theorem StoredIdsIssued.after {after : GitHub}
    (issued : StoredIdsIssued reviewId database github)
    (posted : AttemptPosted reviewId database github after) :
    StoredIdsIssued reviewId database after where
  review := issued.review.mono posted.reviews
  mapped findingId := (issued.mapped findingId).mono posted.comments.extended
  comments finding member := (issued.comments finding member).mono posted.comments.extended

/-- The loop of the retry starts with the same map. -/
theorem StoredIdsIssued.loopMap_eq {after : GitHub}
    (issued : StoredIdsIssued reviewId database github)
    (posted : AttemptPosted reviewId database github after) :
    loopMap reviewId database after = loopMap reviewId database github := by
  unfold loopMap
  cases stored : database.storedReviewId reviewId with
  | none => rfl
  | some old => simp only [posted.reviews.isLive_eq (issued.review old stored)]

/-- **A retry that returns creates everything again.** -/
theorem retry_creates_again {publication : Publication} (pull again : Except Raised Response)
    (decisions choices : List Decision)
    (issued : StoredIdsIssued reviewId publication.database publication.github) :
    let first := attempt reviewId installationId token publication pull decisions
    let second := attempt reviewId installationId token (rolledBack publication first) again choices
    second.outcome = some (.ok ()) →
      (CreatedReview publication.github first.github →
        CreatedReview first.github second.github) ∧
      ∀ findingId, CreatedComment findingId publication.github first.github →
        CreatedComment findingId first.github second.github := by
  intro first second returned
  have posted := (@attempt_posts reviewId installationId token publication pull decisions issued).1
  have issuedAfter : StoredIdsIssued reviewId (rolledBack publication first).database
      (rolledBack publication first).github := issued.after posted
  have completed := (attempt_posts again choices issuedAfter).2 returned
  refine ⟨fun created => ?_, fun findingId created => ?_⟩
  · exact completed.review
      ((issued.review.missing_iff posted.reviews).mpr (posted.wasMissing created))
  · obtain ⟨finding, member, rfl, missing⟩ := posted.comments.wasMissing findingId created
    refine completed.comments finding member ?_
    have sameMap : loopMap reviewId (rolledBack publication first).database
        (rolledBack publication first).github =
          loopMap reviewId publication.database publication.github := issued.loopMap_eq posted
    rw [sameMap]
    exact ((issued.existing member).missing_iff posted.comments.extended).mpr missing

/-- An attempt whose loading fails sends nothing. -/
theorem serve_publishReview_of_error {raised : Raised}
    (fails : loading database reviewId installationId token = .error raised) :
    (publishReview reviewId installationId token).serve GitHub.respond database github =
      (.error raised, database, github) := by
  rw [← serve_afterReads, publishReview_afterReads, fails]
  rfl

/-- The sha guard looks at the answer to the GET. -/
theorem serve_publishReview_of_loading {review : Review}
    (loaded : loading database reviewId installationId token = .ok (review, target)) :
    (publishReview reviewId installationId token).serve GitHub.respond database github =
      (finish (headVerdict target github.pull) >>= fun _ =>
        publishLoaded target review (publishableFindings database reviewId)).serve GitHub.respond
          database (github.record ⟨target, .getPull⟩) := by
  rw [← serve_afterReads, publishReview_afterReads, loaded]
  rfl

/-- After an attempt that created something, some retry returns. -/
theorem exists_retry_returns {publication : Publication} (pull : Except Raised Response)
    (decisions : List Decision) :
    let first := attempt reviewId installationId token publication pull decisions
    ¬ publication.github.SameObjects first.github →
      ∃ choices, (attempt reviewId installationId token (rolledBack publication first) pull
        choices).outcome = some (.ok ()) := by
  intro first created
  cases loaded : loading publication.database reviewId installationId token with
  | error raised =>
      refine absurd ?_ created
      have unchanged : first.github = { publication.github with pull, decisions } := by
        have ran := @serve_publishReview_of_error reviewId publication.database
          { publication.github with pull, decisions } installationId token raised loaded
        exact congrArg (fun run => run.2.2) ran
      rw [unchanged]
      exact ⟨rfl, rfl⟩
  | ok loading =>
      obtain ⟨review, target⟩ := loading
      cases verdict : headVerdict target pull with
      | error raised =>
          refine absurd ?_ created
          have unchanged : first.github =
              GitHub.record { publication.github with pull, decisions } ⟨target, .getPull⟩ := by
            simp only [first, attempt, serve_publishReview_of_loading loaded, verdict]
            rfl
          rw [unchanged]
          exact ⟨rfl, rfl⟩
      | ok _ =>
          have returns : Finishes (publishLoaded target review
              (publishableFindings publication.database reviewId)) := finishes_publishLoaded
          obtain ⟨_, final, later, finishes⟩ := returns publication.database
            (GitHub.record { first.github with pull } ⟨target, .getPull⟩)
          obtain ⟨choices, ran⟩ := finishes []
          refine ⟨choices, ?_⟩
          have guarded := @serve_publishReview_of_loading reviewId publication.database
            { first.github with pull, decisions := choices } target installationId token review loaded
          rw [verdict] at guarded
          exact congrArg (fun run => some run.1) (guarded.trans ran)

/-! ## Retrying is not safe -/

/-- What the publisher stores is issued by GitHub: it is in every state that attempts
whose effects were committed reach from unpublished rows. -/
theorem Recorded.storedIdsIssued (recorded : Recorded reviewId database github) :
    StoredIdsIssued reviewId database github where
  review id stored := Posting.isFresh_of_mem (recorded.review.known () id stored)
  mapped findingId id entry :=
    Posting.isFresh_of_mem (recorded.comments.known findingId id (recorded.mapped findingId id entry))
  comments finding member id stored := by
    have kept := (loaded_publishableFindings database reviewId).stored member
    exact Posting.isFresh_of_mem (recorded.comments.known finding.id id (kept.trans stored))

/-- **No attempt can be retried safely after a rollback.** On a database whose stored
ids GitHub has handed out, for every attempt that created a review or a comment,
wherever it raised after that, there is a retry that creates another one for the
same row. -/
theorem retry_after_rollback_not_safe {publication : Publication} (pull : Except Raised Response)
    (decisions : List Decision)
    (issued : StoredIdsIssued reviewId publication.database publication.github)
    (created : let first := attempt reviewId installationId token publication pull decisions
      CreatedReview publication.github first.github ∨
        ∃ findingId, CreatedComment findingId publication.github first.github) :
    let first := attempt reviewId installationId token publication pull decisions
    ¬ ∀ again choices, RepeatsNothing publication.github first.github
      (attempt reviewId installationId token (rolledBack publication first) again
        choices).github := by
  intro first safe
  have changed : ¬ publication.github.SameObjects first.github := by
    rintro ⟨reviews, comments⟩
    rcases created with review | ⟨findingId, comment⟩
    · rw [CreatedReview, reviews] at review
      exact Nat.lt_irrefl _ review
    · rw [CreatedComment, comments] at comment
      exact Nat.lt_irrefl _ comment
  obtain ⟨choices, returned⟩ := exists_retry_returns pull decisions changed
  obtain ⟨reviewAgain, commentsAgain⟩ :=
    retry_creates_again pull pull decisions choices issued returned
  rcases created with review | ⟨findingId, comment⟩
  · exact (safe pull choices).review review (reviewAgain review)
  · exact (safe pull choices).comments findingId comment (commentsAgain findingId comment)

/-- The comment fails in the first attempt, which is rolled back. -/
theorem failedComment_retry_not_safe :
    let first := attempt (idEndingIn 2) (idEndingIn 0) "token" { database := oneFinding }
      pullAtHead [.accept 10, .error 500]
    ¬ ∀ again choices, RepeatsNothing {} first.github
      (attempt (idEndingIn 2) (idEndingIn 0) "token" (rolledBack { database := oneFinding } first)
        again choices).github := by
  have created : CreatedReview {} (attempt (idEndingIn 2) (idEndingIn 0) "token"
      { database := oneFinding } pullAtHead [.accept 10, .error 500]).github := by decide
  exact @retry_after_rollback_not_safe (idEndingIn 2) (idEndingIn 0) "token"
    { database := oneFinding } pullAtHead [.accept 10, .error 500]
    oneFinding_unpublished.recorded.storedIdsIssued (.inl created)

/-- The comment fails in the first attempt, which is rolled back; the retry creates a
second review. -/
theorem failedComment_retry_creates_second_review :
    ¬ ∀ pull decisions again choices,
      let first := attempt (idEndingIn 2) (idEndingIn 0) "token" { database := oneFinding }
        pull decisions
      let second := attempt (idEndingIn 2) (idEndingIn 0) "token"
        (rolledBack { database := oneFinding } first) again choices
      first.outcome = some (.error (.httpStatusError 500)) → CreatedReview {} first.github →
        RepeatsNothing {} first.github second.github := by
  intro safe
  have repeatsNothing := safe pullAtHead [.accept 10, .error 500] pullAtHead
    [.accept 11, .accept 20] (by decide) (by decide)
  exact repeatsNothing.review (by decide) (by decide)

end Publisher

end Kenjutsu.Pipeline
