import Kenjutsu.Foundations.Judgements
import Kenjutsu.Pipeline.Publisher

/-!
# The stages of the publisher

Ensuring the review and publishing a finding are alike: an object whose id is known is updated,
and if none is known or it is gone, one is created, its id is assigned and the session flushed.
Each of the two is gone through here once, for every judgement that follows the language. What an
attempt leaves on GitHub, what it records, what it asks for, whether it can finish and how two
attempts run in step are instances.
-/

set_option autoImplicit false

namespace Kenjutsu.Pipeline

open Foundations Foundations.Coroutine Kenjutsu.Http Kenjutsu.Db

namespace Publisher

/-- Where a stage is. -/
inductive Phase where
  | starting
  /-- The object is there and has been updated. -/
  | found
  /-- None is known, or it is gone. -/
  | missing
  | created (id : Int)
  | flushed (id : Int)

/-- What an attempt assigns to the rows of the review and of the findings. -/
inductive Assigns (reviewId : UUID) (findings : List Finding) : (Database → Database) → Prop where
  | reviewId (githubReviewId : Int) :
      Assigns reviewId findings fun database => database.setReviewId reviewId githubReviewId
  | commentIds (commentIdMap : Dict String Int) :
      Assigns reviewId findings fun database => database.setCommentIds reviewId commentIdMap
  | commentId {finding : Finding} (listed : finding ∈ findings) (commentId : Int) :
      Assigns reviewId findings fun database => database.setCommentId finding.id commentId
  | published {finding : Finding} (listed : finding ∈ findings) :
      Assigns reviewId findings fun database => database.setPublished finding.id

section

variable {State : Type} {judgement : Judgement Database PublisherRequest.Answer Raised State}
  {holds : Phase → Database → State → Prop} {reviewId : UUID} {target : PublishTarget}
  {findings : List Finding} {commentIdMap : Dict String Int} {database : Database}
  {after : Dict String Int → State → Prop}

/-- The judgement follows the session: what is assigned and flushed. -/
structure FollowsSession (judgement : Judgement Database PublisherRequest.Answer Raised State)
    (holds : Phase → Database → State → Prop) (reviewId : UUID) (findings : List Finding) :
    Prop where
  assigns : ∀ (phase : Phase) (database : Database) (change : Database → Database),
    Assigns reviewId findings change →
      judgement.judges (holds phase database) (modify change) (modify change) fun _ =>
        holds phase (change database)
  flushes : ∀ (id : Int) (database : Database),
    judgement.judges (holds (.created id) database) flush flush fun _ =>
      holds (.flushed id) database

/-- **Ensuring the review**, for every judgement. -/
theorem judged_ensureReview {githubReviewId : Option Int}
    (session : FollowsSession judgement holds reviewId findings)
    (unknown : githubReviewId = none → ∀ state, holds .starting database state →
      holds .missing database state)
    (updates : ∀ old, githubReviewId = some old →
      judgement.judges (holds .starting database) (updateReview target old)
        (updateReview target old) fun live => holds (if live then .found else .missing) database)
    (creates : judgement.judges (holds .missing database) (createReview target)
      (createReview target) fun id => holds (.created id) database)
    (found : ∀ state, holds .found database state → after commentIdMap state)
    (created : ∀ id state, holds (.flushed id) (database.setReviewId reviewId id) state →
      after (if githubReviewId.isNone then commentIdMap else ∅) state) :
    judgement.judges (holds .starting database)
      (ensureReview target reviewId githubReviewId commentIdMap)
      (ensureReview target reviewId githubReviewId commentIdMap) after := by
  cases githubReviewId with
  | none =>
      refine judgement.sequence (judgement.consequence creates (unknown rfl)) fun id => ?_
      refine judgement.sequence (session.assigns _ _ _ (.reviewId id)) fun _ => ?_
      refine judgement.sequence (session.flushes id _) fun _ => ?_
      exact judgement.returning _ (created id)
  | some old =>
      refine judgement.sequence (updates old rfl) fun live => ?_
      cases live with
      | true => exact judgement.returning _ found
      | false =>
          refine judgement.sequence creates fun id => ?_
          refine judgement.sequence (session.assigns _ _ _ (.reviewId id)) fun _ => ?_
          refine judgement.sequence (session.flushes id _) fun _ => ?_
          exact judgement.returning _ (created id)

/-- **Publishing a finding**, for every judgement. -/
theorem judged_publishFinding {finding other : Finding} (listed : finding ∈ findings)
    (sameId : other.id = finding.id)
    (sameExisting : existingCommentId commentIdMap other = existingCommentId commentIdMap finding)
    (session : FollowsSession judgement holds reviewId findings)
    (unknown : existingCommentId commentIdMap finding = none →
      ∀ state, holds .starting database state → holds .missing database state)
    (updates : ∀ old, existingCommentId commentIdMap finding = some old →
      judgement.judges (holds .starting database) (updateComment target old finding)
        (updateComment target old other) fun live =>
          holds (if live then .found else .missing) database)
    (creates : judgement.judges (holds .missing database) (createComment target finding)
      (createComment target other) fun id => holds (.created id) database)
    (found : ∀ state, holds .found (database.setPublished finding.id) state →
      after commentIdMap state)
    (created : ∀ id state, holds (.flushed id) (database.recordComment reviewId finding.id id
      (commentIdMap.set finding.id.str id)) state →
        after (commentIdMap.set finding.id.str id) state) :
    judgement.judges (holds .starting database)
      (publishFinding target reviewId commentIdMap finding)
      (publishFinding target reviewId commentIdMap other) after := by
  have assigns := session.assigns
  unfold publishFinding
  rw [sameExisting, sameId]
  cases existing : existingCommentId commentIdMap finding with
  | none =>
      refine judgement.sequence (judgement.consequence creates (unknown existing)) fun id => ?_
      refine judgement.sequence (assigns _ _ _ (.commentId listed id)) fun _ => ?_
      refine judgement.sequence (assigns _ _ _ (.published listed)) fun _ => ?_
      refine judgement.sequence (assigns _ _ _ (.commentIds _)) fun _ => ?_
      refine judgement.sequence (session.flushes id _) fun _ => ?_
      exact judgement.returning _ (created id)
  | some old =>
      refine judgement.sequence (updates old existing) fun live => ?_
      cases live with
      | true =>
          refine judgement.sequence (assigns _ _ _ (.published listed)) fun _ => ?_
          exact judgement.returning _ found
      | false =>
          refine judgement.sequence creates fun id => ?_
          refine judgement.sequence (assigns _ _ _ (.commentId listed id)) fun _ => ?_
          refine judgement.sequence (assigns _ _ _ (.commentIds _)) fun _ => ?_
          refine judgement.sequence (session.flushes id _) fun _ => ?_
          -- the comment is marked as published last
          refine judgement.sequence (assigns _ _ _ (.published listed)) fun _ => ?_
          exact judgement.returning _ (created id)

end

/-! ## What a stage ensures -/

section

variable {World : Type} {protocol : Protocol Database PublisherRequest.Answer Raised World}
  {fails : Raised → Database → World → Prop} {stands : Phase → World → Prop} {reviewId : UUID}
  {findings : List Finding}

/-- The database is as it was left, and the world stands as it does in the phase. -/
def Holding (stands : Phase → World → Prop) (phase : Phase) (database : Database)
    (state : Database × World) : Prop :=
  state.1 = database ∧ stands phase state.2

/-- Assignments leave the world alone, so only the flush is to be followed. -/
theorem ensuring_session
    (flushes : ∀ (id : Int) (database : Database) (world : World), stands (.created id) world →
      flush.Ensures protocol (onOutcome (fun _ later moved => later = database ∧
        stands (.flushed id) moved) fails) database world) :
    FollowsSession (.ensuring protocol fails) (Holding stands) reviewId findings where
  assigns phase database change _ := by
    rintro _ world ⟨rfl, held⟩
    exact ⟨rfl, held⟩
  flushes id database := by
    rintro _ world ⟨rfl, held⟩
    exact flushes id _ world held

end

end Publisher

end Kenjutsu.Pipeline
