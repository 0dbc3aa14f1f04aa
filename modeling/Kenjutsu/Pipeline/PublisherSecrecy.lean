import Kenjutsu.Pipeline.PublisherWire

/-!
# What the publisher hides

The comment of a redacted finding does not show its description, suggestion or
fingerprint; where it came from and its first line are shown for no finding; and
of a suppressed or audited finding nothing is shown at all. So two databases that
differ only there look the same from GitHub, on every path of an attempt, and
still differ only there after it.
-/

set_option autoImplicit false

namespace Kenjutsu.Pipeline

open Foundations Foundations.Coroutine Kenjutsu.Http Kenjutsu.Db

namespace Publisher

/-- Two rows of `findings` that differ in what is not to be shown. -/
inductive LooksAlike : Finding → Finding → Prop
  | same (finding : Finding) : LooksAlike finding finding
  | redacted (finding : Finding) (description : String) (suggestion : Option String)
      (fingerprint : String) (evidenceSourcesJson : List String) (lineStart : Int)
      (isRedacted : finding.publishability = Models.Publishability.redactAndPublish.value) :
      LooksAlike finding
        { finding with description, suggestion, fingerprint, evidenceSourcesJson, lineStart }
  | unpublished (finding other : Finding)
      (isUnpublished : finding.publishability = Models.Publishability.suppress.value ∨
        finding.publishability = Models.Publishability.auditOnly.value)
      (id : other.id = finding.id) (reviewId : other.reviewId = finding.reviewId)
      (publishability : other.publishability = finding.publishability) :
      LooksAlike finding other

/-- Two databases that differ in what is not to be shown. -/
structure SamePublic (left right : Database) : Prop where
  repos : left.repos = right.repos
  reviews : left.reviews = right.reviews
  findings : List.Forall₂ LooksAlike left.findings.rows right.findings.rows

variable {finding other : Finding} {left right : Database} {reviewId installationId : UUID}
  {token : String}

/-! ## One finding -/

theorem LooksAlike.selected (alike : LooksAlike finding other) :
    finding.id = other.id ∧ finding.reviewId = other.reviewId ∧
      finding.publishability = other.publishability := by
  cases alike with
  | same => exact ⟨rfl, rfl, rfl⟩
  | redacted => exact ⟨rfl, rfl, rfl⟩
  | unpublished _ isUnpublished id reviewId publishability =>
      exact ⟨id.symm, reviewId.symm, publishability.symm⟩

/-- What is shown of a publishable finding is the same. -/
theorem LooksAlike.sameComment (upper : String → String) (alike : LooksAlike finding other)
    (publishable : isPublishable finding = true) : SameComment upper finding other := by
  cases alike with
  | same => exact ⟨rfl, rfl, rfl, rfl, rfl⟩
  | redacted description suggestion fingerprint evidence lineStart isRedacted =>
      refine ⟨rfl, rfl, rfl, rfl, ?_⟩
      simp [findingCommentBody, isRedacted]
  | unpublished _ isUnpublished =>
      obtain suppressed | audited := isUnpublished
      · simp [isPublishable, suppressed, Publisher.publishable, Models.Publishability.value]
          at publishable
      · simp [isPublishable, audited, Publisher.publishable, Models.Publishability.value]
          at publishable

/-- A change of what is stored about the publishing keeps two rows alike. -/
theorem LooksAlike.change (alike : LooksAlike finding other) (target : UUID)
    (published : Bool → Bool) (commentId : Option Int → Option Int) :
    let change := fun finding : Finding => if finding.id = target then
      { finding with
        published := published finding.published
        githubCommentId := commentId finding.githubCommentId }
      else finding
    LooksAlike (change finding) (change other) := by
  cases alike with
  | same => exact .same _
  | redacted description suggestion fingerprint evidence lineStart isRedacted =>
      by_cases hit : finding.id = target
      · simp only [if_pos hit]
        exact .redacted
          { finding with
            published := published finding.published
            githubCommentId := commentId finding.githubCommentId }
          description suggestion fingerprint evidence lineStart isRedacted
      · simp only [if_neg hit]
        exact .redacted finding _ _ _ _ _ isRedacted
  | unpublished _ isUnpublished id reviewId publishability =>
      by_cases hit : finding.id = target
      · simp only [if_pos hit, if_pos (id.trans hit)]
        exact .unpublished _ _ isUnpublished id reviewId publishability
      · simp only [if_neg hit, if_neg fun same => hit (id.symm.trans same)]
        exact .unpublished _ _ isUnpublished id reviewId publishability

/-! ## The databases -/

/-- The publishable findings of a review have the same comments. -/
theorem SamePublic.comments (upper : String → String) (same : SamePublic left right)
    (reviewId : UUID) : List.Forall₂ (SameComment upper) (publishableFindings left reviewId)
      (publishableFindings right reviewId) := by
  have filtered : List.Forall₂ LooksAlike (publishableFindings left reviewId)
      (publishableFindings right reviewId) := by
    refine List.rel_filter ?_ (List.rel_filter ?_ same.findings)
    · intro finding other alike
      simp only [isPublishable, alike.selected.2.2]
    · intro finding other alike
      simp only [alike.selected.2.1]
  have publishable : ∀ finding ∈ publishableFindings left reviewId,
      isPublishable finding = true := fun finding member => (List.mem_filter.mp member).2
  refine ((List.forall₂_and_left _ _).mpr ⟨publishable, filtered⟩).imp ?_
  rintro finding other ⟨isShown, alike⟩
  exact alike.sameComment upper isShown

theorem SamePublic.loading (same : SamePublic left right) :
    loading left reviewId installationId token = loading right reviewId installationId token := by
  simp only [Publisher.loading, selectReviews, selectRepos, same.repos, same.reviews]

/-- Assignments of an attempt keep the databases alike. -/
theorem survives_samePublic (reviewId : UUID) (findings : List Finding) :
    Survives SamePublic reviewId findings where
  setReviewId left right githubReviewId same :=
    ⟨same.repos, by simp only [Database.setReviewId, same.reviews], same.findings⟩
  setCommentIds left right commentIds same :=
    ⟨same.repos, by simp only [Database.setCommentIds, same.reviews], same.findings⟩
  setCommentId finding _ left right commentId same := by
    refine ⟨same.repos, same.reviews, List.rel_map ?_ same.findings⟩
    exact fun finding other alike => alike.change _ id fun _ => some commentId
  setPublished finding _ left right same := by
    refine ⟨same.repos, same.reviews, List.rel_map ?_ same.findings⟩
    exact fun finding other alike => alike.change _ (fun _ => true) id

/-! ## Two attempts -/

/-- **What is not to be shown is not shown.** Two attempts on databases that differ
only in it send the same requests and end in the same way, against every server on
the other side of the wire, and the databases still differ only in it. -/
theorem publishReview_hides (upper : String → String) (same : SamePublic left right)
    (reviewId installationId : UUID) (token : String) {Server : Type} (wire : WireServer Server)
    (server : Server) :
    let first := attemptRun (wire.respond upper) reviewId installationId token left server
    let second := attemptRun (wire.respond upper) reviewId installationId token right server
    sentRequests upper first.2.2 = sentRequests upper second.2.2 ∧ first.1 = second.1 ∧
      SamePublic first.2.1 second.2.1 := by
  refine attempts_alike ⟨same, same.loading, fun review target _ => ?_⟩ wire server
  exact ⟨survives_samePublic review.id _, same.comments upper reviewId⟩

/-- A review with one redacted finding, and what it says. -/
def withSecret (description fingerprint : String) : Database where
  repos := octoRepos
  reviews := octoReviews
  findings := ⟨[
    { id := idEndingIn 3, reviewId := idEndingIn 2, fingerprint, filePath := "src/a.py",
      lineStart := 10, lineEnd := 12, origin := "llm", confidence := "verified",
      severity := "critical", category := "security", publishability := "redact-and-publish",
      description }], by simp⟩

theorem withSecret_samePublic (description other fingerprint changed : String) :
    SamePublic (withSecret description fingerprint) (withSecret other changed) := by
  refine ⟨rfl, rfl, List.Forall₂.cons ?_ List.Forall₂.nil⟩
  exact .redacted _ other none changed [] 10 rfl

/-- The first attempt on a redacted finding, whatever it says. -/
theorem withSecret_hidden :
    let script := [pullAtHead, .ok ⟨201, fun _ => none, some (.object [("id", .integer 10)])⟩,
      .ok ⟨201, fun _ => none, some (.object [("id", .integer 20)])⟩]
    let respond := scriptedWire.respond String.toUpper
    let first := attemptRun respond (idEndingIn 2) (idEndingIn 0) "token"
      (withSecret "the key is 1234" "f1") script
    let second := attemptRun respond (idEndingIn 2) (idEndingIn 0) "token"
      (withSecret "the key is 5678" "f2") script
    sentRequests String.toUpper first.2.2 = sentRequests String.toUpper second.2.2 ∧
      first.1 = second.1 ∧ SamePublic first.2.1 second.2.1 :=
  publishReview_hides String.toUpper (withSecret_samePublic _ _ _ _) (idEndingIn 2) (idEndingIn 0)
    "token" scriptedWire _

end Publisher

end Kenjutsu.Pipeline
