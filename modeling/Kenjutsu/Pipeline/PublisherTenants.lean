import Kenjutsu.Pipeline.PublisherWire

/-!
# Tenant boundaries

The rows of an installation are its repos, the reviews of those repos and the
findings of those reviews. Only the query for the findings filters by the review
alone; that it stays within the installation follows from the join that found the
review.

An attempt for an installation depends on its rows only, changes its rows only,
and makes the same changes to them whatever else is stored
(`publishReview_isolated`).
-/

set_option autoImplicit false

namespace Kenjutsu.Pipeline

open Foundations Foundations.Coroutine Kenjutsu.Http Kenjutsu.Db

namespace Publisher

variable {database left right : Database} {reviewId installationId : UUID} {token : String}

/-! ## The rows of an installation -/

/-- The review is of a repo of the installation. -/
def ownsReview (database : Database) (installationId : UUID) (review : Review) : Bool :=
  database.repos.rows.any fun repo =>
    repo.id = review.repoId && repo.installationId = installationId

/-- The finding is of a review of the installation. -/
def ownsFinding (database : Database) (installationId : UUID) (finding : Finding) : Bool :=
  database.reviews.rows.any fun review =>
    review.id = finding.reviewId && ownsReview database installationId review

/-- The repos of the installation. -/
def tenantRepos (database : Database) (installationId : UUID) : List Repo :=
  database.repos.rows.filter fun repo => repo.installationId = installationId

/-- The reviews and findings that belong to the installation by what `start` says. -/
def tenantRows (start : Database) (installationId : UUID) (database : Database) :
    List Review × List Finding :=
  (database.reviews.rows.filter (ownsReview start installationId),
    database.findings.rows.filter (ownsFinding start installationId))

/-- The reviews and findings of others. -/
def foreignRows (start : Database) (installationId : UUID) (database : Database) :
    List Review × List Finding :=
  (database.reviews.rows.filter fun review => !ownsReview start installationId review,
    database.findings.rows.filter fun finding => !ownsFinding start installationId finding)

/-- Two databases with the same rows of the installation. -/
structure SameTenant (installationId : UUID) (left right : Database) : Prop where
  repos : tenantRepos left installationId = tenantRepos right installationId
  rows : tenantRows left installationId left = tenantRows right installationId right

/-- What an attempt leaves of the rows of others: everything, as it was. -/
structure SparesOthers (installationId : UUID) (start final : Database) : Prop where
  repos : final.repos = start.repos
  rows : foreignRows start installationId final = foreignRows start installationId start

/-! ## What an attempt loads -/

theorem selectReviews_eq :
    selectReviews database reviewId installationId =
      (tenantRows database installationId database).1.filter fun review => review.id = reviewId := by
  rw [tenantRows, List.filter_filter]
  rfl

theorem selectRepos_eq {repoId : UUID} :
    selectRepos database repoId installationId =
      (tenantRepos database installationId).filter fun repo => repo.id = repoId := by
  rw [tenantRepos, List.filter_filter]
  rfl

/-- The review an attempt loads is one of the installation. -/
theorem owns_of_targets {review : Review} {target : PublishTarget}
    (targets : Targets database reviewId installationId token review target) :
    review ∈ database.reviews.rows ∧ review.id = reviewId ∧
      ownsReview database installationId review = true := by
  have selected : review ∈ selectReviews database reviewId installationId := by
    rw [targets.selected]
    exact List.mem_singleton_self review
  obtain ⟨listed, conditions⟩ := List.mem_filter.mp selected
  obtain ⟨sameId, owned⟩ := Bool.and_eq_true_iff.mp conditions
  exact ⟨listed, of_decide_eq_true sameId, owned⟩

/-- The findings of a review of the installation are findings of the installation. -/
theorem ownsFinding_of_review {review : Review} {finding : Finding}
    (listed : review ∈ database.reviews.rows)
    (owned : ownsReview database installationId review = true)
    (sameId : finding.reviewId = review.id) :
    ownsFinding database installationId finding = true :=
  List.any_eq_true.mpr ⟨review, listed, by simp [sameId, owned]⟩

theorem selectFindings_eq {review : Review} (listed : review ∈ database.reviews.rows)
    (owned : ownsReview database installationId review = true) :
    selectFindings database review.id =
      (tenantRows database installationId database).2.filter fun finding =>
        finding.reviewId = review.id := by
  rw [tenantRows, List.filter_filter]
  refine List.filter_congr fun finding _ => ?_
  by_cases sameId : finding.reviewId = review.id
  · simp [sameId, ownsFinding_of_review listed owned sameId]
  · simp [sameId]

theorem SameTenant.loading (same : SameTenant installationId left right) :
    loading left reviewId installationId token = loading right reviewId installationId token := by
  simp only [Publisher.loading, selectReviews_eq, selectRepos_eq, same.repos, same.rows]

/-- The findings to publish are the same. -/
theorem SameTenant.findings {review : Review} {target : PublishTarget}
    (same : SameTenant installationId left right)
    (loaded : Publisher.loading left reviewId installationId token = .ok (review, target)) :
    publishableFindings left reviewId = publishableFindings right reviewId := by
  obtain ⟨listed, rfl, owned⟩ := owns_of_targets (loading_eq_ok_iff.mp loaded)
  obtain ⟨listed', -, owned'⟩ :=
    owns_of_targets (loading_eq_ok_iff.mp (same.loading.symm.trans loaded))
  rw [publishableFindings, publishableFindings, selectFindings_eq listed owned,
    selectFindings_eq listed' owned', same.rows]

/-! ## What an attempt changes -/

/-- A change of a review that leaves it with its repo. -/
structure ReviewChange where
  change : Review → Review
  id_eq : ∀ review, (change review).id = review.id
  repoId_eq : ∀ review, (change review).repoId = review.repoId

/-- A change of a finding that leaves it with its review. -/
structure FindingChange where
  change : Finding → Finding
  id_eq : ∀ finding, (change finding).id = finding.id
  reviewId_eq : ∀ finding, (change finding).reviewId = finding.reviewId

/-- Change a review. -/
def changeReview (database : Database) (reviewId : UUID) (change : ReviewChange) : Database :=
  { database with reviews := database.reviews.update reviewId change.change change.id_eq }

/-- Change a finding. -/
def changeFinding (database : Database) (findingId : UUID) (change : FindingChange) : Database :=
  { database with findings := database.findings.update findingId change.change change.id_eq }

/-- In the course of an attempt that started on `start`: the rows of others are as
they were, and the review and the findings it works on are rows of the
installation. -/
structure Underway (installationId : UUID) (start : Database) (reviewId : UUID)
    (findings : List Finding) (database : Database) : Prop where
  spares : SparesOthers installationId start database
  review : ∀ review ∈ database.reviews.rows, review.id = reviewId →
    ownsReview start installationId review = true
  findings : ∀ finding ∈ database.findings.rows, finding.id ∈ findings.map Finding.id →
    ownsFinding start installationId finding = true

variable {start : Database} {findings : List Finding}

theorem ownsReview_change (change : ReviewChange) (review : Review) :
    ownsReview start installationId (change.change review) =
      ownsReview start installationId review := by
  simp only [ownsReview, change.repoId_eq]

theorem ownsFinding_change (change : FindingChange) (finding : Finding) :
    ownsFinding start installationId (change.change finding) =
      ownsFinding start installationId finding := by
  simp only [ownsFinding, change.reviewId_eq]

theorem Underway.changeReview
    (underway : Underway installationId start reviewId findings database)
    (change : ReviewChange) :
    Underway installationId start reviewId findings
      (Publisher.changeReview database reviewId change) where
  spares := by
    refine ⟨underway.spares.repos, ?_⟩
    rw [← underway.spares.rows]
    refine Prod.ext ?_ rfl
    refine Table.filter_update_of_not _ _ _ change.id_eq (fun review => ?_) fun review listed same => ?_
    · rw [ownsReview_change]
    · rw [underway.review review listed same]
      rfl
  review := by
    refine Table.forall_mem_update _ _ _ change.id_eq (fun review owned same => ?_) underway.review
    rw [ownsReview_change]
    exact owned ((change.id_eq review).symm.trans same)
  findings := underway.findings

theorem Underway.changeFinding
    (underway : Underway installationId start reviewId findings database)
    {finding : Finding} (listed : finding ∈ findings) (change : FindingChange) :
    Underway installationId start reviewId findings
      (Publisher.changeFinding database finding.id change) where
  spares := by
    refine ⟨underway.spares.repos, ?_⟩
    rw [← underway.spares.rows]
    refine Prod.ext rfl ?_
    refine Table.filter_update_of_not _ _ _ change.id_eq (fun finding => ?_) fun row stored same => ?_
    · rw [ownsFinding_change]
    · rw [underway.findings row stored (same ▸ List.mem_map_of_mem listed)]
      rfl
  review := underway.review
  findings := by
    refine Table.forall_mem_update _ _ _ change.id_eq (fun row owned same => ?_) underway.findings
    rw [ownsFinding_change]
    exact owned (change.id_eq row ▸ same)

/-- Two attempts side by side. -/
structure BothUnderway (installationId : UUID) (left right : Database) (reviewId : UUID)
    (findings : List Finding) (first second : Database) : Prop where
  onLeft : Underway installationId left reviewId findings first
  onRight : Underway installationId right reviewId findings second
  rows : tenantRows left installationId first = tenantRows right installationId second

theorem tenantRows_changeReview (change : ReviewChange) :
    tenantRows start installationId (changeReview database reviewId change) =
      ((tenantRows start installationId database).1.map fun review =>
          if review.id = reviewId then change.change review else review,
        (tenantRows start installationId database).2) :=
  Prod.ext (Table.filter_update _ _ _ change.id_eq (ownsReview_change change)) rfl

theorem tenantRows_changeFinding (findingId : UUID) (change : FindingChange) :
    tenantRows start installationId (changeFinding database findingId change) =
      ((tenantRows start installationId database).1,
        (tenantRows start installationId database).2.map fun finding =>
          if finding.id = findingId then change.change finding else finding) :=
  Prod.ext rfl (Table.filter_update _ _ _ change.id_eq (ownsFinding_change change))

variable {first second : Database}

theorem BothUnderway.changeReview
    (both : BothUnderway installationId left right reviewId findings first second)
    (change : ReviewChange) :
    BothUnderway installationId left right reviewId findings
      (Publisher.changeReview first reviewId change)
      (Publisher.changeReview second reviewId change) where
  onLeft := both.onLeft.changeReview change
  onRight := both.onRight.changeReview change
  rows := by rw [tenantRows_changeReview, tenantRows_changeReview, both.rows]

theorem BothUnderway.changeFinding
    (both : BothUnderway installationId left right reviewId findings first second)
    {finding : Finding} (listed : finding ∈ findings) (change : FindingChange) :
    BothUnderway installationId left right reviewId findings
      (Publisher.changeFinding first finding.id change)
      (Publisher.changeFinding second finding.id change) where
  onLeft := both.onLeft.changeFinding listed change
  onRight := both.onRight.changeFinding listed change
  rows := by rw [tenantRows_changeFinding, tenantRows_changeFinding, both.rows]

/-- The assignments of an attempt are such changes. -/
theorem survives_bothUnderway :
    Survives (BothUnderway installationId left right reviewId findings) reviewId findings where
  setReviewId _ _ githubReviewId both :=
    both.changeReview ⟨fun review => { review with githubReviewId := some githubReviewId },
      fun _ => rfl, fun _ => rfl⟩
  setCommentIds _ _ commentIds both :=
    both.changeReview ⟨fun review => { review with githubCommentIds := some commentIds },
      fun _ => rfl, fun _ => rfl⟩
  setCommentId _ listed _ _ commentId both :=
    both.changeFinding listed ⟨fun finding => { finding with githubCommentId := some commentId },
      fun _ => rfl, fun _ => rfl⟩
  setPublished _ listed _ _ both :=
    both.changeFinding listed ⟨fun finding => { finding with published := true },
      fun _ => rfl, fun _ => rfl⟩

/-- At the start of an attempt. -/
theorem underway_start {review : Review} {target : PublishTarget}
    (targets : Targets start reviewId installationId token review target) :
    Underway installationId start reviewId (publishableFindings start reviewId) start where
  spares := ⟨rfl, rfl⟩
  review other listed same := by
    obtain ⟨stored, isReview, owned⟩ := owns_of_targets targets
    rw [List.inj_on_of_nodup_map start.reviews.distinct listed stored (same.trans isReview.symm)]
    exact owned
  findings row listed isListed := by
    obtain ⟨stored, rfl, owned⟩ := owns_of_targets targets
    obtain ⟨finding, toPublish, same⟩ := List.mem_map.mp isListed
    obtain ⟨selected, inReview⟩ := List.mem_filter.mp (List.mem_filter.mp toPublish).1
    obtain rfl := List.inj_on_of_nodup_map start.findings.distinct selected listed same
    exact ownsFinding_of_review stored owned (of_decide_eq_true inReview)

/-! ## Two attempts for one installation -/

/-- The run of an attempt. -/
abbrev AttemptRun := Except Raised Unit × Database ×
  List (Happening Database PublisherRequest.Answer Raised)

/-- The runs of two attempts, on two databases, show no difference to the
installation and leave the rows of others alone; and where the review is not of the
installation, nothing happens at all. -/
structure Isolated (upper : String → String) (installationId reviewId : UUID)
    (left right : Database) (first second : AttemptRun) : Prop where
  requests : sentRequests upper first.2.2 = sentRequests upper second.2.2
  outcome : first.1 = second.1
  rows : tenantRows left installationId first.2.1 = tenantRows right installationId second.2.1
  sparesLeft : SparesOthers installationId left first.2.1
  sparesRight : SparesOthers installationId right second.2.1
  unknown : (∀ review ∈ (tenantRows left installationId left).1, review.id ≠ reviewId) →
    first = (.error (.valueError ("Review " ++ reviewId.str ++ " not found")), left, []) ∧
      second = (.error (.valueError ("Review " ++ reviewId.str ++ " not found")), right, [])

/-- A review that is not of the installation is not found. -/
theorem loading_of_unknown
    (unknown : ∀ review ∈ (tenantRows database installationId database).1, review.id ≠ reviewId) :
    loading database reviewId installationId token =
      .error (.valueError ("Review " ++ reviewId.str ++ " not found")) := by
  have nothing : selectReviews database reviewId installationId = [] := by
    rw [selectReviews_eq]
    refine List.filter_eq_nil_iff.mpr fun review listed => ?_
    simpa using unknown review listed
  simp [loading, nothing, scalarOneOrNone]

/-- **Tenant boundaries.** Two attempts for one installation, on databases that have
the same rows of it, cannot be told apart: not on the wire, not by how they end, not
by the rows of the installation they leave. No other row is changed. -/
theorem publishReview_isolated (upper : String → String)
    (same : SameTenant installationId left right) (reviewId : UUID) (token : String)
    {Server : Type} (wire : WireServer Server) (server : Server) :
    Isolated upper installationId reviewId left right
      (attemptRun (wire.respond upper) reviewId installationId token left server)
      (attemptRun (wire.respond upper) reviewId installationId token right server) := by
  cases loaded : loading left reviewId installationId token with
  | error raised =>
      have loaded' := same.loading.symm.trans loaded
      rw [attemptRun_of_loading_error loaded, attemptRun_of_loading_error loaded']
      refine ⟨rfl, rfl, same.rows, ⟨rfl, rfl⟩, ⟨rfl, rfl⟩, fun unknown => ?_⟩
      obtain rfl := Except.error.inj (loaded.symm.trans (loading_of_unknown unknown))
      exact ⟨rfl, rfl⟩
  | ok loading =>
      obtain ⟨review, target⟩ := loading
      have targets := loading_eq_ok_iff.mp loaded
      have targets' := loading_eq_ok_iff.mp (same.loading.symm.trans loaded)
      have sameFindings := same.findings loaded
      have start : BothUnderway installationId left right reviewId
          (publishableFindings left reviewId) left right :=
        ⟨underway_start targets, sameFindings ▸ underway_start targets', same.rows⟩
      have alike : LoadsAlike upper (BothUnderway installationId left right reviewId
          (publishableFindings left reviewId)) reviewId installationId token left right := by
        refine ⟨start, same.loading, fun other target loaded => ?_⟩
        obtain ⟨-, rfl, -⟩ := owns_of_targets (loading_eq_ok_iff.mp loaded)
        refine ⟨survives_bothUnderway, ?_⟩
        rw [sameFindings]
        exact List.forall₂_same.mpr fun _ _ => ⟨rfl, rfl, rfl, rfl, rfl⟩
      obtain ⟨requests, outcome, both⟩ := attempts_alike alike wire server
      refine ⟨requests, outcome, both.rows, both.onLeft.spares, both.onRight.spares, ?_⟩
      intro unknown
      cases (loading_of_unknown unknown).symm.trans loaded

/-- A review of one installation next to a review of another. -/
def withNeighbour (prNumber : Int) (githubReviewId : Option Int) : Database where
  repos := ⟨[⟨idEndingIn 1, idEndingIn 0, "octo/repo"⟩, ⟨idEndingIn 4, idEndingIn 9, "other/repo"⟩],
    by decide⟩
  reviews := ⟨[{ id := idEndingIn 2, repoId := idEndingIn 1, prNumber := 7, headSha := "abc" },
      { id := idEndingIn 5, repoId := idEndingIn 4, prNumber, headSha := "def", githubReviewId }],
    (by decide : [idEndingIn 2, idEndingIn 5].Nodup)⟩
  findings := ⟨[], by simp⟩

theorem withNeighbour_sameTenant (prNumber other : Int) (githubReviewId changed : Option Int) :
    SameTenant (idEndingIn 0) (withNeighbour prNumber githubReviewId)
      (withNeighbour other changed) := ⟨rfl, rfl⟩

/-- The review of the neighbour does not matter. -/
theorem withNeighbour_isolated :
    let script := [pullAtHead, .ok ⟨201, fun _ => none, some (.object [("id", .integer 10)])⟩]
    Isolated String.toUpper (idEndingIn 0) (idEndingIn 2) (withNeighbour 1 none)
      (withNeighbour 2 (some 3))
      (attemptRun (scriptedWire.respond String.toUpper) (idEndingIn 2) (idEndingIn 0) "token"
        (withNeighbour 1 none) script)
      (attemptRun (scriptedWire.respond String.toUpper) (idEndingIn 2) (idEndingIn 0) "token"
        (withNeighbour 2 (some 3)) script) :=
  publishReview_isolated String.toUpper (withNeighbour_sameTenant _ _ _ _) (idEndingIn 2) "token"
    scriptedWire _

end Publisher

end Kenjutsu.Pipeline
