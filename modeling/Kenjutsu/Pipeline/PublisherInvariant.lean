import Kenjutsu.Pipeline.PublisherGitHub

/-!
# What an attempt to publish preserves

The publisher keeps the id of a comment twice, in the row of its finding and in
the map of the review row. An entry of the map is the id stored with the finding,
but a stored id need not have an entry; the loop over the findings goes through
with either. Three facts carry the proofs about runs.

* The stored ids track what is live on GitHub, wherever an attempt fails.
* An attempt that returns leaves every publishable finding published, with a live
  comment; the map has an entry for it if it had one when the loop started, or if
  the comment was created in the loop.
* When everything is live, an attempt sends no POST.
-/

set_option autoImplicit false

namespace Kenjutsu.Pipeline

open Foundations Foundations.Coroutine Kenjutsu.Http Kenjutsu.Db

namespace Publisher

variable {reviewId : UUID} {database : Database} {github later : GitHub}
  {commentIdMap : Dict String Int} {finding : Finding} {findings : List Finding}

/-! ## The invariant -/

/-- Every entry of the map is the comment id stored with its finding. -/
def Mapped (reviewId : UUID) (database : Database) (commentIdMap : Dict String Int) : Prop :=
  ∀ findingId commentId, commentIdMap.get findingId.str = some commentId →
    database.storedCommentId reviewId findingId = some commentId

/-- The stored ids track what is live on GitHub. -/
structure Recorded (reviewId : UUID) (database : Database) (github : GitHub) : Prop where
  review : Posting.Tracks (fun _ : Unit => database.storedReviewId reviewId) github.reviews
  comments : Posting.Tracks (database.storedCommentId reviewId) github.comments
  mapped : Mapped reviewId database (database.storedCommentIds reviewId)

/-- The findings an attempt has still to publish, as they are in the database. -/
structure Loaded (reviewId : UUID) (database : Database) (findings : List Finding) : Prop where
  distinct : (findings.map Finding.id).Nodup
  rows : ∀ finding ∈ findings, ∃ row, database.findings.find finding.id = some row ∧
    row.reviewId = reviewId ∧ row.githubCommentId = finding.githubCommentId

theorem Loaded.stored (loaded : Loaded reviewId database findings) (member : finding ∈ findings) :
    database.storedCommentId reviewId finding.id = finding.githubCommentId := by
  obtain ⟨row, found, inReview, same⟩ := loaded.rows finding member
  simp [Database.storedCommentId, found, inReview, same]

theorem Loaded.ne_of_mem {other : Finding} (loaded : Loaded reviewId database (finding :: findings))
    (member : other ∈ findings) : other.id ≠ finding.id := by
  intro same
  apply (List.nodup_cons.mp loaded.distinct).1
  rw [← same]
  exact List.mem_map_of_mem member

/-- The publishable findings of a review, as a query returns them. -/
theorem loaded_publishableFindings (database : Database) (reviewId : UUID) :
    Loaded reviewId database (publishableFindings database reviewId) where
  distinct := by
    refine List.Nodup.sublist ?_ database.findings.distinct
    exact (List.filter_sublist.trans List.filter_sublist).map _
  rows finding member := by
    have selected := List.mem_filter.mp (List.mem_filter.mp member).1
    exact ⟨finding, (Table.find_eq_some_iff ..).mpr ⟨selected.1, rfl⟩,
      of_decide_eq_true selected.2, rfl⟩

/-- Inside the loop over the findings. -/
structure InLoop (reviewId : UUID) (database : Database) (github : GitHub)
    (commentIdMap : Dict String Int) (findings : List Finding) : Prop where
  recorded : Recorded reviewId database github
  mapped : Mapped reviewId database commentIdMap
  loaded : Loaded reviewId database findings
  present : (database.reviews.find reviewId).isSome

/-- The comment an attempt tries to update is the one stored with the finding. -/
theorem InLoop.existing (inLoop : InLoop reviewId database github commentIdMap findings)
    (member : finding ∈ findings) :
    existingCommentId commentIdMap finding = finding.githubCommentId := by
  unfold existingCommentId
  cases entry : commentIdMap.get finding.id.str with
  | none => rfl
  | some commentId =>
      have stored := inLoop.mapped finding.id commentId entry
      rw [inLoop.loaded.stored member] at stored
      rw [stored]
      exact ite_self _

/-! ## What the assignments keep -/

theorem storedCommentId_setPublished (findingId sought : UUID) :
    (database.setPublished findingId).storedCommentId reviewId sought =
      database.storedCommentId reviewId sought := by
  unfold Database.storedCommentId
  rw [Database.find_setPublished]
  by_cases same : sought = findingId
  · subst same
    cases database.findings.find sought <;> simp
  · rw [if_neg same]

theorem storedCommentId_recordComment {row : Finding} {findingId : UUID} (sought : UUID)
    (commentId : Int) (commentIds : Dict String Int)
    (found : database.findings.find findingId = some row) (inReview : row.reviewId = reviewId) :
    (database.recordComment reviewId findingId commentId commentIds).storedCommentId reviewId
        sought =
      if sought = findingId then some commentId else database.storedCommentId reviewId sought := by
  unfold Database.storedCommentId
  rw [Database.find_recordComment]
  by_cases same : sought = findingId
  · simp [same, found, inReview]
  · simp [same]

theorem storedReviewId_setCommentIds (commentIds : Dict String Int) :
    (database.setCommentIds reviewId commentIds).storedReviewId reviewId =
      database.storedReviewId reviewId := by
  unfold Database.storedReviewId
  rw [Database.find_setCommentIds, if_pos rfl]
  cases database.reviews.find reviewId <;> rfl

theorem storedCommentIds_setCommentIds (commentIds : Dict String Int)
    (present : (database.reviews.find reviewId).isSome) :
    (database.setCommentIds reviewId commentIds).storedCommentIds reviewId = commentIds := by
  obtain ⟨review, found⟩ := Option.isSome_iff_exists.mp present
  simp [Database.storedCommentIds, found]

theorem storedReviewId_setReviewId (githubReviewId : Int)
    (present : (database.reviews.find reviewId).isSome) :
    (database.setReviewId reviewId githubReviewId).storedReviewId reviewId =
      some githubReviewId := by
  obtain ⟨review, found⟩ := Option.isSome_iff_exists.mp present
  simp [Database.storedReviewId, found]

theorem storedCommentIds_setReviewId (githubReviewId : Int) :
    (database.setReviewId reviewId githubReviewId).storedCommentIds reviewId =
      database.storedCommentIds reviewId := by
  unfold Database.storedCommentIds
  rw [Database.find_setReviewId, if_pos rfl]
  cases database.reviews.find reviewId <;> rfl

/-! ## What the loop keeps -/

theorem Recorded.quiet (recorded : Recorded reviewId database github)
    (same : github.SameObjects later) : Recorded reviewId database later where
  review := same.1 ▸ recorded.review
  comments := same.2 ▸ recorded.comments
  mapped := recorded.mapped

/-- The next finding has been updated. -/
theorem InLoop.updates (inLoop : InLoop reviewId database github commentIdMap (finding :: findings))
    (same : github.SameObjects later) :
    InLoop reviewId (database.setPublished finding.id) later commentIdMap findings where
  recorded :=
    { review := same.1 ▸ inLoop.recorded.review
      comments := same.2 ▸ inLoop.recorded.comments.congr fun _ => storedCommentId_setPublished ..
      mapped := fun findingId commentId entry =>
        (storedCommentId_setPublished ..).trans (inLoop.recorded.mapped findingId commentId entry) }
  mapped findingId commentId entry :=
    (storedCommentId_setPublished ..).trans (inLoop.mapped findingId commentId entry)
  loaded :=
    { distinct := (List.nodup_cons.mp inLoop.loaded.distinct).2
      rows := by
        intro other member
        obtain ⟨row, found, inReview, comment⟩ :=
          inLoop.loaded.rows other (List.mem_cons_of_mem _ member)
        by_cases same : other.id = finding.id
        · rw [same] at found
          exact ⟨{ row with published := true }, by simp [same, found], inReview, comment⟩
        · exact ⟨row, by simp [same, found], inReview, comment⟩ }
  present := inLoop.present

/-- A comment has been created for the next finding. -/
theorem InLoop.creates (inLoop : InLoop reviewId database github commentIdMap (finding :: findings))
    {id : Int}
    (gone : ∀ old, finding.githubCommentId = some old → Posting.isLive github.comments old = false)
    (fresh : Posting.isFresh github.comments id) (reviews : later.reviews = github.reviews)
    (comments : later.comments = Posting.post github.comments finding.id id) :
    InLoop reviewId
      (database.recordComment reviewId finding.id id (commentIdMap.set finding.id.str id)) later
      (commentIdMap.set finding.id.str id) findings := by
  obtain ⟨row, found, inReview, -⟩ := inLoop.loaded.rows finding List.mem_cons_self
  have stored := inLoop.loaded.stored (List.mem_cons_self (a := finding) (l := findings))
  have storedNow : ∀ sought, (database.recordComment reviewId finding.id id
      (commentIdMap.set finding.id.str id)).storedCommentId reviewId sought =
        if sought = finding.id then some id else database.storedCommentId reviewId sought :=
    fun sought => storedCommentId_recordComment sought id _ found inReview
  have mappedNow : Mapped reviewId (database.recordComment reviewId finding.id id
      (commentIdMap.set finding.id.str id)) (commentIdMap.set finding.id.str id) := by
    intro findingId commentId entry
    rw [storedNow]
    rw [Dict.get_set] at entry
    by_cases same : findingId = finding.id
    · rw [if_pos (congrArg UUID.str same)] at entry
      rw [if_pos same]
      exact entry
    · rw [if_neg fun equal => same (UUID.str_injective equal)] at entry
      rw [if_neg same]
      exact inLoop.mapped findingId commentId entry
  refine ⟨⟨?_, ?_, ?_⟩, mappedNow, ⟨(List.nodup_cons.mp inLoop.loaded.distinct).2, ?_⟩, ?_⟩
  · rw [reviews]
    exact inLoop.recorded.review.congr fun _ => storedReviewId_setCommentIds _
  · rw [comments]
    refine inLoop.recorded.comments.post fresh ?_ ((storedNow finding.id).trans (if_pos rfl)) ?_
    · intro old kept
      exact gone old (stored.symm.trans kept)
    · intro other differs
      exact (storedNow other).trans (if_neg differs)
  · rw [show (database.recordComment reviewId finding.id id _).storedCommentIds reviewId = _ from
      storedCommentIds_setCommentIds _ inLoop.present]
    exact mappedNow
  · intro other member
    rw [Database.find_recordComment, if_neg (inLoop.loaded.ne_of_mem member)]
    exact inLoop.loaded.rows other (List.mem_cons_of_mem _ member)
  · rw [Database.reviews_recordComment, Database.find_setCommentIds, if_pos rfl, Option.isSome_map]
    exact inLoop.present

/-! ## What the loop achieves -/

/-- The comment stored with the finding is live. -/
def hasLiveComment (github : GitHub) (finding : Finding) : Bool :=
  finding.githubCommentId.any (Posting.isLive github.comments)

theorem hasLiveComment_iff :
    hasLiveComment github finding ↔
      ∃ id, finding.githubCommentId = some id ∧ Posting.isLive github.comments id := by
  cases stored : finding.githubCommentId <;> simp [hasLiveComment, stored]

/-- A change of one finding that keeps it selected keeps the publishable findings
in their order. -/
theorem publishableFindings_update (target : UUID) (change : Finding → Finding)
    (keeps : ∀ finding, (change finding).id = finding.id)
    (selected : ∀ finding, (change finding).reviewId = finding.reviewId)
    (publishable : ∀ finding, isPublishable (change finding) = isPublishable finding) :
    publishableFindings
        { database with findings := database.findings.update target change keeps } reviewId =
      (publishableFindings database reviewId).map fun finding =>
        if finding.id = target then change finding else finding := by
  unfold publishableFindings selectFindings Table.update
  rw [List.filter_map, List.filter_map]
  congr 1
  · rw [List.filter_filter, List.filter_filter]
    refine List.filter_congr fun finding _ => ?_
    simp only [Function.comp_apply]
    split <;> simp [selected, publishable]

theorem publishableFindings_setPublished (findingId : UUID) :
    publishableFindings (database.setPublished findingId) reviewId =
      (publishableFindings database reviewId).map fun finding =>
        if finding.id = findingId then { finding with published := true } else finding :=
  publishableFindings_update findingId (fun finding => { finding with published := true })
    (fun _ => rfl) (fun _ => rfl) (fun _ => rfl)

theorem publishableFindings_recordComment (findingId : UUID) (commentId : Int)
    (commentIds : Dict String Int) :
    publishableFindings (database.recordComment reviewId findingId commentId commentIds) reviewId =
      (publishableFindings database reviewId).map fun finding =>
        if finding.id = findingId then
          { finding with githubCommentId := some commentId, published := true }
        else finding := by
  calc publishableFindings (database.recordComment reviewId findingId commentId commentIds) reviewId
      = publishableFindings ((database.setCommentId findingId commentId).setPublished findingId)
          reviewId := rfl
    _ = ((publishableFindings database reviewId).map fun finding =>
            if finding.id = findingId then { finding with githubCommentId := some commentId }
            else finding).map fun finding =>
          if finding.id = findingId then { finding with published := true } else finding := by
        rw [publishableFindings_setPublished]
        exact congrArg _ (publishableFindings_update findingId
          (fun finding => { finding with githubCommentId := some commentId })
          (fun _ => rfl) (fun _ => rfl) (fun _ => rfl))
    _ = _ := by
        rw [List.map_map]
        refine List.map_congr_left fun finding _ => ?_
        by_cases same : finding.id = findingId <;> simp [same]

/-- What the loop has achieved, with `findings` still to publish: whatever is not
among them is published with a live comment. The map is going to end with entries
for the findings that `endsMapped` names. -/
structure Progress (reviewId : UUID) (ids : List UUID) (endsMapped : UUID → Prop)
    (database : Database) (github : GitHub) (commentIdMap : Dict String Int)
    (findings : List Finding) : Prop where
  inLoop : InLoop reviewId database github commentIdMap findings
  ids : (publishableFindings database reviewId).map Finding.id = ids
  review : ∃ id, database.storedReviewId reviewId = some id ∧ Posting.isLive github.reviews id
  waiting : ∀ finding ∈ findings, endsMapped finding.id ↔
    (commentIdMap.get finding.id.str).isSome ∨ ¬ hasLiveComment github finding
  done : ∀ finding ∈ publishableFindings database reviewId,
    finding.id ∉ findings.map Finding.id →
      finding.published ∧ hasLiveComment github finding ∧
        (endsMapped finding.id ↔ (commentIdMap.get finding.id.str).isSome)

variable {ids : List UUID} {endsMapped : UUID → Prop}

/-- A publishable finding has the comment id that the loop knows. -/
theorem comment_of_publishable {known : Finding} (loaded : Loaded reviewId database findings)
    (waiting : known ∈ findings) (member : finding ∈ publishableFindings database reviewId)
    (same : finding.id = known.id) : finding.githubCommentId = known.githubCommentId := by
  rw [← loaded.stored waiting, ← same,
    (loaded_publishableFindings database reviewId).stored member]

/-- Updating the next finding makes progress. -/
theorem Progress.updates
    (progress : Progress reviewId ids endsMapped database github commentIdMap
      (finding :: findings))
    (live : hasLiveComment github finding) (same : github.SameObjects later) :
    Progress reviewId ids endsMapped (database.setPublished finding.id) later commentIdMap
      findings where
  inLoop := progress.inLoop.updates same
  ids := by
    rw [← progress.ids, publishableFindings_setPublished]
    exact Table.map_key_update _ finding.id fun _ => rfl
  review := by
    obtain ⟨id, stored, reviewLive⟩ := progress.review
    exact ⟨id, stored, by rwa [same.1]⟩
  waiting other member := by
    unfold hasLiveComment
    rw [same.2]
    exact progress.waiting other (List.mem_cons_of_mem _ member)
  done := by
    rw [publishableFindings_setPublished]
    intro _ member notWaiting
    obtain ⟨old, oldMember, rfl⟩ := List.mem_map.mp member
    unfold hasLiveComment
    rw [same.2]
    by_cases head : old.id = finding.id
    · simp only [if_pos head]
      have comment :=
        comment_of_publishable progress.inLoop.loaded List.mem_cons_self oldMember head
      have ends := progress.waiting finding List.mem_cons_self
      rw [comment, head]
      exact ⟨trivial, live, ends.trans (or_iff_left (not_not.mpr live))⟩
    · simp only [if_neg head] at notWaiting ⊢
      exact progress.done old oldMember (by simpa [head] using notWaiting)

/-- Creating a comment for the next finding makes progress. -/
theorem Progress.creates
    (progress : Progress reviewId ids endsMapped database github commentIdMap
      (finding :: findings))
    {id : Int} (gone : hasLiveComment github finding = false)
    (fresh : Posting.isFresh github.comments id) (reviews : later.reviews = github.reviews)
    (comments : later.comments = Posting.post github.comments finding.id id) :
    Progress reviewId ids endsMapped
      (database.recordComment reviewId finding.id id (commentIdMap.set finding.id.str id)) later
      (commentIdMap.set finding.id.str id) findings where
  inLoop := by
    refine progress.inLoop.creates ?_ fresh reviews comments
    intro old stored
    simpa [hasLiveComment, stored] using gone
  ids := by
    rw [← progress.ids, publishableFindings_recordComment]
    exact Table.map_key_update _ finding.id fun _ => rfl
  review := by
    obtain ⟨stored, isStored, reviewLive⟩ := progress.review
    exact ⟨stored, (storedReviewId_setCommentIds _).trans isStored, by rwa [reviews]⟩
  waiting other member := by
    have differs := progress.inLoop.loaded.ne_of_mem member
    have waiting := List.mem_cons_of_mem finding member
    have sameLive : hasLiveComment later other = hasLiveComment github other := by
      unfold hasLiveComment
      rw [comments]
      cases stored : other.githubCommentId with
      | none => rfl
      | some old =>
          have isKept := (progress.inLoop.loaded.stored waiting).trans stored
          simp [Posting.isLive_post,
            progress.inLoop.recorded.comments.ne_of_fresh isKept fresh]
    rw [Dict.get_set, if_neg fun same => differs (UUID.str_injective same), sameLive]
    exact progress.waiting other waiting
  done := by
    rw [publishableFindings_recordComment]
    intro _ member notWaiting
    obtain ⟨old, oldMember, rfl⟩ := List.mem_map.mp member
    by_cases head : old.id = finding.id
    · have ends : endsMapped finding.id :=
        (progress.waiting finding List.mem_cons_self).mpr (.inr (by simp [gone]))
      simp [head, hasLiveComment, comments, Posting.isLive_post, Dict.get_set, ends]
    · simp only [if_neg head] at notWaiting ⊢
      obtain ⟨published, live, ends⟩ :=
        progress.done old oldMember (by simpa [head] using notWaiting)
      refine ⟨published, ?_, ?_⟩
      · obtain ⟨stored, isStored, commentLive⟩ := hasLiveComment_iff.mp live
        exact hasLiveComment_iff.mpr ⟨stored, isStored, by
          rw [comments, Posting.isLive_post, commentLive, Bool.true_or]⟩
      · rw [Dict.get_set, if_neg fun same => head (UUID.str_injective same)]
        exact ends

/-- The loop makes progress to its end, or raises and keeps the invariant. -/
theorem publishFindings_progress {target : PublishTarget}
    (progress : Progress reviewId ids endsMapped database github commentIdMap findings) :
    (publishFindings target reviewId commentIdMap findings).Ensures attemptProtocol
      (onOutcome (fun commentIdMap database github =>
          Progress reviewId ids endsMapped database github commentIdMap [])
        fun _ database github => Recorded reviewId database github)
      database github := by
  induction findings generalizing database github commentIdMap with
  | nil => exact progress
  | cons finding findings ih =>
      have existing : existingCommentId commentIdMap finding = finding.githubCommentId :=
        progress.inLoop.existing List.mem_cons_self
      rw [publishFindings, ensures_bind]
      refine publishFinding_ensures ?_ ?_ ?_
      · intro raised later same _
        exact progress.inLoop.recorded.quiet same
      · intro id later stored live quiet
        rw [existing] at stored
        exact ih (progress.updates (hasLiveComment_iff.mpr ⟨id, stored, live⟩) quiet.1)
      · intro id later gone fresh reviews comments
        rw [existing] at gone
        refine ih (progress.creates (Bool.eq_false_iff.mpr fun live => ?_) fresh reviews comments)
        obtain ⟨old, stored, isLive⟩ := hasLiveComment_iff.mp live
        rw [gone old stored] at isLive
        cases isLive

/-! ## The start of the loop -/

/-- The loop starts: the stored review is live. -/
theorem Recorded.startsLoop (recorded : Recorded reviewId database github)
    (present : (database.reviews.find reviewId).isSome) (same : github.SameObjects later) :
    InLoop reviewId database later (database.storedCommentIds reviewId)
      (publishableFindings database reviewId) where
  recorded := recorded.quiet same
  mapped := recorded.mapped
  loaded := loaded_publishableFindings database reviewId
  present := present

/-- The loop starts: a review has been created. -/
theorem Recorded.startsLoop_created (recorded : Recorded reviewId database github)
    (present : (database.reviews.find reviewId).isSome) {id : Int}
    (gone : ∀ old, database.storedReviewId reviewId = some old →
      Posting.isLive github.reviews old = false)
    (fresh : Posting.isFresh github.reviews id)
    (reviews : later.reviews = Posting.post github.reviews () id)
    (comments : later.comments = github.comments)
    (mapped : Mapped reviewId database commentIdMap) :
    InLoop reviewId (database.setReviewId reviewId id) later commentIdMap
      (publishableFindings database reviewId) where
  recorded :=
    { review := by
        rw [reviews]
        apply recorded.review.post fresh gone (storedReviewId_setReviewId id present)
        exact fun other differs => absurd rfl differs
      comments := comments ▸ recorded.comments
      mapped := by
        rw [storedCommentIds_setReviewId]
        exact recorded.mapped }
  mapped := mapped
  loaded :=
    { distinct := (loaded_publishableFindings database reviewId).distinct
      rows := (loaded_publishableFindings database reviewId).rows }
  present := by
    rw [Database.find_setReviewId, if_pos rfl, Option.isSome_map]
    exact present

/-- The row the publisher loaded is what is stored for the review. -/
theorem stored_of_find {review : Review} (found : database.reviews.find reviewId = some review) :
    review.id = reviewId ∧ database.storedReviewId reviewId = review.githubReviewId ∧
      database.storedCommentIds reviewId = review.githubCommentIds.getD ∅ := by
  refine ⟨((Table.find_eq_some_iff ..).mp found).2, ?_, ?_⟩
  · simp [Database.storedReviewId, found]
  · simp [Database.storedCommentIds, found]

theorem mapped_empty : Mapped reviewId database ∅ := by
  intro findingId commentId entry
  simp at entry

/-- What ensuring the review leaves: the loop is entered, findings and comments are
as before, and the map has the stored entries unless the stored review was gone. -/
structure Entered (reviewId : UUID) (database : Database) (github : GitHub)
    (commentIdMap : Dict String Int) (middle : Database) (later : GitHub) : Prop where
  inLoop : InLoop reviewId middle later commentIdMap (publishableFindings database reviewId)
  findings : middle.findings = database.findings
  comments : later.comments = github.comments
  review : ∃ id, middle.storedReviewId reviewId = some id ∧ Posting.isLive later.reviews id
  entries : ∀ key, (commentIdMap.get key).isSome ↔
    (∀ old, database.storedReviewId reviewId = some old → Posting.isLive github.reviews old) ∧
      ((database.storedCommentIds reviewId).get key).isSome

/-- Ensuring the review enters the loop, or raises and keeps the invariant. -/
theorem ensureReview_enters {target : PublishTarget} {review : Review}
    (recorded : Recorded reviewId database github)
    (found : database.reviews.find reviewId = some review) :
    (ensureReview target reviewId review.githubReviewId
        (review.githubCommentIds.getD ∅)).Ensures attemptProtocol
      (onOutcome (fun commentIdMap middle later =>
          Entered reviewId database github commentIdMap middle later)
        fun _ database github => Recorded reviewId database github)
      database github := by
  obtain ⟨-, storedReview, storedMap⟩ := stored_of_find found
  have present : (database.reviews.find reviewId).isSome := by simp [found]
  rw [← storedReview, ← storedMap]
  refine ensureReview_ensures ?_ ?_ ?_
  · intro raised later same _
    exact recorded.quiet same
  · intro id later stored live quiet
    have stillThere : ∀ old, database.storedReviewId reviewId = some old →
        Posting.isLive github.reviews old := by
      intro old isStored
      rw [stored] at isStored
      exact Option.some.inj isStored ▸ live
    exact
      { inLoop := recorded.startsLoop present quiet.1
        findings := rfl
        comments := quiet.1.2
        review := ⟨id, stored, by rwa [quiet.1.1]⟩
        entries := fun key => (and_iff_right stillThere).symm }
  · intro id later gone fresh reviews comments
    have created : ∃ new, (database.setReviewId reviewId id).storedReviewId reviewId = some new ∧
        Posting.isLive later.reviews new :=
      ⟨id, storedReviewId_setReviewId id present, by simp [reviews, Posting.isLive_post]⟩
    cases stored : database.storedReviewId reviewId with
    | none =>
        rw [stored] at gone
        refine ⟨recorded.startsLoop_created present ?_ fresh reviews comments recorded.mapped, rfl,
          comments, created, fun key => ?_⟩
        · rwa [stored]
        · exact (and_iff_right (by simp [stored])).symm
    | some old =>
        rw [stored] at gone
        refine ⟨recorded.startsLoop_created present ?_ fresh reviews comments mapped_empty, rfl,
          comments, created, fun key => ?_⟩
        · rwa [stored]
        · have isGone := gone old rfl
          refine ⟨fun entry => by simp at entry, fun both => ?_⟩
          rw [both.1 old stored] at isGone
          cases isGone

/-- The map of an attempt that starts here is going to end with an entry for the
finding: the entry survives ensuring the review, or the comment is created. -/
def EndsMapped (reviewId : UUID) (database : Database) (github : GitHub) (findingId : UUID) :
    Prop :=
  ((∀ old, database.storedReviewId reviewId = some old → Posting.isLive github.reviews old) ∧
      ((database.storedCommentIds reviewId).get findingId.str).isSome) ∨
    ¬ (database.storedCommentId reviewId findingId).any (Posting.isLive github.comments)

theorem endsMapped_congr (same : github.SameObjects later) (findingId : UUID) :
    EndsMapped reviewId database later findingId ↔
      EndsMapped reviewId database github findingId := by
  unfold EndsMapped
  rw [same.1, same.2]

/-- At the start of the loop, everything is still to publish. -/
theorem Entered.progress {middle : Database}
    (entered : Entered reviewId database github commentIdMap middle later) :
    Progress reviewId ((publishableFindings database reviewId).map Finding.id)
      (EndsMapped reviewId database github) middle later commentIdMap
      (publishableFindings database reviewId) where
  inLoop := entered.inLoop
  ids := by
    unfold publishableFindings selectFindings
    rw [entered.findings]
  review := entered.review
  waiting finding member := by
    unfold EndsMapped hasLiveComment
    rw [entered.entries, entered.comments,
      (loaded_publishableFindings database reviewId).stored member]
  done finding member notWaiting := by
    unfold publishableFindings selectFindings at member notWaiting
    rw [entered.findings] at member
    exact absurd (List.mem_map_of_mem member) notWaiting

/-! ## One attempt -/

/-- What an attempt that returned has achieved. -/
structure Completed (reviewId : UUID) (database : Database) (github : GitHub) (final : Database)
    (later : GitHub) : Prop where
  recorded : Recorded reviewId final later
  ids : (publishableFindings final reviewId).map Finding.id =
    (publishableFindings database reviewId).map Finding.id
  review : ∃ id, final.storedReviewId reviewId = some id ∧ Posting.isLive later.reviews id
  done : ∀ finding ∈ publishableFindings final reviewId,
    finding.published ∧ hasLiveComment later finding ∧
      (EndsMapped reviewId database github finding.id ↔
        ((final.storedCommentIds reviewId).get finding.id.str).isSome)

/-- After the loop, the final map is assigned. -/
theorem Progress.completed {start : Database} {before : GitHub}
    (progress : Progress reviewId ((publishableFindings start reviewId).map Finding.id)
      (EndsMapped reviewId start before) database github commentIdMap []) :
    Completed reviewId start before (database.setCommentIds reviewId commentIdMap) github where
  recorded :=
    { review := progress.inLoop.recorded.review.congr fun _ => storedReviewId_setCommentIds _
      comments := progress.inLoop.recorded.comments
      mapped := by
        rw [storedCommentIds_setCommentIds _ progress.inLoop.present]
        exact progress.inLoop.mapped }
  ids := progress.ids
  review := by
    rw [storedReviewId_setCommentIds]
    exact progress.review
  done finding member := by
    rw [storedCommentIds_setCommentIds _ progress.inLoop.present]
    exact progress.done finding member List.not_mem_nil

/-- **An attempt keeps the invariant** wherever it fails, and completes if it
returns. -/
theorem publishReview_completes (installationId : UUID) (token : String)
    (recorded : Recorded reviewId database github) :
    (publishReview reviewId installationId token).Ensures attemptProtocol
      (onOutcome (fun _ final later => Completed reviewId database github final later)
        fun _ database github => Recorded reviewId database github)
      database github := by
  refine publishReview_ensures ?_ ?_
  · intro raised later quiet
    exact recorded.quiet quiet.1
  · intro target review middle found quiet
    obtain ⟨rfl, -⟩ := stored_of_find found
    rw [publishLoaded, ensures_bind]
    apply (ensureReview_enters (recorded.quiet quiet.1) found).mono
    rintro (raised | commentIdMap) entered later kept
    · exact kept
    · rw [onOutcome_ok, ensures_bind]
      apply (publishFindings_progress kept.progress).mono
      rintro (raised | commentIdMap) final later progress
      · exact progress
      · have completed := progress.completed
        refine ⟨completed.recorded, completed.ids, completed.review, fun finding member => ?_⟩
        obtain ⟨published, live, entry⟩ := completed.done finding member
        exact ⟨published, live, (endsMapped_congr quiet.1 finding.id).symm.trans entry⟩

/-! ## When everything is live -/

/-- The review and a comment for each publishable finding are stored and live. -/
structure Settled (reviewId : UUID) (database : Database) (github : GitHub) : Prop where
  review : ∃ id, database.storedReviewId reviewId = some id ∧ Posting.isLive github.reviews id
  comments : ∀ finding ∈ publishableFindings database reviewId, hasLiveComment github finding

theorem Completed.settled {final : Database}
    (completed : Completed reviewId database github final later) :
    Settled reviewId final later where
  review := completed.review
  comments finding member := (completed.done finding member).2.1

theorem Settled.quiet (settled : Settled reviewId database github)
    (same : github.SameObjects later) : Settled reviewId database later where
  review := by
    rw [same.1]
    exact settled.review
  comments finding member := by
    unfold hasLiveComment
    rw [same.2]
    exact settled.comments finding member

theorem Settled.setPublished (settled : Settled reviewId database github) (findingId : UUID) :
    Settled reviewId (database.setPublished findingId) github where
  review := settled.review
  comments := by
    rw [publishableFindings_setPublished]
    intro _ member
    obtain ⟨finding, listed, rfl⟩ := List.mem_map.mp member
    have live := settled.comments finding listed
    split <;> exact live

theorem Settled.setCommentIds (settled : Settled reviewId database github)
    (commentIds : Dict String Int) :
    Settled reviewId (database.setCommentIds reviewId commentIds) github where
  review := by
    rw [storedReviewId_setCommentIds]
    exact settled.review
  comments := settled.comments

/-- The loop posts nothing when every comment is live. -/
theorem publishFindings_settled {target : PublishTarget}
    (inLoop : InLoop reviewId database github commentIdMap findings)
    (settled : Settled reviewId database github)
    (live : ∀ finding ∈ findings, hasLiveComment github finding) :
    (publishFindings target reviewId commentIdMap findings).Ensures attemptProtocol
      (fun _ final later => github.Quiet later ∧ Settled reviewId final later)
      database github := by
  induction findings generalizing database github with
  | nil => exact ⟨⟨⟨rfl, rfl⟩, rfl⟩, settled⟩
  | cons finding findings ih =>
      have existing : existingCommentId commentIdMap finding = finding.githubCommentId :=
        inLoop.existing List.mem_cons_self
      obtain ⟨old, stored, oldLive⟩ := hasLiveComment_iff.mp (live finding List.mem_cons_self)
      rw [publishFindings, ensures_bind]
      refine publishFinding_ensures ?_ ?_ ?_
      · intro raised later _ quiet
        have unchanged := quiet old (existing.trans stored) oldLive
        exact ⟨unchanged, settled.quiet unchanged.1⟩
      · intro id later _ _ quiet
        refine (ih (inLoop.updates quiet.1) ((settled.setPublished _).quiet quiet.1) ?_).mono ?_
        · intro other member
          unfold hasLiveComment
          rw [quiet.1.2]
          exact live other (List.mem_cons_of_mem _ member)
        · rintro outcome final last ⟨rest, settled⟩
          exact ⟨quiet.trans rest, settled⟩
      · intro id later gone
        rw [gone old (existing.trans stored)] at oldLive
        cases oldLive

/-- **An attempt posts nothing when everything is live**, and leaves everything
live. -/
theorem publishReview_settled (installationId : UUID) (token : String)
    (recorded : Recorded reviewId database github) (settled : Settled reviewId database github) :
    (publishReview reviewId installationId token).Ensures attemptProtocol
      (fun _ final later => github.Quiet later ∧ Settled reviewId final later)
      database github := by
  refine publishReview_ensures ?_ ?_
  · intro raised later quiet
    exact ⟨quiet, settled.quiet quiet.1⟩
  · intro target review middle found quiet
    obtain ⟨rfl, storedReview, storedMap⟩ := stored_of_find found
    obtain ⟨old, stored, oldLive⟩ := settled.review
    have present : (database.reviews.find review.id).isSome := by simp [found]
    rw [publishLoaded, ensures_bind, ← storedReview, ← storedMap]
    refine ensureReview_ensures ?_ ?_ ?_
    · intro raised later _ unchanged
      have rest := unchanged old stored (by rwa [quiet.1.1])
      exact ⟨quiet.trans rest, settled.quiet (quiet.trans rest).1⟩
    · intro id later _ _ rest
      have both := quiet.trans rest
      rw [onOutcome_ok, ensures_bind]
      refine (publishFindings_settled (recorded.startsLoop present both.1)
        (settled.quiet both.1) ?_).mono ?_
      · exact (settled.quiet both.1).comments
      · rintro (raised | commentIdMap) final last ⟨loop, kept⟩
        · exact ⟨both.trans loop, kept⟩
        · exact ⟨both.trans loop, kept.setCommentIds commentIdMap⟩
    · intro id later gone
      rw [← quiet.1.1, gone old stored] at oldLive
      cases oldLive

end Publisher

end Kenjutsu.Pipeline
