import Kenjutsu.Pipeline.PublisherInvariant
import Kenjutsu.Pipeline.PublisherTenants

/-!
# Recovery after the review vanished

When the stored review answers 404, `publish_review` creates a new one and empties the map of
comment ids, "so every finding gets a fresh comment below". The loop below takes an old id
from the map or from the row of the finding, and only the map was emptied: a finding with an id
in its row has that comment updated, if it is still there, and keeps its id.

GitHub answers in any way here. What is created and updated in an attempt is read off its
transcript.
-/

set_option autoImplicit false

namespace Kenjutsu.Pipeline

open Foundations Foundations.Coroutine Kenjutsu.Http Kenjutsu.Db

namespace Publisher

abbrev PublisherRecord := List (Exchange PublisherRequest.Answer Raised)

/-! ## What a transcript shows -/

/-- The comment that was created, with its finding. -/
def createdComment? : Exchange PublisherRequest.Answer Raised → Option (UUID × Int)
  | ⟨.http ⟨_, .createComment finding⟩, answer⟩ =>
      match createdId answer with
      | .ok commentId => some (finding.id, commentId)
      | .error _ => none
  | _ => none

/-- The comment that was to be updated. -/
def updatedComment? : Exchange PublisherRequest.Answer Raised → Option Int
  | ⟨.http ⟨_, .updateComment commentId _⟩, _⟩ => some commentId
  | _ => none

/-- The update of the review was answered with 404. -/
def vanishes : Exchange PublisherRequest.Answer Raised → Bool
  | ⟨.http ⟨_, .updateReview _⟩, .ok response⟩ => (response : Response).statusCode = 404
  | _ => false

/-- The comments created in an attempt, with their findings. -/
def createdComments (record : PublisherRecord) : List (UUID × Int) :=
  record.filterMap createdComment?

/-- The comments updated in an attempt. -/
def updatedComments (record : PublisherRecord) : List Int := record.filterMap updatedComment?

/-- The review vanished: its update was answered with 404. -/
def Vanished (record : PublisherRecord) : Prop := ∃ exchange ∈ record, vanishes exchange

/-- The attempt that went from one database to another rebuilt all comments. -/
structure Rebuilds (reviewId : UUID) (before : Database) (record : PublisherRecord)
    (after : Database) : Prop where
  /-- Every publishable finding received a new comment. -/
  created : ∀ finding ∈ publishableFindings before reviewId,
    ∃ commentId, (finding.id, commentId) ∈ createdComments record
  /-- No comment whose id was stored was updated. -/
  leaves : ∀ commentId ∈ updatedComments record, ∀ findingId,
    before.storedCommentId reviewId findingId ≠ some commentId ∧
      (before.storedCommentIds reviewId).get findingId.str ≠ some commentId
  /-- The map holds only new ids, -/
  mapped : ∀ key commentId, (after.storedCommentIds reviewId).get key = some commentId →
    ∃ findingId, key = findingId.str ∧ (findingId, commentId) ∈ createdComments record
  /-- and so do the rows of the findings. -/
  stored : ∀ findingId commentId, after.storedCommentId reviewId findingId = some commentId →
    (findingId, commentId) ∈ createdComments record

/-- No finding of the review has a comment id in its row. -/
def Unstored (reviewId : UUID) (database : Database) : Prop :=
  ∀ findingId, database.storedCommentId reviewId findingId = none

/-! ## Calls that are recorded -/

/-- The protocol of an attempt that GitHub may answer in any way. -/
abbrev recordProtocol :=
  @recorded Database PublisherRequest Raised PublisherRequest.Answer fun _ => True

variable {reviewId : UUID} {target : PublishTarget} {database first : Database}
  {record : PublisherRecord} {commentIdMap : Dict String Int} {finding : Finding}
  {done findings : List Finding}

theorem send_ensures_recorded {operation : GitHubOperation}
    {after : Except Raised Response → Database → PublisherRecord → Prop}
    (answered : ∀ answer : Except Raised Response, after answer database
      (record ++ [⟨.http ⟨target, operation⟩, answer⟩])) :
    (send target operation).Ensures recordProtocol after database record :=
  ensures_call_recorded.mpr fun answer _ => answered answer

theorem create_ensures_recorded {operation : GitHubOperation}
    {after : Except Raised Int → Database → PublisherRecord → Prop}
    (answered : ∀ answer : Except Raised Response, after (createdId answer) database
      (record ++ [⟨.http ⟨target, operation⟩, answer⟩])) :
    (create target operation).Ensures recordProtocol after database record := by
  rw [create_eq, ensures_continueWith]
  exact send_ensures_recorded answered

theorem update_ensures_recorded {operation : GitHubOperation}
    {after : Except Raised Bool → Database → PublisherRecord → Prop}
    (answered : ∀ answer : Except Raised Response, after (stillExists answer) database
      (record ++ [⟨.http ⟨target, operation⟩, answer⟩])) :
    (update target operation).Ensures recordProtocol after database record := by
  rw [update_eq, ensures_continueWith]
  exact send_ensures_recorded answered

theorem flush_ensures_recorded {after : Except Raised Unit → Database → PublisherRecord → Prop}
    (answered : ∀ answer : Except Raised Unit, after answer database
      (record ++ [⟨.flush, answer⟩])) : flush.Ensures recordProtocol after database record :=
  ensures_call_recorded.mpr fun answer _ => answered answer

/-- The property of an outcome that returns. -/
def onReturn {Result : Type} (returned : Result → Database → PublisherRecord → Prop) :
    Except Raised Result → Database → PublisherRecord → Prop :=
  onOutcome returned fun _ _ _ => True

/-- What a stage has recorded before it creates an object: nothing, if no object is known, or the
update of the known one, which was gone. -/
inductive ToCreate (target : PublishTarget) (known : Option Int)
    (update : Int → GitHubOperation) (record : PublisherRecord) : PublisherRecord → Prop where
  | unknown (isUnknown : known = none) : ToCreate target known update record record
  | gone (old : Int) (answer : Except Raised Response) (isKnown : known = some old)
      (isGone : stillExists answer = .ok false) :
      ToCreate target known update record (record ++ [⟨.http ⟨target, update old⟩, answer⟩])

/-- What a stage has recorded. -/
def Records (target : PublishTarget) (known : Option Int) (update : Int → GitHubOperation)
    (creation : GitHubOperation) (record : PublisherRecord) : Phase → PublisherRecord → Prop
  | .starting, later => later = record
  | .found, later => ∃ old answer, known = some old ∧ stillExists answer = .ok true ∧
      later = record ++ [⟨.http ⟨target, update old⟩, answer⟩]
  | .missing, later => ToCreate target known update record later
  | .created id, later => ∃ asked answer, ToCreate target known update record asked ∧
      createdId answer = .ok id ∧ later = asked ++ [⟨.http ⟨target, creation⟩, answer⟩]
  | .flushed id, later => ∃ asked answer flushed, ToCreate target known update record asked ∧
      createdId answer = .ok id ∧
        later = asked ++ [⟨.http ⟨target, creation⟩, answer⟩] ++ [⟨.flush, flushed⟩]

section Stages

variable {known : Option Int} {update : Int → GitHubOperation} {creation : GitHubOperation}

/-- The judgement of what is recorded where an attempt returns. -/
abbrev recording : Judgement Database PublisherRequest.Answer Raised (Database × PublisherRecord) :=
  .ensuring recordProtocol fun _ _ _ => True

theorem recording_session :
    FollowsSession recording (Holding (Records target known update creation record)) reviewId
      findings := by
  refine ensuring_session ?_
  rintro id database _ ⟨asked, answer, toCreate, created, rfl⟩
  refine flush_ensures_recorded ?_
  rintro (raised | flushed)
  · trivial
  · exact ⟨rfl, asked, answer, .ok flushed, toCreate, created, rfl⟩

theorem records_missing (isUnknown : known = none) :
    ∀ state, Holding (Records target known update creation record) .starting database state →
      Holding (Records target known update creation record) .missing database state := by
  rintro ⟨_, _⟩ ⟨rfl, rfl⟩
  exact ⟨rfl, .unknown isUnknown⟩

theorem recording_update {old : Int} (isKnown : known = some old) :
    recording.judges (Holding (Records target known update creation record) .starting database)
      (Publisher.update target (update old)) (Publisher.update target (update old)) fun live =>
        Holding (Records target known update creation record)
          (if live then .found else .missing) database := by
  rintro _ _ ⟨rfl, rfl⟩
  refine update_ensures_recorded fun answer => ?_
  cases answered : stillExists answer with
  | error raised => trivial
  | ok live =>
      cases live with
      | true => exact ⟨rfl, old, answer, isKnown, answered, rfl⟩
      | false => exact ⟨rfl, .gone old answer isKnown answered⟩

theorem recording_create :
    recording.judges (Holding (Records target known update creation record) .missing database)
      (create target creation) (create target creation) fun id =>
        Holding (Records target known update creation record) (.created id) database := by
  rintro _ asked ⟨rfl, toCreate⟩
  refine create_ensures_recorded fun answer => ?_
  cases created : createdId answer with
  | error raised => trivial
  | ok id => exact ⟨rfl, asked, answer, toCreate, created, rfl⟩

end Stages

/-- **What ensuring the review records**, where it returns. -/
theorem ensureReview_records {githubReviewId : Option Int}
    {after : Dict String Int → Database → PublisherRecord → Prop}
    (updates : ∀ old answer, stillExists answer = .ok true → after commentIdMap database
      (record ++ [⟨.http ⟨target, .updateReview old⟩, answer⟩]))
    (creates : ∀ id asked answer flushed,
      ToCreate target githubReviewId .updateReview record asked → createdId answer = .ok id →
        after (if githubReviewId.isNone then commentIdMap else ∅) (database.setReviewId reviewId id)
          (asked ++ [⟨.http ⟨target, .createReview⟩, answer⟩] ++ [⟨.flush, flushed⟩])) :
    (ensureReview target reviewId githubReviewId commentIdMap).Ensures recordProtocol
      (onReturn after) database record := by
  refine @judged_ensureReview (Database × PublisherRecord) recording
    (Holding (Records target githubReviewId .updateReview .createReview record)) reviewId target []
    commentIdMap database (fun next state => after next state.1 state.2) githubReviewId
    recording_session records_missing (fun _ => recording_update) recording_create ?_ ?_ database
    record ⟨rfl, rfl⟩
  · rintro ⟨_, _⟩ ⟨rfl, old, answer, -, answered, rfl⟩
    exact updates old answer answered
  · rintro id ⟨_, _⟩ ⟨rfl, asked, answer, flushed, toCreate, created, rfl⟩
    exact creates id asked answer flushed toCreate created

/-- **What publishing a finding records**, where it returns. -/
theorem publishFinding_records {after : Dict String Int → Database → PublisherRecord → Prop}
    (updates : ∀ old answer, existingCommentId commentIdMap finding = some old →
      stillExists answer = .ok true → after commentIdMap (database.setPublished finding.id)
        (record ++ [⟨.http ⟨target, .updateComment old finding⟩, answer⟩]))
    (creates : ∀ id asked answer flushed,
      ToCreate target (existingCommentId commentIdMap finding) (.updateComment · finding) record
          asked → createdId answer = .ok id →
        after (commentIdMap.set finding.id.str id)
          (database.recordComment reviewId finding.id id (commentIdMap.set finding.id.str id))
          (asked ++ [⟨.http ⟨target, .createComment finding⟩, answer⟩] ++ [⟨.flush, flushed⟩])) :
    (publishFinding target reviewId commentIdMap finding).Ensures recordProtocol (onReturn after)
      database record := by
  refine @judged_publishFinding (Database × PublisherRecord) recording
    (Holding (Records target (existingCommentId commentIdMap finding) (.updateComment · finding)
      (.createComment finding) record)) reviewId target [finding] commentIdMap database
    (fun next state => after next state.1 state.2) finding finding List.mem_cons_self rfl rfl
    recording_session records_missing (fun _ => recording_update) recording_create ?_ ?_ database
    record ⟨rfl, rfl⟩
  · rintro ⟨_, _⟩ ⟨rfl, old, answer, isKnown, answered, rfl⟩
    exact updates old answer isKnown answered
  · rintro id ⟨_, _⟩ ⟨rfl, asked, answer, flushed, toCreate, created, rfl⟩
    exact creates id asked answer flushed toCreate created

/-! ## What is recorded -/

section Recorded

variable {exchange : Exchange PublisherRequest.Answer Raised}

theorem createdComments_concat_of_none (nothing : createdComment? exchange = none) :
    createdComments (record ++ [exchange]) = createdComments record := by
  rw [createdComments, List.filterMap_append, List.filterMap_cons_none nothing]
  exact List.append_nil _

theorem updatedComments_concat_of_none (nothing : updatedComment? exchange = none) :
    updatedComments (record ++ [exchange]) = updatedComments record := by
  rw [updatedComments, List.filterMap_append, List.filterMap_cons_none nothing]
  exact List.append_nil _

theorem createdComments_concat_create {answer : Except Raised Response} {commentId : Int}
    (created : createdId answer = .ok commentId) :
    createdComments (record ++ [⟨.http ⟨target, .createComment finding⟩, answer⟩]) =
      createdComments record ++ [(finding.id, commentId)] := by
  have shows : createdComment? ⟨.http ⟨target, .createComment finding⟩, answer⟩ =
      some (finding.id, commentId) := by
    simp only [createdComment?, created]
  rw [createdComments, List.filterMap_append, List.filterMap_cons_some shows]
  rfl

theorem updatedComments_concat_update {answer : Except Raised Response} {commentId : Int} :
    updatedComments (record ++ [⟨.http ⟨target, .updateComment commentId finding⟩, answer⟩]) =
      updatedComments record ++ [commentId] := by
  rw [updatedComments, List.filterMap_append]
  rfl

end Recorded

/-! ## The loop -/

/-- Who has an id in its row after a comment was recorded. -/
theorem storedCommentId_recordComment_cases {findingId sought : UUID} {commentId stored : Int}
    {commentIds : Dict String Int}
    (found : (database.recordComment reviewId findingId commentId commentIds).storedCommentId
      reviewId sought = some stored) :
    (sought = findingId ∧ stored = commentId) ∨
      database.storedCommentId reviewId sought = some stored := by
  unfold Database.storedCommentId at found ⊢
  rw [Database.find_recordComment] at found
  by_cases same : sought = findingId
  · rw [if_pos same] at found
    obtain ⟨row, changed, found⟩ := Option.bind_eq_some_iff.mp found
    obtain ⟨old, -, rfl⟩ := Option.map_eq_some_iff.mp changed
    split at found
    · exact .inl ⟨same, (Option.some.inj found).symm⟩
    · cases found
  · rw [if_neg same] at found
    exact .inr found

theorem storedCommentId_recordComment_of_ne {findingId sought : UUID} {commentId : Int}
    {commentIds : Dict String Int} (differs : sought ≠ findingId) :
    (database.recordComment reviewId findingId commentId commentIds).storedCommentId reviewId
      sought = database.storedCommentId reviewId sought := by
  unfold Database.storedCommentId
  rw [Database.find_recordComment, if_neg differs]

/-- What the loop has done about the findings it has passed, from an empty map. -/
structure Passed (reviewId : UUID) (first : Database) (done : List Finding)
    (commentIdMap : Dict String Int) (database : Database) (record : PublisherRecord) : Prop where
  created : ∀ finding ∈ done, finding.githubCommentId = none →
    ∃ commentId, (finding.id, commentId) ∈ createdComments record
  owned : ∀ entry ∈ createdComments record, ∃ finding ∈ done, finding.id = entry.1
  updated : ∀ commentId, commentId ∈ updatedComments record ↔
    ∃ finding ∈ done, finding.githubCommentId = some commentId
  mapped : ∀ key commentId, commentIdMap.get key = some commentId →
    ∃ findingId, key = findingId.str ∧ (findingId, commentId) ∈ createdComments record
  stored : ∀ findingId commentId, database.storedCommentId reviewId findingId = some commentId →
    first.storedCommentId reviewId findingId = some commentId ∨
      (findingId, commentId) ∈ createdComments record
  kept : ∀ findingId, (∀ finding ∈ done, finding.id ≠ findingId) →
    database.storedCommentId reviewId findingId = first.storedCommentId reviewId findingId

/-- Only the comments in the record matter. -/
theorem Passed.congr (passed : Passed reviewId first done commentIdMap database record)
    {later : PublisherRecord} (created : createdComments later = createdComments record)
    (updated : updatedComments later = updatedComments record) :
    Passed reviewId first done commentIdMap database later where
  created := created ▸ passed.created
  owned := created ▸ passed.owned
  updated := updated ▸ passed.updated
  mapped := created ▸ passed.mapped
  stored := created ▸ passed.stored
  kept := passed.kept

/-- A finding that has not been passed has no entry in the map. -/
theorem Passed.existing (passed : Passed reviewId first done commentIdMap database record)
    (fresh : ∀ other ∈ done, other.id ≠ finding.id) :
    existingCommentId commentIdMap finding = finding.githubCommentId := by
  unfold existingCommentId
  cases entry : commentIdMap.get finding.id.str with
  | none => rfl
  | some commentId =>
      obtain ⟨findingId, same, created⟩ := passed.mapped _ _ entry
      obtain ⟨other, member, owner⟩ := passed.owned _ created
      exact absurd (owner.trans (UUID.str_injective same).symm) (fresh other member)

/-- The next finding is given a new comment. -/
theorem Passed.creates (passed : Passed reviewId first done commentIdMap database record)
    {later : PublisherRecord} {commentId : Int}
    (created : createdComments later = createdComments record ++ [(finding.id, commentId)])
    (updated : updatedComments later = updatedComments record ++ finding.githubCommentId.toList) :
    Passed reviewId first (done ++ [finding]) (commentIdMap.set finding.id.str commentId)
      (database.recordComment reviewId finding.id commentId
        (commentIdMap.set finding.id.str commentId)) later where
  created other member unstored := by
    rw [created]
    rcases List.mem_append.mp member with early | now
    · obtain ⟨id, old⟩ := passed.created other early unstored
      exact ⟨id, List.mem_append_left _ old⟩
    · obtain rfl := List.mem_singleton.mp now
      exact ⟨commentId, List.mem_append_right _ (List.mem_singleton_self _)⟩
  owned entry member := by
    rw [created] at member
    rcases List.mem_append.mp member with old | new
    · obtain ⟨other, early, same⟩ := passed.owned entry old
      exact ⟨other, List.mem_append_left _ early, same⟩
    · obtain rfl := List.mem_singleton.mp new
      exact ⟨finding, List.mem_append_right _ (List.mem_singleton_self _), rfl⟩
  updated id := by
    rw [updated, List.mem_append, passed.updated]
    simp [or_and_right, exists_or, eq_comm]
  mapped key id entry := by
    rw [created]
    rw [Dict.get_set] at entry
    split at entry
    · rename_i same
      obtain rfl := Option.some.inj entry
      exact ⟨finding.id, same, List.mem_append_right _ (List.mem_singleton_self _)⟩
    · obtain ⟨findingId, same, old⟩ := passed.mapped key id entry
      exact ⟨findingId, same, List.mem_append_left _ old⟩
  stored findingId id found := by
    rw [created]
    rcases storedCommentId_recordComment_cases found with ⟨rfl, rfl⟩ | kept
    · exact .inr (List.mem_append_right _ (List.mem_singleton_self _))
    · exact (passed.stored findingId id kept).imp_right (List.mem_append_left _)
  kept findingId apart := by
    obtain ⟨ofDone, ofFinding⟩ := List.forall_mem_append.mp apart
    rw [storedCommentId_recordComment_of_ne (ofFinding finding (List.mem_singleton_self _)).symm]
    exact passed.kept findingId ofDone

/-- A comment is created and the session is flushed. -/
theorem Passed.creates_flushed
    (passed : Passed reviewId first done commentIdMap database record) {asked : PublisherRecord}
    {answer : Except Raised Response} {flushed : Except Raised Unit} {commentId : Int}
    (same : createdComments asked = createdComments record)
    (updated : updatedComments asked = updatedComments record ++ finding.githubCommentId.toList)
    (created : createdId answer = .ok commentId) :
    Passed reviewId first (done ++ [finding]) (commentIdMap.set finding.id.str commentId)
      (database.recordComment reviewId finding.id commentId
        (commentIdMap.set finding.id.str commentId))
      (asked ++ [⟨.http ⟨target, .createComment finding⟩, answer⟩] ++ [⟨.flush, flushed⟩]) := by
  refine passed.creates ?_ ?_
  · rw [createdComments_concat_of_none rfl, createdComments_concat_create created, same]
  · rw [updatedComments_concat_of_none rfl, updatedComments_concat_of_none rfl, updated]

/-- The comment of the next finding is updated. -/
theorem Passed.updates (passed : Passed reviewId first done commentIdMap database record)
    {later : PublisherRecord} {commentId : Int} (found : finding.githubCommentId = some commentId)
    (created : createdComments later = createdComments record)
    (updated : updatedComments later = updatedComments record ++ [commentId]) :
    Passed reviewId first (done ++ [finding]) commentIdMap (database.setPublished finding.id)
      later where
  created other member unstored := by
    rw [created]
    rcases List.mem_append.mp member with early | now
    · exact passed.created other early unstored
    · obtain rfl := List.mem_singleton.mp now
      rw [unstored] at found
      cases found
  owned entry member := by
    rw [created] at member
    obtain ⟨other, early, same⟩ := passed.owned entry member
    exact ⟨other, List.mem_append_left _ early, same⟩
  updated id := by
    rw [updated, List.mem_append, passed.updated]
    simp [or_and_right, exists_or, found, eq_comm]
  mapped := created ▸ passed.mapped
  stored findingId id kept := by
    rw [storedCommentId_setPublished] at kept
    rw [created]
    exact passed.stored findingId id kept
  kept findingId apart := by
    rw [storedCommentId_setPublished]
    exact passed.kept findingId (List.forall_mem_append.mp apart).1

/-- One round of the loop. -/
theorem publishFinding_passes (passed : Passed reviewId first done commentIdMap database record)
    (fresh : ∀ other ∈ done, other.id ≠ finding.id) :
    (publishFinding target reviewId commentIdMap finding).Ensures recordProtocol
      (onReturn fun next final later =>
        Passed reviewId first (done ++ [finding]) next final later) database record := by
  refine publishFinding_records ?_ ?_
  · intro old answer isKnown _
    rw [passed.existing fresh] at isKnown
    exact passed.updates isKnown (createdComments_concat_of_none rfl) updatedComments_concat_update
  · rw [passed.existing fresh]
    rintro id asked answer flushed (isUnknown | ⟨old, reply, isKnown, -⟩) created
    · refine passed.creates_flushed rfl ?_ created
      rw [isUnknown]
      exact (List.append_nil _).symm
    · refine passed.creates_flushed (createdComments_concat_of_none rfl) ?_ created
      rw [updatedComments_concat_update, isKnown]
      rfl

/-- **The loop** passes all findings. -/
theorem publishFindings_passes (passed : Passed reviewId first done commentIdMap database record)
    (distinct : ((done ++ findings).map Finding.id).Nodup) :
    (publishFindings target reviewId commentIdMap findings).Ensures recordProtocol
      (onReturn fun next final later =>
        Passed reviewId first (done ++ findings) next final later) database record := by
  induction findings generalizing done commentIdMap database record with
  | nil =>
      rw [List.append_nil]
      exact passed
  | cons finding findings ih =>
      have fresh : ∀ other ∈ done, other.id ≠ finding.id := by
        intro other member same
        rw [List.map_append] at distinct
        exact List.disjoint_of_nodup_append distinct (List.mem_map_of_mem member)
          (same ▸ List.mem_map_of_mem List.mem_cons_self)
      rw [publishFindings, ensures_bind]
      refine (publishFinding_passes passed fresh).mono ?_
      rintro (raised | next) final later passes
      · trivial
      · rw [List.append_cons] at distinct ⊢
        exact ih passes distinct

/-- The start of the loop on an emptied map. -/
theorem passed_start (unchanged : ∀ findingId,
    database.storedCommentId reviewId findingId = first.storedCommentId reviewId findingId) :
    Passed reviewId first [] ∅ database [] where
  created _ member := by cases member
  owned _ member := by cases member
  updated commentId := by simp [updatedComments]
  mapped key commentId entry := by simp at entry
  stored findingId commentId found := .inl ((unchanged findingId).symm.trans found)
  kept findingId _ := unchanged findingId

/-! ## The review -/

/-- What ensuring the review leaves: comments and their ids are untouched, and the map is
empty if the review had vanished. -/
structure Ensured (reviewId : UUID) (first : Database) (commentIdMap : Dict String Int)
    (database : Database) (record : PublisherRecord) : Prop where
  created : createdComments record = []
  updated : updatedComments record = []
  emptied : Vanished record → commentIdMap = ∅
  unchanged : ∀ findingId,
    database.storedCommentId reviewId findingId = first.storedCommentId reviewId findingId

theorem vanished_concat {exchange : Exchange PublisherRequest.Answer Raised} :
    Vanished (record ++ [exchange]) ↔ Vanished record ∨ vanishes exchange := by
  simp [Vanished, or_and_right, exists_or]

/-- A review has vanished if it is found not to exist. -/
theorem vanishes_updateReview_iff {githubReviewId : Int} {answer : Except Raised Response} :
    vanishes ⟨.http ⟨target, .updateReview githubReviewId⟩, answer⟩ ↔
      stillExists answer = .ok false := by
  rcases answer with raised | response
  · exact iff_of_false nofun nofun
  · by_cases missing : response.statusCode = 404
    · simp [vanishes, stillExists, missing]
    · cases raises : response.raiseForStatus with
      | error raised => simp [vanishes, stillExists, missing, raises]
      | ok _ => simp [vanishes, stillExists, missing, raises]

theorem ensureReview_ensured {githubReviewId : Option Int} :
    (ensureReview target reviewId githubReviewId commentIdMap).Ensures recordProtocol
      (onReturn fun next moved later => Ensured reviewId database next moved later)
      database [] := by
  have nothing : ¬ Vanished [] := by simp [Vanished]
  refine ensureReview_records ?_ ?_
  · intro old answer answered
    refine ⟨rfl, rfl, fun vanished => ?_, fun _ => rfl⟩
    have now := (vanished_concat.mp vanished).resolve_left nothing
    rw [vanishes_updateReview_iff, answered] at now
    cases now
  · rintro id asked answer flushed (isUnknown | ⟨old, reply, isKnown, -⟩) created
    · refine ⟨rfl, rfl, fun vanished => ?_, fun _ => rfl⟩
      have posted := (vanished_concat.mp vanished).resolve_right Bool.false_ne_true
      exact absurd ((vanished_concat.mp posted).resolve_right Bool.false_ne_true) nothing
    · refine ⟨rfl, rfl, fun _ => ?_, fun _ => rfl⟩
      rw [isKnown]
      rfl

/-- In the loop, no review is updated. -/
theorem not_vanished_publishFindings {Server : Type}
    {respond : Server → (request : PublisherRequest) → Except Raised request.Answer × Server}
    {server : Server} :
    ¬ Vanished ((publishFindings target reviewId commentIdMap findings).transcript respond
      database server) := by
  rintro ⟨exchange, member, vanished⟩
  have asks : AsksOnly (fun request => ∀ answer, vanishes ⟨request, answer⟩ = false)
      (publishFindings target reviewId commentIdMap findings) :=
    asksOnly_publishFindings (fun _ => rfl) (fun _ _ => rfl) fun _ _ _ => rfl
  obtain ⟨asked | written, happened, same⟩ := List.mem_filterMap.mp member
  · obtain rfl := Option.some.inj same
    exact Bool.eq_false_iff.mp (asks.journal happened _) vanished
  · cases same

/-! ## An attempt that returned -/

section Attempt

variable {Server : Type}
  {respond : Server → (request : PublisherRequest) → Except Raised request.Answer × Server}
  {installationId : UUID} {token : String} {after : Database} {server later : Server}
  {review : Review}

/-- What is ensured of every return holds of a transcript. -/
theorem holds_on_return {Result : Type} {body : Publisher Result} {result : Result}
    {returned : Result → Database → PublisherRecord → Prop}
    (ran : body.serve respond database server = (.ok result, after, later))
    (ensured : body.Ensures recordProtocol (onReturn returned) database []) :
    returned result after (body.transcript respond database server) := by
  have held : onReturn returned (body.serve respond database server).1
      (body.serve respond database server).2.1 (body.transcript respond database server) :=
    holds_of_recorded (fun _ _ => trivial) ensured
  rw [ran] at held
  exact held

/-- An attempt that returns has had its head confirmed. -/
theorem publishReview_returns
    (ran : (publishReview reviewId installationId token).serve respond database server =
      (.ok (), after, later)) :
    ∃ review target, Targets database reviewId installationId token review target ∧
      let answered := respond server (headRequest target)
      let loaded := publishLoaded target review (publishableFindings database reviewId)
      loaded.serve respond database answered.2 = (.ok (), after, later) ∧
        (publishReview reviewId installationId token).transcript respond database server =
          headExchange target answered.1 :: loaded.transcript respond database answered.2 := by
  rw [← serve_afterReads, publishReview_afterReads] at ran
  unfold transcript
  rw [← journal_afterReads, publishReview_afterReads]
  cases loaded : loading database reviewId installationId token with
  | error raised =>
      rw [loaded] at ran
      cases ran
  | ok found =>
      obtain ⟨review, target⟩ := found
      refine ⟨review, target, loading_eq_ok_iff.mp loaded, ?_⟩
      rw [loaded] at ran
      simp only [serve, journal] at ran ⊢
      cases verdict : headVerdict target (respond server (headRequest target)).1 with
      | error raised =>
          rw [verdict] at ran
          cases ran
      | ok _ =>
          rw [verdict] at ran
          exact ⟨ran, rfl⟩

/-- The final map of the loop is the map of the review. -/
theorem get_of_setCommentIds {key : String} {commentId : Int}
    (entry : ((database.setCommentIds reviewId commentIdMap).storedCommentIds reviewId).get key =
      some commentId) : commentIdMap.get key = some commentId := by
  cases found : database.reviews.find reviewId with
  | none => simp [Database.storedCommentIds, found] at entry
  | some review => simpa [Database.storedCommentIds, found] using entry

/-- The stages of an attempt that returned after the review vanished. -/
theorem publishLoaded_passes
    (ran : (publishLoaded target review findings).serve respond database server =
      (.ok (), after, later))
    (vanished : Vanished ((publishLoaded target review findings).transcript respond database
      server)) (distinct : (findings.map Finding.id).Nodup) :
    ∃ commentIdMap final, after = final.setCommentIds review.id commentIdMap ∧
      Passed review.id database findings commentIdMap final
        ((publishLoaded target review findings).transcript respond database server) := by
  obtain ⟨entered, middle, entry, ensuredReview, rest⟩ := serve_bind_cases (congrArg Prod.fst ran)
  obtain ⟨commentIdMap, final, ended, looped, -⟩ := serve_bind_cases rest
  have shows : (publishLoaded target review findings).transcript respond database server =
      (ensureReview target review.id review.githubReviewId
          (review.githubCommentIds.getD ∅)).transcript respond database server ++
        (publishFindings target review.id entered findings).transcript respond middle entry := by
    refine (transcript_bind_of_ok ensuredReview).trans (congrArg _ ?_)
    exact (transcript_bind_of_ok looped).trans (List.append_nil _)
  have left : after = final.setCommentIds review.id commentIdMap := by
    rw [publishLoaded, serve_bind_of_ok ensuredReview, serve_bind_of_ok looped] at ran
    exact (congrArg (fun run => run.2.1) ran).symm
  have ensured := holds_on_return ensuredReview ensureReview_ensured
  have gone : Vanished ((ensureReview target review.id review.githubReviewId
      (review.githubCommentIds.getD ∅)).transcript respond database server) := by
    rw [shows] at vanished
    obtain ⟨exchange, member, vanishes⟩ := vanished
    rcases List.mem_append.mp member with first | second
    · exact ⟨exchange, first, vanishes⟩
    · exact absurd ⟨exchange, second, vanishes⟩ not_vanished_publishFindings
  obtain rfl := ensured.emptied gone
  have passed : Passed review.id database findings commentIdMap final _ :=
    holds_on_return looped (publishFindings_passes (passed_start ensured.unchanged) distinct)
  refine ⟨commentIdMap, final, left, passed.congr ?_ ?_⟩
  · rw [shows, createdComments, List.filterMap_append, ← createdComments, ensured.created]
    rfl
  · rw [shows, updatedComments, List.filterMap_append, ← updatedComments, ensured.updated]
    rfl

/-- What the loop has done about all findings rebuilds the comments exactly if no finding had
an id in its row. -/
theorem Passed.rebuilds_iff
    (passed : Passed reviewId first (publishableFindings first reviewId) commentIdMap database
      record) :
    Rebuilds reviewId first record (database.setCommentIds reviewId commentIdMap) ↔
      Unstored reviewId first := by
  have loaded := loaded_publishableFindings first reviewId
  constructor
  · intro rebuilds findingId
    cases stored : first.storedCommentId reviewId findingId with
    | none => rfl
    | some commentId =>
        exfalso
        by_cases publishes : ∃ finding ∈ publishableFindings first reviewId, finding.id = findingId
        · -- The id is taken from the row, and its comment is updated.
          obtain ⟨finding, member, rfl⟩ := publishes
          have found : finding.githubCommentId = some commentId :=
            (loaded.stored member).symm.trans stored
          have updated := (passed.updated commentId).mpr ⟨finding, member, found⟩
          exact (rebuilds.leaves commentId updated finding.id).1 stored
        · -- The row is not touched, and keeps the id.
          have untouched := passed.kept findingId fun finding member same =>
            publishes ⟨finding, member, same⟩
          have created := rebuilds.stored findingId commentId (untouched.trans stored)
          exact publishes (passed.owned _ created)
  · intro unstored
    have fresh : ∀ finding ∈ publishableFindings first reviewId, finding.githubCommentId = none :=
      fun finding member => (loaded.stored member).symm.trans (unstored finding.id)
    refine ⟨fun finding member => passed.created finding member (fresh finding member), ?_, ?_, ?_⟩
    · intro commentId updated
      obtain ⟨finding, member, found⟩ := (passed.updated commentId).mp updated
      cases (fresh finding member).symm.trans found
    · intro key commentId entry
      exact passed.mapped key commentId (get_of_setCommentIds entry)
    · intro findingId commentId found
      refine (passed.stored findingId commentId found).resolve_left fun old => ?_
      cases (unstored findingId).symm.trans old

/-- **Recovery works exactly if no finding has an id in its row.** Where the update of the
stored review is answered with 404 and the attempt returns, all comments are rebuilt if and
only if no finding of the review had the id of a comment in its row. -/
theorem publishReview_rebuilds_iff
    (ran : (publishReview reviewId installationId token).serve respond database server =
      (.ok (), after, later))
    (vanished : Vanished ((publishReview reviewId installationId token).transcript respond
      database server)) :
    Rebuilds reviewId database
        ((publishReview reviewId installationId token).transcript respond database server) after ↔
      Unstored reviewId database := by
  obtain ⟨review, target, targets, returned, shows⟩ := publishReview_returns ran
  obtain ⟨-, rfl, -⟩ := owns_of_targets targets
  rw [shows] at vanished ⊢
  obtain ⟨exchange, member, vanishes⟩ := vanished
  rcases List.mem_cons.mp member with rfl | loaded
  · cases vanishes
  obtain ⟨commentIdMap, final, rfl, passed⟩ := publishLoaded_passes returned
    ⟨exchange, loaded, vanishes⟩ (loaded_publishableFindings database review.id).distinct
  refine Passed.rebuilds_iff ?_
  exact passed.congr rfl rfl

end Attempt

/-- A review with one finding, whose comment may have been created. -/
def withReview (commentId : Option Int) : Database where
  repos := octoRepos
  reviews := ⟨[
    { id := idEndingIn 2, repoId := idEndingIn 1, prNumber := 7, headSha := "abc",
      githubReviewId := some 10,
      githubCommentIds := commentId.map fun id => Dict.set ∅ (idEndingIn 3).str id }], by simp⟩
  findings := ⟨[
    { id := idEndingIn 3, reviewId := idEndingIn 2, fingerprint := "f", filePath := "src/a.py",
      lineStart := 10, lineEnd := 12, origin := "llm", confidence := "verified",
      severity := "warning", category := "bug", publishability := "publish",
      description := "off by one", githubCommentId := commentId }], by simp⟩

/-- GitHub's answers when the review is gone: its update fails, two creations succeed. -/
def reviewGone : List (Except Raised Response) :=
  [pullAtHead, .ok ⟨404, fun _ => none, none⟩,
    .ok ⟨201, fun _ => none, some (.object [("id", .integer 11)])⟩,
    .ok ⟨201, fun _ => none, some (.object [("id", .integer 21)])⟩]

/-- A comment that was never created is created after the review was. -/
theorem firstComment_rebuilt :
    let attempt := publishReview (idEndingIn 2) (idEndingIn 0) "token"
    Rebuilds (idEndingIn 2) (withReview none)
      (attempt.transcript (scriptedWire.respond String.toUpper) (withReview none) reviewGone)
      (attempt.serve (scriptedWire.respond String.toUpper) (withReview none) reviewGone).2.1 := by
  intro attempt
  have unstored : Unstored (idEndingIn 2) (withReview none) := by
    intro findingId
    by_cases known : idEndingIn 3 = findingId <;>
      simp [Database.storedCommentId, Table.find, withReview, known]
  have returned : (attempt.serve (scriptedWire.respond String.toUpper) (withReview none)
      reviewGone).1 = .ok () := by
    decide
  refine (publishReview_rebuilds_iff (Prod.ext returned rfl) ?_).mpr unstored
  exact List.any_eq_true.mp (by decide)

/-- A comment whose id is in the row of its finding is updated, not created. -/
theorem storedComment_not_rebuilt :
    ¬ ∀ database script after later,
      let attempt := publishReview (idEndingIn 2) (idEndingIn 0) "token"
      attempt.serve (scriptedWire.respond String.toUpper) database script = (.ok (), after, later) →
        Vanished (attempt.transcript (scriptedWire.respond String.toUpper) database script) →
          Rebuilds (idEndingIn 2) database
            (attempt.transcript (scriptedWire.respond String.toUpper) database script) after := by
  intro rebuilds
  have rebuilt := rebuilds (withReview (some 20)) reviewGone _ _ (Prod.ext (by decide) rfl)
    (List.any_eq_true.mp (by decide))
  exact (rebuilt.leaves 20 (by decide) (idEndingIn 3)).1 (by decide)

end Publisher

end Kenjutsu.Pipeline
