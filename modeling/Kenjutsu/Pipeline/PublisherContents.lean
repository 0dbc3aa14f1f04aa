import Kenjutsu.Pipeline.PublisherRecovery
import Kenjutsu.Pipeline.PublisherRuns

/-!
# What GitHub shows

The body of a comment is what the last call that wrote it asked for: the POST that
created it or a PATCH that found it. It is read off the payload of the call.

An attempt that returns has written each publishable finding once, to the comment
whose id it leaves with the finding. No two findings share a comment, so nothing is
overwritten, and GitHub shows each of them in one comment with its current text,
whatever earlier attempts did, however they failed, and whatever was deleted in
between.
-/

set_option autoImplicit false

namespace Kenjutsu.Db

/-- A finding without what publishing assigns. -/
def Finding.text (finding : Finding) : Finding :=
  { finding with published := false, githubCommentId := none }

/-- The findings without what publishing assigns. -/
def Database.texts (database : Database) : List Finding :=
  database.findings.rows.map Finding.text

end Kenjutsu.Db

namespace Kenjutsu.Pipeline

open Foundations Foundations.Coroutine Kenjutsu.Http Kenjutsu.Db

namespace Publisher

/-! ## What a transcript writes -/

/-- The body a call asks for. -/
def payloadBody (upper : String → String) (call : GitHubCall) : Option String := do
  let payload ← (request upper call).payload
  match payload.item "body" with
  | .ok (.string body) => some body
  | _ => none

/-- The comment that a call wrote, given its answer. -/
def writtenId (answer : Except Raised Response) : GitHubOperation → Option Int
  | .createComment _ => (createdId answer).toOption
  | .updateComment commentId _ =>
      match stillExists answer with
      | .ok true => some commentId
      | _ => none
  | _ => none

/-- The comment that was written, with its body. -/
def written? (upper : String → String) :
    Exchange PublisherRequest.Answer Raised → Option (Int × String)
  | ⟨.http call, answer⟩ => do
      let commentId ← writtenId answer call.operation
      let body ← payloadBody upper call
      some (commentId, body)
  | ⟨.flush, _⟩ => none

/-- What was written to comments, in order. -/
def writings (upper : String → String) (record : PublisherRecord) : List (Int × String) :=
  record.filterMap (written? upper)

/-- The bodies of the comments, with what was written to them since. -/
def rewrite (upper : String → String) (bodies : Dict Int String) (record : PublisherRecord) :
    Dict Int String :=
  (writings upper record).foldl (fun bodies writing => bodies.set writing.1 writing.2) bodies

variable {upper : String → String} {reviewId : UUID} {target : PublishTarget}
  {database first : Database}
  {github later : GitHub} {record : PublisherRecord} {commentIdMap : Dict String Int}
  {finding : Finding} {done findings : List Finding}

theorem payloadBody_createComment :
    payloadBody upper ⟨target, .createComment finding⟩ =
      some (findingCommentBody upper finding) := rfl

theorem payloadBody_updateComment {commentId : Int} :
    payloadBody upper ⟨target, .updateComment commentId finding⟩ =
      some (findingCommentBody upper finding) := rfl

theorem writings_concat (exchange : Exchange PublisherRequest.Answer Raised) :
    writings upper (record ++ [exchange]) =
      writings upper record ++ (written? upper exchange).toList := by
  rw [writings, List.filterMap_append]
  cases found : written? upper exchange <;> simp [writings, found]

theorem writings_concat_of_none {exchange : Exchange PublisherRequest.Answer Raised}
    (nothing : written? upper exchange = none) :
    writings upper (record ++ [exchange]) = writings upper record := by
  rw [writings_concat, nothing]
  exact List.append_nil _

theorem writings_concat_create {answer : Except Raised Response} {commentId : Int}
    (created : createdId answer = .ok commentId) :
    writings upper (record ++ [⟨.http ⟨target, .createComment finding⟩, answer⟩]) =
      writings upper record ++ [(commentId, findingCommentBody upper finding)] := by
  rw [writings_concat]
  simp [written?, writtenId, created, payloadBody_createComment, Except.toOption]

theorem writings_concat_update {answer : Except Raised Response} {commentId : Int} {live : Bool}
    (exists_ : stillExists answer = .ok live) :
    writings upper (record ++ [⟨.http ⟨target, .updateComment commentId finding⟩, answer⟩]) =
      writings upper record ++
        if live then [(commentId, findingCommentBody upper finding)] else [] := by
  rw [writings_concat]
  cases live <;> simp [written?, writtenId, exists_, payloadBody_updateComment]

/-! ## Texts -/

theorem map_text_update (table : Table Finding.id) (sought : UUID) (change : Finding → Finding)
    (keeps : ∀ finding, (change finding).id = finding.id)
    (same : ∀ finding, (change finding).text = finding.text) :
    (table.update sought change keeps).rows.map Finding.text = table.rows.map Finding.text := by
  rw [Table.update, List.map_map]
  refine List.map_congr_left fun finding _ => ?_
  simp only [Function.comp_apply]
  split
  · exact same finding
  · rfl

theorem texts_setPublished (findingId : UUID) :
    (database.setPublished findingId).texts = database.texts :=
  map_text_update database.findings findingId
    (fun finding => { finding with published := true }) (fun _ => rfl) fun _ => rfl

theorem texts_recordComment (findingId : UUID) (commentId : Int)
    (commentIds : Dict String Int) :
    (database.recordComment reviewId findingId commentId commentIds).texts = database.texts :=
  (texts_setPublished findingId).trans (map_text_update database.findings findingId
    (fun finding => { finding with githubCommentId := some commentId }) (fun _ => rfl)
      fun _ => rfl)

/-- Which findings are published depends on their texts. -/
theorem map_text_publishableFindings (database : Database) (reviewId : UUID) :
    (publishableFindings database reviewId).map Finding.text =
      (database.texts.filter fun finding => finding.reviewId = reviewId).filter
        isPublishable := by
  rw [publishableFindings, selectFindings, Database.texts, List.filter_map, List.filter_map]
  rfl

/-- A publishable finding was publishable before, with the same body. -/
theorem exists_of_texts (same : database.texts = first.texts)
    (member : finding ∈ publishableFindings database reviewId) :
    ∃ old ∈ publishableFindings first reviewId, old.id = finding.id ∧
      findingCommentBody upper old = findingCommentBody upper finding := by
  have listed : finding.text ∈ (publishableFindings first reviewId).map Finding.text := by
    rw [map_text_publishableFindings, ← same, ← map_text_publishableFindings]
    exact List.mem_map_of_mem member
  obtain ⟨old, isOld, equal⟩ := List.mem_map.mp listed
  have sameId : old.text.id = finding.text.id := congrArg Finding.id equal
  have sameBody : findingCommentBody upper old.text = findingCommentBody upper finding.text :=
    congrArg (findingCommentBody upper) equal
  exact ⟨old, isOld, sameId, sameBody⟩

/-! ## The loop -/

/-- The findings still to publish stay as they were loaded. -/
theorem Loaded.setPublished (loaded : Loaded reviewId database (finding :: findings)) :
    Loaded reviewId (database.setPublished finding.id) findings where
  distinct := (List.nodup_cons.mp loaded.distinct).2
  rows other member := by
    rw [Database.find_setPublished, if_neg (loaded.ne_of_mem member)]
    exact loaded.rows other (List.mem_cons_of_mem _ member)

theorem Loaded.recordComment (loaded : Loaded reviewId database (finding :: findings))
    (commentId : Int) (commentIds : Dict String Int) :
    Loaded reviewId (database.recordComment reviewId finding.id commentId commentIds) findings where
  distinct := (List.nodup_cons.mp loaded.distinct).2
  rows other member := by
    rw [Database.find_recordComment, if_neg (loaded.ne_of_mem member)]
    exact loaded.rows other (List.mem_cons_of_mem _ member)

/-- What publishing one finding writes, if it returns: the comment it knew was there and
was updated, or a new one was created. -/
theorem publishFinding_ensures_recorded
    {after : Dict String Int → Database → PublisherRecord → Prop}
    (updates : ∀ old later, existingCommentId commentIdMap finding = some old →
      writings upper later = writings upper record ++ [(old, findingCommentBody upper finding)] →
        after commentIdMap (database.setPublished finding.id) later)
    (creates : ∀ new later,
      writings upper later = writings upper record ++ [(new, findingCommentBody upper finding)] →
        after (commentIdMap.set finding.id.str new)
          (database.recordComment reviewId finding.id new (commentIdMap.set finding.id.str new))
          later) :
    (publishFinding target reviewId commentIdMap finding).Ensures recordProtocol (onReturn after)
      database record := by
  refine publishFinding_records ?_ ?_
  · intro old answer isKnown answered
    exact updates old _ isKnown (writings_concat_update answered)
  · rintro new asked answer flushed toCreate created
    refine creates new _ ?_
    rw [writings_concat_of_none rfl, writings_concat_create created]
    cases toCreate with
    | unknown => rfl
    | gone old reply isKnown isGone =>
        rw [writings_concat_update isGone]
        exact congrArg (· ++ _) (List.append_nil _)

/-- A finding and what was written for it: its body, to the comment stored with it. -/
def WrittenFor (upper : String → String) (reviewId : UUID) (database : Database) (finding : Finding)
    (writing : Int × String) : Prop :=
  database.storedCommentId reviewId finding.id = some writing.1 ∧
    writing.2 = findingCommentBody upper finding

/-- Inside the loop: the findings that were passed are written, in order. -/
structure Writing (upper : String → String) (reviewId : UUID) (first : Database)
    (done findings : List Finding) (commentIdMap : Dict String Int) (database : Database)
    (record : PublisherRecord) : Prop where
  mapped : Mapped reviewId database commentIdMap
  loaded : Loaded reviewId database findings
  apart : ∀ finding ∈ done, finding.id ∉ findings.map Finding.id
  texts : database.texts = first.texts
  written : List.Forall₂ (WrittenFor upper reviewId database) done (writings upper record)

theorem Writing.existing
    (writing : Writing upper reviewId first done (finding :: findings) commentIdMap database record)
    {old : Int} (existing : existingCommentId commentIdMap finding = some old) :
    database.storedCommentId reviewId finding.id = some old := by
  unfold existingCommentId at existing
  have stored := writing.loaded.stored (List.mem_cons_self (a := finding) (l := findings))
  cases entry : commentIdMap.get finding.id.str with
  | none =>
      rw [entry] at existing
      exact stored.trans existing
  | some mapped =>
      have isStored := writing.mapped finding.id mapped entry
      rw [entry, ← stored, isStored] at existing
      exact isStored.trans ((ite_self _).symm.trans existing)

/-- The next finding has been written, to the comment now stored with it. -/
theorem Writing.next
    (writing : Writing upper reviewId first done (finding :: findings) commentIdMap database record)
    {moved : Database} {next : Dict String Int} {later : PublisherRecord} {commentId : Int}
    (mapped : Mapped reviewId moved next) (loaded : Loaded reviewId moved findings)
    (texts : moved.texts = database.texts)
    (stored : ∀ sought, moved.storedCommentId reviewId sought =
      if sought = finding.id then some commentId else database.storedCommentId reviewId sought)
    (writes : writings upper later =
      writings upper record ++ [(commentId, findingCommentBody upper finding)]) :
    Writing upper reviewId first (done ++ [finding]) findings next moved later where
  mapped := mapped
  loaded := loaded
  apart other member := by
    rcases List.mem_append.mp member with early | now
    · exact fun later => writing.apart other early (List.mem_cons_of_mem _ later)
    · obtain rfl := List.mem_singleton.mp now
      exact (List.nodup_cons.mp writing.loaded.distinct).1
  texts := texts.trans writing.texts
  written := by
    rw [writes]
    have differs : ∀ other ∈ done, other.id ≠ finding.id := by
      intro other early same
      exact writing.apart other early (same ▸ List.mem_cons_self)
    refine List.rel_append ?_ (.cons ⟨(stored finding.id).trans (if_pos rfl), rfl⟩ .nil)
    refine ((List.forall₂_and_left _ _).mpr ⟨differs, writing.written⟩).imp ?_
    rintro other entry ⟨differs, isStored, isBody⟩
    exact ⟨(stored other.id).trans ((if_neg differs).trans isStored), isBody⟩

theorem Writing.updates
    (writing : Writing upper reviewId first done (finding :: findings) commentIdMap database record)
    {later : PublisherRecord} {old : Int}
    (existing : existingCommentId commentIdMap finding = some old)
    (writes : writings upper later =
      writings upper record ++ [(old, findingCommentBody upper finding)]) :
    Writing upper reviewId first (done ++ [finding]) findings commentIdMap
      (database.setPublished finding.id) later := by
  refine writing.next ?_ writing.loaded.setPublished (texts_setPublished _) ?_ writes
  · intro findingId commentId entry
    exact (storedCommentId_setPublished ..).trans (writing.mapped findingId commentId entry)
  · intro sought
    rw [storedCommentId_setPublished]
    split
    · rename_i same
      rw [same]
      exact writing.existing existing
    · rfl

theorem Writing.creates
    (writing : Writing upper reviewId first done (finding :: findings) commentIdMap database record)
    {later : PublisherRecord} {new : Int}
    (writes : writings upper later =
      writings upper record ++ [(new, findingCommentBody upper finding)]) :
    Writing upper reviewId first (done ++ [finding]) findings (commentIdMap.set finding.id.str new)
      (database.recordComment reviewId finding.id new (commentIdMap.set finding.id.str new))
      later := by
  obtain ⟨row, found, inReview, -⟩ := writing.loaded.rows finding List.mem_cons_self
  have stored := fun sought => storedCommentId_recordComment sought new
    (commentIdMap.set finding.id.str new) found inReview
  refine writing.next ?_ (writing.loaded.recordComment _ _) (texts_recordComment ..) stored writes
  intro findingId commentId entry
  rw [stored]
  rw [Dict.get_set] at entry
  by_cases same : findingId = finding.id
  · rw [if_pos (congrArg UUID.str same)] at entry
    rw [if_pos same]
    exact entry
  · rw [if_neg fun equal => same (UUID.str_injective equal)] at entry
    rw [if_neg same]
    exact writing.mapped findingId commentId entry

/-- **The loop** writes every finding. -/
theorem publishFindings_writes
    (writing : Writing upper reviewId first done findings commentIdMap database record) :
    (publishFindings target reviewId commentIdMap findings).Ensures recordProtocol
      (onReturn fun next final later =>
        Writing upper reviewId first (done ++ findings) [] next final later) database record := by
  induction findings generalizing done commentIdMap database record with
  | nil =>
      rw [List.append_nil]
      exact writing
  | cons finding findings ih =>
      have one : (publishFinding target reviewId commentIdMap finding).Ensures recordProtocol
          (onReturn fun next moved later =>
            Writing upper reviewId first (done ++ [finding]) findings next moved later)
          database record :=
        publishFinding_ensures_recorded
          (fun old later existing writes => writing.updates existing writes)
          (fun new later writes => writing.creates writes)
      rw [publishFindings, ensures_bind]
      refine one.mono ?_
      rintro (raised | next) moved later onwards
      · trivial
      · rw [List.append_cons]
        exact ih onwards

/-! ## The review -/

/-- Ensuring the review writes no comment and touches no finding. -/
theorem ensureReview_writes (upper : String → String) {githubReviewId : Option Int} :
    (ensureReview target reviewId githubReviewId commentIdMap).Ensures recordProtocol
      (onReturn fun next moved later =>
        (next = commentIdMap ∨ next = ∅) ∧ moved.findings = database.findings ∧
          writings upper later = writings upper record) database record := by
  refine ensureReview_records ?_ ?_
  · exact fun old answer _ => ⟨.inl rfl, rfl, writings_concat_of_none rfl⟩
  · intro id asked answer flushed toCreate _
    have silent : writings upper asked = writings upper record := by
      cases toCreate with
      | unknown => rfl
      | gone => exact writings_concat_of_none rfl
    refine ⟨?_, rfl, ?_⟩
    · cases githubReviewId with
      | none => exact .inl rfl
      | some old => exact .inr rfl
    · rw [writings_concat_of_none rfl, writings_concat_of_none rfl, silent]

/-! ## An attempt that returned -/

/-- **An attempt that returns** has written each publishable finding once, to the comment
that it leaves stored with it, and changed no text. -/
theorem publishReview_writes {Server : Type}
    {respond : Server → (request : PublisherRequest) → Except Raised request.Answer × Server}
    {installationId : UUID} {token : String} {after : Database} {server later : Server}
    (mapped : Mapped reviewId database (database.storedCommentIds reviewId))
    (ran : (publishReview reviewId installationId token).serve respond database server =
      (.ok (), after, later)) :
    after.texts = database.texts ∧
      List.Forall₂ (WrittenFor upper reviewId after) (publishableFindings database reviewId)
        (writings upper ((publishReview reviewId installationId token).transcript respond database
          server)) := by
  obtain ⟨review, target, targets, returned, shows⟩ := publishReview_returns ran
  obtain ⟨listed, rfl, -⟩ := owns_of_targets targets
  obtain ⟨-, -, storedMap⟩ := stored_of_find ((Table.find_eq_some_iff ..).mpr ⟨listed, rfl⟩)
  obtain ⟨entered, middle, entry, ensuredReview, rest⟩ :=
    serve_bind_cases (congrArg Prod.fst returned)
  obtain ⟨commentIdMap, final, ended, looped, -⟩ := serve_bind_cases rest
  obtain ⟨either, sameFindings, silent⟩ := holds_on_return ensuredReview (ensureReview_writes upper)
  have starts : Writing upper review.id database [] (publishableFindings database review.id) entered
      middle [] :=
    { mapped := by
        intro findingId commentId found
        have same : middle.storedCommentId review.id = database.storedCommentId review.id := by
          unfold Database.storedCommentId
          rw [sameFindings]
        rw [same]
        rcases either with rfl | rfl
        · exact mapped findingId commentId (storedMap ▸ found)
        · simp at found
      loaded :=
        { distinct := (loaded_publishableFindings database review.id).distinct
          rows := by
            rw [sameFindings]
            exact (loaded_publishableFindings database review.id).rows }
      apart := fun _ member => by cases member
      texts := by
        unfold Database.texts
        rw [sameFindings]
      written := .nil }
  have writing := holds_on_return looped (publishFindings_writes starts)
  have left : after = final.setCommentIds review.id commentIdMap := by
    rw [publishLoaded, serve_bind_of_ok ensuredReview, serve_bind_of_ok looped] at returned
    exact (congrArg (fun run => run.2.1) returned).symm
  have whole : writings upper ((publishReview review.id installationId token).transcript respond
      database server) = writings upper ((publishFindings target review.id entered
        (publishableFindings database review.id)).transcript respond middle entry) := by
    rw [shows]
    have loop : (publishLoaded target review (publishableFindings database review.id)).transcript
        respond database (respond server (headRequest target)).2 =
          (ensureReview target review.id review.githubReviewId
            (review.githubCommentIds.getD ∅)).transcript respond database
              (respond server (headRequest target)).2 ++
            (publishFindings target review.id entered
              (publishableFindings database review.id)).transcript respond middle entry := by
      refine (transcript_bind_of_ok ensuredReview).trans (congrArg _ ?_)
      exact (transcript_bind_of_ok looped).trans (List.append_nil _)
    rw [writings, List.filterMap_cons_none rfl, loop, List.filterMap_append, ← writings, silent]
    rfl
  rw [left, whole]
  exact ⟨writing.texts, writing.written⟩

/-! ## Whose comment it is -/

/-- Every comment id stored with a finding is that of a comment posted for it. -/
def PostedFor (reviewId : UUID) (database : Database) (github : GitHub) : Prop :=
  ∀ findingId commentId, database.storedCommentId reviewId findingId = some commentId →
    ∃ posting ∈ github.comments, posting.id = commentId ∧ posting.subject = findingId

theorem PostedFor.sameObjects (postedFor : PostedFor reviewId database github)
    (same : github.SameObjects later) : PostedFor reviewId database later := by
  intro findingId commentId stored
  rw [same.2]
  exact postedFor findingId commentId stored

/-- The loop keeps it, wherever it fails. -/
theorem publishFindings_postedFor (postedFor : PostedFor reviewId database github) :
    (publishFindings target reviewId commentIdMap findings).Ensures attemptProtocol
      (fun _ moved later => PostedFor reviewId moved later) database github := by
  induction findings generalizing commentIdMap database github with
  | nil => exact postedFor
  | cons finding findings ih =>
      rw [publishFindings, ensures_bind]
      refine publishFinding_ensures ?_ ?_ ?_
      · intro raised later same _
        exact postedFor.sameObjects same
      · intro old later _ _ quiet
        refine ih ?_
        intro findingId commentId stored
        rw [storedCommentId_setPublished] at stored
        exact postedFor.sameObjects quiet.1 findingId commentId stored
      · intro new later _ _ _ comments
        refine ih ?_
        intro findingId commentId stored
        rw [comments]
        rcases storedCommentId_recordComment_cases stored with ⟨rfl, rfl⟩ | old
        · exact ⟨_, List.mem_append_right _ (List.mem_singleton_self _), rfl, rfl⟩
        · obtain ⟨posting, member, posted⟩ := postedFor findingId commentId old
          exact ⟨posting, List.mem_append_left _ member, posted⟩

/-- An attempt keeps it, however it ends. -/
theorem publishReview_postedFor (installationId : UUID) (token : String)
    (postedFor : PostedFor reviewId database github) :
    (publishReview reviewId installationId token).Ensures attemptProtocol
      (fun _ moved later => PostedFor reviewId moved later) database github := by
  refine publishReview_ensures ?_ ?_
  · intro raised later quiet
    exact postedFor.sameObjects quiet.1
  · intro target review middle found quiet
    obtain ⟨rfl, -⟩ := stored_of_find found
    have loop : ∀ (commentIdMap : Dict String Int) (moved : Database) (later : GitHub),
        moved.findings = database.findings → later.comments = middle.comments →
          (publishFindings target review.id commentIdMap
              (publishableFindings database review.id) >>= fun commentIdMap =>
            assignCommentIds review.id commentIdMap).Ensures attemptProtocol
            (fun _ moved later => PostedFor review.id moved later) moved later := by
      intro commentIdMap moved later findings comments
      have starts : PostedFor review.id moved later := by
        intro findingId commentId stored
        rw [comments]
        refine postedFor.sameObjects quiet.1 findingId commentId ?_
        rw [← stored]
        unfold Database.storedCommentId
        rw [findings]
      rw [ensures_bind]
      refine (publishFindings_postedFor starts).mono ?_
      rintro (raised | commentIdMap) final last kept
      · exact kept
      · exact kept
    rw [publishLoaded, ensures_bind]
    refine ensureReview_ensures ?_ ?_ ?_
    · intro raised later same _
      exact postedFor.sameObjects (quiet.1.trans same)
    · intro old later _ _ unchanged
      exact loop _ _ _ rfl unchanged.1.2
    · intro created later _ _ _ comments
      exact loop _ _ _ rfl comments

/-! ## What is shown -/

/-- The database, GitHub, and the bodies of the comments there. -/
structure Discussion where
  publication : Publication
  bodies : Dict Int String := ∅

/-- What an event asks of GitHub, and how it is answered. -/
def exchanges (reviewId installationId : UUID) (token : String) (publication : Publication) :
    PublicationEvent reviewId → PublisherRecord
  | .attempt pull decisions =>
      (publishReview reviewId installationId token).transcript GitHub.respond
        publication.database { publication.github with pull, decisions }
  | _ => []

/-- One event in the life of a publication, with what it writes to comments. -/
def discuss (upper : String → String) (reviewId installationId : UUID) (token : String) :
    Machine Discussion (PublicationEvent reviewId) := fun discussion event => do
  let next ← step reviewId installationId token discussion.publication event
  some ⟨next, rewrite upper discussion.bodies
    (exchanges reviewId installationId token discussion.publication event)⟩

/-- The live comments that were posted for a finding. -/
def liveComments (github : GitHub) (findingId : UUID) : List Int :=
  (github.comments.filter fun posting => posting.live && posting.subject = findingId).map
    Posting.id

/-- GitHub shows every publishable finding in one comment, with its current body. -/
def ShowsAll (upper : String → String) (reviewId : UUID) (discussion : Discussion) : Prop :=
  ∀ finding ∈ publishableFindings discussion.publication.database reviewId,
    ∃ commentId, liveComments discussion.publication.github finding.id = [commentId] ∧
      discussion.bodies.get commentId = some (findingCommentBody upper finding)

/-- Every comment id names one posting. -/
theorem subject_unique (recorded : Recorded reviewId database github)
    (postedFor : PostedFor reviewId database github) {one two : UUID} {commentId : Int}
    (first : database.storedCommentId reviewId one = some commentId)
    (second : database.storedCommentId reviewId two = some commentId) : one = two := by
  obtain ⟨posting, member, isId, rfl⟩ := postedFor one commentId first
  obtain ⟨other, isOther, otherId, rfl⟩ := postedFor two commentId second
  exact congrArg Posting.subject (List.inj_on_of_nodup_map recorded.comments.distinct member isOther
    (isId.trans otherId.symm))

/-- The stored comment, if it is live, is the only live one. -/
theorem liveComments_eq (recorded : Recorded reviewId database github)
    (postedFor : PostedFor reviewId database github) {findingId : UUID} {commentId : Int}
    (stored : database.storedCommentId reviewId findingId = some commentId)
    (live : Posting.isLive github.comments commentId) :
    liveComments github findingId = [commentId] := by
  obtain ⟨posting, member, isLive, isId⟩ := (Posting.isLive_iff ..).mp live
  obtain ⟨own, isOwn, ownId, subject⟩ := postedFor findingId commentId stored
  obtain rfl := List.inj_on_of_nodup_map recorded.comments.distinct member isOwn
    (isId.trans ownId.symm)
  have listed : commentId ∈ liveComments github findingId := by
    refine List.mem_map.mpr ⟨posting, List.mem_filter.mpr ⟨member, ?_⟩, isId⟩
    simp [isLive, subject]
  have atMostOne : (liveComments github findingId).length ≤ 1 := by
    rw [liveComments, List.length_map]
    exact recorded.comments.live_le_one findingId
  obtain ⟨only, same⟩ := List.length_eq_one_iff.mp
    (le_antisymm atMostOne (List.length_pos_of_mem listed))
  rw [same] at listed ⊢
  rw [List.mem_singleton.mp listed]

/-- What is written has the body of the last writing. -/
theorem get_rewrite {bodies : Dict Int String} {writing : Int × String}
    (member : writing ∈ writings upper record)
    (determined : ∀ other ∈ writings upper record, other.1 = writing.1 → other.2 = writing.2) :
    (rewrite upper bodies record).get writing.1 = some writing.2 := by
  rw [rewrite, Dict.get_foldl_set]
  cases found : (writings upper record).reverse.lookup writing.1 with
  | none =>
      have differs := List.lookup_eq_none_iff.mp found writing (List.mem_reverse.mpr member)
      simp at differs
  | some body =>
      obtain ⟨before, after, split, -⟩ := List.lookup_eq_some_iff.mp found
      have listed : (writing.1, body) ∈ writings upper record := by
        rw [← List.mem_reverse, split]
        exact List.mem_append_right _ List.mem_cons_self
      exact congrArg some (determined _ listed rfl)

/-- Every finding was written, -/
theorem exists_writing {writings : List (Int × String)}
    (written : List.Forall₂ (WrittenFor upper reviewId database) findings writings)
    (member : finding ∈ findings) :
    ∃ writing ∈ writings, WrittenFor upper reviewId database finding writing := by
  induction written with
  | nil => cases member
  | cons head _ ih =>
      rcases List.mem_cons.mp member with rfl | later
      · exact ⟨_, List.mem_cons_self, head⟩
      · obtain ⟨writing, isWriting, holds⟩ := ih later
        exact ⟨writing, List.mem_cons_of_mem _ isWriting, holds⟩

/-- and whatever was written was a finding. -/
theorem exists_finding {writings : List (Int × String)} {writing : Int × String}
    (written : List.Forall₂ (WrittenFor upper reviewId database) findings writings)
    (member : writing ∈ writings) :
    ∃ finding ∈ findings, WrittenFor upper reviewId database finding writing := by
  induction written with
  | nil => cases member
  | cons head _ ih =>
      rcases List.mem_cons.mp member with rfl | later
      · exact ⟨_, List.mem_cons_self, head⟩
      · obtain ⟨finding, isFinding, holds⟩ := ih later
        exact ⟨finding, List.mem_cons_of_mem _ isFinding, holds⟩

/-- A comment is written once: no two findings have one. -/
theorem written_determined (recorded : Recorded reviewId database github)
    (postedFor : PostedFor reviewId database github) (distinct : (findings.map Finding.id).Nodup)
    {writings : List (Int × String)}
    (written : List.Forall₂ (WrittenFor upper reviewId database) findings writings)
    {one two : Int × String} (first : one ∈ writings) (second : two ∈ writings)
    (same : one.1 = two.1) : one.2 = two.2 := by
  obtain ⟨finding, isFinding, stored, body⟩ := exists_finding written first
  obtain ⟨other, isOther, otherStored, otherBody⟩ := exists_finding written second
  have sameId := subject_unique recorded postedFor stored (same ▸ otherStored)
  obtain rfl := List.inj_on_of_nodup_map distinct isFinding isOther sameId
  exact body.trans otherBody.symm

/-- What an attempt leaves when it returns. -/
theorem attempt_showsAll {installationId : UUID} {token : String} {publication : Publication}
    {pull : Except Raised Response} {decisions : List Decision} (bodies : Dict Int String)
    (recorded : Recorded reviewId publication.database publication.github)
    (postedFor : PostedFor reviewId
      (attempt reviewId installationId token publication pull decisions).database
      (attempt reviewId installationId token publication pull decisions).github)
    (returned : (attempt reviewId installationId token publication pull decisions).outcome =
      some (.ok ())) :
    ShowsAll upper reviewId ⟨attempt reviewId installationId token publication pull decisions,
      rewrite upper bodies (exchanges reviewId installationId token publication
        (.attempt pull decisions))⟩ := by
  obtain ⟨raised, ended, -⟩ | ⟨-, completed⟩ :=
    attempt_cases installationId token pull decisions recorded
  · rw [ended] at returned
    cases returned
  obtain ⟨texts, written⟩ := publishReview_writes recorded.mapped
    (Prod.ext (Option.some.inj returned) rfl)
  intro finding member
  obtain ⟨old, isOld, sameId, sameBody⟩ := exists_of_texts texts member
  obtain ⟨writing, isWriting, stored, body⟩ := exists_writing written isOld
  obtain ⟨-, live, -⟩ := completed.done finding member
  obtain ⟨commentId, isStored, isLive⟩ := hasLiveComment_iff.mp live
  have storedNow := (loaded_publishableFindings _ reviewId).stored member
  rw [isStored, ← sameId] at storedNow
  obtain rfl : commentId = writing.1 := Option.some.inj (storedNow.symm.trans stored)
  refine ⟨writing.1, ?_, ?_⟩
  · exact liveComments_eq completed.recorded postedFor (sameId ▸ stored) isLive
  · rw [← sameBody, ← body]
    refine get_rewrite isWriting fun other isOther same => ?_
    exact written_determined completed.recorded postedFor
      (loaded_publishableFindings _ reviewId).distinct written isOther isWriting same

/-- What every event keeps. -/
structure Follows (upper : String → String) (reviewId : UUID) (discussion : Discussion) : Prop where
  recorded : Recorded reviewId discussion.publication.database discussion.publication.github
  postedFor : PostedFor reviewId discussion.publication.database discussion.publication.github
  shows : discussion.publication.outcome = some (.ok ()) → ShowsAll upper reviewId discussion

theorem Follows.step {installationId : UUID} {token : String} {discussion next : Discussion}
    {event : PublicationEvent reviewId} (follows : Follows upper reviewId discussion)
    (moved : discuss upper reviewId installationId token discussion event = some next) :
    Follows upper reviewId next := by
  obtain ⟨publication, stepped, rfl⟩ : ∃ publication,
      Publisher.step reviewId installationId token discussion.publication event =
          some publication ∧
        next = ⟨publication, rewrite upper discussion.bodies
          (exchanges reviewId installationId token discussion.publication event)⟩ := by
    obtain ⟨publication, stepped, same⟩ := Option.bind_eq_some_iff.mp moved
    exact ⟨publication, stepped, (Option.some.inj same).symm⟩
  have recorded := recorded_step follows.recorded stepped
  cases event with
  | attempt pull decisions =>
      obtain rfl := Option.some.inj stepped
      have starts : PostedFor reviewId discussion.publication.database
          { discussion.publication.github with pull, decisions } :=
        follows.postedFor.sameObjects ⟨rfl, rfl⟩
      obtain ⟨outcome, -, postedFor⟩ := of_ensures
        (publishReview_postedFor installationId token starts)
      exact ⟨recorded, postedFor, attempt_showsAll discussion.bodies follows.recorded postedFor⟩
  | delete reviews comments =>
      obtain rfl := Option.some.inj stepped
      refine ⟨recorded, ?_, fun returned => by cases returned⟩
      intro findingId commentId stored
      obtain ⟨posting, member, rfl, rfl⟩ := follows.postedFor findingId commentId stored
      refine ⟨_, List.mem_map_of_mem member, ?_⟩
      split <;> exact ⟨rfl, rfl⟩
  | revise revision =>
      obtain rfl := Option.some.inj stepped
      refine ⟨recorded, ?_, fun returned => by cases returned⟩
      intro findingId commentId stored
      rw [revision.commentId_eq] at stored
      exact follows.postedFor findingId commentId stored

theorem Unpublished.postedFor (unpublished : Unpublished reviewId database) :
    PostedFor reviewId database {} := by
  intro findingId commentId stored
  obtain ⟨finding, found, isId⟩ := Option.bind_eq_some_iff.mp stored
  obtain ⟨member, -⟩ := (Table.find_eq_some_iff ..).mp found
  split at isId
  · rename_i inReview
    rw [unpublished.2 finding member inReview] at isId
    cases isId
  · cases isId

/-- **GitHub shows what is in the database** after every attempt that returns, in every run
from rows without stored ids: each publishable finding in one comment, with its current
body. -/
theorem publishReview_synchronizes (upper : String → String) (installationId : UUID)
    (token : String) (unpublished : Unpublished reviewId database)
    (events : List (PublicationEvent reviewId)) :
    ∀ discussion ∈ (discuss upper reviewId installationId token).visits ⟨{ database }, ∅⟩ events,
      discussion.publication.outcome = some (.ok ()) → ShowsAll upper reviewId discussion := by
  intro discussion visited
  refine (Machine.forall_visits (fun _ _ _ => Follows.step) ?_ events discussion visited).shows
  exact ⟨unpublished.recorded, unpublished.postedFor, fun returned => by cases returned⟩

/-- The finding is described anew. -/
def redescribe (description : String) : Revision (idEndingIn 2) where
  change database := { database with
    findings := database.findings.update (idEndingIn 3)
      (fun finding => { finding with description }) (fun _ => rfl) }
  reviewId_eq _ := rfl
  commentIds_eq _ := rfl
  commentId_eq database findingId := by
    unfold Database.storedCommentId
    rw [Table.find_update]
    split
    · rename_i same
      rw [same]
      cases database.findings.find (idEndingIn 3) <;> rfl
    · rfl

/-- The comment fails in the first attempt; it is created in the second, deleted, described anew
and created again. -/
theorem describedAnew_synchronizes :
    ∃ discussion, (discuss String.toUpper (idEndingIn 2) (idEndingIn 0) "token").run
        ⟨{ database := oneFinding }, ∅⟩
        [.attempt pullAtHead [.accept 10, .error 500], .attempt pullAtHead [.accept 0, .accept 20],
          .delete [] [20], .revise (redescribe "off by two"),
          .attempt pullAtHead [.accept 0, .accept 0, .accept 21]] = some discussion ∧
      liveComments discussion.publication.github (idEndingIn 3) = [21] ∧
      ShowsAll String.toUpper (idEndingIn 2) discussion := by
  obtain ⟨discussion, ran, created, returned⟩ : ∃ discussion,
      (discuss String.toUpper (idEndingIn 2) (idEndingIn 0) "token").run
        ⟨{ database := oneFinding }, ∅⟩
        [.attempt pullAtHead [.accept 10, .error 500], .attempt pullAtHead [.accept 0, .accept 20],
          .delete [] [20], .revise (redescribe "off by two"),
          .attempt pullAtHead [.accept 0, .accept 0, .accept 21]] = some discussion ∧
      liveComments discussion.publication.github (idEndingIn 3) = [21] ∧
      discussion.publication.outcome = some (.ok ()) := ⟨_, rfl, by decide, by decide⟩
  exact ⟨discussion, ran, created, publishReview_synchronizes String.toUpper (idEndingIn 0) "token"
    oneFinding_unpublished _ discussion
      ((Machine.mem_visits_iff ..).mpr ⟨_, [], (List.append_nil _).symm, ran⟩) returned⟩

end Publisher

end Kenjutsu.Pipeline
