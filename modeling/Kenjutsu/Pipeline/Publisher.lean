import Kenjutsu.Foundations.Serving
import Kenjutsu.Db.Models
import Kenjutsu.Http
import Kenjutsu.Models.Findings

/-!
# The idempotent publisher

`publish_review` creates a GitHub review and one comment for each publishable
finding, and keeps the ids it is given: the review's in its row, a comment's both
in the row of its finding and in the map of the review row. A retry updates what
the ids name and creates what is gone.

The model is a coroutine over the database. A row object of the session and the
row of its table are the same thing here: what was assigned is what the caller
commits.
-/

set_option autoImplicit false

namespace Kenjutsu.Pipeline

open Foundations Foundations.Coroutine Kenjutsu.Http Kenjutsu.Db

/-! ## What is sent -/

/-- The pull request that an attempt publishes to, and the token it uses. -/
structure PublishTarget where
  owner : String
  repo : String
  prNumber : Int
  headSha : String
  token : String
deriving DecidableEq

/-- What a call asks of GitHub. -/
inductive GitHubOperation where
  | getPull
  | createReview
  | updateReview (reviewId : Int)
  | createComment (finding : Finding)
  | updateComment (commentId : Int) (finding : Finding)
deriving DecidableEq

structure GitHubCall where
  target : PublishTarget
  operation : GitHubOperation
deriving DecidableEq

/-- A request as it goes over the wire. -/
structure HttpRequest where
  method : String
  url : String
  payload : Option Json
  headers : List (String × String)

namespace Publisher

def githubApiBase : String := "https://api.github.com"

/-- `_auth_headers`. -/
def authHeaders (token : String) : List (String × String) :=
  [("Authorization", "Bearer " ++ token), ("Accept", "application/vnd.github+json"),
    ("X-GitHub-Api-Version", "2022-11-28")]

/-- The values of `_PUBLISHABLE`. -/
def publishable : List String :=
  [Models.Publishability.publish.value, Models.Publishability.redactAndPublish.value]

def isPublishable (finding : Finding) : Bool := publishable.contains finding.publishability

def severityIcon (severity : String) : String :=
  if severity = "critical" then "🔴"
  else if severity = "warning" then "🟡"
  else if severity = "suggestion" then "🔵"
  else "⚪"

/-- `_finding_comment_body`; `upper` is the built-in method of texts. -/
def findingCommentBody (upper : String → String) (finding : Finding) : String :=
  let isRedacted := finding.publishability = Models.Publishability.redactAndPublish.value
  let description := if isRedacted then "[REDACTED]" else finding.description
  let headline := severityIcon finding.severity ++ " **" ++ upper finding.severity ++ "** [" ++
    finding.category ++ "] — " ++ description
  let suggestion := if isRedacted then [] else match finding.suggestion with
    | none => []
    | some suggestion =>
        if suggestion = "" then [] else ["", "**Suggestion:** " ++ suggestion]
  let fingerprint := if isRedacted then "[REDACTED]" else "`" ++ finding.fingerprint ++ "`"
  "\n".intercalate ([headline] ++ suggestion ++ ["", "*origin: " ++ finding.origin ++
    " · confidence: " ++ finding.confidence ++ " · fingerprint: " ++ fingerprint ++ "*"])

/-- The method of a call, the rest of its URL and its payload. -/
def wire (upper : String → String) (target : PublishTarget) :
    GitHubOperation → String × String × Option Json
  | .getPull => ("GET", "/pulls/" ++ toString target.prNumber, none)
  | .createReview => ("POST", "/pulls/" ++ toString target.prNumber ++ "/reviews",
      some (.object [("commit_id", .string target.headSha), ("event", .string "COMMENT"),
        ("body", .string "Kenjutsu automated review"), ("comments", .array [])]))
  | .updateReview reviewId =>
      ("PUT", "/pulls/" ++ toString target.prNumber ++ "/reviews/" ++ toString reviewId,
        some (.object [("body", .string "Kenjutsu automated review")]))
  | .createComment finding => ("POST", "/pulls/" ++ toString target.prNumber ++ "/comments",
      some (.object [("body", .string (findingCommentBody upper finding)),
        ("commit_id", .string target.headSha), ("path", .string finding.filePath),
        ("line", .integer finding.lineEnd), ("side", .string "RIGHT")]))
  | .updateComment commentId finding => ("PATCH", "/pulls/comments/" ++ toString commentId,
      some (.object [("body", .string (findingCommentBody upper finding))]))

/-- The request a call sends. -/
def request (upper : String → String) (call : GitHubCall) : HttpRequest :=
  let (method, path, payload) := wire upper call.target call.operation
  { method
    url := githubApiBase ++ "/repos/" ++ call.target.owner ++ "/" ++ call.target.repo ++ path
    payload
    headers := authHeaders call.target.token }

end Publisher

/-! ## The publisher -/

/-- The awaits of the publisher: a call, or `session.flush()`. -/
inductive PublisherRequest where
  | http (call : GitHubCall)
  | flush

def PublisherRequest.Answer : PublisherRequest → Type
  | .http _ => Response
  | .flush => Unit

abbrev Publisher := Coroutine Database PublisherRequest.Answer Raised

namespace Publisher

def send (target : PublishTarget) (operation : GitHubOperation) : Publisher Response :=
  call (PublisherRequest.http ⟨target, operation⟩)

/-- `session.flush()`. -/
def flush : Publisher Unit := call PublisherRequest.flush

/-- `resp.json()["id"]`, declared an `int`. -/
def responseId (response : Response) : Except Raised Int := do
  let data ← response.json
  let id ← data.item "id"
  id.asInt

/-- The POST of `_create_review` and `_create_comment`: raise unless it succeeded,
and return the id. -/
def create (target : PublishTarget) (operation : GitHubOperation) : Publisher Int := do
  let response ← send target operation
  ofExcept response.raiseForStatus
  ofExcept (responseId response)

/-- The PUT and PATCH of `_update_review` and `_update_comment`: `False` if the
object no longer exists. -/
def update (target : PublishTarget) (operation : GitHubOperation) : Publisher Bool := do
  let response ← send target operation
  if response.statusCode = 404 then pure false
  else do
    ofExcept response.raiseForStatus
    pure true

/-- `_create_review`. -/
def createReview (target : PublishTarget) : Publisher Int := create target .createReview

/-- `_update_review`. -/
def updateReview (target : PublishTarget) (reviewId : Int) : Publisher Bool :=
  update target (.updateReview reviewId)

/-- `_create_comment`. -/
def createComment (target : PublishTarget) (finding : Finding) : Publisher Int :=
  create target (.createComment finding)

/-- `_update_comment`. -/
def updateComment (target : PublishTarget) (commentId : Int) (finding : Finding) :
    Publisher Bool :=
  update target (.updateComment commentId finding)

/-- `scalar_one_or_none` of a result. -/
def scalarOneOrNone {Row : Type} : List Row → Except Raised (Option Row)
  | [] => .ok none
  | [row] => .ok (some row)
  | _ => .error .other

/-- The reviews with the id whose repo belongs to the installation. -/
def selectReviews (database : Database) (reviewId installationId : UUID) : List Review :=
  database.reviews.rows.filter fun review => review.id = reviewId &&
    database.repos.rows.any fun repo =>
      repo.id = review.repoId && repo.installationId = installationId

def loadReview (reviewId installationId : UUID) : Publisher Review := do
  let database ← get
  match ← ofExcept (scalarOneOrNone (selectReviews database reviewId installationId)) with
  | some review => pure review
  | none => raise (.valueError ("Review " ++ reviewId.str ++ " not found"))

def selectRepos (database : Database) (repoId installationId : UUID) : List Repo :=
  database.repos.rows.filter fun repo =>
    repo.id = repoId && repo.installationId = installationId

def loadRepo (repoId installationId : UUID) : Publisher Repo := do
  let database ← get
  match ← ofExcept (scalarOneOrNone (selectRepos database repoId installationId)) with
  | some repo => pure repo
  | none => raise (.valueError ("Repo " ++ repoId.str ++ " not found"))

/-- `owner, repo_name = full_name.split("/", 1)`. -/
def splitFullName (fullName : String) : Except Raised (String × String) :=
  match fullName.toList.span (· ≠ '/') with
  | (owner, _ :: name) => .ok (String.ofList owner, String.ofList name)
  | (_, []) => .error (.valueError "not enough values to unpack (expected 2, got 1)")

def selectFindings (database : Database) (reviewId : UUID) : List Finding :=
  database.findings.rows.filter fun finding => finding.reviewId = reviewId

/-- The findings an attempt publishes. -/
def publishableFindings (database : Database) (reviewId : UUID) : List Finding :=
  (selectFindings database reviewId).filter isPublishable

/-- `review_row.github_review_id = …`. -/
def assignReviewId (reviewId : UUID) (githubReviewId : Int) : Publisher Unit :=
  modify fun database => database.setReviewId reviewId githubReviewId

/-- `review_row.github_comment_ids = …`. -/
def assignCommentIds (reviewId : UUID) (commentIdMap : Dict String Int) : Publisher Unit :=
  modify fun database => database.setCommentIds reviewId commentIdMap

/-- `finding.github_comment_id = …`. -/
def assignCommentId (findingId : UUID) (commentId : Int) : Publisher Unit :=
  modify fun database => database.setCommentId findingId commentId

/-- `finding.published = True`. -/
def assignPublished (findingId : UUID) : Publisher Unit :=
  modify fun database => database.setPublished findingId

/-- The sha guard: abort if the pull request was force-pushed since the analysis. -/
def checkHead (target : PublishTarget) : Publisher Unit := do
  let response ← send target .getPull
  ofExcept response.raiseForStatus
  let currentSha ← ofExcept response.headSha
  if currentSha.isText target.headSha then pure ()
  else raise (.valueError ("Head SHA mismatch for PR #" ++ toString target.prNumber ++
    ": expected " ++ target.headSha ++ ", got " ++ currentSha.text))

/-- Ensure the GitHub review exists, and return the map of comment ids to go on
with: an emptied one if the review had to be recreated. -/
def ensureReview (target : PublishTarget) (reviewId : UUID) (githubReviewId : Option Int)
    (commentIdMap : Dict String Int) : Publisher (Dict String Int) :=
  match githubReviewId with
  | none => do
      let created ← createReview target
      assignReviewId reviewId created
      flush
      pure commentIdMap
  | some githubReviewId => do
      if ← updateReview target githubReviewId then pure commentIdMap
      else do
        let created ← createReview target
        assignReviewId reviewId created
        flush
        pure ∅

/-- `comment_id_map.get(finding_key) or finding.github_comment_id`: an id of zero
in the map counts as none. -/
def existingCommentId (commentIdMap : Dict String Int) (finding : Finding) : Option Int :=
  match commentIdMap.get finding.id.str with
  | none => finding.githubCommentId
  | some commentId => if commentId = 0 then finding.githubCommentId else some commentId

/-- Create or update the comment of one finding, and return the map. -/
def publishFinding (target : PublishTarget) (reviewId : UUID) (commentIdMap : Dict String Int)
    (finding : Finding) : Publisher (Dict String Int) :=
  match existingCommentId commentIdMap finding with
  | none => do
      let newCommentId ← createComment target finding
      assignCommentId finding.id newCommentId
      assignPublished finding.id
      let commentIdMap := commentIdMap.set finding.id.str newCommentId
      assignCommentIds reviewId commentIdMap
      flush
      pure commentIdMap
  | some existing => do
      if ← updateComment target existing finding then do
        assignPublished finding.id
        pure commentIdMap
      else do
        let newCommentId ← createComment target finding
        assignCommentId finding.id newCommentId
        let commentIdMap := commentIdMap.set finding.id.str newCommentId
        assignCommentIds reviewId commentIdMap
        flush
        assignPublished finding.id
        pure commentIdMap

/-- The loop over the publishable findings. -/
def publishFindings (target : PublishTarget) (reviewId : UUID) :
    Dict String Int → List Finding → Publisher (Dict String Int)
  | commentIdMap, [] => pure commentIdMap
  | commentIdMap, finding :: findings => do
      let commentIdMap ← publishFinding target reviewId commentIdMap finding
      publishFindings target reviewId commentIdMap findings

/-- The stages after the sha guard: the review, the comments, the final map. -/
def publishLoaded (target : PublishTarget) (reviewRow : Review) (findings : List Finding) :
    Publisher Unit := do
  let commentIdMap ← ensureReview target reviewRow.id reviewRow.githubReviewId
    (reviewRow.githubCommentIds.getD ∅)
  let commentIdMap ← publishFindings target reviewRow.id commentIdMap findings
  assignCommentIds reviewRow.id commentIdMap

/-- `publish_review`. -/
def publishReview (reviewId installationId : UUID) (githubToken : String) : Publisher Unit := do
  let reviewRow ← loadReview reviewId installationId
  let repoRow ← loadRepo reviewRow.repoId installationId
  let (owner, repoName) ← ofExcept (splitFullName repoRow.fullName)
  let database ← get
  let publishableFindings := (selectFindings database reviewId).filter isPublishable
  let target : PublishTarget :=
    ⟨owner, repoName, reviewRow.prNumber, reviewRow.headSha, githubToken⟩
  checkHead target
  publishLoaded target reviewRow publishableFindings

/-! ## For concrete runs -/

/-- An id that ends in a digit. -/
def idEndingIn (digit : Fin 16) : UUID := ⟨List.replicate 31 0 ++ [digit], rfl⟩

/-- One repo, -/
def octoRepos : Table Repo.id :=
  ⟨[⟨idEndingIn 1, idEndingIn 0, "octo/repo"⟩], List.nodup_singleton _⟩

/-- and one review of it that was never published. -/
def octoReviews : Table Review.id :=
  ⟨[{ id := idEndingIn 2, repoId := idEndingIn 1, prNumber := 7, headSha := "abc" }],
    List.nodup_singleton _⟩

/-- GitHub's answer for a pull request at the expected commit. -/
def pullAtHead : Except Raised Response :=
  .ok ⟨200, fun _ => none, some (.object [("head", .object [("sha", .string "abc")])])⟩

end Publisher

end Kenjutsu.Pipeline
