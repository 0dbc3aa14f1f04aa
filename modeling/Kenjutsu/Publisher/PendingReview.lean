import Kenjutsu.Foundations.Sorting
import Kenjutsu.Foundations.Text
import Kenjutsu.Foundations.Transcripts
import Kenjutsu.Http
import Kenjutsu.Models.Findings

/-!
# The pending review publisher

`PendingReviewPublisher` submits all findings of a review in one POST. It keeps the
`X-RateLimit-Remaining` header of the last response that had one, and while that is
below the floor it sends critical findings only.

The publisher is used for many reviews, so what one call sends may depend on the
answer to a call long before it (`publishes_of_run`).
-/

set_option autoImplicit false

namespace Kenjutsu.Publisher

open Foundations Foundations.Coroutine Kenjutsu.Http Kenjutsu.Models

/-! ## The publisher -/

/-- The fields of the publisher that its calls read and write. -/
structure PendingReviewPublisher where
  owner : String
  repo : String
  pullNumber : Int
  rateLimitRemaining : Option Int := none
deriving DecidableEq, Repr

/-- What `publish` raises: its own exception, or one of the HTTP client. -/
inductive PublishRaised where
  | rateLimitExceeded (message : String)
  | http (raised : Raised)
deriving DecidableEq, Repr

/-- `self._client.post(url, json=payload)`. -/
structure PostRequest where
  url : String
  payload : Json

def PostRequest.Answer (_ : PostRequest) : Type := Response

abbrev BatchPublisher := Coroutine PendingReviewPublisher PostRequest.Answer PublishRaised

def githubApiBase : String := "https://api.github.com"

def rateLimitFloor : Int := 20

/-- `SEVERITY_BADGES`. -/
def severityBadge : Severity → String
  | .critical => "🔴 **critical**"
  | .warning => "🟡 **warning**"
  | .suggestion => "💡 **suggestion**"

/-- `_SEVERITY_ORDER`. -/
def severityOrder : Severity → Nat
  | .critical => 0
  | .warning => 1
  | .suggestion => 2

def formatCommentBody (finding : Finding) : String :=
  let badge := severityBadge finding.severity
  let body := badge ++ "\n\n" ++ finding.description
  match finding.suggestion with
  | none => body
  | some suggestion =>
      if suggestion = "" then body
      else body ++ ("\n\n```suggestion\n" ++ suggestion ++ "\n```")

/-- `_is_publishable`. -/
def isPublishable (finding : Finding) : Bool :=
  finding.publishability = .publish || finding.publishability = .redactAndPublish

/-- `_build_comment`. -/
def buildComment (finding : Finding) : Json :=
  .object ([("path", .string finding.filePath), ("body", .string (formatCommentBody finding)),
      ("side", .string "RIGHT")] ++
    if finding.lineStart = finding.lineEnd then [("line", .integer finding.lineEnd)]
    else [("start_line", .integer finding.lineStart), ("start_side", .string "RIGHT"),
      ("line", .integer finding.lineEnd)])

namespace PendingReviewPublisher

/-- `_near_rate_limit`. -/
def nearRateLimit (publisher : PendingReviewPublisher) : Bool :=
  match publisher.rateLimitRemaining with
  | none => false
  | some remaining => remaining < rateLimitFloor

/-- The findings that are sent, in this order. -/
def selected (publisher : PendingReviewPublisher) (findings : List Finding) : List Finding :=
  let publishable := findings.filter isPublishable
  let publishable := sortBy (fun finding => severityOrder finding.severity) publishable
  if publisher.nearRateLimit then
    publishable.filter fun finding => finding.severity = .critical
  else publishable

/-- The request that `publish` sends. -/
def request (publisher : PendingReviewPublisher) (findings : List Finding) (body : String) :
    PostRequest where
  url := githubApiBase ++ "/repos/" ++ publisher.owner ++ "/" ++ publisher.repo ++ "/pulls/" ++
    toString publisher.pullNumber ++ "/reviews"
  payload := .object [("body", .string body), ("event", .string "COMMENT"),
    ("comments", .array ((publisher.selected findings).map buildComment))]

end PendingReviewPublisher

/-- `_record_rate_limit`: a header that is not a number raises. -/
def recordRateLimit (response : Response) : BatchPublisher Unit :=
  match response.headers "X-RateLimit-Remaining" with
  | none => pure ()
  | some raw =>
      match Text.parseInt raw.toList with
      | none => raise (.http (.valueError ("invalid literal for int() with base 10: " ++ raw)))
      | some remaining => modify fun publisher =>
          { publisher with rateLimitRemaining := some remaining }

/-- What `publish` does with the response. -/
def handleResponse (response : Response) : BatchPublisher Json := do
  recordRateLimit response
  ofExcept (response.raiseForStatus.mapError .http)
  let publisher ← get
  if publisher.nearRateLimit then
    raise (.rateLimitExceeded ("GitHub rate limit nearly exhausted: " ++
      (publisher.rateLimitRemaining.map toString).getD "None" ++ " remaining"))
  else ofExcept (response.json.mapError .http)

/-- `publish`. -/
def publish (findings : List Finding) (body : String) : BatchPublisher Json := do
  let publisher ← get
  let response ← call (publisher.request findings body)
  handleResponse response

/-! ## Whole runs -/

/-- A call of `publish` and the response to its request. -/
structure Submission where
  findings : List Finding
  body : String
  response : Response

/-- What a call did: the requests it sent, and how it ended. -/
structure PublishRecord where
  sent : List PostRequest
  outcome : Except PublishRaised Json

namespace Submission

/-- GitHub answers every request of the call with the response. -/
def respond (submission : Submission) (server : Unit) (request : PostRequest) :
    Except PublishRaised (PostRequest.Answer request) × Unit :=
  (.ok submission.response, server)

def record (submission : Submission) (publisher : PendingReviewPublisher) : PublishRecord where
  sent := ((publish submission.findings submission.body).transcript submission.respond publisher ()).map
    Exchange.request
  outcome := ((publish submission.findings submission.body).serve submission.respond publisher ()).1

/-- The publisher after the call. -/
def after (submission : Submission) (publisher : PendingReviewPublisher) : PendingReviewPublisher :=
  ((publish submission.findings submission.body).serve submission.respond publisher ()).2.1

end Submission

/-- Calls on one publisher, one after the other. -/
def publishAll : PendingReviewPublisher → List Submission → List PublishRecord
  | _, [] => []
  | publisher, submission :: later =>
      submission.record publisher :: publishAll (submission.after publisher) later

/-- The header of a response as a number. -/
def remaining (response : Response) : Option Int :=
  (response.headers "X-RateLimit-Remaining").bind fun raw => Text.parseInt raw.toList

/-- The header is absent or a decimal number. -/
def NumericHeader (response : Response) : Prop :=
  ∀ raw, response.headers "X-RateLimit-Remaining" = some raw → (Text.parseInt raw.toList).isSome

/-- The last header received. -/
def lastRemaining (responses : List Response) : Option Int :=
  (responses.filterMap remaining).getLast?

/-- A known number of calls that is below the floor. -/
def BelowFloor (remaining : Option Int) : Prop :=
  ∃ number, remaining = some number ∧ number < rateLimitFloor

instance (remaining : Option Int) : Decidable (BelowFloor remaining) :=
  match remaining with
  | none => isFalse (by simp [BelowFloor])
  | some number => decidable_of_iff (number < rateLimitFloor) (by simp [BelowFloor])

/-- The publishable findings of a severity. -/
def ofSeverity (severity : Severity) (findings : List Finding) : List Finding :=
  findings.filter fun finding => isPublishable finding && finding.severity = severity

/-- What a call is to send when the header was last seen with the given value. -/
def toSend (last : Option Int) (findings : List Finding) : List Finding :=
  if BelowFloor last then ofSeverity .critical findings
  else ofSeverity .critical findings ++ ofSeverity .warning findings ++
    ofSeverity .suggestion findings

/-- What a call is to do after earlier ones: one POST, with the comments of the
findings that are to be sent; without a restriction none of the publishable findings is
missing; and the call raises `RateLimitExceededError` exactly when its response is a
success and the last header received is below the floor. -/
structure PublishesOnce (publisher : PendingReviewPublisher) (earlier : List Submission)
    (submission : Submission) (record : PublishRecord) : Prop where
  sent : ∃ request, record.sent = [request] ∧
    request.url = githubApiBase ++ "/repos/" ++ publisher.owner ++ "/" ++ publisher.repo ++
      "/pulls/" ++ toString publisher.pullNumber ++ "/reviews" ∧
    request.payload = .object [("body", .string submission.body), ("event", .string "COMMENT"),
      ("comments", .array ((toSend (lastRemaining (earlier.map Submission.response))
        submission.findings).map buildComment))]
  complete : ¬ BelowFloor (lastRemaining (earlier.map Submission.response)) →
    (toSend (lastRemaining (earlier.map Submission.response)) submission.findings).Perm
      (submission.findings.filter isPublishable)
  raises_iff : (∃ message, record.outcome = .error (.rateLimitExceeded message)) ↔
    submission.response.raiseForStatus = .ok () ∧
      BelowFloor (lastRemaining ((earlier ++ [submission]).map Submission.response))

/-! ## One call -/

variable {publisher : PendingReviewPublisher} {findings : List Finding} {submission : Submission}

theorem nearRateLimit_iff :
    publisher.nearRateLimit ↔ BelowFloor publisher.rateLimitRemaining := by
  unfold PendingReviewPublisher.nearRateLimit BelowFloor
  cases publisher.rateLimitRemaining <;> simp

/-- The findings of a severity, among those that are of some severity. -/
theorem filter_ofSeverity (severity kept : Severity) (findings : List Finding) :
    (ofSeverity severity findings).filter (fun finding => finding.severity = kept) =
      if severity = kept then ofSeverity severity findings else [] := by
  by_cases same : severity = kept
  · rw [if_pos same, List.filter_eq_self]
    intro finding member
    have own := (Bool.and_eq_true_iff.mp (List.mem_filter.mp member).2).2
    rwa [← same]
  · rw [if_neg same, List.filter_eq_nil_iff]
    intro finding member isKept
    have own := of_decide_eq_true (Bool.and_eq_true_iff.mp (List.mem_filter.mp member).2).2
    exact same (own.symm.trans (of_decide_eq_true isKept))

/-- Sorting lines up the severities. -/
theorem sortBy_severityOrder (findings : List Finding) :
    sortBy (fun finding => severityOrder finding.severity) (findings.filter isPublishable) =
      ofSeverity .critical findings ++ ofSeverity .warning findings ++
        ofSeverity .suggestion findings := by
  have increasing : [0, 1, 2].Pairwise (· < ·) := by decide
  have among : ∀ finding ∈ findings.filter isPublishable,
      severityOrder finding.severity ∈ [0, 1, 2] := by
    intro finding _
    cases finding.severity <;> decide
  have orders : ([.critical, .warning, .suggestion] : List Severity).map severityOrder =
      [0, 1, 2] := rfl
  have group : ∀ severity, ((findings.filter isPublishable).filter fun finding =>
      severityOrder finding.severity = severityOrder severity) = ofSeverity severity findings := by
    intro severity
    rw [List.filter_filter, ofSeverity]
    refine List.filter_congr fun finding _ => ?_
    rw [Bool.and_comm]
    congr 1
    cases finding.severity <;> cases severity <;> rfl
  rw [sortBy_eq_flatMap increasing among, ← orders, List.flatMap_map]
  simp only [group, List.flatMap_cons, List.flatMap_nil, List.append_nil, List.append_assoc]

/-- **What a publisher sends** is decided by the header it saw last. -/
theorem selected_eq (publisher : PendingReviewPublisher) (findings : List Finding) :
    publisher.selected findings = toSend publisher.rateLimitRemaining findings := by
  unfold PendingReviewPublisher.selected toSend
  simp only [sortBy_severityOrder]
  by_cases near : publisher.nearRateLimit
  · rw [if_pos near, if_pos (nearRateLimit_iff.mp near), List.filter_append, List.filter_append,
      filter_ofSeverity, filter_ofSeverity, filter_ofSeverity]
    simp
  · rw [if_neg near, if_neg fun below => near (nearRateLimit_iff.mpr below)]

/-- The publisher after a response with the header or without it. -/
def PendingReviewPublisher.recorded (publisher : PendingReviewPublisher) (response : Response) :
    PendingReviewPublisher :=
  { publisher with rateLimitRemaining := (remaining response).or publisher.rateLimitRemaining }

variable {respond : Unit → (request : PostRequest) →
    Except PublishRaised (PostRequest.Answer request) × Unit} {response : Response}

theorem serve_recordRateLimit (numeric : NumericHeader response) :
    (recordRateLimit response).serve respond publisher () =
      (.ok (), publisher.recorded response, ()) := by
  unfold recordRateLimit PendingReviewPublisher.recorded remaining
  cases header : response.headers "X-RateLimit-Remaining" with
  | none => rfl
  | some raw =>
      obtain ⟨number, isNumber⟩ := Option.isSome_iff_exists.mp (numeric raw header)
      simp only [Option.bind_some, isNumber, Option.some_or]
      rfl

/-- How a call ends when the publisher is as it is after its response. -/
def outcomeAfter (response : Response) (publisher : PendingReviewPublisher) :
    Except PublishRaised Json := do
  response.raiseForStatus.mapError .http
  if publisher.nearRateLimit then
    .error (.rateLimitExceeded ("GitHub rate limit nearly exhausted: " ++
      (publisher.rateLimitRemaining.map toString).getD "None" ++ " remaining"))
  else response.json.mapError .http

/-- The header is remembered before the status is looked at. -/
theorem serve_handleResponse (numeric : NumericHeader response) :
    (handleResponse response).serve respond publisher () =
      (outcomeAfter response (publisher.recorded response), publisher.recorded response, ()) := by
  unfold handleResponse outcomeAfter
  rw [serve_bind_of_ok (serve_recordRateLimit numeric)]
  cases response.raiseForStatus with
  | error raised => rfl
  | ok =>
      have passed : (ofExcept (.ok ()) : BatchPublisher Unit).serve respond
          (publisher.recorded response) () = (.ok (), publisher.recorded response, ()) := rfl
      have read : (get : BatchPublisher PendingReviewPublisher).serve respond
          (publisher.recorded response) () =
            (.ok (publisher.recorded response), publisher.recorded response, ()) := rfl
      refine (serve_bind_of_ok passed).trans ?_
      rw [serve_bind_of_ok read]
      split <;> rfl

/-- What one call does to the publisher, and how it ends. -/
theorem serve_publish (numeric : NumericHeader submission.response) :
    (publish submission.findings submission.body).serve submission.respond publisher () =
      (outcomeAfter submission.response (publisher.recorded submission.response),
        publisher.recorded submission.response, ()) :=
  serve_handleResponse numeric

theorem asksOnly_recordRateLimit (response : Response) :
    AsksOnly (fun _ => False) (recordRateLimit response) := by
  unfold recordRateLimit
  split
  · exact asksOnly_finish _
  · split
    · exact asksOnly_finish _
    · exact asksOnly_modify _

/-- Nothing is asked for once the response is there. -/
theorem asksOnly_handleResponse (response : Response) :
    AsksOnly (fun _ => False) (handleResponse response) := by
  refine (asksOnly_recordRateLimit response).bind fun _ => ?_
  refine (asksOnly_finish _).bind fun _ => asksOnly_get.bind fun publisher => ?_
  split <;> exact asksOnly_finish _

/-- Whatever the response, a call sends exactly one request. -/
theorem sent_publish (publisher : PendingReviewPublisher) (submission : Submission) :
    (submission.record publisher).sent =
      [publisher.request submission.findings submission.body] := by
  have nothing : (handleResponse submission.response).transcript submission.respond publisher () =
      [] := (asksOnly_handleResponse _).transcript_eq_nil
  exact congrArg
    (List.map Exchange.request ∘ List.cons ⟨publisher.request submission.findings submission.body,
      .ok submission.response⟩) nothing

/-- A call raises for the rate limit exactly when it succeeded and the publisher is near
the limit after it. -/
theorem outcomeAfter_eq_rateLimitExceeded_iff :
    (∃ message, outcomeAfter response publisher = .error (.rateLimitExceeded message)) ↔
      response.raiseForStatus = .ok () ∧ BelowFloor publisher.rateLimitRemaining := by
  unfold outcomeAfter
  cases response.raiseForStatus with
  | error raised =>
      constructor
      · rintro ⟨message, ⟨⟩⟩
      · rintro ⟨⟨⟩, -⟩
  | ok =>
      rw [← nearRateLimit_iff]
      by_cases near : publisher.nearRateLimit
      · constructor
        · intro _
          exact ⟨rfl, near⟩
        · intro _
          simp only [if_pos near]
          exact ⟨_, rfl⟩
      · simp only [if_neg near]
        constructor
        · rintro ⟨message, raised⟩
          cases decoded : response.json with
          | ok value =>
              rw [decoded] at raised
              cases raised
          | error failure =>
              rw [decoded] at raised
              cases raised
        · rintro ⟨-, isNear⟩
          exact absurd isNear near

/-! ## The whole run -/

/-- The publisher after some calls. -/
def afterAll (publisher : PendingReviewPublisher) (calls : List Submission) :
    PendingReviewPublisher :=
  calls.foldl (fun publisher submission => submission.after publisher) publisher

theorem after_eq (numeric : NumericHeader submission.response) :
    submission.after publisher = publisher.recorded submission.response := by
  rw [Submission.after, serve_publish numeric]

theorem lastRemaining_cons (response : Response) (responses : List Response) :
    lastRemaining (response :: responses) =
      (lastRemaining responses).or (remaining response) := by
  unfold lastRemaining
  cases found : remaining response with
  | none => rw [List.filterMap_cons_none found, Option.or_none]
  | some number =>
      rw [List.filterMap_cons_some found, List.getLast?_cons]
      cases (responses.filterMap remaining).getLast? <;> rfl

/-- **What the publisher remembers** is the last header received. -/
theorem afterAll_eq {calls : List Submission}
    (numeric : ∀ submission ∈ calls, NumericHeader submission.response) :
    afterAll publisher calls =
      { publisher with rateLimitRemaining :=
          (lastRemaining (calls.map Submission.response)).or publisher.rateLimitRemaining } := by
  induction calls generalizing publisher with
  | nil => rfl
  | cons submission calls ih =>
      obtain ⟨first, others⟩ := List.forall_mem_cons.mp numeric
      calc afterAll publisher (submission :: calls)
          = afterAll (publisher.recorded submission.response) calls :=
            congrArg (afterAll · calls) (after_eq first)
        _ = { publisher with
              rateLimitRemaining := (lastRemaining (calls.map Submission.response)).or
                ((remaining submission.response).or publisher.rateLimitRemaining) } := ih others
        _ = _ := by rw [List.map_cons, lastRemaining_cons, Option.or_assoc]

/-- The record of the call after some others. -/
theorem getElem?_publishAll (publisher : PendingReviewPublisher) (earlier : List Submission)
    (submission : Submission) (later : List Submission) :
    (publishAll publisher (earlier ++ submission :: later))[earlier.length]? =
      some (submission.record (afterAll publisher earlier)) := by
  induction earlier generalizing publisher with
  | nil => rfl
  | cons first earlier ih => exact ih (first.after publisher)

/-- The call after some others does what it is to do. -/
theorem publishesOnce (fresh : publisher.rateLimitRemaining = none) {earlier : List Submission}
    (numeric : ∀ call ∈ earlier ++ [submission], NumericHeader call.response) :
    PublishesOnce publisher earlier submission
      (submission.record (afterAll publisher earlier)) := by
  have before : ∀ call ∈ earlier, NumericHeader call.response := fun call member =>
    numeric call (List.mem_append_left _ member)
  have own : NumericHeader submission.response :=
    numeric submission (List.mem_append_right _ (List.mem_singleton_self _))
  have reached : afterAll publisher earlier =
      { publisher with
        rateLimitRemaining := lastRemaining (earlier.map Submission.response) } := by
    rw [afterAll_eq before, fresh, Option.or_none]
  refine ⟨⟨_, sent_publish _ submission, ?_, ?_⟩, ?_, ?_⟩
  · rw [reached]
    rfl
  · simp only [PendingReviewPublisher.request, selected_eq, reached]
  · intro unrestricted
    rw [toSend, if_neg unrestricted, ← sortBy_severityOrder]
    exact perm_sortBy _
  · have last : ((afterAll publisher earlier).recorded submission.response).rateLimitRemaining =
        lastRemaining ((earlier ++ [submission]).map Submission.response) := by
      have after : afterAll publisher (earlier ++ [submission]) =
          (afterAll publisher earlier).recorded submission.response := by
        rw [afterAll, List.foldl_append]
        exact after_eq own
      rw [← after, afterAll_eq numeric, fresh, Option.or_none]
    rw [← last, ← outcomeAfter_eq_rateLimitExceeded_iff, Submission.record, serve_publish own]

/-- **A publisher over a whole run.** -/
theorem publishes_of_run (owner repo : String) (pullNumber : Int) (calls : List Submission)
    (numeric : ∀ submission ∈ calls, NumericHeader submission.response) :
    ∀ earlier submission later, calls = earlier ++ submission :: later →
      ∃ record, (publishAll ⟨owner, repo, pullNumber, none⟩ calls)[earlier.length]? = some record ∧
        PublishesOnce ⟨owner, repo, pullNumber, none⟩ earlier submission record := by
  rintro earlier submission later rfl
  refine ⟨_, getElem?_publishAll _ earlier submission later, publishesOnce rfl ?_⟩
  intro call member
  refine numeric call ?_
  rw [List.append_cons]
  exact List.mem_append_left _ member

/-- A finding in one line. -/
def exampleFinding (severity : Severity) : Finding where
  filePath := "src/main.py"
  lineStart := 5
  lineEnd := 5
  origin := .llm
  confidence := .high
  severity := severity
  category := .bug
  description := "Missing input validation"

/-- A refused call that leaves three calls, and one that succeeds without the header. -/
def refusedThenAccepted : List Submission :=
  [⟨[exampleFinding .warning], "", ⟨403, fun _ => some "3", none⟩⟩,
    ⟨[exampleFinding .warning, exampleFinding .critical], "", ⟨200, fun _ => none, some .null⟩⟩]

/-- The refused call restricts the next one, which sends the critical finding and raises. -/
theorem refusedThenAccepted_publishes :
    ∃ record, (publishAll ⟨"acme", "kenjutsu", 7, none⟩ refusedThenAccepted)[1]? = some record ∧
      PublishesOnce ⟨"acme", "kenjutsu", 7, none⟩ [refusedThenAccepted[0]] refusedThenAccepted[1]
        record ∧
      toSend (lastRemaining [refusedThenAccepted[0].response]) refusedThenAccepted[1].findings =
        [exampleFinding .critical] := by
  have numeric : ∀ submission ∈ refusedThenAccepted, NumericHeader submission.response := by
    simp [refusedThenAccepted, NumericHeader]
    decide
  obtain ⟨record, found, publishes⟩ := publishes_of_run "acme" "kenjutsu" 7 refusedThenAccepted
    numeric [refusedThenAccepted[0]] refusedThenAccepted[1] [] rfl
  refine ⟨record, found, publishes, ?_⟩
  decide

end Kenjutsu.Publisher
