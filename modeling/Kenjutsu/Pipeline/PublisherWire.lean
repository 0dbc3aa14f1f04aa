import Kenjutsu.Foundations.TwoRuns
import Kenjutsu.Pipeline.PublisherHead

/-!
# What the publisher shows

Two attempts are compared by what goes over the wire: method, URL, payload and
headers of each request, and the answers. Two attempts run in step when they load
the same review and the same pull request, and their findings have the same
comments (`publishReview_inStep`); a server on the other side of the wire then
cannot tell them apart (`attempts_alike`).
-/

set_option autoImplicit false

namespace Kenjutsu.Pipeline

open Foundations Foundations.Coroutine Kenjutsu.Http Kenjutsu.Db

namespace Publisher

/-! ## The wire -/

/-- What is observed: requests as they go over the wire, and their answers; of a
flush, only how it ends. -/
def wireObserver (upper : String → String) :
    Observer PublisherRequest.Answer Raised (Option HttpRequest)
      (Option HttpRequest × Except Raised (Option Response)) where
  asks
    | .http call => some (request upper call)
    | .flush => none
  sees
    | ⟨.http call, answer⟩ => (some (request upper call), answer.map some)
    | ⟨.flush, answer⟩ => (none, answer.map fun _ => none)

/-- The other side of the wire, and of the session. -/
structure WireServer (Server : Type) where
  http : Server → HttpRequest → Except Raised Response × Server
  flush : Server → Except Raised Unit × Server

variable {upper : String → String} {Server : Type}

def WireServer.respond (upper : String → String) (wire : WireServer Server) (server : Server) :
    (request : PublisherRequest) → Except Raised request.Answer × Server
  | .http call => wire.http server (request upper call)
  | .flush => wire.flush server

theorem WireServer.answersAlike (wire : WireServer Server) :
    AnswersAlike (wireObserver upper) (wire.respond upper) := by
  rintro server (call | _) (other | _) same
  · have sameRequest : request upper call = request upper other := Option.some.inj same
    simp [wireObserver, WireServer.respond, sameRequest]
  · cases same
  · cases same
  · exact ⟨rfl, rfl⟩

variable {states : Database → Database → Prop} {left right : Database} {target : PublishTarget}

/-- A sequence of responses, for any calls; after it the transport fails. -/
def scriptedWire : WireServer (List (Except Raised Response)) where
  http responses _ := match responses with
    | [] => (.error .other, [])
    | response :: responses => (response, responses)
  flush responses := (.ok (), responses)

/-- The observer sees the answer to a call. -/
theorem answer_of_sees {call other : GitHubCall} {answer reply : Except Raised Response}
    (same : (wireObserver upper).sees ⟨.http call, answer⟩ =
      (wireObserver upper).sees ⟨.http other, reply⟩) :
    answer = reply := by
  have sameAnswer : answer.map some = reply.map some := (Prod.mk.inj same).2
  match answer, reply, sameAnswer with
  | .ok _, .ok _, same => exact congrArg Except.ok (Option.some.inj (Except.ok.inj same))
  | .error _, .error _, same => exact congrArg Except.error (Except.error.inj same)

/-! ## The functions of the publisher -/

/-- Requests that are the same on the wire. -/
theorem inStep_send {operation other : GitHubOperation}
    (same : request upper ⟨target, operation⟩ = request upper ⟨target, other⟩)
    (related : states left right) : InStep (wireObserver upper) states Eq (send target operation)
      left (send target other) right := by
  refine .await (congrArg some same) fun answer reply sameSeen => .finish ?_ related
  obtain rfl : (answer : Except Raised Response) = reply := answer_of_sees sameSeen
  exact agree_refl (fun _ => rfl) answer

theorem inStep_flush (related : states left right) :
    InStep (wireObserver upper) states Eq flush left flush right := by
  refine .await rfl fun answer reply sameSeen => .finish ?_ related
  match answer, reply, (Prod.mk.inj sameSeen).2 with
  | .ok _, .ok _, _ => rfl
  | .error _, .error _, same => exact Except.error.inj same

theorem inStep_create {operation other : GitHubOperation}
    (same : request upper ⟨target, operation⟩ = request upper ⟨target, other⟩)
    (related : states left right) : InStep (wireObserver upper) states Eq (create target operation)
      left (create target other) right := by
  refine (inStep_send same related).bind ?_
  rintro response _ left right rfl related
  refine (inStep_ofExcept (agree_refl (fun _ => rfl) _) related).bind ?_
  rintro _ _ left right (rfl : _ = _) related
  exact inStep_ofExcept (agree_refl (fun _ => rfl) _) related

theorem inStep_update {operation other : GitHubOperation}
    (same : request upper ⟨target, operation⟩ = request upper ⟨target, other⟩)
    (related : states left right) : InStep (wireObserver upper) states Eq (update target operation)
      left (update target other) right := by
  refine (inStep_send same related).bind ?_
  rintro response _ left right rfl related
  by_cases missing : response.statusCode = 404
  · rw [if_pos missing]
    exact inStep_pure rfl related
  · rw [if_neg missing]
    refine (inStep_ofExcept (agree_refl (fun _ => rfl) _) related).bind ?_
    rintro _ _ left right (rfl : _ = _) related
    exact inStep_pure rfl related

/-- The relation of the two databases survives the assignments of an attempt. -/
structure Survives (states : Database → Database → Prop) (reviewId : UUID)
    (findings : List Finding) : Prop where
  setReviewId : ∀ left right githubReviewId, states left right →
    states (left.setReviewId reviewId githubReviewId) (right.setReviewId reviewId githubReviewId)
  setCommentIds : ∀ left right commentIds, states left right →
    states (left.setCommentIds reviewId commentIds) (right.setCommentIds reviewId commentIds)
  setCommentId : ∀ finding ∈ findings, ∀ left right commentId, states left right →
    states (left.setCommentId finding.id commentId) (right.setCommentId finding.id commentId)
  setPublished : ∀ finding ∈ findings, ∀ left right, states left right →
    states (left.setPublished finding.id) (right.setPublished finding.id)

/-- The findings have the same comment, in the same place. -/
structure SameComment (upper : String → String) (finding other : Finding) : Prop where
  id : finding.id = other.id
  commentId : finding.githubCommentId = other.githubCommentId
  filePath : finding.filePath = other.filePath
  lineEnd : finding.lineEnd = other.lineEnd
  body : findingCommentBody upper finding = findingCommentBody upper other

variable {reviewId : UUID} {findings others : List Finding} {commentIdMap : Dict String Int}

theorem Survives.assigns {change : Database → Database}
    (survives : Survives states reviewId findings) (assigns : Assigns reviewId findings change)
    (related : states left right) : states (change left) (change right) := by
  cases assigns with
  | reviewId githubReviewId => exact survives.setReviewId _ _ githubReviewId related
  | commentIds commentIdMap => exact survives.setCommentIds _ _ commentIdMap related
  | commentId listed commentId => exact survives.setCommentId _ listed _ _ commentId related
  | published listed => exact survives.setPublished _ listed _ _ related

theorem inStep_session (survives : Survives states reviewId findings) :
    FollowsSession (.inStep (wireObserver upper) states) (fun _ _ _ => True) reviewId findings where
  assigns _ _ _ assigns _ _ related := inStep_modify (survives.assigns assigns related)
  flushes _ _ _ _ related := inStep_flush related

theorem inStep_ensureReview {githubReviewId : Option Int}
    (survives : Survives states reviewId findings) (related : states left right) :
    InStep (wireObserver upper) states Eq
      (ensureReview target reviewId githubReviewId commentIdMap) left
      (ensureReview target reviewId githubReviewId commentIdMap) right := by
  refine @judged_ensureReview Unit (.inStep (wireObserver upper) states) (fun _ _ _ => True)
    reviewId target findings commentIdMap left (fun _ _ => True) githubReviewId
    (inStep_session survives) ?_ ?_ ?_ ?_ ?_ left right related
  · exact fun _ _ _ => trivial
  · exact fun _ _ _ _ related => inStep_update rfl related
  · exact fun _ _ related => inStep_create rfl related
  · exact fun _ _ => trivial
  · exact fun _ _ _ => trivial

theorem SameComment.create {finding other : Finding} (same : SameComment upper finding other) :
    request upper ⟨target, .createComment finding⟩ =
      request upper ⟨target, .createComment other⟩ := by
  simp only [request, wire, same.body, same.filePath, same.lineEnd]

theorem SameComment.update {finding other : Finding} (same : SameComment upper finding other)
    (commentId : Int) :
    request upper ⟨target, .updateComment commentId finding⟩ =
      request upper ⟨target, .updateComment commentId other⟩ := by
  simp only [request, wire, same.body]

theorem SameComment.existing {finding other : Finding} (same : SameComment upper finding other) :
    existingCommentId commentIdMap finding = existingCommentId commentIdMap other := by
  simp only [existingCommentId, same.id, same.commentId]

theorem inStep_publishFinding {finding other : Finding} (listed : finding ∈ findings)
    (survives : Survives states reviewId findings) (same : SameComment upper finding other)
    (related : states left right) :
    InStep (wireObserver upper) states Eq
      (publishFinding target reviewId commentIdMap finding) left
      (publishFinding target reviewId commentIdMap other) right := by
  refine @judged_publishFinding Unit (.inStep (wireObserver upper) states) (fun _ _ _ => True)
    reviewId target findings commentIdMap left (fun _ _ => True) finding other listed same.id.symm
    same.existing.symm (inStep_session survives) ?_ ?_ ?_ ?_ ?_ left right related
  · exact fun _ _ _ => trivial
  · exact fun old _ _ _ related => inStep_update (same.update old) related
  · exact fun _ _ related => inStep_create same.create related
  · exact fun _ _ => trivial
  · exact fun _ _ _ => trivial

theorem inStep_publishFindings {rest : List Finding} (listed : rest ⊆ findings)
    (survives : Survives states reviewId findings)
    (same : List.Forall₂ (SameComment upper) rest others) (related : states left right) :
    InStep (wireObserver upper) states Eq
      (publishFindings target reviewId commentIdMap rest) left
      (publishFindings target reviewId commentIdMap others) right := by
  induction same generalizing commentIdMap left right with
  | nil => exact inStep_pure rfl related
  | cons head _ ih =>
      obtain ⟨first, later⟩ := List.cons_subset.mp listed
      refine (inStep_publishFinding first survives head related).bind ?_
      rintro commentIdMap _ left right rfl related
      exact ih later related

theorem inStep_publishLoaded {review : Review} (survives : Survives states review.id findings)
    (same : List.Forall₂ (SameComment upper) findings others) (related : states left right) :
    InStep (wireObserver upper) states Eq (publishLoaded target review findings) left
      (publishLoaded target review others) right := by
  refine (inStep_ensureReview survives related).bind ?_
  rintro commentIdMap _ left right rfl related
  refine (inStep_publishFindings (List.Subset.refl findings) survives same related).bind ?_
  rintro commentIdMap _ left right rfl related
  exact inStep_modify (survives.setCommentIds _ _ commentIdMap related)

/-! ## Two attempts -/

variable {installationId : UUID} {token : String}

/-- What the two databases have in common for an attempt: it loads the same from
both, and if it loads a review, the comments of the findings are the same. -/
structure LoadsAlike (upper : String → String) (states : Database → Database → Prop)
    (reviewId installationId : UUID) (token : String) (left right : Database) : Prop where
  related : states left right
  loading : loading left reviewId installationId token =
    loading right reviewId installationId token
  findings : ∀ review target,
    Publisher.loading left reviewId installationId token = .ok (review, target) →
      Survives states review.id (publishableFindings left reviewId) ∧
        List.Forall₂ (SameComment upper) (publishableFindings left reviewId)
          (publishableFindings right reviewId)

/-- **Two attempts in step.** -/
theorem publishReview_inStep
    (alike : LoadsAlike upper states reviewId installationId token left right) :
    InStep (wireObserver upper) states Eq (publishReview reviewId installationId token) left
      (publishReview reviewId installationId token) right := by
  apply inStep_of_afterReads
  rw [publishReview_afterReads, publishReview_afterReads, ← alike.loading]
  cases loaded : loading left reviewId installationId token with
  | error raised => exact .finish rfl alike.related
  | ok loading =>
      obtain ⟨review, target⟩ := loading
      obtain ⟨survives, same⟩ := alike.findings review target loaded
      refine .await rfl fun answer reply sameSeen => ?_
      obtain rfl : (answer : Except Raised Response) = reply := answer_of_sees sameSeen
      have agree : Agree Eq (headVerdict target answer) (headVerdict target answer) :=
        agree_refl (fun _ => rfl) _
      refine InStep.bind (.finish agree alike.related) ?_
      rintro _ _ left right - related
      exact inStep_publishLoaded survives same related

/-- The requests sent in a run, as they go over the wire. -/
def sentRequests (upper : String → String)
    (journal : List (Happening Database PublisherRequest.Answer Raised)) :
    List HttpRequest :=
  journal.filterMap fun
    | .asked ⟨.http call, _⟩ => some (request upper call)
    | _ => none

theorem sentRequests_eq (journal : List (Happening Database PublisherRequest.Answer Raised)) :
    sentRequests upper journal =
      ((journal.filterMap Happening.exchange?).map
        (wireObserver upper).sees).filterMap Prod.fst := by
  rw [List.filterMap_map, List.filterMap_filterMap]
  refine List.filterMap_congr fun happening _ => ?_
  rcases happening with ⟨_ | _, _⟩ | _ <;> rfl

/-- **The other side of the wire cannot tell two attempts apart** that load alike,
and they end in the same way. -/
theorem attempts_alike (alike : LoadsAlike upper states reviewId installationId token left right)
    (wire : WireServer Server) (server : Server) :
    let first := attemptRun (wire.respond upper) reviewId installationId token left server
    let second := attemptRun (wire.respond upper) reviewId installationId token right server
    sentRequests upper first.2.2 = sentRequests upper second.2.2 ∧ first.1 = second.1 ∧
      states first.2.1 second.2.1 := by
  obtain ⟨trace, agree, related⟩ :=
    (publishReview_inStep alike).same_runs wire.answersAlike server
  refine ⟨?_, eq_of_agree agree, related⟩
  rw [sentRequests_eq, sentRequests_eq]
  exact congrArg _ trace

end Publisher

end Kenjutsu.Pipeline
