import Kenjutsu.Foundations.Runs
import Kenjutsu.Models.Reviews
import Mathlib.Data.List.Nodup
import Mathlib.Data.List.GetD

/-!
# Application-level supersession

Reviews are kept in a list in the order they were created. A request for a
review of a pull request at a commit keeps the canonical review of exactly that
commit when there is one; otherwise it appends a new review and supersedes every
other canonical review of the pull request. Between requests the worker moves
the status of single reviews.

Two rules are compared with this protocol: the partial unique constraint of the
database, and the rule that a pull request has at most one canonical review and
that following `superseded_by` leads to a review that is not superseded. The review
workflow marks a review as superseded by itself, without a pointer, when the head of the
pull request has moved before it publishes; following the pointers can end there.
-/

set_option autoImplicit false

namespace Kenjutsu.Pipeline

open Foundations Models

/-! ## The two functions -/

/-- What the loop of `supersede_previous_reviews` does to one review. -/
def supersedeReview (newReviewId repoId : String) (prNumber : Int) (review : Review) : Review :=
  if review.id = newReviewId then review
  else if review.repoId ≠ repoId ∨ review.prNumber ≠ prNumber then review
  else if review.status.isCanonical then
    { review with status := .superseded, supersededBy := some newReviewId }
  else review

def supersedePreviousReviews (reviews : List Review) (newReviewId repoId : String)
    (prNumber : Int) : List Review :=
  reviews.map (supersedeReview newReviewId repoId prNumber)

def ensureUniqueCanonical (reviews : List Review) (repoId : String) (prNumber : Int)
    (headSha : String) : Option Review :=
  reviews.find? fun review =>
    review.repoId = repoId ∧ review.prNumber = prNumber ∧ review.headSha = headSha ∧
      review.status.isCanonical

/-! ## The creation protocol -/

/-- A request for a review, with the identifier a new review would get, or a
status set by the worker on the review at an index. -/
inductive ReviewEvent where
  | request (repoId : String) (prNumber : Int) (headSha id : String)
  | worker (index : Nat) (status : ReviewStatus)

/-- The protocol of the two docstrings, for a worker that may make the moves of
`mayMove`. -/
def protocolStep (mayMove : ReviewStatus → ReviewStatus → Bool) : Machine (List Review) ReviewEvent
  | reviews, .request repoId prNumber headSha id =>
      match ensureUniqueCanonical reviews repoId prNumber headSha with
      | some _ => some reviews
      | none =>
          if reviews.any fun review => review.id = id then none
          else
            let reviews := reviews ++ [{ id, repoId, prNumber, headSha }]
            some (supersedePreviousReviews reviews id repoId prNumber)
  | reviews, .worker index status =>
      match reviews[index]? with
      | none => none
      | some review =>
          if mayMove review.status status then some (reviews.set index { review with status })
          else none

/-- The loop body changes nothing but the status and the pointer. -/
theorem supersedeReview_identity (newReviewId repoId : String) (prNumber : Int)
    (review : Review) :
    (supersedeReview newReviewId repoId prNumber review).id = review.id ∧
    (supersedeReview newReviewId repoId prNumber review).repoId = review.repoId ∧
    (supersedeReview newReviewId repoId prNumber review).prNumber = review.prNumber ∧
    (supersedeReview newReviewId repoId prNumber review).headSha = review.headSha := by
  unfold supersedeReview
  split
  · exact ⟨rfl, rfl, rfl, rfl⟩
  · split
    · exact ⟨rfl, rfl, rfl, rfl⟩
    · split <;> exact ⟨rfl, rfl, rfl, rfl⟩

/-- The loop body either leaves a review as it is or supersedes a canonical one of
the pull request. -/
theorem supersedeReview_cases (newReviewId repoId : String) (prNumber : Int) (review : Review) :
    supersedeReview newReviewId repoId prNumber review = review ∨
      (review.repoId = repoId ∧ review.prNumber = prNumber ∧ review.status.isCanonical ∧
        supersedeReview newReviewId repoId prNumber review =
          { review with status := .superseded, supersededBy := some newReviewId }) := by
  unfold supersedeReview
  split
  · exact .inl rfl
  · split
    · exact .inl rfl
    · rename_i here
      simp only [ne_eq, not_or, not_not] at here
      split
      · rename_i canonical
        exact .inr ⟨here.1, here.2, canonical, rfl⟩
      · exact .inl rfl

/-- No other review of the pull request is canonical after the loop. -/
theorem supersedeReview_not_canonical {newReviewId repoId : String} {prNumber : Int}
    {review : Review} (other : review.id ≠ newReviewId) (repo : review.repoId = repoId)
    (pr : review.prNumber = prNumber) :
    (supersedeReview newReviewId repoId prNumber review).status.isCanonical = false := by
  unfold supersedeReview
  rw [if_neg other, if_neg (by simp [repo, pr])]
  split
  · rfl
  · rename_i notCanonical
    simpa using notCanonical

/-- A step keeps the list because the request found a canonical review, or
appends the new review after the loop has passed over the others, or sets the
status of one review. -/
theorem protocolStep_cases {mayMove : ReviewStatus → ReviewStatus → Bool}
    {reviews next : List Review} {event : ReviewEvent}
    (moved : protocolStep mayMove reviews event = some next) :
    (∃ repoId prNumber headSha id found, event = .request repoId prNumber headSha id ∧
      ensureUniqueCanonical reviews repoId prNumber headSha = some found ∧ next = reviews) ∨
    (∃ repoId prNumber headSha id, event = .request repoId prNumber headSha id ∧
      ensureUniqueCanonical reviews repoId prNumber headSha = none ∧
      (∀ review ∈ reviews, review.id ≠ id) ∧
      next = reviews.map (supersedeReview id repoId prNumber) ++
        [({ id, repoId, prNumber, headSha } : Review)]) ∨
    (∃ index status review, event = .worker index status ∧ reviews[index]? = some review ∧
      mayMove review.status status ∧ next = reviews.set index { review with status }) := by
  cases event with
  | request repoId prNumber headSha id =>
      simp only [protocolStep] at moved
      split at moved
      · rename_i found lookup
        exact .inl ⟨_, _, _, _, found, rfl, lookup, (Option.some.inj moved).symm⟩
      · rename_i lookup
        simp only [Option.ite_none_left_eq_some, Option.some.injEq, List.any_eq_true,
          decide_eq_true_eq, not_exists, not_and] at moved
        obtain ⟨fresh, rfl⟩ := moved
        refine .inr (.inl ⟨_, _, _, _, rfl, lookup, fresh, ?_⟩)
        simp [supersedePreviousReviews, supersedeReview]
  | worker index status =>
      simp only [protocolStep] at moved
      split at moved
      · cases moved
      · rename_i review found
        simp only [Option.ite_none_right_eq_some, Option.some.injEq] at moved
        obtain ⟨allowed, rfl⟩ := moved
        exact .inr (.inr ⟨index, status, review, rfl, found, allowed, rfl⟩)

/-- A lookup that finds nothing says that no review of the triple is canonical. -/
theorem ensureUniqueCanonical_eq_none {reviews : List Review} {repoId : String} {prNumber : Int}
    {headSha : String} :
    ensureUniqueCanonical reviews repoId prNumber headSha = none ↔
      ∀ review ∈ reviews, review.repoId = repoId → review.prNumber = prNumber →
        review.headSha = headSha → review.status.isCanonical = false := by
  simp [ensureUniqueCanonical, List.find?_eq_none]

/-- A review after a step is the review that stood at its index, changed in no
more than status and pointer, or the new one at the end. -/
theorem getElem?_request {reviews : List Review} {repoId : String} {prNumber : Int}
    {headSha id : String} {index : Nat} {review : Review}
    (found : (reviews.map (supersedeReview id repoId prNumber) ++
      [({ id, repoId, prNumber, headSha } : Review)])[index]? = some review) :
    (∃ before, reviews[index]? = some before ∧
      supersedeReview id repoId prNumber before = review) ∨
    (index = reviews.length ∧ review = { id, repoId, prNumber, headSha }) := by
  rw [List.getElem?_append] at found
  split at found
  · rw [List.getElem?_map] at found
    exact .inl (Option.map_eq_some_iff.mp found)
  · rename_i beyond
    simp only [List.length_map, not_lt] at beyond
    rw [List.getElem?_singleton] at found
    split at found
    · rename_i last
      simp only [List.length_map] at last
      exact .inr ⟨by omega, (Option.some.inj found).symm⟩
    · cases found

/-- A review after a move of the worker is the one that stood at its index, with
the new status if it is the one that was moved. -/
theorem getElem?_worker {reviews : List Review} {index : Nat} {review : Review}
    {status : ReviewStatus} {i : Nat} {after : Review}
    (stands : (reviews.set index { review with status })[i]? = some after) :
    (i ≠ index ∧ reviews[i]? = some after) ∨
      (i = index ∧ after = { review with status }) := by
  rw [List.getElem?_set] at stands
  split at stands
  · rename_i here
    split at stands
    · exact .inr ⟨here.symm, (Option.some.inj stands).symm⟩
    · cases stands
  · rename_i elsewhere
    exact .inl ⟨fun same => elsewhere same.symm, stands⟩

/-! ## The unique constraint of the database -/

/-- A status that counts for the partial unique constraint:
`status NOT IN ('superseded', 'aborted')`. -/
def Counted (status : ReviewStatus) : Prop := status ≠ .superseded ∧ status ≠ .aborted

theorem counted_queued : Counted .queued := ⟨by decide, by decide⟩

theorem counted_failed : Counted .failed := ⟨by decide, by decide⟩

/-- `UNIQUE (repo_id, pr_number, head_sha) WHERE status NOT IN ('superseded',
'aborted')` -/
def UniqueConstraint (reviews : List Review) : Prop :=
  ∀ (i j : Nat) (first second : Review), i < j → reviews[i]? = some first →
    reviews[j]? = some second → first.repoId = second.repoId → first.prNumber = second.prNumber →
    first.headSha = second.headSha → ¬ (Counted first.status ∧ Counted second.status)

/-- The moves of the worker on a queued or processing review. -/
def workerMove (status next : ReviewStatus) : Bool :=
  [ReviewStatus.queued, .processing].contains status &&
    [ReviewStatus.processing, .complete, .failed, .aborted].contains next

/-- A request that is going to create a review finds no failed review of the same
commit. -/
def NoFailedTwin (reviews : List Review) : ReviewEvent → Prop
  | .request repoId prNumber headSha _ =>
      ensureUniqueCanonical reviews repoId prNumber headSha = none →
        ∀ review ∈ reviews, review.repoId = repoId → review.prNumber = prNumber →
          review.headSha = headSha → review.status ≠ .failed
  | .worker _ _ => True

/-- A counted status that is not canonical is `failed`. -/
theorem Counted.eq_failed {status : ReviewStatus} (counted : Counted status)
    (notCanonical : status.isCanonical = false) : status = .failed := by
  obtain ⟨notSuperseded, notAborted⟩ := counted
  cases status with
  | failed => rfl
  | superseded => exact absurd rfl notSuperseded
  | aborted => exact absurd rfl notAborted
  | queued | processing | complete => cases notCanonical

/-- A review the loop leaves counted is unchanged. -/
theorem supersedeReview_eq_of_counted {newReviewId repoId : String} {prNumber : Int}
    {review : Review}
    (counted : Counted (supersedeReview newReviewId repoId prNumber review).status) :
    supersedeReview newReviewId repoId prNumber review = review := by
  rcases supersedeReview_cases newReviewId repoId prNumber review with same | ⟨-, -, -, changed⟩
  · exact same
  · rw [changed] at counted
    exact absurd rfl counted.1

theorem workerMove_counted {status next : ReviewStatus} (allowed : workerMove status next) :
    Counted status := by
  cases status with
  | queued | processing => exact ⟨by decide, by decide⟩
  | complete | failed | aborted | superseded => cases allowed

theorem UniqueConstraint.step {reviews next : List Review} {event : ReviewEvent}
    (unique : UniqueConstraint reviews) (noTwin : NoFailedTwin reviews event)
    (moved : protocolStep workerMove reviews event = some next) : UniqueConstraint next := by
  rcases protocolStep_cases moved with ⟨_, _, _, _, _, -, -, rfl⟩ |
    ⟨repoId, prNumber, headSha, id, rfl, absent, fresh, rfl⟩ |
    ⟨index, status, review, rfl, found, allowed, rfl⟩
  · exact unique
  · intro i j first second before atFirst atSecond repo pr sha ⟨countedFirst, countedSecond⟩
    rcases getElem?_request atFirst with ⟨oldFirst, wasFirst, rfl⟩ | ⟨last, rfl⟩
    · have keptFirst := supersedeReview_eq_of_counted countedFirst
      rw [keptFirst] at countedFirst repo pr sha
      rcases getElem?_request atSecond with ⟨oldSecond, wasSecond, rfl⟩ | ⟨-, rfl⟩
      · have keptSecond := supersedeReview_eq_of_counted countedSecond
        rw [keptSecond] at countedSecond repo pr sha
        exact unique i j _ _ before wasFirst wasSecond repo pr sha ⟨countedFirst, countedSecond⟩
      · have member := List.mem_of_getElem? wasFirst
        have notCanonical := ensureUniqueCanonical_eq_none.mp absent _ member repo pr sha
        exact noTwin absent _ member repo pr sha (countedFirst.eq_failed notCanonical)
    · rcases getElem?_request atSecond with ⟨oldSecond, wasSecond, -⟩ | ⟨lastToo, -⟩
      · obtain ⟨inside, -⟩ := List.getElem?_eq_some_iff.mp wasSecond
        omega
      · omega
  · intro i j first second before atFirst atSecond repo pr sha ⟨countedFirst, countedSecond⟩
    have wasCounted := workerMove_counted allowed
    rcases getElem?_worker atFirst with ⟨-, wasFirst⟩ | ⟨rfl, rfl⟩ <;>
      rcases getElem?_worker atSecond with ⟨-, wasSecond⟩ | ⟨rfl, rfl⟩
    · exact unique i j _ _ before wasFirst wasSecond repo pr sha ⟨countedFirst, countedSecond⟩
    · exact unique i j _ _ before wasFirst found repo pr sha ⟨countedFirst, wasCounted⟩
    · exact unique i j _ _ before found wasSecond repo pr sha ⟨wasCounted, countedSecond⟩
    · omega

/-- A request that creates a review next to a failed one of the same commit
violates the constraint. -/
theorem not_uniqueConstraint_of_failed_twin {reviews next : List Review} {event : ReviewEvent}
    (twin : ¬ NoFailedTwin reviews event)
    (moved : protocolStep workerMove reviews event = some next) : ¬ UniqueConstraint next := by
  rcases protocolStep_cases moved with ⟨_, _, _, _, found, rfl, lookup, -⟩ |
    ⟨repoId, prNumber, headSha, id, rfl, absent, fresh, rfl⟩ | ⟨_, _, _, rfl, -⟩
  · refine absurd (fun absent => ?_) twin
    rw [lookup] at absent
    cases absent
  · simp only [NoFailedTwin, not_forall, not_not] at twin
    obtain ⟨-, review, member, repo, pr, sha, failed⟩ := twin
    obtain ⟨i, stands⟩ := List.mem_iff_getElem?.mp member
    obtain ⟨inside, -⟩ := List.getElem?_eq_some_iff.mp stands
    have kept : supersedeReview id repoId prNumber review = review := by
      rcases supersedeReview_cases id repoId prNumber review with same | ⟨-, -, canonical, -⟩
      · exact same
      · rw [failed] at canonical
        cases canonical
    intro unique
    refine unique i reviews.length review { id, repoId, prNumber, headSha } inside ?_ ?_
      repo pr sha ⟨failed ▸ counted_failed, counted_queued⟩
    · rw [List.getElem?_append_left (by simpa using inside), List.getElem?_map, stands,
        Option.map_some, kept]
    · rw [List.getElem?_append_right (by simp)]
      simp
  · exact absurd trivial twin

/-- **The constraint of the database holds along a run exactly when no request
creates a review while a failed one of the same commit exists.** -/
theorem uniqueConstraint_iff_noFailedTwin (events : List ReviewEvent) :
    (∀ reviews ∈ (protocolStep workerMove).visits [] events, UniqueConstraint reviews) ↔
      ∀ move ∈ (protocolStep workerMove).moves [] events, NoFailedTwin move.1 move.2 := by
  refine Machine.forall_visits_iff_guarded (fun _ unique => unique)
    (fun _ _ _ unique noTwin moved => unique.step noTwin moved)
    (fun _ _ _ _ twin moved => not_uniqueConstraint_of_failed_twin twin moved) ?_ events
  intro i j first second _ atFirst
  simp at atFirst

/-- A review fails and is triggered again at the same commit. -/
theorem retryAfterFailure_violates_uniqueConstraint :
    ¬ ∀ reviews ∈ (protocolStep workerMove).visits []
        [.request "org/repo" 42 "sha1" "r1", .worker 0 .failed,
          .request "org/repo" 42 "sha1" "r2"], UniqueConstraint reviews := by
  intro always
  have unique := always [⟨"r1", "org/repo", 42, "sha1", .failed, none⟩,
    ⟨"r2", "org/repo", 42, "sha1", .queued, none⟩] (by decide)
  exact unique 0 1 _ _ (by decide) rfl rfl rfl rfl rfl ⟨counted_failed, counted_queued⟩

/-! ## One canonical review, and chains of superseded ones -/

/-- A worker that makes no review canonical that was not. -/
def statusMove (status next : ReviewStatus) : Bool := !next.isCanonical || status.isCanonical

/-- Such a worker that leaves `superseded` to supersession. -/
def outcomeMove (status next : ReviewStatus) : Bool :=
  next ≠ .superseded && statusMove status next

/-- Two reviews of the same pull request. -/
def SamePullRequest (first second : Review) : Prop :=
  first.repoId = second.repoId ∧ first.prNumber = second.prNumber

/-- Follow `superseded_by` from a review until one that is not superseded, or has no pointer. -/
def followSupersededBy (reviews : List Review) : Nat → Review → Option Review
  | 0, _ => none
  | fuel + 1, review =>
      if review.status ≠ .superseded then some review
      else
        match review.supersededBy with
        | none => some review
        | some id =>
            (reviews.find? fun other => other.id = id).bind (followSupersededBy reviews fuel)

/-- Every pointer leads to a later review of the pull request. -/
def PointersLead (reviews : List Review) : Prop :=
  ∀ (i : Nat) (review : Review) (id : String), reviews[i]? = some review →
    review.supersededBy = some id →
      ∃ (j : Nat) (successor : Review), i < j ∧ reviews[j]? = some successor ∧
        SamePullRequest review successor ∧ successor.id = id

/-- Every superseded review points to a later review of its pull request. -/
def PointsLater (reviews : List Review) : Prop :=
  ∀ (i : Nat) (review : Review), reviews[i]? = some review → review.status = .superseded →
    ∃ (j : Nat) (successor : Review), i < j ∧ reviews[j]? = some successor ∧
      SamePullRequest review successor ∧ review.supersededBy = some successor.id

/-- Every superseded review has a pointer. -/
def Pointed (reviews : List Review) : Prop :=
  ∀ review ∈ reviews, review.status = .superseded → review.supersededBy ≠ none

/-- What the reviews of a run satisfy. -/
structure Chained (reviews : List Review) : Prop where
  distinct_ids : ∀ (i j : Nat) (first second : Review), reviews[i]? = some first →
    reviews[j]? = some second → first.id = second.id → i = j
  one_canonical : ∀ (i j : Nat) (first second : Review), reviews[i]? = some first →
    reviews[j]? = some second → SamePullRequest first second → first.status.isCanonical →
    second.status.isCanonical → i = j
  pointers_lead : PointersLead reviews

/-- A review the loop leaves canonical is unchanged. -/
theorem supersedeReview_eq_of_canonical {newReviewId repoId : String} {prNumber : Int}
    {review : Review}
    (canonical : (supersedeReview newReviewId repoId prNumber review).status.isCanonical) :
    supersedeReview newReviewId repoId prNumber review = review := by
  rcases supersedeReview_cases newReviewId repoId prNumber review with same | ⟨-, -, -, changed⟩
  · exact same
  · rw [changed] at canonical
    cases canonical

/-- A review that is not canonical is left as it is. -/
theorem supersedeReview_of_not_canonical {newReviewId repoId : String} {prNumber : Int}
    {review : Review} (notCanonical : review.status.isCanonical = false) :
    supersedeReview newReviewId repoId prNumber review = review := by
  rcases supersedeReview_cases newReviewId repoId prNumber review with same | ⟨-, -, canonical, -⟩
  · exact same
  · rw [notCanonical] at canonical
    cases canonical

theorem statusMove_canonical {status next : ReviewStatus} (allowed : statusMove status next)
    (canonical : next.isCanonical) : status.isCanonical := by
  simpa [statusMove, canonical] using allowed

theorem statusMove_of_outcomeMove {status next : ReviewStatus} (allowed : outcomeMove status next) :
    statusMove status next :=
  (Bool.and_eq_true_iff.mp allowed).2

theorem outcomeMove_ne_superseded {status next : ReviewStatus}
    (allowed : outcomeMove status next) : next ≠ .superseded := by
  simpa using (Bool.and_eq_true_iff.mp allowed).1

theorem Chained.request {reviews : List Review} (chained : Chained reviews) (repoId : String)
    (prNumber : Int) (headSha id : String) (fresh : ∀ review ∈ reviews, review.id ≠ id) :
    Chained (reviews.map (supersedeReview id repoId prNumber) ++
      [({ id, repoId, prNumber, headSha } : Review)]) where
  distinct_ids i j first second atFirst atSecond same := by
    rcases getElem?_request atFirst with ⟨oldFirst, wasFirst, rfl⟩ | ⟨lastFirst, rfl⟩ <;>
      rcases getElem?_request atSecond with ⟨oldSecond, wasSecond, rfl⟩ | ⟨lastSecond, rfl⟩
    · rw [(supersedeReview_identity ..).1, (supersedeReview_identity ..).1] at same
      exact chained.distinct_ids i j _ _ wasFirst wasSecond same
    · rw [(supersedeReview_identity ..).1] at same
      exact absurd same (fresh _ (List.mem_of_getElem? wasFirst))
    · rw [(supersedeReview_identity ..).1] at same
      exact absurd same.symm (fresh _ (List.mem_of_getElem? wasSecond))
    · rw [lastFirst, lastSecond]
  one_canonical i j first second atFirst atSecond same canonicalFirst canonicalSecond := by
    rcases getElem?_request atFirst with ⟨oldFirst, wasFirst, rfl⟩ | ⟨lastFirst, rfl⟩ <;>
      rcases getElem?_request atSecond with ⟨oldSecond, wasSecond, rfl⟩ | ⟨lastSecond, rfl⟩
    · rw [supersedeReview_eq_of_canonical canonicalFirst,
        supersedeReview_eq_of_canonical canonicalSecond] at same
      rw [supersedeReview_eq_of_canonical canonicalFirst] at canonicalFirst
      rw [supersedeReview_eq_of_canonical canonicalSecond] at canonicalSecond
      exact chained.one_canonical i j _ _ wasFirst wasSecond same canonicalFirst canonicalSecond
    · have kept := supersedeReview_eq_of_canonical canonicalFirst
      rw [kept] at same
      have gone := supersedeReview_not_canonical (fresh _ (List.mem_of_getElem? wasFirst))
        same.1 same.2
      rw [gone] at canonicalFirst
      cases canonicalFirst
    · have kept := supersedeReview_eq_of_canonical canonicalSecond
      rw [kept] at same
      have gone := supersedeReview_not_canonical (fresh _ (List.mem_of_getElem? wasSecond))
        same.1.symm same.2.symm
      rw [gone] at canonicalSecond
      cases canonicalSecond
    · rw [lastFirst, lastSecond]
  pointers_lead i review pointer stands points := by
    rcases getElem?_request stands with ⟨old, was, rfl⟩ | ⟨-, rfl⟩
    · obtain ⟨inside, -⟩ := List.getElem?_eq_some_iff.mp was
      rcases supersedeReview_cases id repoId prNumber old with kept | ⟨repo, pr, -, changed⟩
      · rw [kept] at points ⊢
        obtain ⟨j, successor, later, stood, same, pointer⟩ :=
          chained.pointers_lead i old pointer was points
        obtain ⟨insideToo, -⟩ := List.getElem?_eq_some_iff.mp stood
        have identity := supersedeReview_identity id repoId prNumber successor
        refine ⟨j, supersedeReview id repoId prNumber successor, later, ?_, ?_, ?_⟩
        · rw [List.getElem?_append_left (by simpa using insideToo), List.getElem?_map, stood,
            Option.map_some]
        · exact ⟨same.1.trans identity.2.1.symm, same.2.trans identity.2.2.1.symm⟩
        · rw [identity.1, pointer]
      · rw [changed] at points ⊢
        obtain rfl := Option.some.inj points
        refine ⟨reviews.length, { id, repoId, prNumber, headSha }, inside, ?_, ⟨repo, pr⟩, rfl⟩
        rw [List.getElem?_append_right (by simp)]
        simp
    · cases points

theorem Chained.worker {reviews : List Review} (chained : Chained reviews) {index : Nat}
    {review : Review} (found : reviews[index]? = some review) {status : ReviewStatus}
    (allowed : statusMove review.status status) :
    Chained (reviews.set index { review with status }) where
  distinct_ids i j first second atFirst atSecond same := by
    rcases getElem?_worker atFirst with ⟨-, wasFirst⟩ | ⟨rfl, rfl⟩ <;>
      rcases getElem?_worker atSecond with ⟨-, wasSecond⟩ | ⟨rfl, rfl⟩
    · exact chained.distinct_ids i j _ _ wasFirst wasSecond same
    · exact chained.distinct_ids i j _ _ wasFirst found same
    · exact chained.distinct_ids i j _ _ found wasSecond same
    · rfl
  one_canonical i j first second atFirst atSecond same canonicalFirst canonicalSecond := by
    rcases getElem?_worker atFirst with ⟨-, wasFirst⟩ | ⟨rfl, rfl⟩ <;>
      rcases getElem?_worker atSecond with ⟨-, wasSecond⟩ | ⟨rfl, rfl⟩
    · exact chained.one_canonical i j _ _ wasFirst wasSecond same canonicalFirst canonicalSecond
    · exact chained.one_canonical i j _ _ wasFirst found same canonicalFirst
        (statusMove_canonical allowed canonicalSecond)
    · exact chained.one_canonical i j _ _ found wasSecond same
        (statusMove_canonical allowed canonicalFirst) canonicalSecond
    · rfl
  pointers_lead i old id stands points := by
    have was : ∃ before, reviews[i]? = some before ∧ before.supersededBy = some id ∧
        SamePullRequest before old := by
      rcases getElem?_worker stands with ⟨-, was⟩ | ⟨rfl, rfl⟩
      · exact ⟨old, was, points, rfl, rfl⟩
      · exact ⟨review, found, points, rfl, rfl⟩
    obtain ⟨before, was, points, same⟩ := was
    obtain ⟨j, successor, later, stood, sameToo, pointer⟩ :=
      chained.pointers_lead i before id was points
    have samePr : SamePullRequest old successor :=
      ⟨same.1.symm.trans sameToo.1, same.2.symm.trans sameToo.2⟩
    by_cases here : j = index
    · subst here
      obtain rfl := Option.some.inj (found.symm.trans stood)
      obtain ⟨inside, -⟩ := List.getElem?_eq_some_iff.mp found
      exact ⟨j, { review with status }, later, by simp [inside], samePr, pointer⟩
    · refine ⟨j, successor, later, ?_, samePr, pointer⟩
      rw [List.getElem?_set_ne (Ne.symm here), stood]

theorem Chained.step {reviews next : List Review} {event : ReviewEvent}
    (chained : Chained reviews) (moved : protocolStep statusMove reviews event = some next) :
    Chained next := by
  rcases protocolStep_cases moved with ⟨_, _, _, _, _, -, -, rfl⟩ |
    ⟨repoId, prNumber, headSha, id, rfl, -, fresh, rfl⟩ |
    ⟨index, status, review, rfl, found, allowed, rfl⟩
  · exact chained
  · exact chained.request repoId prNumber headSha id fresh
  · exact chained.worker found allowed

/-- The review of an identifier is found at its index. -/
theorem Chained.find?_id {reviews : List Review} (chained : Chained reviews) {j : Nat}
    {review : Review} (stands : reviews[j]? = some review) :
    (reviews.find? fun other => other.id = review.id) = some review := by
  cases found : reviews.find? fun other => other.id = review.id with
  | none =>
      have missing := List.find?_eq_none.mp found _ (List.mem_of_getElem? stands)
      simp at missing
  | some other =>
      have sameId : other.id = review.id := by simpa using List.find?_some found
      obtain ⟨i, standsOther⟩ := List.mem_iff_getElem?.mp (List.mem_of_find?_eq_some found)
      obtain rfl := chained.distinct_ids i j _ _ standsOther stands sameId
      exact congrArg some (Option.some.inj (standsOther.symm.trans stands))

/-- Following the pointers from an index needs no more steps than reviews stand at
or after it, since every step moves to a later review. -/
theorem Chained.follow {reviews : List Review} (chained : Chained reviews) (fuel : Nat) :
    ∀ (i : Nat) (review : Review), reviews[i]? = some review → reviews.length ≤ i + fuel →
      ∃ final ∈ reviews, followSupersededBy reviews fuel review = some final ∧
        (final.status = .superseded → final.supersededBy = none) := by
  induction fuel with
  | zero =>
      intro i review stands enough
      obtain ⟨inside, -⟩ := List.getElem?_eq_some_iff.mp stands
      omega
  | succ fuel ih =>
      intro i review stands enough
      have member := List.mem_of_getElem? stands
      by_cases superseded : review.status = .superseded
      · cases pointer : review.supersededBy with
        | none =>
            exact ⟨review, member, by simp [followSupersededBy, superseded, pointer],
              fun _ => pointer⟩
        | some id =>
            obtain ⟨j, successor, later, stood, -, rfl⟩ :=
              chained.pointers_lead i review id stands pointer
            obtain ⟨final, memberFinal, followed, stopped⟩ := ih j successor stood (by omega)
            refine ⟨final, memberFinal, ?_, stopped⟩
            rw [followSupersededBy, if_neg (by simp [superseded]), pointer]
            simp only [chained.find?_id stood, Option.bind_some, followed]
      · exact ⟨review, member, by simp [followSupersededBy, superseded],
          fun same => absurd same superseded⟩

/-- Supersession writes a pointer with the status. -/
theorem Pointed.step {reviews next : List Review} {event : ReviewEvent} (pointed : Pointed reviews)
    (moved : protocolStep outcomeMove reviews event = some next) : Pointed next := by
  rcases protocolStep_cases moved with ⟨_, _, _, _, _, -, -, rfl⟩ |
    ⟨repoId, prNumber, headSha, id, rfl, -, -, rfl⟩ |
    ⟨index, status, changed, rfl, found, allowed, rfl⟩
  · exact pointed
  · refine List.forall_mem_append.mpr ⟨List.forall_mem_map.mpr fun review member => ?_, ?_⟩
    · rcases supersedeReview_cases id repoId prNumber review with same | ⟨-, -, -, superseded⟩
      · rw [same]
        exact pointed review member
      · rw [superseded]
        exact fun _ => Option.some_ne_none _
    · exact List.forall_mem_singleton.mpr nofun
  · intro review member superseded
    rcases List.mem_or_eq_of_mem_set member with old | rfl
    · exact pointed review old superseded
    · exact absurd superseded (outcomeMove_ne_superseded allowed)

/-- Where every superseded review has a pointer, it leads to a later one. -/
theorem Chained.pointsLater {reviews : List Review} (chained : Chained reviews)
    (pointed : Pointed reviews) : PointsLater reviews := by
  intro i review stands superseded
  obtain ⟨id, pointer⟩ := Option.ne_none_iff_exists'.mp
    (pointed review (List.mem_of_getElem? stands) superseded)
  obtain ⟨j, successor, later, stood, same, rfl⟩ :=
    chained.pointers_lead i review id stands pointer
  exact ⟨j, successor, later, stood, same, pointer⟩

/-- A review that is not canonical never becomes canonical and keeps its
pointer. -/
def PointerKept (review : Review) (reviews : List Review) (i : Nat) : Prop :=
  ∃ later, reviews[i]? = some later ∧ later.status.isCanonical = false ∧
    later.supersededBy = review.supersededBy

theorem PointerKept.step {reviews next : List Review} {event : ReviewEvent} {review : Review}
    {i : Nat} (kept : PointerKept review reviews i)
    (moved : protocolStep statusMove reviews event = some next) : PointerKept review next i := by
  obtain ⟨later, stands, notCanonical, pointer⟩ := kept
  rcases protocolStep_cases moved with ⟨_, _, _, _, _, -, -, rfl⟩ |
    ⟨repoId, prNumber, headSha, id, rfl, -, -, rfl⟩ |
    ⟨index, status, changed, rfl, found, allowed, rfl⟩
  · exact ⟨later, stands, notCanonical, pointer⟩
  · obtain ⟨inside, -⟩ := List.getElem?_eq_some_iff.mp stands
    refine ⟨later, ?_, notCanonical, pointer⟩
    rw [List.getElem?_append_left (by simpa using inside), List.getElem?_map, stands,
      Option.map_some, supersedeReview_of_not_canonical notCanonical]
  · by_cases here : i = index
    · subst here
      obtain rfl := Option.some.inj (found.symm.trans stands)
      obtain ⟨inside, -⟩ := List.getElem?_eq_some_iff.mp found
      refine ⟨{ changed with status }, by simp [inside], ?_, pointer⟩
      by_contra canonical
      rw [statusMove_canonical allowed (by simpa using canonical)] at notCanonical
      cases notCanonical
    · exact ⟨later, (List.getElem?_set_ne (Ne.symm here)).trans stands, notCanonical, pointer⟩

/-- The pull request an event is about. -/
def Concerns (reviews : List Review) : ReviewEvent → Review → Prop
  | .request repoId prNumber _ _, review => review.repoId = repoId ∧ review.prNumber = prNumber
  | .worker index _, review =>
      ∃ changed, reviews[index]? = some changed ∧ SamePullRequest changed review

/-- A step changes no review of another pull request. -/
theorem getElem?_of_not_concerns {mayMove : ReviewStatus → ReviewStatus → Bool}
    {reviews next : List Review} {event : ReviewEvent}
    (moved : protocolStep mayMove reviews event = some next) {i : Nat} {review : Review}
    (stands : reviews[i]? = some review) (other : ¬ Concerns reviews event review) :
    next[i]? = some review := by
  rcases protocolStep_cases moved with ⟨_, _, _, _, _, -, -, rfl⟩ |
    ⟨repoId, prNumber, headSha, id, rfl, -, -, rfl⟩ |
    ⟨index, status, changed, rfl, found, -, rfl⟩
  · exact stands
  · obtain ⟨inside, -⟩ := List.getElem?_eq_some_iff.mp stands
    rw [List.getElem?_append_left (by simpa using inside), List.getElem?_map, stands,
      Option.map_some]
    rcases supersedeReview_cases id repoId prNumber review with same | ⟨repo, pr, -⟩
    · rw [same]
    · exact absurd ⟨repo, pr⟩ other
  · have elsewhere : index ≠ i := by
      rintro rfl
      obtain rfl := Option.some.inj (found.symm.trans stands)
      exact other ⟨changed, found, rfl, rfl⟩
    rw [List.getElem?_set_ne elsewhere, stands]

/-- A worker that leaves `superseded` to supersession makes moves of the other one. -/
theorem protocolStep_of_outcomeMove {reviews next : List Review} {event : ReviewEvent}
    (moved : protocolStep outcomeMove reviews event = some next) :
    protocolStep statusMove reviews event = some next := by
  cases event with
  | request repoId prNumber headSha id => exact moved
  | worker index status =>
      simp only [protocolStep] at moved ⊢
      split at moved
      · cases moved
      · simp only [Option.ite_none_right_eq_some, Option.some.injEq] at moved ⊢
        exact ⟨statusMove_of_outcomeMove moved.1, moved.2⟩

/-- **One canonical review per pull request, and well-founded chains.** In every
state of every run a pull request has at most one canonical review, every
pointer leads to a later review of its pull request, a superseded review keeps its
pointer in every later state, and following the pointers ends at a review that
is not superseded or has none; and no step changes a review of another pull request. If
the worker leaves `superseded` to supersession, every superseded review has its pointer,
and following ends at a review that is not superseded. -/
theorem supersession_chains (events : List ReviewEvent) :
    (∀ reviews ∈ (protocolStep statusMove).visits [] events,
      (∀ (i j : Nat) (first second : Review), reviews[i]? = some first →
        reviews[j]? = some second → SamePullRequest first second →
        first.status.isCanonical → second.status.isCanonical → i = j) ∧
      PointersLead reviews ∧
      (∀ (i : Nat) (review : Review), reviews[i]? = some review → review.status = .superseded →
        ∀ later, ∀ final ∈ (protocolStep statusMove).visits reviews later,
          PointerKept review final i) ∧
      ∀ review ∈ reviews, ∃ final ∈ reviews,
        followSupersededBy reviews reviews.length review = some final ∧
          (final.status = .superseded → final.supersededBy = none)) ∧
    (∀ move ∈ (protocolStep statusMove).moves [] events, ∀ next,
      protocolStep statusMove move.1 move.2 = some next →
        ∀ (i : Nat) (review : Review), move.1[i]? = some review →
          ¬ Concerns move.1 move.2 review → next[i]? = some review) ∧
    ∀ reviews ∈ (protocolStep outcomeMove).visits [] events,
      reviews ∈ (protocolStep statusMove).visits [] events ∧ PointsLater reviews ∧
        ∀ review ∈ reviews, ∃ final ∈ reviews,
          followSupersededBy reviews reviews.length review = some final ∧
            final.status ≠ .superseded := by
  have initially : Chained [] := by constructor <;> simp [PointersLead]
  have chained : ∀ reviews ∈ (protocolStep statusMove).visits [] events, Chained reviews :=
    Machine.forall_visits (fun _ _ _ chained moved => Chained.step chained moved) initially events
  have followed : ∀ {reviews}, Chained reviews → ∀ review ∈ reviews, ∃ final ∈ reviews,
      followSupersededBy reviews reviews.length review = some final ∧
        (final.status = .superseded → final.supersededBy = none) := by
    intro reviews chained review member
    obtain ⟨i, stands⟩ := List.mem_iff_getElem?.mp member
    exact chained.follow reviews.length i review stands (by omega)
  refine ⟨fun reviews visited => ⟨(chained reviews visited).one_canonical,
    (chained reviews visited).pointers_lead, ?_, followed (chained reviews visited)⟩,
    fun move _ next moved i review stands other => getElem?_of_not_concerns moved stands other, ?_⟩
  · intro i review stands superseded later final reached
    have kept : PointerKept review reviews i :=
      ⟨review, stands, by rw [superseded]; rfl, rfl⟩
    exact Machine.forall_visits (fun _ _ _ kept moved => PointerKept.step kept moved) kept
      later final reached
  · intro reviews reached
    have visited : reviews ∈ (protocolStep statusMove).visits [] events :=
      Machine.visits_subset (fun _ _ _ => protocolStep_of_outcomeMove) [] events reached
    have pointed : Pointed reviews := Machine.forall_visits
      (fun _ _ _ pointed moved => Pointed.step pointed moved)
      (fun _ member => absurd member List.not_mem_nil) events reviews reached
    refine ⟨visited, (chained reviews visited).pointsLater pointed, fun review member => ?_⟩
    obtain ⟨final, memberFinal, ends, stopped⟩ := followed (chained reviews visited) review member
    exact ⟨final, memberFinal, ends, fun superseded =>
      pointed final memberFinal superseded (stopped superseded)⟩

/-- A worker that marks its own review as superseded leaves it without a pointer. -/
theorem not_pointsLater_supersededByWorker :
    ¬ ∀ reviews ∈ (protocolStep statusMove).visits []
        [.request "org/repo" 42 "sha1" "r1", .worker 0 .superseded], PointsLater reviews := by
  intro always
  obtain ⟨_, _, _, _, _, pointer⟩ :=
    always [⟨"r1", "org/repo", 42, "sha1", .superseded, none⟩] (by decide) 0 _ rfl rfl
  cases pointer

end Kenjutsu.Pipeline
