import Kenjutsu.Foundations.Statistics
import Kenjutsu.Server.Debounce
import Kenjutsu.Server.Webhook

/-!
# The routing of events

`_route_event` runs as a background task of an accepted delivery. For a `pull_request` event
that opens, synchronizes or reopens a pull request it asks the debounce manager for a review;
everything else is logged. Whatever goes wrong with a payload of another shape is caught and
logged too.

The keys of the manager are declared as a name and a number. A payload whose repository has a
name that can be hashed but is no string would be scheduled under a key of its own, apart from
all others; these keys are not followed.
-/

set_option autoImplicit false

namespace Kenjutsu.Server

open Foundations Kenjutsu.Http

namespace Webhook

/-- `_enqueue_review`, with the variables it refers to. -/
structure EnqueueReview where
  repo : String
  prNumber : Json

/-- What becomes of an event. -/
inductive Outcome where
  /-- `debounce_manager.schedule(pr_key, _enqueue_review)`. -/
  | review (prKey : PRKey) (enqueueReview : EnqueueReview)
  /-- The same under a key whose name is no string. -/
  | unnamed (repo : Json) (number : Int)
  | missingNumber
  | installation (githubId : Json)
  | unhandled
  | failed (raised : Raised)

/-- `value in {"opened", "synchronize", "reopened"}`: a list or a dictionary has no hash. -/
def isTrigger : Json → Except Raised Bool
  | .string action => .ok (["opened", "synchronize", "reopened"].contains action)
  | .array _ | .object _ => .error .typeError
  | _ => .ok false

/-- `int(value)`; what it makes of a string is a parameter. -/
def toInt (parse : String → Option Int) : Json → Except Raised Int
  | .integer value => .ok value
  | .boolean value => .ok (if value then 1 else 0)
  | .decimal value => .ok (truncate value)
  | .string text => match parse text with
      | some value => .ok value
      | none => .error .other
  | .null | .array _ | .object _ => .error .typeError

/-- The first branch of `_route_event`. -/
def routePullRequest (parse : String → Option Int) (payload : Json) : Except Raised Outcome := do
  let prNumber ← dictGet "number" .null payload
  let repository ← dictGet "repository" (.object []) payload
  let repo ← dictGet "full_name" (.string "unknown") repository
  match prNumber with
  | .null => pure .missingNumber
  | prNumber => do
      let number ← toInt parse prNumber
      match repo with
      | .string repo => pure (.review (repo, number) { repo, prNumber })
      -- the key of the manager has no hash
      | .array _ | .object _ => .error .typeError
      | repo => pure (.unnamed repo number)

/-- The condition of that branch; the action is looked at only if the first part holds. -/
def isPush (event : RouteEvent) : Except Raised Bool :=
  if event.eventType = "pull_request" then isTrigger event.action else .ok false

/-- `_route_event` inside its `try`. -/
def tryRoute (parse : String → Option Int) (event : RouteEvent) : Except Raised Outcome := do
  let triggers ← isPush event
  if triggers then routePullRequest parse event.payload
  else if event.eventType = "installation" then do
    let installation ← dictGet "installation" (.object []) event.payload
    let githubId ← dictGet "id" .null installation
    pure (.installation githubId)
  else pure .unhandled

/-- `_route_event`. -/
def routeEvent (parse : String → Option Int) (event : RouteEvent) : Outcome :=
  match tryRoute parse event with
  | .ok routed => routed
  | .error raised => .failed raised

/-! ## Which events ask for a review -/

/-- The event opens, synchronizes or reopens a pull request, whose name and number are those of
the key. -/
structure Triggers (parse : String → Option Int) (event : RouteEvent) (prKey : PRKey)
    (enqueueReview : EnqueueReview) : Prop where
  pullRequest : event.eventType = "pull_request"
  action : ∃ action ∈ ["opened", "synchronize", "reopened"], event.action = .string action
  number : dictGet "number" .null event.payload = .ok enqueueReview.prNumber ∧
    enqueueReview.prNumber ≠ .null ∧ toInt parse enqueueReview.prNumber = .ok prKey.2
  repository : ∃ repository, dictGet "repository" (.object []) event.payload = .ok repository ∧
    dictGet "full_name" (.string "unknown") repository = .ok (.string prKey.1)
  named : enqueueReview.repo = prKey.1

theorem isTrigger_eq_true_iff (action : Json) :
    isTrigger action = .ok true ↔
      ∃ text ∈ ["opened", "synchronize", "reopened"], action = .string text := by
  cases action with
  | string text =>
      simp only [isTrigger, Except.ok.injEq, List.contains_iff_mem]
      constructor
      · exact fun member => ⟨text, member, rfl⟩
      · rintro ⟨_, member, ⟨⟩⟩
        exact member
  | _ => simp [isTrigger]

theorem routePullRequest_eq_review_iff (parse : String → Option Int) (payload : Json)
    (prKey : PRKey) (enqueueReview : EnqueueReview) :
    routePullRequest parse payload = .ok (.review prKey enqueueReview) ↔
      (dictGet "number" .null payload = .ok enqueueReview.prNumber ∧
        enqueueReview.prNumber ≠ .null ∧ toInt parse enqueueReview.prNumber = .ok prKey.2) ∧
      (∃ repository, dictGet "repository" (.object []) payload = .ok repository ∧
        dictGet "full_name" (.string "unknown") repository = .ok (.string prKey.1)) ∧
      enqueueReview.repo = prKey.1 := by
  constructor
  · intro routed
    unfold routePullRequest at routed
    obtain ⟨prNumber, numbered, routed⟩ := exists_ok_of_bind routed
    obtain ⟨repository, located, routed⟩ := exists_ok_of_bind routed
    obtain ⟨repo, named, routed⟩ := exists_ok_of_bind routed
    split at routed
    · cases routed
    · rename_i given
      obtain ⟨number, converted, routed⟩ := exists_ok_of_bind routed
      split at routed
      · cases routed
        exact ⟨⟨numbered, given, converted⟩, ⟨repository, located, named⟩, rfl⟩
      · cases routed
      · cases routed
      · cases routed
  · rintro ⟨⟨numbered, given, converted⟩, ⟨repository, located, named⟩, same⟩
    obtain ⟨repo, number⟩ := prKey
    obtain ⟨own, prNumber⟩ := enqueueReview
    obtain rfl : own = repo := same
    simp only [routePullRequest, numbered, located, named, bind, Except.bind]
    cases prNumber with
    | null => exact absurd rfl given
    | _ =>
        simp only [converted]
        rfl

/-- **Which events ask for a review**, and for which. -/
theorem routeEvent_eq_review_iff (parse : String → Option Int) (event : RouteEvent)
    (prKey : PRKey) (enqueueReview : EnqueueReview) :
    routeEvent parse event = .review prKey enqueueReview ↔
      Triggers parse event prKey enqueueReview := by
  have tried : routeEvent parse event = .review prKey enqueueReview ↔
      tryRoute parse event = .ok (.review prKey enqueueReview) := by
    unfold routeEvent
    split
    · rename_i routed found
      rw [found, Except.ok.injEq]
    · rename_i raised found
      rw [found]
      exact ⟨nofun, nofun⟩
  rw [tried]
  constructor
  · intro routed
    unfold tryRoute at routed
    obtain ⟨triggers, decided, routed⟩ := exists_ok_of_bind routed
    split at routed
    · rename_i isTrue
      subst isTrue
      unfold isPush at decided
      split at decided
      · rename_i pullRequest
        obtain ⟨number, repository, named⟩ :=
          (routePullRequest_eq_review_iff parse _ _ _).mp routed
        exact ⟨pullRequest, (isTrigger_eq_true_iff _).mp decided, number, repository, named⟩
      · cases decided
    · split at routed
      · obtain ⟨installation, -, routed⟩ := exists_ok_of_bind routed
        obtain ⟨githubId, -, routed⟩ := exists_ok_of_bind routed
        cases routed
      · cases routed
  · rintro ⟨pullRequest, action, number, repository, named⟩
    have pushes : isPush event = .ok true := by
      rw [isPush, if_pos pullRequest, (isTrigger_eq_true_iff _).mpr action]
    unfold tryRoute
    rw [pushes]
    exact (routePullRequest_eq_review_iff parse _ _ _).mpr ⟨number, repository, named⟩

end Webhook

end Kenjutsu.Server
