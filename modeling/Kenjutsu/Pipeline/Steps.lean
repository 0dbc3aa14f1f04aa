import Kenjutsu.Foundations.Replay
import Kenjutsu.Pipeline.Types

/-!
# The durable review workflow

The body of `review_pr`: sixteen checkpointed steps on the longest path, with a
sha check before the processing and a second one before publishing.

A checkpointed check is replayed after a crash like any other step. If the crash
falls after the second check was recorded and before the publishing was, the
next incarnation publishes on an answer from before the crash. In every other
run the publishing follows a check that has executed in its own incarnation.
-/

set_option autoImplicit false

namespace Kenjutsu.Pipeline

open Foundations Foundations.Coroutine Kenjutsu.Pipeline.Types

open Models (Finding)

/-- The steps, with their arguments. -/
inductive StepCall where
  | shaGuard (pr : PrMetadata)
  | processDiff (pr : PrMetadata)
  | structuralContext (req : ReviewRequest)
  | deterministic (req : ReviewRequest) (ctx : StructuralContext)
  | llmReview (req : ReviewRequest) (ctx : StructuralContext) (det : List Finding)
  | score (findings : List Finding) (ctx : StructuralContext)
  | publish (findings : List Finding) (pr : PrMetadata)
  | updateStatus (reviewId : String) (status : ReviewStatus)
deriving DecidableEq, Repr

/-- What each step returns. -/
def StepCall.Answer : StepCall → Type
  | .shaGuard _ => Bool
  | .processDiff _ => ReviewRequest
  | .structuralContext _ => StructuralContext
  | .deterministic _ _ => List Finding
  | .llmReview _ _ _ => List Finding
  | .score _ _ => List Finding
  | .publish _ _ => ReviewResult
  | .updateStatus _ _ => Unit

namespace Steps

variable {Raised : Type}

/-- A workflow over the steps, which may raise anything. -/
abbrev Workflow (Raised : Type) := Coroutine Unit StepCall.Answer Raised

/-! ## The workflow -/

def stepShaGuard (pr : PrMetadata) : Workflow Raised Bool := call (StepCall.shaGuard pr)

def stepProcessDiff (pr : PrMetadata) : Workflow Raised ReviewRequest :=
  call (StepCall.processDiff pr)

def stepStructuralContext (req : ReviewRequest) : Workflow Raised StructuralContext :=
  call (StepCall.structuralContext req)

def stepDeterministic (req : ReviewRequest) (ctx : StructuralContext) :
    Workflow Raised (List Finding) := call (StepCall.deterministic req ctx)

def stepLlmReview (req : ReviewRequest) (ctx : StructuralContext) (det : List Finding) :
    Workflow Raised (List Finding) := call (StepCall.llmReview req ctx det)

def stepScore (findings : List Finding) (ctx : StructuralContext) :
    Workflow Raised (List Finding) := call (StepCall.score findings ctx)

def stepPublish (findings : List Finding) (pr : PrMetadata) : Workflow Raised ReviewResult :=
  call (StepCall.publish findings pr)

def stepUpdateStatus (reviewId : String) (status : ReviewStatus) : Workflow Raised Unit :=
  call (StepCall.updateStatus reviewId status)

/-- `_run_review_pipeline`. -/
def runReviewPipeline (pr : PrMetadata) (reviewId : String) : Workflow Raised ReviewResult := do
  stepUpdateStatus reviewId .shaChecking
  if !(← stepShaGuard pr) then do
    stepUpdateStatus reviewId .aborted
    pure { status := "aborted", reason := some "stale_sha" }
  else do
    stepUpdateStatus reviewId .processingDiff
    let req ← stepProcessDiff pr
    stepUpdateStatus reviewId .extractingContext
    let ctx ← stepStructuralContext req
    stepUpdateStatus reviewId .runningDeterministic
    let det ← stepDeterministic req ctx
    stepUpdateStatus reviewId .runningLlm
    let llm ← stepLlmReview req ctx det
    stepUpdateStatus reviewId .scoringEvidence
    let scored ← stepScore (det ++ llm) ctx
    stepUpdateStatus reviewId .publishing
    if !(← stepShaGuard pr) then do
      stepUpdateStatus reviewId .superseded
      pure { status := "superseded", reason := some "sha_changed_before_publish" }
    else do
      let result ← stepPublish scored pr
      stepUpdateStatus reviewId .complete
      pure result

/-- `review_pr`. -/
def reviewPr (pr : PrMetadata) (reviewId : String) : Workflow Raised ReviewResult :=
  runReviewPipeline pr reviewId

/-! ## Where the workflow publishes -/

abbrev StepExchange (Raised : Type) := Exchange StepCall.Answer Raised

/-- A sha check of the pull request that returned `True`. -/
def isCurrentCheck (pr : PrMetadata) : StepExchange Raised → Bool
  | ⟨.shaGuard target, .ok true⟩ => target = pr
  | _ => false

/-- A scoring that returned. -/
def isScoring : StepExchange Raised → Bool
  | ⟨.score _ _, .ok _⟩ => true
  | _ => false

/-- Publishing comes next: the last step is a sha check that returned `True`, made
after the findings were scored. -/
def awaitsPublish (pr : PrMetadata) (heard : List (StepExchange Raised)) : Bool :=
  match heard.getLast? with
  | some last => isCurrentCheck pr last && heard.dropLast.any isScoring
  | none => false

theorem awaitsPublish_concat {pr : PrMetadata} {earlier : List (StepExchange Raised)}
    {last : StepExchange Raised} :
    awaitsPublish pr (earlier ++ [last]) = (isCurrentCheck pr last && earlier.any isScoring) := by
  simp [awaitsPublish]

/-- A step that publishes is allowed only where publishing comes next. -/
def AllowsStep (pr : PrMetadata) (heard : List (StepExchange Raised)) (request : StepCall) : Prop :=
  ∀ findings target, request = .publish findings target → target = pr ∧ awaitsPublish pr heard

/-- The step publishes. -/
def publishes : StepCall → Bool
  | .publish _ _ => true
  | _ => false

/-- A step that does not publish is allowed anywhere, and the workflow goes on
after what it returned. -/
theorem ensures_step {pr : PrMetadata} {Value : Type} (request : StepCall)
    {heard : List (StepExchange Raised)} {next : request.Answer → Workflow Raised Value}
    (quiet : publishes request = false)
    (goesOn : ∀ result,
      Durable.Awaits (AllowsStep pr) (heard ++ [⟨request, .ok result⟩]) (next result)) :
    Durable.Awaits (AllowsStep pr) heard (call request >>= next) := by
  refine ensures_bind.mpr (Durable.ensures_call.mpr ⟨?_, ?_⟩)
  · rintro findings target rfl
    cases quiet
  · rintro (raised | result)
    · trivial
    · exact goesOn result

/-- `review_pr` publishes only right after its second sha check. -/
theorem reviewPr_awaits (pr : PrMetadata) (reviewId : String) :
    Durable.Awaits (AllowsStep pr) [] (reviewPr pr reviewId : Workflow Raised ReviewResult) := by
  refine ensures_step (.updateStatus reviewId .shaChecking) rfl fun _ => ?_
  refine ensures_step (.shaGuard pr) rfl fun current => ?_
  cases current with
  | false =>
      refine ensures_step (.updateStatus reviewId .aborted) rfl fun _ => ?_
      trivial
  | true =>
      refine ensures_step (.updateStatus reviewId .processingDiff) rfl fun _ => ?_
      refine ensures_step (.processDiff pr) rfl fun req => ?_
      refine ensures_step (.updateStatus reviewId .extractingContext) rfl fun _ => ?_
      refine ensures_step (.structuralContext req) rfl fun ctx => ?_
      refine ensures_step (.updateStatus reviewId .runningDeterministic) rfl fun _ => ?_
      refine ensures_step (.deterministic req ctx) rfl fun det => ?_
      refine ensures_step (.updateStatus reviewId .runningLlm) rfl fun _ => ?_
      refine ensures_step (.llmReview req ctx det) rfl fun llm => ?_
      refine ensures_step (.updateStatus reviewId .scoringEvidence) rfl fun _ => ?_
      refine ensures_step (.score _ ctx) rfl fun scored => ?_
      refine ensures_step (.updateStatus reviewId .publishing) rfl fun _ => ?_
      refine ensures_step (.shaGuard pr) rfl fun current => ?_
      cases current with
      | false =>
          refine ensures_step (.updateStatus reviewId .superseded) rfl fun _ => ?_
          trivial
      | true =>
          refine ensures_bind.mpr (Durable.ensures_call.mpr ⟨?_, ?_⟩)
          · rintro _ _ ⟨⟩
            refine ⟨rfl, ?_⟩
            rw [awaitsPublish_concat]
            simp [isCurrentCheck, isScoring]
          · rintro (raised | result)
            · trivial
            · refine ensures_step (.updateStatus reviewId .complete) rfl fun _ => ?_
              trivial

/-! ## Publishing on a fresh check -/

/-- One event of a durable execution of `review_pr`. -/
def step (pr : PrMetadata) (reviewId : String) :
    Machine (Durable StepCall.Answer Raised ReviewResult) (DurableEvent StepCall.Answer Raised) :=
  Durable.step (reviewPr pr reviewId)

/-- Whenever the body of `step_publish` has executed, the body of
`step_sha_guard` had executed before it in the same incarnation and returned
`True`, after the findings were scored. -/
def PublishesFresh (pr : PrMetadata) (durable : Durable StepCall.Answer Raised ReviewResult) :
    Prop :=
  ∀ incarnation, durable.incarnation = some incarnation → ∀ before entry after findings target,
    incarnation.passed = before ++ entry :: after → entry.executed →
      entry.exchange.request = .publish findings target →
        ∃ earlier check later, before = earlier ++ check :: later ∧ check.executed ∧
          isCurrentCheck pr check.exchange ∧ (earlier.map Passed.exchange).any isScoring

/-- A crash does not fall between the recording of the second sha check and the
recording of the publishing. -/
def crashSpares (pr : PrMetadata) (durable : Durable StepCall.Answer Raised ReviewResult) :
    DurableEvent StepCall.Answer Raised → Bool
  | .crash => !awaitsPublish pr durable.journal
  | _ => true

/-- **Publishing follows a fresh check.** In every run of `review_pr`, over any
answers of the steps and any crashes and recoveries, whose crashes all spare the
window between the second sha check and the publishing, the publishing executes
only after a sha check that executed in the same incarnation. -/
theorem reviewPr_publishesFresh (pr : PrMetadata) (reviewId : String)
    (events : List (DurableEvent StepCall.Answer Raised))
    (spared : ∀ move ∈ (step pr reviewId).moves {} events, crashSpares pr move.1 move.2) :
    ∀ durable ∈ (step pr reviewId).visits {} events, PublishesFresh pr durable := by
  intro durable visited incarnation running before entry after findings target split executed
    publishes
  have guarded : ∀ move ∈ (step pr reviewId).moves {} events,
      move.2 = .crash → ¬ (awaitsPublish pr move.1.journal : Prop) := by
    rintro ⟨state, event⟩ made rfl
    simpa [crashSpares] using spared _ made
  have fresh := @Durable.forall_executesFresh _ _ _ _ _ (awaitsPublish pr · = true) _ _
    (reviewPr_awaits pr reviewId) (by simp [awaitsPublish]) events guarded durable visited
    incarnation running before entry after split executed
  obtain ⟨-, awaits⟩ := fresh.1 findings target publishes
  obtain ⟨earlier, check, rfl, ran⟩ := fresh.2 awaits
  rw [List.map_append, List.map_singleton, awaitsPublish_concat, Bool.and_eq_true] at awaits
  exact ⟨earlier, check, [], rfl, ran, awaits.1, awaits.2⟩

/-- The steps as `logic.py` stubs them, with a given answer of the sha check. -/
def stubs (current : Bool) : (request : StepCall) → Except Raised request.Answer
  | .shaGuard _ => .ok current
  | .processDiff pr => .ok ⟨pr, []⟩
  | .structuralContext req => .ok ⟨req.prMetadata.repoId, req.prMetadata.headSha, [], []⟩
  | .deterministic _ _ => .ok []
  | .llmReview _ _ _ => .ok []
  | .score findings _ => .ok findings
  | .publish findings _ => .ok ⟨"published", none, findings.length⟩
  | .updateStatus _ _ => .ok ()

/-- A number of steps execute and are recorded. -/
def executeAndRecord (count : Nat) (current : Bool) : List (DurableEvent StepCall.Answer Raised) :=
  (List.replicate count [.execute (stubs current), .record]).flatten

/-- A pull request, and the durable execution of its review by the stubs. -/
def examplePr : PrMetadata := ⟨"org/repo", 42, "base", "head", "url"⟩

def exampleStep (reviewId : String) :
    Machine (Durable StepCall.Answer Unit ReviewResult) (DurableEvent StepCall.Answer Unit) :=
  step examplePr reviewId

/-- Whether a step executed, and whether it is the publishing of no findings. -/
def stepView (passed : Passed StepCall.Answer Unit) : Bool × Bool :=
  (passed.executed, passed.exchange.request = .publish [] examplePr)

def passedView (durable : Durable StepCall.Answer Unit ReviewResult) : Option (List (Bool × Bool)) :=
  durable.incarnation.map fun incarnation => incarnation.passed.map stepView

/-- The process crashes after the second sha check has executed and before its
outcome is recorded: the check executes again, and the publishing is fresh. -/
theorem crashDuringCheck_publishesFresh :
    ∃ durable, passedView durable =
        some (List.replicate 13 (false, false) ++ [(true, false), (true, true)]) ∧
      PublishesFresh examplePr durable := by
  have seen : ((exampleStep "rev").run {} (.start :: executeAndRecord 13 true ++
      [.execute (stubs true), .crash, .start] ++ List.replicate 13 .replay ++
      executeAndRecord 1 true ++ [.execute (stubs true)])).map passedView =
      some (some (List.replicate 13 (false, false) ++ [(true, false), (true, true)])) := by decide
  obtain ⟨durable, ran, view⟩ := Option.map_eq_some_iff.mp seen
  have visited := (Machine.mem_visits_iff ..).mpr ⟨_, [], (List.append_nil _).symm, ran⟩
  exact ⟨durable, view, reviewPr_publishesFresh examplePr "rev" _ (by decide) durable visited⟩

/-- The process crashes after the second sha check was recorded, the head moves,
and the process recovers: it publishes on the replayed check. -/
theorem crashBeforePublish_publishes_stale :
    ¬ ∀ durable ∈ (exampleStep "rev").visits {} (.start :: executeAndRecord 14 true ++
        [.crash, .start] ++ List.replicate 14 .replay ++ [.execute (stubs false)]),
      PublishesFresh examplePr durable := by
  intro fresh
  have seen : ((exampleStep "rev").run {} (.start :: executeAndRecord 14 true ++
      [.crash, .start] ++ List.replicate 14 .replay ++ [.execute (stubs false)])).map passedView =
      some (some (List.replicate 14 (false, false) ++ [(true, true)])) := by decide
  obtain ⟨durable, ran, view⟩ := Option.map_eq_some_iff.mp seen
  obtain ⟨incarnation, running, steps⟩ := Option.map_eq_some_iff.mp view
  obtain ⟨before, last, split, replayed, published⟩ := List.map_eq_append_iff.mp steps
  obtain ⟨entry, rfl, isPublish⟩ := List.map_eq_singleton_iff.mp published
  obtain ⟨executed, publishes⟩ := Prod.mk.inj isPublish
  have visited := (Machine.mem_visits_iff ..).mpr ⟨_, [], (List.append_nil _).symm, ran⟩
  obtain ⟨earlier, check, later, rfl, ran, -⟩ := fresh durable visited incarnation running before
    entry [] [] examplePr split executed (of_decide_eq_true publishes)
  -- every step before the publishing was replayed
  have member : stepView check ∈ (earlier ++ check :: later).map stepView :=
    List.mem_map_of_mem (by simp)
  rw [replayed] at member
  have notExecuted := (Prod.mk.inj (List.eq_of_mem_replicate member)).1
  rw [ran] at notExecuted
  cases notExecuted

end Steps

end Kenjutsu.Pipeline
