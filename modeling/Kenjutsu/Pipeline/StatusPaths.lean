import Kenjutsu.Foundations.Transcripts
import Kenjutsu.Pipeline.Steps

/-!
# The statuses of a review run

`_run_review_pipeline` emits a status before each stage and a terminal one at
its end. It has no handler: an exception of a step ends the run, and the last
status emitted is the one of the stage that failed, never `FAILED`.

So a run keeps the promise of one terminal status exactly when none of the steps
it calls raises. What it publishes is safe in every run: at most once, the
scored findings, and only after two sha checks that returned `True`.
-/

set_option autoImplicit false

namespace Kenjutsu.Pipeline

open Foundations Foundations.Coroutine Kenjutsu.Pipeline.Types

open Models (Finding)

/-- The statuses in which a review ends. -/
def Types.ReviewStatus.terminal : ReviewStatus → Bool
  | .complete | .aborted | .superseded | .failed => true
  | _ => false

/-- The documented order of the statuses; a review that is not over may fail. -/
def Types.ReviewStatus.precedes : ReviewStatus → ReviewStatus → Bool
  | .shaChecking, .aborted | .shaChecking, .processingDiff => true
  | .processingDiff, .extractingContext => true
  | .extractingContext, .runningDeterministic => true
  | .runningDeterministic, .runningLlm => true
  | .runningLlm, .scoringEvidence => true
  | .scoringEvidence, .publishing => true
  | .publishing, .superseded | .publishing, .complete => true
  | status, .failed => !status.terminal
  | _, _ => false

namespace Steps

variable {Raised : Type}

/-! ## What a run emits and publishes -/

/-- The status an exchange emits for the review. -/
def statusOf (reviewId : String) : StepExchange Raised → Option ReviewStatus
  | ⟨.updateStatus id status, .ok ()⟩ => if id = reviewId then some status else none
  | _ => none

/-- The statuses a run emits for the review. -/
def statuses (reviewId : String) (run : List (StepExchange Raised)) : List ReviewStatus :=
  run.filterMap (statusOf reviewId)

/-- The exchange publishes, or tries to. -/
def isPublish : StepExchange Raised → Bool
  | ⟨.publish _ _, _⟩ => true
  | _ => false

/-- The step raised. -/
def raises : StepExchange Raised → Bool
  | ⟨_, .error _⟩ => true
  | ⟨_, .ok _⟩ => false

/-- The statuses are a path of the documented order from `SHA_CHECKING`, and the
last one, and only that one, is terminal. -/
structure EndsOnce (path : List ReviewStatus) : Prop where
  starts : path.head? = some .shaChecking
  ordered : path.IsChain fun earlier later => earlier.precedes later
  ends : ∃ last, path.getLast? = some last ∧ last.terminal
  once : ∀ status ∈ path.dropLast, status.terminal = false

/-- What came before the publishing of the findings: a sha check that returned
`True`, both analyses, the scoring of what they found together, which returned
the findings, and a second sha check that returned `True`. -/
def PublishesScored (pr : PrMetadata) (before : List (StepExchange Raised))
    (findings : List Finding) (target : PrMetadata) : Prop :=
  target = pr ∧ ∃ req ctx, ∃ det llm : List Finding,
    List.Sublist
      [⟨.shaGuard pr, .ok true⟩, ⟨.deterministic req ctx, .ok det⟩,
        ⟨.llmReview req ctx det, .ok llm⟩, ⟨.score (det ++ llm) ctx, .ok findings⟩,
        ⟨.shaGuard pr, .ok true⟩]
      before

/-- A run publishes at most once, and only the scored findings. -/
def PublishesOnce (pr : PrMetadata) (run : List (StepExchange Raised)) : Prop :=
  ∀ exchange ∈ run, ∀ findings target, exchange.request = .publish findings target →
    ∃ before after, run = before ++ exchange :: after ∧
      (∀ other ∈ before ++ after, isPublish other = false) ∧
      PublishesScored pr before findings target

/-- A run in which a step raises ends with `FAILED`, and a publishing in it is
the step that raised. -/
def FailsVisibly (reviewId : String) (run : List (StepExchange Raised)) : Prop :=
  run.any raises → (statuses reviewId run).getLast? = some .failed ∧
    ∀ exchange ∈ run, isPublish exchange → raises exchange

/-- **The promise of a review run.** -/
structure EndsInOneStatus (pr : PrMetadata) (reviewId : String)
    (run : List (StepExchange Raised)) : Prop where
  path : EndsOnce (statuses reviewId run)
  publishes : PublishesOnce pr run
  fails : FailsVisibly reviewId run

/-! ## The runs of the pipeline -/

/-- `step_update_status` does not raise; the other steps may do anything. -/
def Persists (exchange : StepExchange Raised) : Prop :=
  ∀ reviewId status, exchange.request = .updateStatus reviewId status → raises exchange = false

/-- What is shown of every run: the publishing is safe, and the promise is kept
exactly when no step raised. -/
def KeptIffNoRaise (pr : PrMetadata) (reviewId : String) (run : List (StepExchange Raised)) :
    Prop :=
  PublishesOnce pr run ∧ (EndsInOneStatus pr reviewId run ↔ run.any raises = false)

/-- The rest of a run, after what was exchanged so far, keeps the promise exactly
when no step raised. -/
def Keeps (pr : PrMetadata) (reviewId : String) (body : Workflow Raised ReviewResult)
    (run : List (StepExchange Raised)) : Prop :=
  body.Ensures (recorded Persists) (fun _ _ run => KeptIffNoRaise pr reviewId run) () run

/-- An exchange with a step other than `step_update_status`. -/
def isWork : StepExchange Raised → Bool
  | ⟨.updateStatus _ _, _⟩ => false
  | _ => true

/-- A run that has emitted these statuses and done this work, in this order, and
in which nothing has raised. -/
structure Underway (reviewId : String) (path : List ReviewStatus)
    (work : List (StepExchange Raised)) (run : List (StepExchange Raised)) : Prop where
  emitted : statuses reviewId run = path
  worked : run.filter isWork = work
  calm : run.any raises = false

namespace Underway

variable {pr : PrMetadata} {reviewId : String} {path : List ReviewStatus}
  {work run : List (StepExchange Raised)}

theorem start : Underway reviewId [] [] ([] : List (StepExchange Raised)) := ⟨rfl, rfl, rfl⟩

/-- A status was emitted. -/
theorem emit (underway : Underway reviewId path work run) (status : ReviewStatus) :
    Underway reviewId (path ++ [status]) work (run ++ [⟨.updateStatus reviewId status, .ok ()⟩])
    where
  emitted := by
    rw [statuses, List.filterMap_append, ← statuses, underway.emitted]
    simp [statusOf]
  worked := by
    rw [List.filter_append, underway.worked]
    exact List.append_nil work
  calm := by
    rw [List.any_append, underway.calm]
    rfl

/-- A step returned. -/
theorem step (underway : Underway reviewId path work run) {request : StepCall}
    {result : request.Answer}
    (isStep : isWork (⟨request, .ok result⟩ : StepExchange Raised) = true) :
    Underway reviewId path (work ++ [⟨request, .ok result⟩]) (run ++ [⟨request, .ok result⟩])
    where
  emitted := by
    rw [statuses, List.filterMap_append, ← statuses, underway.emitted]
    cases request with
    | updateStatus id status => cases isStep
    | _ => exact List.append_nil path
  worked := by
    rw [List.filter_append, underway.worked, List.filter_singleton, isStep]
    rfl
  calm := by
    rw [List.any_append, underway.calm]
    rfl

/-- Without a publishing in the work there is none in the run. -/
theorem no_publish (underway : Underway reviewId path work run)
    (unpublished : work.all fun exchange => !isPublish exchange) :
    ∀ exchange ∈ run, isPublish exchange = false := by
  intro exchange member
  cases published : isPublish exchange with
  | false => rfl
  | true =>
      have isStep : isWork exchange = true := by
        rcases exchange with ⟨_ | _ | _ | _ | _ | _ | _ | _, _⟩ <;> first | rfl | cases published
      have worked : exchange ∈ work := underway.worked ▸ List.mem_filter.mpr ⟨member, isStep⟩
      simpa [published] using List.all_eq_true.mp unpublished exchange worked

end Underway

/-- A run without a publishing publishes safely. -/
theorem publishesOnce_of_none {pr : PrMetadata} {run : List (StepExchange Raised)}
    (unpublished : ∀ exchange ∈ run, isPublish exchange = false) : PublishesOnce pr run := by
  intro exchange member findings target publishes
  have notPublish := unpublished exchange member
  obtain ⟨request, answer⟩ := exchange
  obtain rfl : request = .publish findings target := publishes
  cases notPublish

/-- One publishing, at the end or followed by a status, of what was scored. -/
theorem publishesOnce_of_last {pr : PrMetadata} {findings : List Finding}
    {answer : Except Raised ReviewResult} {before after : List (StepExchange Raised)}
    (unpublished : ∀ exchange ∈ before ++ after, isPublish exchange = false)
    (scored : PublishesScored pr before findings pr) :
    PublishesOnce pr (before ++ ⟨.publish findings pr, answer⟩ :: after) := by
  intro exchange member found target publishes
  rcases List.mem_append.mp member with early | late
  · have notPublish := unpublished exchange (List.mem_append_left _ early)
    obtain ⟨request, _⟩ := exchange
    obtain rfl : request = .publish found target := publishes
    cases notPublish
  · rcases List.mem_cons.mp late with rfl | later
    · obtain ⟨rfl, rfl⟩ := StepCall.publish.inj publishes
      exact ⟨before, after, rfl, unpublished, scored⟩
    · have notPublish := unpublished exchange (List.mem_append_right _ later)
      obtain ⟨request, _⟩ := exchange
      obtain rfl : request = .publish found target := publishes
      cases notPublish

/-- A run that ends because a step raised, with a status that is not `FAILED`
emitted last. -/
theorem keptIffNoRaise_of_raise {pr : PrMetadata} {reviewId : String} {path : List ReviewStatus}
    {work run : List (StepExchange Raised)} {request : StepCall} {raised : Raised}
    (underway : Underway reviewId path work run) (last : path.getLast? ≠ some .failed)
    (publishes : PublishesOnce pr (run ++ [⟨request, .error raised⟩])) :
    KeptIffNoRaise pr reviewId (run ++ [⟨request, .error raised⟩]) := by
  have anyRaises : (run ++ [(⟨request, .error raised⟩ : StepExchange Raised)]).any raises := by
    rw [List.any_append]
    exact Bool.or_true _
  have sameStatuses : statuses reviewId (run ++ [⟨request, .error raised⟩]) = path := by
    rw [statuses, List.filterMap_append, ← statuses, underway.emitted]
    cases request <;> exact List.append_nil path
  refine ⟨publishes, iff_of_false ?_ (ne_false_of_eq_true anyRaises)⟩
  intro kept
  apply last
  rw [← sameStatuses]
  exact (kept.fails anyRaises).1

/-- A run in which no step raises and that ends in one status. -/
theorem keptIffNoRaise_of_path {pr : PrMetadata} {reviewId : String} {path : List ReviewStatus}
    {work run : List (StepExchange Raised)} (underway : Underway reviewId path work run)
    (publishes : PublishesOnce pr run) (endsOnce : EndsOnce path) :
    KeptIffNoRaise pr reviewId run := by
  refine ⟨publishes, iff_of_true ⟨?_, publishes, ?_⟩ underway.calm⟩
  · rw [underway.emitted]
    exact endsOnce
  · intro raises
    rw [underway.calm] at raises
    cases raises

/-! ## The rules for a step of the pipeline -/

variable {pr : PrMetadata} {reviewId : String} {path : List ReviewStatus}
  {work run : List (StepExchange Raised)}

/-- Emitting a status. -/
theorem keeps_emit {status : ReviewStatus} {next : Unit → Workflow Raised ReviewResult}
    (underway : Underway reviewId path work run)
    (emitted : ∀ run, Underway reviewId (path ++ [status]) work run →
      Keeps pr reviewId (next ()) run) :
    Keeps pr reviewId (stepUpdateStatus reviewId status >>= next) run := by
  refine ensures_bind.mpr (ensures_call_recorded.mpr ?_)
  rintro (raised | _) persists
  · cases persists reviewId status rfl
  · refine emitted _ ?_
    exact underway.emit status

/-- A step that does not publish: the run ends there if it raises, with a status
that is not `FAILED`, and goes on with its result otherwise. -/
theorem keeps_step {request : StepCall} {next : request.Answer → Workflow Raised ReviewResult}
    (underway : Underway reviewId path work run)
    (isStep : ∀ answer, isWork (⟨request, answer⟩ : StepExchange Raised) = true)
    (quiet : ∀ answer, isPublish (⟨request, answer⟩ : StepExchange Raised) = false)
    (unpublished : work.all fun exchange => !isPublish exchange)
    (last : path.getLast? ≠ some .failed)
    (returned : ∀ result run,
      Underway reviewId path (work ++ [⟨request, .ok result⟩]) run →
        Keeps pr reviewId (next result) run) :
    Keeps pr reviewId (call request >>= next) run := by
  refine ensures_bind.mpr (ensures_call_recorded.mpr ?_)
  rintro (raised | result) -
  · have publishes : PublishesOnce pr (run ++ [⟨request, .error raised⟩]) := by
      refine publishesOnce_of_none fun exchange member => ?_
      rcases List.mem_append.mp member with earlier | now
      · exact underway.no_publish unpublished exchange earlier
      · obtain rfl := List.mem_singleton.mp now
        exact quiet _
    exact keptIffNoRaise_of_raise underway last publishes
  · refine returned result _ ?_
    exact underway.step (isStep (.ok result))

/-- The end of a run that has not published. -/
theorem keeps_end {result : ReviewResult}
    (underway : Underway reviewId path work run)
    (unpublished : work.all fun exchange => !isPublish exchange) (endsOnce : EndsOnce path) :
    Keeps pr reviewId (pure result) run :=
  keptIffNoRaise_of_path underway (publishesOnce_of_none (underway.no_publish unpublished)) endsOnce

/-- Publishing what was scored, and then `COMPLETE`. -/
theorem keeps_publish {findings : List Finding}
    (underway : Underway reviewId path work run)
    (unpublished : work.all fun exchange => !isPublish exchange)
    (scored : PublishesScored pr work findings pr) (last : path.getLast? ≠ some .failed)
    (endsOnce : EndsOnce (path ++ [.complete])) :
    Keeps pr reviewId (stepPublish findings pr >>= fun result =>
      stepUpdateStatus reviewId .complete >>= fun _ => pure result) run := by
  have before : PublishesScored pr run findings pr := by
    obtain ⟨same, req, ctx, det, llm, sublist⟩ := scored
    refine ⟨same, req, ctx, det, llm, sublist.trans ?_⟩
    rw [← underway.worked]
    exact List.filter_sublist
  have none := underway.no_publish unpublished
  refine ensures_bind.mpr (ensures_call_recorded.mpr ?_)
  rintro (raised | result) -
  · change KeptIffNoRaise pr reviewId (run ++ _)
    refine keptIffNoRaise_of_raise underway last (publishesOnce_of_last ?_ before)
    simpa using none
  · have isStep : isWork (⟨.publish findings pr, .ok result⟩ : StepExchange Raised) = true := rfl
    have published := underway.step isStep
    refine ensures_bind.mpr (ensures_call_recorded.mpr ?_)
    rintro (raised | _) persists
    · cases persists reviewId .complete rfl
    · change KeptIffNoRaise pr reviewId (run ++ [_] ++ [_])
      refine keptIffNoRaise_of_path (published.emit .complete) ?_ endsOnce
      rw [List.append_assoc]
      refine publishesOnce_of_last (fun exchange member => ?_) before
      rcases List.mem_append.mp member with earlier | now
      · exact none exchange earlier
      · obtain rfl := List.mem_singleton.mp now
        rfl

/-! ## The promise -/

/-- Every run of `review_pr`, whatever its steps do. -/
theorem reviewPr_keeps (pr : PrMetadata) (reviewId : String) :
    Keeps pr reviewId (reviewPr pr reviewId : Workflow Raised ReviewResult) [] := by
  refine keeps_emit .start fun run underway => ?_
  refine keeps_step underway (fun _ => rfl) (fun _ => rfl) rfl nofun
    fun current run underway => ?_
  cases current with
  | false =>
      refine keeps_emit underway fun run underway => ?_
      exact keeps_end underway rfl ⟨rfl, by decide, ⟨_, rfl, rfl⟩, by decide⟩
  | true =>
      refine keeps_emit underway fun run underway => ?_
      refine keeps_step underway (fun _ => rfl) (fun _ => rfl) rfl nofun
        fun req run underway => ?_
      refine keeps_emit underway fun run underway => ?_
      refine keeps_step underway (fun _ => rfl) (fun _ => rfl) rfl nofun
        fun ctx run underway => ?_
      refine keeps_emit underway fun run underway => ?_
      refine keeps_step underway (fun _ => rfl) (fun _ => rfl) rfl nofun
        fun det run underway => ?_
      refine keeps_emit underway fun run underway => ?_
      refine keeps_step underway (fun _ => rfl) (fun _ => rfl) rfl nofun
        fun llm run underway => ?_
      refine keeps_emit underway fun run underway => ?_
      refine keeps_step underway (fun _ => rfl) (fun _ => rfl) rfl nofun
        fun scored run underway => ?_
      refine keeps_emit underway fun run underway => ?_
      refine keeps_step underway (fun _ => rfl) (fun _ => rfl) rfl nofun
        fun current run underway => ?_
      cases current with
      | false =>
          refine keeps_emit underway fun run underway => ?_
          exact keeps_end underway rfl ⟨rfl, by decide, ⟨_, rfl, rfl⟩, by decide⟩
      | true =>
          refine keeps_publish underway rfl ⟨rfl, req, ctx, det, llm, ?_⟩ nofun
            ⟨rfl, by decide, ⟨_, rfl, rfl⟩, by decide⟩
          simp

variable {Server : Type}

/-- What a run of `review_pr` exchanges with its steps. -/
def runOf (pr : PrMetadata) (reviewId : String)
    (respond : Server → (request : StepCall) → Except Raised request.Answer × Server)
    (server : Server) : List (StepExchange Raised) :=
  (reviewPr pr reviewId).transcript respond () server

theorem keptIffNoRaise_runOf (pr : PrMetadata) (reviewId : String)
    (respond : Server → (request : StepCall) → Except Raised request.Answer × Server)
    (server : Server)
    (persists : ∀ server id status, (respond server (.updateStatus id status)).1 = .ok ()) :
    KeptIffNoRaise pr reviewId (runOf pr reviewId respond server) := by
  have admitted : ∀ server request, Persists ⟨request, (respond server request).1⟩ := by
    rintro server _ id status rfl
    rw [persists]
    rfl
  have ensured : Keeps pr reviewId (reviewPr pr reviewId : Workflow Raised ReviewResult) [] :=
    reviewPr_keeps pr reviewId
  exact holds_of_recorded admitted ensured

/-- Whatever its steps do, a run publishes at most once, and only what was scored
between two sha checks that returned `True`. -/
theorem publishesOnce_runOf (pr : PrMetadata) (reviewId : String)
    (respond : Server → (request : StepCall) → Except Raised request.Answer × Server)
    (server : Server)
    (persists : ∀ server id status, (respond server (.updateStatus id status)).1 = .ok ()) :
    PublishesOnce pr (runOf pr reviewId respond server) :=
  (keptIffNoRaise_runOf pr reviewId respond server persists).1

/-- **One terminal status, unless a step raises.** Over steps that return or
raise anything, of which only `step_update_status` never raises, a run of
`review_pr` ends in one terminal status, the one that says how it ended, exactly
when none of the steps it calls raises. -/
theorem endsInOneStatus_iff (pr : PrMetadata) (reviewId : String)
    (respond : Server → (request : StepCall) → Except Raised request.Answer × Server)
    (server : Server)
    (persists : ∀ server id status, (respond server (.updateStatus id status)).1 = .ok ()) :
    EndsInOneStatus pr reviewId (runOf pr reviewId respond server) ↔
      (runOf pr reviewId respond server).any raises = false :=
  (keptIffNoRaise_runOf pr reviewId respond server persists).2

/-- The stubs, of which some raise. -/
def stubsRaising (failing : StepCall → Bool) (server : Unit) (request : StepCall) :
    Except Unit request.Answer × Unit :=
  (if failing request then .error () else stubs true request, server)

/-- No step raises: the review is complete. -/
theorem stubs_endInOneStatus :
    EndsInOneStatus examplePr "rev" (runOf examplePr "rev" (stubsRaising fun _ => false) ()) :=
  (endsInOneStatus_iff examplePr "rev" (stubsRaising fun _ => false) () fun _ _ _ => rfl).mpr
    (by decide)

/-- GitHub is down and the first sha check raises: the review stays in `SHA_CHECKING`. -/
theorem raisingShaGuard_staysChecking :
    ¬ EndsInOneStatus examplePr "rev" (runOf examplePr "rev"
      (stubsRaising fun request => request matches .shaGuard _) ()) := by
  intro kept
  have last := (kept.fails (by decide)).1
  revert last
  decide

end Steps

end Kenjutsu.Pipeline
