import Kenjutsu.Foundations.Durability
import Kenjutsu.Pipeline.StatusPaths

/-!
# Reviews that are resumed

The process of a review may crash anywhere, any number of times, and recover. What the
review has recorded is then one run of `review_pr` without crashes: it is resumed from the
last recorded step, nothing that was recorded executes again, and a step of any kind
executes at most once more for each crash than it does in that run. A review that has
finished has the result of the run and the statuses that its steps allow
(`reviewPr_resumes`).

A review whose process has stopped crashing ends after a bounded number of events
(`reviewPr_recovers`).
-/

set_option autoImplicit false

namespace Kenjutsu.Pipeline

open Foundations Foundations.Coroutine Kenjutsu.Pipeline.Types

namespace Steps

variable {Raised : Type}

/-- The steps of the longest run. -/
def longestRun : Nat := 16

theorem reviewPr_within (pr : PrMetadata) (reviewId : String) :
    Durable.Within longestRun (reviewPr pr reviewId : Workflow Raised ReviewResult) := by
  refine Durable.within_call_bind fun _ => Durable.within_call_bind fun current => ?_
  cases current with
  | false => exact Durable.within_call_bind fun _ => Durable.within_finish ..
  | true =>
      refine Durable.within_call_bind fun _ => Durable.within_call_bind fun req => ?_
      refine Durable.within_call_bind fun _ => Durable.within_call_bind fun ctx => ?_
      refine Durable.within_call_bind fun _ => Durable.within_call_bind fun det => ?_
      refine Durable.within_call_bind fun _ => Durable.within_call_bind fun llm => ?_
      refine Durable.within_call_bind fun _ => Durable.within_call_bind fun scored => ?_
      refine Durable.within_call_bind fun _ => Durable.within_call_bind fun current => ?_
      cases current with
      | false => exact Durable.within_call_bind fun _ => Durable.within_finish ..
      | true =>
          refine Durable.within_call_bind fun _ => Durable.within_call_bind fun result => ?_
          exact Durable.within_finish ..

/-! ## What a resumed review amounts to -/

/-- A run of the review without crashes in which the steps return what was recorded, and
no more, and that ends with the outcome. -/
def RunsTo (pr : PrMetadata) (reviewId : String) (record : List (StepExchange Raised))
    (outcome : Except Raised ReviewResult) : Prop :=
  ∀ fallback : (request : StepCall) → Except Raised request.Answer,
    ((reviewPr pr reviewId).serve (Durable.replayer fallback) () record).1 = outcome ∧
      runOf pr reviewId (Durable.replayer fallback) record = record

/-- The review has finished with the outcome. -/
def FinishedWith (durable : Durable StepCall.Answer Raised ReviewResult)
    (outcome : Except Raised ReviewResult) : Prop :=
  ∃ passed, durable.incarnation = some ⟨passed, false, .finish outcome⟩

/-- What the moves of a durable execution of a review amount to. -/
structure Resumes (pr : PrMetadata) (reviewId : String)
    (moves : List (Durable StepCall.Answer Raised ReviewResult × DurableEvent StepCall.Answer Raised))
    (durable : Durable StepCall.Answer Raised ReviewResult) : Prop where
  /-- A step executes only where it follows what was recorded. -/
  next : ∀ move ∈ moves, ∀ exchange, Durable.executed? move = some exchange →
    ∃ next, Durable.After (reviewPr pr reviewId) move.1.journal (.await exchange.request next)
  /-- What was recorded has executed, in this order, -/
  executed : durable.record.Sublist (Durable.executions moves)
  /-- and more steps of a kind only for a crash. -/
  retries : ∀ kind : StepExchange Raised → Bool, (Durable.executions moves).countP kind ≤
    durable.record.countP kind + Durable.crashes moves
  /-- A finished review is a run without crashes. -/
  finished : ∀ outcome, FinishedWith durable outcome →
    RunsTo pr reviewId durable.journal outcome ∧ KeptIffNoRaise pr reviewId durable.journal

variable {pr : PrMetadata} {reviewId : String}
  {durable : Durable StepCall.Answer Raised ReviewResult}
  {executed : List (StepExchange Raised)} {crashed : Nat}

/-- The run that a finished review has recorded. -/
theorem runsTo_of_finished
    (accounted : Durable.Accounted (reviewPr pr reviewId) executed crashed durable)
    {outcome : Except Raised ReviewResult} (finished : FinishedWith durable outcome) :
    RunsTo pr reviewId durable.journal outcome := by
  obtain ⟨passed, finishes⟩ := finished
  intro fallback
  obtain ⟨served, asked⟩ := (accounted.finished finishes).serves fallback []
  rw [List.append_nil] at served asked
  refine ⟨congrArg Prod.fst served, asked.trans ?_⟩
  exact List.append_nil _

/-- What is recorded has executed. -/
theorem recorded_executed {events : List (DurableEvent StepCall.Answer Raised)}
    (ran : (step pr reviewId).run {} events = some durable) {exchange : StepExchange Raised}
    (member : exchange ∈ durable.journal) :
    exchange ∈ Durable.executions ((step pr reviewId).moves {} events) := by
  have accounted := Durable.accounted_of_run ran
  exact accounted.kept.subset (accounted.journal_prefix.subset member)

/-- Steps that executed were answered by an event. -/
theorem answered_of_executed {events : List (DurableEvent StepCall.Answer Raised)}
    {exchange : StepExchange Raised}
    (member : exchange ∈ Durable.executions ((step pr reviewId).moves {} events)) :
    ∃ respond, DurableEvent.execute respond ∈ events ∧
      exchange.answer = respond exchange.request := by
  obtain ⟨⟨state, event⟩, made, executes⟩ := List.mem_filterMap.mp member
  obtain ⟨done, rest, rfl, -, -⟩ := (Machine.mem_moves_iff ..).mp made
  simp only [Durable.executed?] at executes
  split at executes
  · rename_i respond
    split at executes
    · obtain rfl := Option.some.inj executes
      exact ⟨respond, by simp, rfl⟩
    · cases executes
  · cases executes

/-- **A review that is resumed is one review.** In every run of a durable `review_pr`, over
any answers of its steps, of which only `step_update_status` never raises, and over any
crashes and recoveries. -/
theorem reviewPr_resumes (pr : PrMetadata) (reviewId : String)
    (events : List (DurableEvent StepCall.Answer Raised))
    (persists : ∀ respond, .execute respond ∈ events →
      ∀ id status, respond (.updateStatus id status) = .ok ())
    {durable : Durable StepCall.Answer Raised ReviewResult}
    (ran : (step pr reviewId).run {} events = some durable) :
    Resumes pr reviewId ((step pr reviewId).moves {} events) durable := by
  have accounted : Durable.Accounted (reviewPr pr reviewId)
      (Durable.executions ((step pr reviewId).moves {} events))
      (Durable.crashes ((step pr reviewId).moves {} events)) durable := Durable.accounted_of_run ran
  have admitted : ∀ exchange ∈ durable.journal, Persists exchange := by
    rintro ⟨request, answer⟩ member id status rfl
    obtain ⟨respond, isEvent, answered⟩ := answered_of_executed (recorded_executed ran member)
    obtain rfl : answer = respond (.updateStatus id status) := answered
    rw [persists respond isEvent]
    rfl
  refine ⟨Durable.executes_next, accounted.kept, fun kind => ?_, fun outcome finished => ?_⟩
  · have excess := accounted.kept.le_countP kind
    have few := accounted.few
    omega
  · obtain ⟨passed, finishes⟩ := finished
    have ensured : Keeps pr reviewId (reviewPr pr reviewId : Workflow Raised ReviewResult) [] :=
      reviewPr_keeps pr reviewId
    refine ⟨runsTo_of_finished accounted ⟨passed, finishes⟩, ?_⟩
    exact (accounted.finished finishes).ensures admitted ensured

/-- The step is the LLM review. -/
def isReview : StepExchange Unit → Bool
  | ⟨.llmReview _ _ _, _⟩ => true
  | _ => false

/-- The process crashes after the LLM review has executed, before its outcome is recorded. -/
def crashDuringReview : List (DurableEvent StepCall.Answer Unit) :=
  .start :: executeAndRecord 9 true ++ [.execute (stubs true), .crash, .start] ++
    List.replicate 9 .replay ++ executeAndRecord 7 true

/-- The LLM review executes twice, every other step once, and the review is complete. -/
theorem crashDuringReview_resumes :
    (Durable.executions ((exampleStep "rev").moves {} crashDuringReview)).countP isReview = 2 ∧
      (Durable.executions ((exampleStep "rev").moves {} crashDuringReview)).length = 17 ∧
      ∃ durable, statuses "rev" durable.journal =
          [.shaChecking, .processingDiff, .extractingContext, .runningDeterministic, .runningLlm,
            .scoringEvidence, .publishing, .complete] ∧
        Resumes examplePr "rev" ((exampleStep "rev").moves {} crashDuringReview) durable := by
  refine ⟨by decide, by decide, ?_⟩
  have seen : ((exampleStep "rev").run {} crashDuringReview).map (fun durable =>
      statuses "rev" durable.journal) =
        some [.shaChecking, .processingDiff, .extractingContext, .runningDeterministic,
          .runningLlm, .scoringEvidence, .publishing, .complete] := by decide
  obtain ⟨durable, ran, path⟩ := Option.map_eq_some_iff.mp seen
  refine ⟨durable, path, reviewPr_resumes examplePr "rev" crashDuringReview ?_ ran⟩
  intro respond isEvent id status
  obtain rfl : respond = stubs true := by
    simpa [crashDuringReview, executeAndRecord] using isEvent
  rfl

/-! ## How a resumed review ends -/

/-- Without further crashes, the execution has few events left, loses nothing that was
recorded, and where none is possible the review has finished with the outcome of its run. -/
structure Recovers (pr : PrMetadata) (reviewId : String)
    (durable : Durable StepCall.Answer Raised ReviewResult)
    (rest : List (DurableEvent StepCall.Answer Raised))
    (last : Durable StepCall.Answer Raised ReviewResult) : Prop where
  bounded : rest.length ≤ 2 * longestRun + 1
  recorded : durable.journal <+: last.journal
  ends : (∀ event, Durable.isCrash event = false → step pr reviewId last event = none) →
    ∃ outcome, FinishedWith last outcome ∧ RunsTo pr reviewId last.journal outcome

/-- **A review recovers** from every state, whatever crashes led there, and however its
steps are answered from then on. -/
theorem reviewPr_recovers (pr : PrMetadata) (reviewId : String)
    (answers : (request : StepCall) → Except Raised request.Answer)
    (events : List (DurableEvent StepCall.Answer Raised)) :
    ∀ durable ∈ (step pr reviewId).visits {} events, ∀ rest last,
      (∀ event ∈ rest, Durable.isCrash event = false) →
        (step pr reviewId).run durable rest = some last → Recovers pr reviewId durable rest last := by
  intro durable visited rest last runs ran
  obtain ⟨done, later, -, before⟩ := (Machine.mem_visits_iff ..).mp visited
  have accounted := Durable.accounted_of_run before
  obtain ⟨bounded, recorded, executed, crashed, atEnd⟩ :=
    Durable.drains_of_run (reviewPr_within pr reviewId) accounted runs ran
  have atMost := Durable.work_le longestRun durable
  refine ⟨by omega, recorded, fun stuck => ?_⟩
  obtain ⟨passed, outcome, finishes⟩ := atEnd.finished_of_stuck answers stuck
  exact ⟨outcome, ⟨passed, finishes⟩, runsTo_of_finished atEnd ⟨passed, finishes⟩⟩

/-- The process crashes after the second sha check was recorded. -/
def crashBeforePublish : List (DurableEvent StepCall.Answer Unit) :=
  .start :: executeAndRecord 14 true ++ [.crash]

/-- It recovers, and the head has moved. -/
def recovery : List (DurableEvent StepCall.Answer Unit) :=
  .start :: List.replicate 14 .replay ++ executeAndRecord 2 false

/-- How many events are left, and whether the review is over. -/
def endView (durable : Durable StepCall.Answer Unit ReviewResult) : Nat × Bool :=
  (Durable.work longestRun durable, durable.journal.length = longestRun)

/-- The review that is resumed takes nineteen of at most thirty-three events and records
all sixteen steps. -/
theorem crashBeforePublish_recovers :
    ∃ durable last, endView durable = (33, false) ∧ endView last = (0, true) ∧
      Recovers examplePr "rev" durable recovery last := by
  have seenBefore : ((exampleStep "rev").run {} crashBeforePublish).map endView =
      some (33, false) := by decide
  have seen : ((exampleStep "rev").run {} (crashBeforePublish ++ recovery)).map endView =
      some (0, true) := by decide
  obtain ⟨durable, ranBefore, isBefore⟩ := Option.map_eq_some_iff.mp seenBefore
  obtain ⟨last, ran, isLast⟩ := Option.map_eq_some_iff.mp seen
  rw [Machine.run_append, ranBefore, Option.bind_some] at ran
  have visited := (Machine.mem_visits_iff ..).mpr ⟨_, [], (List.append_nil _).symm, ranBefore⟩
  exact ⟨durable, last, isBefore, isLast, reviewPr_recovers examplePr "rev" (stubs true)
    crashBeforePublish durable visited recovery last (by decide) ran⟩

end Steps

end Kenjutsu.Pipeline
