import Kenjutsu.Foundations.Replay
import Kenjutsu.Foundations.Transcripts

/-!
# What a durable execution amounts to

However often the process crashes and recovers, what a durable execution has recorded
is the beginning of one run of the workflow without crashes, and when it finishes it has
recorded such a run and has its outcome (`After.serves`, `Accounted.finished`). Each
execution of a step is of the one that follows what was recorded, so nothing recorded
executes again, and of what executed at most one step for each crash is not part of that
run (`accounted_of_run`).

When no more crashes come, it finishes: the number of events that are left is bounded
(`drains_of_run`), and where none is possible it has finished (`Accounted.finished_of_stuck`).
-/

set_option autoImplicit false

namespace Foundations

open Coroutine

variable {Request Raised Result Value : Type} {Answer : Request → Type}

/-! ## Runs in segments -/

section Segments

variable {Shared Server : Type}
  {respond : Server → (request : Request) → Except Raised (Answer request) × Server}
  {body : Coroutine Shared Answer Raised Result} {shared : Shared} {server : Server}

/-- A run goes on from where a segment of it ends, -/
theorem Coroutine.serve_segment :
    (body.segment shared).1.serve respond (body.segment shared).2 server =
      body.serve respond shared server := by
  induction body generalizing shared with
  | finish outcome => rfl
  | read next ih => exact ih shared
  | write written next ih => exact ih
  | await request next ih => rfl

/-- and nothing was asked in the segment. -/
theorem Coroutine.transcript_segment :
    (body.segment shared).1.transcript respond (body.segment shared).2 server =
      body.transcript respond shared server := by
  induction body generalizing shared with
  | finish outcome => rfl
  | read next ih => exact ih shared
  | write written next ih => exact ih
  | await request next ih => rfl

end Segments

namespace Durable

/-! ## What is left of a workflow -/

/-- What is left of a workflow after its steps so far, up to its next step or its end. -/
inductive After (workflow : Coroutine Unit Answer Raised Result) :
    List (Exchange Answer Raised) → Coroutine Unit Answer Raised Result → Prop where
  | start : After workflow [] (workflow.segment ()).1
  | answer {heard : List (Exchange Answer Raised)} {request : Request}
      {next : Except Raised (Answer request) → Coroutine Unit Answer Raised Result}
      (given : Except Raised (Answer request)) (earlier : After workflow heard (.await request next)) :
      After workflow (heard ++ [⟨request, given⟩]) ((next given).segment ()).1

section After

variable {workflow rest other : Coroutine Unit Answer Raised Result}
  {heard record : List (Exchange Answer Raised)} {exchange : Exchange Answer Raised}

/-- The last step was awaited after the steps before it. -/
theorem After.of_concat (after : After workflow (heard ++ [exchange]) rest) :
    ∃ next, After workflow heard (.await exchange.request next) ∧
      rest = ((next exchange.answer).segment ()).1 := by
  generalize same : heard ++ [exchange] = all at after
  cases after with
  | start => simp at same
  | answer given earlier =>
      obtain ⟨rfl, tail⟩ := List.append_inj' same rfl
      obtain rfl := List.singleton_inj.mp tail
      exact ⟨_, earlier, rfl⟩

theorem After.of_nil (after : After workflow [] rest) : rest = (workflow.segment ()).1 := by
  generalize same : ([] : List (Exchange Answer Raised)) = all at after
  cases after with
  | start => rfl
  | answer given earlier => simp at same

/-- What was answered determines what is left. -/
theorem After.unique (first : After workflow heard rest) (second : After workflow heard other) :
    rest = other := by
  induction heard using List.reverseRecOn generalizing rest other with
  | nil => rw [first.of_nil, second.of_nil]
  | append_singleton heard exchange ih =>
      obtain ⟨next, before, rfl⟩ := first.of_concat
      obtain ⟨same, alsoBefore, rfl⟩ := second.of_concat
      cases ih before alsoBefore
      rfl

/-- Something is left after the first of the steps. -/
theorem After.of_prefix (after : After workflow record rest) (part : heard <+: record) :
    ∃ left, After workflow heard left := by
  obtain ⟨later, rfl⟩ := part
  induction later using List.reverseRecOn generalizing rest with
  | nil => exact ⟨rest, by simpa using after⟩
  | append_singleton later exchange ih =>
      rw [← List.append_assoc] at after
      obtain ⟨next, before, -⟩ := after.of_concat
      exact ih before

/-- Where a workflow has finished, no step follows. -/
theorem After.eq_of_finish {outcome : Except Raised Result}
    (finished : After workflow heard (.finish outcome)) (after : After workflow record rest)
    (part : heard <+: record) : heard = record := by
  obtain ⟨_ | ⟨exchange, later⟩, rfl⟩ := part
  · exact (List.append_nil heard).symm
  · have shorter : heard ++ [exchange] <+: heard ++ exchange :: later :=
      (List.prefix_append_right_inj heard).mpr ⟨later, rfl⟩
    obtain ⟨left, more⟩ := after.of_prefix shorter
    obtain ⟨next, awaits, -⟩ := more.of_concat
    cases finished.unique awaits

/-- A step that was recorded is the one that is awaited there. -/
theorem After.request_eq {request : Request}
    {next : Except Raised (Answer request) → Coroutine Unit Answer Raised Result}
    (after : After workflow record rest) (awaits : After workflow heard (.await request next))
    (part : heard ++ [exchange] <+: record) : exchange.request = request := by
  obtain ⟨left, more⟩ := after.of_prefix part
  obtain ⟨same, recorded, -⟩ := more.of_concat
  cases recorded.unique awaits
  rfl

/-- What is left has finished or awaits a step. -/
theorem After.settled (after : After workflow heard rest) :
    (∃ outcome, rest = .finish outcome) ∨ ∃ request next, rest = .await request next := by
  cases after with
  | start => exact segment_cases workflow ()
  | answer given earlier => exact segment_cases _ ()

/-- What is ensured of every recorded run is ensured of what is left after a record. -/
theorem After.ensures {admits : Exchange Answer Raised → Prop}
    {holds : Except Raised Result → Unit → List (Exchange Answer Raised) → Prop}
    (after : After workflow record rest) (admitted : ∀ exchange ∈ record, admits exchange)
    (ensured : workflow.Ensures (recorded admits) holds () []) :
    rest.Ensures (recorded admits) holds () record := by
  induction after with
  | start => exact ensured.segment
  | answer given earlier ih =>
      have now := admitted _ (List.mem_append_right _ (List.mem_singleton_self _))
      have before := ih fun exchange member => admitted exchange (List.mem_append_left _ member)
      exact (before.2 given () _ ⟨rfl, now, rfl⟩).segment

end After

/-! ## The run without crashes -/

/-- The server that gives the recorded answers, one after the other. -/
def replayer [DecidableEq Request] (fallback : (request : Request) → Except Raised (Answer request)) :
    List (Exchange Answer Raised) → (request : Request) →
      Except Raised (Answer request) × List (Exchange Answer Raised)
  | [], request => (fallback request, [])
  | exchange :: record, request =>
      if same : exchange.request = request then (same ▸ exchange.answer, record)
      else (fallback request, record)

theorem replayer_cons [DecidableEq Request]
    {fallback : (request : Request) → Except Raised (Answer request)} {request : Request}
    {answer : Except Raised (Answer request)} {record : List (Exchange Answer Raised)} :
    replayer fallback (⟨request, answer⟩ :: record) request = (answer, record) := by
  rw [replayer, dif_pos rfl]

/-- **One run has been answered what was recorded**, and goes on with what is left. -/
theorem After.serves [DecidableEq Request] {workflow rest : Coroutine Unit Answer Raised Result}
    {record : List (Exchange Answer Raised)} (after : After workflow record rest)
    (fallback : (request : Request) → Except Raised (Answer request))
    (later : List (Exchange Answer Raised)) :
    workflow.serve (replayer fallback) () (record ++ later) =
        rest.serve (replayer fallback) () later ∧
      workflow.transcript (replayer fallback) () (record ++ later) =
        record ++ rest.transcript (replayer fallback) () later := by
  induction after generalizing later with
  | start => exact ⟨serve_segment.symm, transcript_segment.symm⟩
  | @answer heard request next given earlier ih =>
      obtain ⟨sameOutcome, sameTranscript⟩ := ih (⟨request, given⟩ :: later)
      have asked : (await request next).serve (replayer fallback) () (⟨request, given⟩ :: later) =
          (next given).serve (replayer fallback) () later := by
        rw [serve, replayer_cons]
      have recorded : (await request next).transcript (replayer fallback) ()
          (⟨request, given⟩ :: later) =
            ⟨request, given⟩ :: (next given).transcript (replayer fallback) () later := by
        simp only [transcript, Coroutine.journal, replayer_cons, List.filterMap_cons,
          Happening.exchange?]
      rw [List.append_assoc, List.singleton_append, sameOutcome, sameTranscript, asked, recorded,
        ← serve_segment, ← transcript_segment]
      exact ⟨rfl, (List.append_assoc heard [_] _).symm⟩

/-! ## What was executed -/

/-- The step that a move executes, with its outcome. -/
def executed? (move : Durable Answer Raised Result × DurableEvent Answer Raised) :
    Option (Exchange Answer Raised) :=
  match move.2 with
  | .execute respond =>
      match move.1.incarnation with
      | some ⟨_, _, .await request _⟩ => some ⟨request, respond request⟩
      | _ => none
  | _ => none

/-- The steps that executed, in all incarnations. -/
def executions (moves : List (Durable Answer Raised Result × DurableEvent Answer Raised)) :
    List (Exchange Answer Raised) :=
  moves.filterMap executed?

/-- The event is a crash. -/
def isCrash : DurableEvent Answer Raised → Bool
  | .crash => true
  | _ => false

/-- The number of crashes. -/
def crashes (moves : List (Durable Answer Raised Result × DurableEvent Answer Raised)) : Nat :=
  moves.countP fun move => isCrash move.2

/-- What is recorded, and the step that has executed and still has to be. -/
def record : Durable Answer Raised Result → List (Exchange Answer Raised)
  | ⟨_, some ⟨passed, true, _⟩⟩ => passed.map Passed.exchange
  | ⟨journal, _⟩ => journal

/-- What was executed is one run of the workflow, but for a step for each crash. -/
structure Accounted (workflow : Coroutine Unit Answer Raised Result)
    (executed : List (Exchange Answer Raised)) (crashed : Nat)
    (durable : Durable Answer Raised Result) : Prop where
  journalled : ∃ rest, After workflow durable.journal rest
  position : ∀ incarnation, durable.incarnation = some incarnation →
    After workflow incarnation.heard incarnation.rest
  replays : ∀ incarnation, durable.incarnation = some incarnation →
    incarnation.unrecorded = false → incarnation.heard <+: durable.journal
  pending : ∀ incarnation, durable.incarnation = some incarnation →
    incarnation.unrecorded = true → ∃ last, incarnation.heard = durable.journal ++ [last]
  kept : durable.record.Sublist executed
  few : executed.length ≤ durable.record.length + crashed

section Moves

variable {workflow : Coroutine Unit Answer Raised Result} {executed : List (Exchange Answer Raised)}
  {crashed : Nat} {journal : List (Exchange Answer Raised)} {passed : List (Passed Answer Raised)}
  {request : Request}
  {next : Except Raised (Answer request) → Coroutine Unit Answer Raised Result}

theorem accounted_start : Accounted workflow [] 0 ({} : Durable Answer Raised Result) where
  journalled := ⟨_, .start⟩
  position := nofun
  replays := nofun
  pending := nofun
  kept := List.Sublist.refl _
  few := Nat.zero_le _

theorem Accounted.start (accounted : Accounted workflow executed crashed ⟨journal, none⟩) :
    Accounted workflow executed crashed ⟨journal, some ⟨[], false, (workflow.segment ()).1⟩⟩ where
  journalled := accounted.journalled
  position := by
    rintro _ ⟨⟩
    exact .start
  replays := by
    rintro _ ⟨⟩ -
    exact List.nil_prefix
  pending := by rintro _ ⟨⟩ ⟨⟩
  kept := accounted.kept
  few := accounted.few

/-- The recorded step that is replayed next. -/
theorem Accounted.next_prefix {rest : Coroutine Unit Answer Raised Result}
    {exchange : Exchange Answer Raised}
    (accounted : Accounted workflow executed crashed ⟨journal, some ⟨passed, false, rest⟩⟩)
    (recorded : journal[passed.length]? = some exchange) :
    passed.map Passed.exchange ++ [exchange] <+: journal := by
  have part : passed.map Passed.exchange <+: journal := accounted.replays _ rfl rfl
  rw [← List.length_map Passed.exchange] at recorded
  obtain ⟨within, rfl⟩ := List.getElem?_eq_some_iff.mp recorded
  exact List.concat_get_prefix part within

theorem Accounted.replay {answer : Except Raised (Answer request)}
    (accounted : Accounted workflow executed crashed
      ⟨journal, some ⟨passed, false, .await request next⟩⟩)
    (recorded : journal[passed.length]? = some ⟨request, answer⟩) :
    Accounted workflow executed crashed ⟨journal,
      some ⟨passed ++ [⟨⟨request, answer⟩, false⟩], false, ((next answer).segment ()).1⟩⟩ where
  journalled := accounted.journalled
  position := by
    rintro _ ⟨⟩
    simpa [Incarnation.heard] using (accounted.position _ rfl).answer answer
  replays := by
    rintro _ ⟨⟩ -
    simpa [Incarnation.heard] using accounted.next_prefix recorded
  pending := by rintro _ ⟨⟩ ⟨⟩
  kept := accounted.kept
  few := accounted.few

/-- Where a step executes, exactly the journal has been heard. -/
theorem Accounted.heard_eq {rest : Coroutine Unit Answer Raised Result}
    (accounted : Accounted workflow executed crashed ⟨journal, some ⟨passed, false, rest⟩⟩)
    (unrecorded : journal[passed.length]? = none) : passed.map Passed.exchange = journal := by
  have agrees : passed.map Passed.exchange <+: journal := accounted.replays _ rfl rfl
  apply agrees.eq_of_length_le
  simpa using List.getElem?_eq_none_iff.mp unrecorded

theorem Accounted.execute {answer : Except Raised (Answer request)}
    (accounted : Accounted workflow executed crashed
      ⟨journal, some ⟨passed, false, .await request next⟩⟩)
    (unrecorded : journal[passed.length]? = none) :
    Accounted workflow (executed ++ [⟨request, answer⟩]) crashed ⟨journal,
      some ⟨passed ++ [⟨⟨request, answer⟩, true⟩], true, ((next answer).segment ()).1⟩⟩ := by
  have heard := accounted.heard_eq unrecorded
  have records : record (⟨journal, some ⟨passed ++ [⟨⟨request, answer⟩, true⟩], true,
      ((next answer).segment ()).1⟩⟩ : Durable Answer Raised Result) =
        journal ++ [⟨request, answer⟩] := by
    rw [record, List.map_append, heard]
    rfl
  have kept : journal.Sublist executed := accounted.kept
  have few : executed.length ≤ journal.length + crashed := accounted.few
  constructor
  case journalled => exact accounted.journalled
  case position =>
    rintro _ ⟨⟩
    simpa [Incarnation.heard] using (accounted.position _ rfl).answer answer
  case replays => rintro _ ⟨⟩ ⟨⟩
  case pending =>
    rintro _ ⟨⟩ -
    exact ⟨⟨request, answer⟩, records⟩
  case kept =>
    rw [records]
    exact kept.append (List.Sublist.refl _)
  case few =>
    rw [records, List.length_append, List.length_append]
    omega

theorem Accounted.record {last : Passed Answer Raised} {rest : Coroutine Unit Answer Raised Result}
    (accounted : Accounted workflow executed crashed ⟨journal, some ⟨passed, true, rest⟩⟩)
    (ends : passed.getLast? = some last) :
    Accounted workflow executed crashed ⟨journal ++ [last.exchange], some ⟨passed, false, rest⟩⟩ := by
  obtain ⟨exchange, heard⟩ := accounted.pending _ rfl rfl
  have final := congrArg List.getLast? heard
  rw [Incarnation.heard, List.getLast?_map, ends, List.getLast?_concat] at final
  obtain rfl : last.exchange = exchange := Option.some.inj final
  replace heard : passed.map Passed.exchange = journal ++ [last.exchange] := heard
  constructor
  case journalled => exact ⟨rest, heard ▸ accounted.position _ rfl⟩
  case position =>
    rintro _ ⟨⟩
    exact accounted.position ⟨passed, true, rest⟩ rfl
  case replays =>
    rintro _ ⟨⟩ -
    exact heard ▸ List.prefix_rfl
  case pending => rintro _ ⟨⟩ ⟨⟩
  case kept => exact heard ▸ accounted.kept
  case few => exact heard ▸ accounted.few

theorem Accounted.crash {incarnation : Incarnation Answer Raised Result}
    (accounted : Accounted workflow executed crashed ⟨journal, some incarnation⟩) :
    Accounted workflow executed (crashed + 1) ⟨journal, none⟩ := by
  obtain ⟨passed, unrecorded, rest⟩ := incarnation
  have kept := accounted.kept
  have few := accounted.few
  refine ⟨accounted.journalled, nofun, nofun, nofun, ?_, ?_⟩
  · cases unrecorded with
    | false => exact kept
    | true =>
        obtain ⟨last, heard⟩ := accounted.pending _ rfl rfl
        rw [Durable.record, show passed.map Passed.exchange = _ from heard] at kept
        exact (List.sublist_append_left journal [last]).trans kept
  · cases unrecorded with
    | false => exact few.trans (Nat.add_le_add_left (Nat.le_succ crashed) _)
    | true =>
        obtain ⟨last, heard⟩ := accounted.pending _ rfl rfl
        replace heard : passed.map Passed.exchange = journal ++ [last] := heard
        rw [Durable.record, heard, List.length_append, List.length_singleton] at few
        change executed.length ≤ journal.length + (crashed + 1)
        omega

/-- Every event keeps the accounts. -/
theorem Accounted.move {durable later : Durable Answer Raised Result}
    {event : DurableEvent Answer Raised} (accounted : Accounted workflow executed crashed durable)
    (moved : Moves workflow durable event later) :
    Accounted workflow (executed ++ executions [(durable, event)])
      (crashed + if isCrash event then 1 else 0) later := by
  -- only an execution adds to what was executed
  have quiet : ∀ {later crashed}, Accounted workflow executed crashed later →
      Accounted workflow (executed ++ []) crashed later := by
    intro later crashed same
    rwa [List.append_nil]
  cases moved with
  | start journal => exact quiet accounted.start
  | replay journal passed request answer next recorded => exact quiet (accounted.replay recorded)
  | execute journal passed request respond next unrecorded => exact accounted.execute unrecorded
  | record journal passed last rest ends => exact quiet (accounted.record ends)
  | crash journal incarnation => exact quiet accounted.crash

end Moves

variable {workflow : Coroutine Unit Answer Raised Result}
  {durable last : Durable Answer Raised Result} {executed : List (Exchange Answer Raised)}
  {crashed : Nat}

/-- **What a finished execution has recorded** is a run of the workflow to its end. -/
theorem Accounted.finished (accounted : Accounted workflow executed crashed durable)
    {passed : List (Passed Answer Raised)} {outcome : Except Raised Result}
    (finishes : durable.incarnation = some ⟨passed, false, .finish outcome⟩) :
    After workflow durable.journal (.finish outcome) := by
  have position := accounted.position _ finishes
  obtain ⟨rest, journalled⟩ := accounted.journalled
  have whole := position.eq_of_finish journalled (accounted.replays _ finishes rfl)
  exact whole ▸ position

/-- What is recorded is the beginning of what was executed without repetitions. -/
theorem Accounted.journal_prefix (accounted : Accounted workflow executed crashed durable) :
    durable.journal <+: durable.record := by
  obtain ⟨journal, _ | ⟨passed, _ | _, rest⟩⟩ := durable
  · exact List.prefix_rfl
  · exact List.prefix_rfl
  · obtain ⟨last, heard⟩ := accounted.pending _ rfl rfl
    exact ⟨[last], heard.symm⟩

/-! ## The end of an execution -/

/-- The workflow has at most a number of steps, whatever they return or raise. -/
def Within : Nat → Coroutine Unit Answer Raised Result → Prop
  | _, .finish _ => True
  | bound, .read next => Within bound (next ())
  | bound, .write _ next => Within bound next
  | 0, .await _ _ => False
  | bound + 1, .await _ next => ∀ answer, Within bound (next answer)

theorem within_finish (bound : Nat) (outcome : Except Raised Result) :
    Within bound (.finish outcome : Coroutine Unit Answer Raised Result) := by
  cases bound <;> trivial

/-- One step, and what follows if it returns. -/
theorem within_call_bind {bound : Nat} {request : Request}
    {next : Answer request → Coroutine Unit Answer Raised Value}
    (follows : ∀ result, Within bound (next result)) :
    Within (bound + 1) (call request >>= next) := by
  rintro (raised | result)
  · exact within_finish bound _
  · exact follows result

theorem Within.segment {bound : Nat} {body : Coroutine Unit Answer Raised Result}
    (within : Within bound body) : Within bound (body.segment ()).1 := by
  induction body with
  | finish outcome => exact within_finish bound outcome
  | read next ih => exact ih () (by cases bound <;> exact within)
  | write written next ih => exact ih (by cases bound <;> exact within)
  | await request next ih => exact within

/-- The steps that are left. -/
theorem After.within {bound : Nat} {rest : Coroutine Unit Answer Raised Result}
    {heard : List (Exchange Answer Raised)} (after : After workflow heard rest)
    (within : Within bound workflow) : ∃ left, heard.length + left = bound ∧ Within left rest := by
  induction after with
  | start => exact ⟨bound, Nat.zero_add bound, within.segment⟩
  | answer given earlier ih =>
      obtain ⟨_ | left, whole, rest⟩ := ih
      · exact rest.elim
      · refine ⟨left, ?_, (rest given).segment⟩
        rw [List.length_append, List.length_singleton]
        omega

/-- The events left for an execution of a workflow with at most a number of steps. -/
def work (bound : Nat) (durable : Durable Answer Raised Result) : Nat :=
  match durable.incarnation with
  | none => 2 * bound + 1
  | some ⟨passed, unrecorded, _⟩ => 2 * (bound - passed.length) + unrecorded.toNat

theorem work_le (bound : Nat) (durable : Durable Answer Raised Result) :
    work bound durable ≤ 2 * bound + 1 := by
  unfold work
  split
  · exact le_rfl
  · rename_i unrecorded _ _
    have small := unrecorded.toNat_le
    omega

/-- Every event but a crash is one less. -/
theorem Accounted.work_lt {bound : Nat} (within : Within bound workflow)
    {later : Durable Answer Raised Result} {event : DurableEvent Answer Raised}
    (accounted : Accounted workflow executed crashed durable)
    (moved : Moves workflow durable event later) (runs : isCrash event = false) :
    work bound later < work bound durable := by
  -- where a step is awaited, one is left
  have some : ∀ {journal passed request next},
      durable = ⟨journal, some ⟨passed, false, .await request next⟩⟩ → passed.length < bound := by
    rintro journal passed request next rfl
    obtain ⟨_ | left, whole, rest⟩ := (accounted.position _ rfl).within within
    · exact rest.elim
    · replace whole : (passed.map Passed.exchange).length + (left + 1) = bound := whole
      rw [List.length_map] at whole
      omega
  cases moved with
  | start journal => exact Nat.lt_succ_self _
  | replay journal passed request answer next recorded =>
      have more := some rfl
      simp only [work, List.length_append, List.length_singleton, Bool.toNat_false]
      omega
  | execute journal passed request respond next unrecorded =>
      have more := some rfl
      simp only [work, List.length_append, List.length_singleton, Bool.toNat_false, Bool.toNat_true]
      omega
  | record journal passed last rest ends => exact Nat.lt_succ_self _
  | crash journal incarnation => cases runs

/-- What is recorded stays recorded. -/
theorem Moves.journal_prefix {later : Durable Answer Raised Result}
    {event : DurableEvent Answer Raised} (moved : Moves workflow durable event later) :
    durable.journal <+: later.journal := by
  cases moved with
  | record journal passed last rest ends => exact List.prefix_append _ _
  | _ => exact List.prefix_rfl

/-! ## Runs -/

variable [DecidableEq Request]

/-- **The accounts of a run.** -/
theorem accounted_of_run {events : List (DurableEvent Answer Raised)}
    (ran : (step workflow).run {} events = some durable) :
    Accounted workflow (executions ((step workflow).moves {} events))
      (crashes ((step workflow).moves {} events)) durable := by
  refine (@Machine.holds_of_run _ _ (step workflow) (fun done state =>
    (step workflow).run {} done = some state ∧
      Accounted workflow (executions ((step workflow).moves {} done))
        (crashes ((step workflow).moves {} done)) state) ?_ _ ⟨rfl, accounted_start⟩ _ _ ran).2
  rintro done state event next ⟨before, accounted⟩ moved
  have after := accounted.move (moves_of_step moved)
  rw [Machine.moves_concat before moved]
  refine ⟨?_, ?_⟩
  · rw [Machine.run_append, before, Option.bind_some, Machine.run_cons, moved]
    rfl
  · rw [executions, List.filterMap_append, crashes, List.countP_append, List.countP_singleton]
    exact after

/-- **A step executes only where it follows what was recorded.** -/
theorem executes_next {events : List (DurableEvent Answer Raised)} :
    ∀ move ∈ (step workflow).moves {} events, ∀ exchange, executed? move = some exchange →
      ∃ next, After workflow move.1.journal (.await exchange.request next) := by
  rintro ⟨state, event⟩ made exchange executes
  obtain ⟨done, rest, -, ran, enabled⟩ := (Machine.mem_moves_iff ..).mp made
  obtain ⟨later, moved⟩ := Option.isSome_iff_exists.mp enabled
  have accounted := accounted_of_run ran
  cases moves_of_step moved with
  | execute journal passed request respond next unrecorded =>
      obtain rfl := Option.some.inj executes
      have position := accounted.position _ rfl
      rw [Incarnation.heard, accounted.heard_eq unrecorded] at position
      exact ⟨next, position⟩
  | _ => cases executes

/-- **Without more crashes an execution drains**: the events left are bounded, and
nothing recorded is lost. -/
theorem drains_of_run {bound : Nat} (within : Within bound workflow)
    {rest : List (DurableEvent Answer Raised)}
    (accounted : Accounted workflow executed crashed durable)
    (runs : ∀ event ∈ rest, isCrash event = false)
    (ran : (step workflow).run durable rest = some last) :
    rest.length + work bound last ≤ work bound durable ∧ durable.journal <+: last.journal ∧
      ∃ executed crashed, Accounted workflow executed crashed last := by
  induction rest generalizing durable executed crashed with
  | nil =>
      obtain rfl := Option.some.inj ran
      exact ⟨(Nat.zero_add _).le, List.prefix_rfl, _, _, accounted⟩
  | cons event rest ih =>
      obtain ⟨next, moved, ran⟩ := Option.bind_eq_some_iff.mp ran
      have moves := moves_of_step moved
      have less := accounted.work_lt within moves (runs event (List.mem_cons_self ..))
      obtain ⟨bounded, grows, accounts⟩ := ih (accounted.move moves)
        (fun event member => runs event (List.mem_cons_of_mem _ member)) ran
      refine ⟨?_, moves.journal_prefix.trans grows, accounts⟩
      rw [List.length_cons]
      omega

/-- **Where nothing but a crash is possible, the execution has finished.** -/
theorem Accounted.finished_of_stuck (accounted : Accounted workflow executed crashed durable)
    (respond : (request : Request) → Except Raised (Answer request))
    (stuck : ∀ event, isCrash event = false → step workflow durable event = none) :
    ∃ passed outcome, durable.incarnation = some ⟨passed, false, .finish outcome⟩ := by
  obtain ⟨journal, _ | ⟨passed, unrecorded, rest⟩⟩ := durable
  · cases stuck .start rfl
  have position := accounted.position _ rfl
  cases unrecorded with
  | true =>
      obtain ⟨last, heard⟩ := accounted.pending _ rfl rfl
      have final := congrArg List.getLast? heard
      rw [Incarnation.heard, List.getLast?_map, List.getLast?_concat] at final
      obtain ⟨entry, ends, -⟩ := Option.map_eq_some_iff.mp final
      have none := stuck .record rfl
      simp only [step, ends] at none
      cases none
  | false =>
      rcases position.settled with ⟨outcome, rfl⟩ | ⟨request, next, rfl⟩
      · exact ⟨passed, outcome, rfl⟩
      · cases found : journal[passed.length]? with
        | none =>
            have none := stuck (.execute respond) rfl
            simp only [step, found] at none
            cases none
        | some exchange =>
            have none := stuck .replay rfl
            obtain ⟨_, journalled⟩ := accounted.journalled
            have same := journalled.request_eq position (accounted.next_prefix found)
            simp only [step, found, dif_pos same] at none
            cases none

end Durable

end Foundations
