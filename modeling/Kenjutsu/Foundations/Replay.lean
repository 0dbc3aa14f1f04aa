import Kenjutsu.Foundations.Runs
import Kenjutsu.Foundations.Coroutines

/-!
# Durable workflows and replay

A workflow is a coroutine whose awaits are steps. The outcome of a step is
recorded in a journal that survives crashes. After a crash a new incarnation
runs the workflow from its start: a step with a recorded outcome is replayed, it
returns that outcome without executing; every other step executes, and its
outcome is recorded afterwards. A crash may fall anywhere, also between the
execution of a step and the recording of its outcome.

A check that is itself a step is replayed like any other, so what it says may be
about a time before the crash. `forall_fresh` is the remedy's exact shape: the
last recorded step has executed in the running incarnation, as long as no crash
falls where the journal is critical.
-/

set_option autoImplicit false

namespace Foundations

variable {Request Raised Result : Type} {Answer : Request → Type}

/-- A step an incarnation has passed, and whether its body executed there. -/
structure Passed {Request : Type} (Answer : Request → Type) (Raised : Type) where
  exchange : Exchange Answer Raised
  executed : Bool

/-- One life of the process: the steps passed so far, oldest first, whether the
last of them still has to be recorded, and what is left of the workflow. -/
structure Incarnation {Request : Type} (Answer : Request → Type) (Raised Result : Type) where
  passed : List (Passed Answer Raised)
  unrecorded : Bool
  rest : Coroutine Unit Answer Raised Result

/-- A durable execution of a workflow. -/
structure Durable {Request : Type} (Answer : Request → Type) (Raised Result : Type) where
  journal : List (Exchange Answer Raised) := []
  incarnation : Option (Incarnation Answer Raised Result) := none

/-- What can happen to a durable execution. A process starts the workflow, the first
time or to recover it. -/
inductive DurableEvent {Request : Type} (Answer : Request → Type) (Raised : Type) where
  | start
  | replay
  | execute (respond : (request : Request) → Except Raised (Answer request))
  | record
  | crash

namespace Incarnation

/-- What the incarnation has been answered, replayed or not. -/
def heard (incarnation : Incarnation Answer Raised Result) : List (Exchange Answer Raised) :=
  incarnation.passed.map Passed.exchange

end Incarnation

namespace Durable

/-- One event of a durable execution of a workflow. -/
def step [DecidableEq Request] (workflow : Coroutine Unit Answer Raised Result) :
    Machine (Durable Answer Raised Result) (DurableEvent Answer Raised) :=
  fun durable event => match event, durable.incarnation with
    | .start, none =>
        some { durable with incarnation := some ⟨[], false, (workflow.segment ()).1⟩ }
    | .replay, some ⟨passed, false, .await request next⟩ =>
        match durable.journal[passed.length]? with
        | some exchange =>
            if same : exchange.request = request then
              let rest := ((next (same ▸ exchange.answer)).segment ()).1
              some { durable with incarnation := some (.mk (passed ++ [.mk exchange false]) false rest) }
            else none
        | none => none
    | .execute respond, some ⟨passed, false, .await request next⟩ =>
        match durable.journal[passed.length]? with
        | some _ => none
        | none =>
            let exchange := .mk request (respond request)
            let rest := ((next (respond request)).segment ()).1
            some { durable with incarnation := some (.mk (passed ++ [.mk exchange true]) true rest) }
    | .record, some ⟨passed, true, rest⟩ =>
        match passed.getLast? with
        | some last => some ⟨durable.journal ++ [last.exchange], some ⟨passed, false, rest⟩⟩
        | none => none
    | .crash, some _ => some { durable with incarnation := none }
    | _, _ => none

/-- The events a durable execution makes, each with what it found and what it
left. -/
inductive Moves (workflow : Coroutine Unit Answer Raised Result) :
    Durable Answer Raised Result → DurableEvent Answer Raised → Durable Answer Raised Result →
      Prop where
  | start (journal : List (Exchange Answer Raised)) :
      Moves workflow ⟨journal, none⟩ .start
        ⟨journal, some ⟨[], false, (workflow.segment ()).1⟩⟩
  | replay (journal : List (Exchange Answer Raised)) (passed : List (Passed Answer Raised))
      (request : Request) (answer : Except Raised (Answer request))
      (next : Except Raised (Answer request) → Coroutine Unit Answer Raised Result)
      (recorded : journal[passed.length]? = some ⟨request, answer⟩) :
      Moves workflow ⟨journal, some ⟨passed, false, .await request next⟩⟩ .replay
        ⟨journal, some ⟨passed ++ [⟨⟨request, answer⟩, false⟩], false, ((next answer).segment ()).1⟩⟩
  | execute (journal : List (Exchange Answer Raised)) (passed : List (Passed Answer Raised))
      (request : Request) (respond : (request : Request) → Except Raised (Answer request))
      (next : Except Raised (Answer request) → Coroutine Unit Answer Raised Result)
      (unrecorded : journal[passed.length]? = none) :
      Moves workflow ⟨journal, some ⟨passed, false, .await request next⟩⟩ (.execute respond)
        ⟨journal, some ⟨passed ++ [⟨⟨request, respond request⟩, true⟩], true,
          ((next (respond request)).segment ()).1⟩⟩
  | record (journal : List (Exchange Answer Raised)) (passed : List (Passed Answer Raised))
      (last : Passed Answer Raised) (rest : Coroutine Unit Answer Raised Result)
      (ends : passed.getLast? = some last) :
      Moves workflow ⟨journal, some ⟨passed, true, rest⟩⟩ .record
        ⟨journal ++ [last.exchange], some ⟨passed, false, rest⟩⟩
  | crash (journal : List (Exchange Answer Raised)) (incarnation : Incarnation Answer Raised Result) :
      Moves workflow ⟨journal, some incarnation⟩ .crash ⟨journal, none⟩

theorem moves_of_step [DecidableEq Request] {workflow : Coroutine Unit Answer Raised Result}
    {durable next : Durable Answer Raised Result} {event : DurableEvent Answer Raised}
    (moved : step workflow durable event = some next) : Moves workflow durable event next := by
  obtain ⟨journal, incarnation⟩ := durable
  simp only [step] at moved
  split at moved
  · obtain rfl := Option.some.inj moved
    exact .start journal
  · split at moved
    · rename_i passed request rest found exchange recorded
      split at moved
      · rename_i same
        obtain ⟨_, answer⟩ := exchange
        obtain rfl : _ = request := same
        obtain rfl := Option.some.inj moved
        exact .replay journal passed _ answer rest recorded
      · cases moved
    · cases moved
  · split at moved
    · cases moved
    · obtain rfl := Option.some.inj moved
      exact .execute journal _ _ _ _ ‹_›
  · split at moved
    · obtain rfl := Option.some.inj moved
      exact .record journal _ _ _ ‹_›
    · cases moved
  · obtain rfl := Option.some.inj moved
    exact .crash journal _
  · cases moved

/-! ## What a workflow awaits -/

/-- The protocol of a workflow that awaits a step only where it is allowed, after
what the steps before it were answered. -/
def protocol (allowed : List (Exchange Answer Raised) → Request → Prop) :
    Coroutine.Protocol Unit Answer Raised (List (Exchange Answer Raised)) where
  leaves := fun _ heard request => allowed heard request
  reacts := fun _ heard request answer _ moved => moved = heard ++ [⟨request, answer⟩]

/-- Awaiting a step: it is allowed, and the workflow goes on with any answer. -/
theorem ensures_call {allowed : List (Exchange Answer Raised) → Request → Prop} {request : Request}
    {after : Except Raised (Answer request) → Unit → List (Exchange Answer Raised) → Prop}
    {heard : List (Exchange Answer Raised)} :
    (Coroutine.call request : Coroutine Unit Answer Raised (Answer request)).Ensures
        (protocol allowed) after () heard ↔
      allowed heard request ∧ ∀ answer, after answer () (heard ++ [⟨request, answer⟩]) := by
  refine and_congr_right fun _ => ⟨fun ensured answer => ensured answer () _ rfl, ?_⟩
  rintro ensured answer _ _ rfl
  exact ensured answer

/-- What is left of a workflow awaits only allowed steps. -/
def Awaits (allowed : List (Exchange Answer Raised) → Request → Prop)
    (heard : List (Exchange Answer Raised)) (rest : Coroutine Unit Answer Raised Result) : Prop :=
  rest.Ensures (protocol allowed) (fun _ _ _ => True) () heard

variable {allowed : List (Exchange Answer Raised) → Request → Prop}
  {critical : List (Exchange Answer Raised) → Prop}

/-- What is left after a step awaits only allowed steps. -/
theorem Awaits.next {heard : List (Exchange Answer Raised)} {request : Request}
    {next : Except Raised (Answer request) → Coroutine Unit Answer Raised Result}
    (awaits : Awaits allowed heard (.await request next)) (answer : Except Raised (Answer request)) :
    Awaits allowed (heard ++ [⟨request, answer⟩]) ((next answer).segment ()).1 :=
  (awaits.2 answer () _ rfl).segment

/-! ## Steps that execute after a critical journal -/

/-- Every step that executes is allowed, and where what was answered before it is
critical, the step answered last has executed in this incarnation. -/
def ExecutesFresh (allowed : List (Exchange Answer Raised) → Request → Prop)
    (critical : List (Exchange Answer Raised) → Prop) (passed : List (Passed Answer Raised)) :
    Prop :=
  ∀ before entry after, passed = before ++ entry :: after → entry.executed →
    allowed (before.map Passed.exchange) entry.exchange.request ∧
      (critical (before.map Passed.exchange) →
        ∃ earlier last, before = earlier ++ [last] ∧ last.executed)

theorem executesFresh_nil : ExecutesFresh allowed critical [] := by
  intro before entry after split
  simp at split

/-- One more step passed. -/
theorem ExecutesFresh.append {passed : List (Passed Answer Raised)} {entry : Passed Answer Raised}
    (fresh : ExecutesFresh allowed critical passed)
    (new : entry.executed → allowed (passed.map Passed.exchange) entry.exchange.request ∧
      (critical (passed.map Passed.exchange) →
        ∃ earlier last, passed = earlier ++ [last] ∧ last.executed)) :
    ExecutesFresh allowed critical (passed ++ [entry]) := by
  intro before other after split executed
  rcases List.eq_nil_or_concat after with rfl | ⟨after, final, rfl⟩
  · obtain ⟨rfl, same⟩ := List.append_inj' split rfl
    obtain rfl := List.singleton_inj.mp same
    exact new executed
  · have inner : passed ++ [entry] = (before ++ other :: after) ++ [final] := by simpa using split
    obtain ⟨rfl, -⟩ := List.append_inj' inner rfl
    exact fresh before other after rfl executed

/-- The last recorded step has executed in the running incarnation. -/
def LastExecuted (durable : Durable Answer Raised Result) : Prop :=
  ∃ incarnation, durable.incarnation = some incarnation ∧ ∃ before last after,
    incarnation.passed = before ++ last :: after ∧ before.length + 1 = durable.journal.length ∧
      last.executed

/-- The invariant of a durable execution. -/
structure Sound (allowed : List (Exchange Answer Raised) → Request → Prop)
    (critical : List (Exchange Answer Raised) → Prop) (durable : Durable Answer Raised Result) :
    Prop where
  awaits : ∀ incarnation, durable.incarnation = some incarnation →
    Awaits allowed incarnation.heard incarnation.rest
  recorded : ∀ incarnation, durable.incarnation = some incarnation →
    incarnation.unrecorded = false → incarnation.heard <+: durable.journal
  pending : ∀ incarnation, durable.incarnation = some incarnation →
    incarnation.unrecorded = true → ∃ before last, incarnation.passed = before ++ [last] ∧
      last.executed ∧ before.map Passed.exchange = durable.journal
  witnessed : critical durable.journal → LastExecuted durable
  fresh : ∀ incarnation, durable.incarnation = some incarnation →
    ExecutesFresh allowed critical incarnation.passed

/-- Without an incarnation, all that matters is that the journal is not critical. -/
theorem sound_of_not_critical {journal : List (Exchange Answer Raised)}
    (calm : ¬ critical journal) :
    Sound allowed critical (⟨journal, none⟩ : Durable Answer Raised Result) where
  awaits := by simp
  recorded := by simp
  pending := by simp
  witnessed := fun reached => absurd reached calm
  fresh := by simp

/-- Passing one more step keeps the last recorded one executed. -/
theorem LastExecuted.append {journal : List (Exchange Answer Raised)}
    {passed : List (Passed Answer Raised)} {unrecorded : Bool}
    {rest : Coroutine Unit Answer Raised Result}
    (witnessed : LastExecuted ⟨journal, some ⟨passed, unrecorded, rest⟩⟩)
    (entry : Passed Answer Raised) (unrecorded' : Bool)
    (rest' : Coroutine Unit Answer Raised Result) :
    LastExecuted ⟨journal, some ⟨passed ++ [entry], unrecorded', rest'⟩⟩ := by
  obtain ⟨_, ⟨⟩, before, last, after, split, position, executed⟩ := witnessed
  have longer : passed ++ [entry] = before ++ last :: (after ++ [entry]) := by
    rw [show passed = before ++ last :: after from split, List.append_assoc, List.cons_append]
  exact ⟨_, rfl, before, last, after ++ [entry], longer, position, executed⟩

/-- A step with no recorded outcome executes when exactly the journal has been
heard. -/
theorem Sound.heard_eq {journal : List (Exchange Answer Raised)}
    {passed : List (Passed Answer Raised)} {rest : Coroutine Unit Answer Raised Result}
    (sound : Sound allowed critical ⟨journal, some ⟨passed, false, rest⟩⟩)
    (unrecorded : journal[passed.length]? = none) : passed.map Passed.exchange = journal := by
  have agrees : passed.map Passed.exchange <+: journal := sound.recorded _ rfl rfl
  apply agrees.eq_of_length_le
  simpa using List.getElem?_eq_none_iff.mp unrecorded

section Moves

variable {journal : List (Exchange Answer Raised)} {passed : List (Passed Answer Raised)}
  {request : Request}
  {next : Except Raised (Answer request) → Coroutine Unit Answer Raised Result}

/-- A new incarnation has passed nothing, and nothing critical can wait for it. -/
theorem Sound.start {workflow : Coroutine Unit Answer Raised Result}
    (follows : Awaits allowed [] workflow)
    (sound : Sound allowed critical (⟨journal, none⟩ : Durable Answer Raised Result)) :
    Sound allowed critical ⟨journal, some ⟨[], false, (workflow.segment ()).1⟩⟩ := by
  have notCritical : ¬ critical journal := by
    intro reached
    obtain ⟨_, running, _⟩ := sound.witnessed reached
    cases running
  constructor
  case awaits =>
    rintro _ ⟨⟩
    exact follows.segment
  case recorded =>
    rintro _ ⟨⟩ -
    exact List.nil_prefix
  case pending => rintro _ ⟨⟩ ⟨⟩
  case witnessed => exact fun reached => absurd reached notCritical
  case fresh =>
    rintro _ ⟨⟩
    exact executesFresh_nil

/-- A replayed step is the next one of the journal, and does not execute. -/
theorem Sound.replay {answer : Except Raised (Answer request)}
    (sound : Sound allowed critical ⟨journal, some ⟨passed, false, .await request next⟩⟩)
    (recorded : journal[passed.length]? = some ⟨request, answer⟩) :
    Sound allowed critical
      ⟨journal, some ⟨passed ++ [⟨⟨request, answer⟩, false⟩], false,
        ((next answer).segment ()).1⟩⟩ := by
  have agrees : passed.map Passed.exchange <+: journal := sound.recorded _ rfl rfl
  constructor
  case awaits =>
    rintro _ ⟨⟩
    simpa [Incarnation.heard] using (sound.awaits _ rfl).next answer
  case recorded =>
    rintro _ ⟨⟩ -
    obtain ⟨later, rfl⟩ := agrees
    cases later with
    | nil => simp at recorded
    | cons exchange later =>
        have same : exchange = ⟨request, answer⟩ := by simpa using recorded
        subst same
        exact ⟨later, by simp [Incarnation.heard]⟩
  case pending => rintro _ ⟨⟩ ⟨⟩
  case witnessed => exact fun reached => (sound.witnessed reached).append _ _ _
  case fresh =>
    rintro _ ⟨⟩
    exact (sound.fresh _ rfl).append fun executed => by cases executed

/-- A step executes beyond the journal, right after the last recorded one. -/
theorem Sound.execute {answer : Except Raised (Answer request)}
    (sound : Sound allowed critical ⟨journal, some ⟨passed, false, .await request next⟩⟩)
    (unrecorded : journal[passed.length]? = none) :
    Sound allowed critical
      ⟨journal, some ⟨passed ++ [⟨⟨request, answer⟩, true⟩], true,
        ((next answer).segment ()).1⟩⟩ := by
  have heard : passed.map Passed.exchange = journal := sound.heard_eq unrecorded
  constructor
  case awaits =>
    rintro _ ⟨⟩
    simpa [Incarnation.heard] using (sound.awaits _ rfl).next answer
  case recorded => rintro _ ⟨⟩ ⟨⟩
  case pending =>
    rintro _ ⟨⟩ -
    exact ⟨passed, _, rfl, rfl, heard⟩
  case witnessed => exact fun reached => (sound.witnessed reached).append _ _ _
  case fresh =>
    rintro _ ⟨⟩
    refine (sound.fresh _ rfl).append fun _ => ⟨(sound.awaits _ rfl).1, ?_⟩
    intro reached
    rw [heard] at reached
    -- the last recorded step is the last one passed, for nothing was passed beyond the journal
    obtain ⟨_, ⟨⟩, before, last, after, split, position, executed⟩ := sound.witnessed reached
    obtain rfl : passed = before ++ last :: after := split
    have length := congrArg List.length heard
    simp only [List.length_map, List.length_append, List.length_cons] at length position
    have nothing : after = [] := List.length_eq_zero_iff.mp (by omega)
    exact ⟨before, last, by rw [nothing], executed⟩

/-- What is recorded is the step that executed last. -/
theorem Sound.record {last : Passed Answer Raised} {rest : Coroutine Unit Answer Raised Result}
    (sound : Sound allowed critical ⟨journal, some ⟨passed, true, rest⟩⟩)
    (ends : passed.getLast? = some last) :
    Sound allowed critical ⟨journal ++ [last.exchange], some ⟨passed, false, rest⟩⟩ := by
  obtain ⟨before, final, split, executed, heard⟩ := sound.pending _ rfl rfl
  obtain rfl : passed = before ++ [final] := split
  obtain rfl : final = last := by simpa using ends
  obtain rfl : before.map Passed.exchange = journal := heard
  constructor
  case awaits =>
    rintro _ ⟨⟩
    exact sound.awaits ⟨before ++ [final], true, rest⟩ rfl
  case recorded =>
    rintro _ ⟨⟩ -
    simp [Incarnation.heard]
  case pending => rintro _ ⟨⟩ ⟨⟩
  case witnessed =>
    intro _
    exact ⟨_, rfl, before, final, [], rfl, by simp, executed⟩
  case fresh =>
    rintro _ ⟨⟩
    exact sound.fresh ⟨before ++ [final], true, rest⟩ rfl

end Moves

/-- Every event keeps the invariant, unless it is a crash at a critical journal. -/
theorem Sound.move {workflow : Coroutine Unit Answer Raised Result}
    (follows : Awaits allowed [] workflow) {durable next : Durable Answer Raised Result}
    {event : DurableEvent Answer Raised} (sound : Sound allowed critical durable)
    (calm : event = .crash → ¬ critical durable.journal)
    (moved : Moves workflow durable event next) : Sound allowed critical next := by
  cases moved with
  | start journal => exact sound.start follows
  | replay journal passed request answer next recorded => exact sound.replay recorded
  | execute journal passed request respond next unrecorded => exact sound.execute unrecorded
  | record journal passed last rest ends => exact sound.record ends
  | crash journal incarnation => exact sound_of_not_critical (calm rfl)

/-- **The rule of replay.** A workflow awaits only allowed steps. In every run
that does not crash at a critical journal, every step that executes is allowed
after what was answered before it, and where that is critical the step answered
last has executed in the same incarnation. -/
theorem forall_executesFresh [DecidableEq Request] {workflow : Coroutine Unit Answer Raised Result}
    (follows : Awaits allowed [] workflow) (calm : ¬ critical [])
    (events : List (DurableEvent Answer Raised))
    (guarded : ∀ move ∈ (step workflow).moves {} events,
      move.2 = .crash → ¬ critical move.1.journal) :
    ∀ durable ∈ (step workflow).visits {} events, ∀ incarnation,
      durable.incarnation = some incarnation →
        ExecutesFresh allowed critical incarnation.passed := by
  intro durable visited
  have keeps : ∀ state event next, Sound allowed critical state →
      (event = .crash → ¬ critical state.journal) → step workflow state event = some next →
        Sound allowed critical next :=
    fun _ _ _ sound met moved => sound.move follows met (moves_of_step moved)
  exact (Machine.forall_visits_of_guarded keeps (sound_of_not_critical calm) guarded durable visited).fresh

end Durable

end Foundations
