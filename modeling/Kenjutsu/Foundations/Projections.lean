import Kenjutsu.Foundations.Runs
import Mathlib.Data.List.DropRight

/-!
# The part of a run that concerns one component

A machine may hold many components that share nothing, such as the entries of a
registry under different keys. Which component an event concerns may depend on
the state: an event that names a handle concerns the component the handle
belongs to.

For one component a run has a list of events (`eventsOf`) and a trace
(`traceOf`): the view of the component before each of these events, together
with the event. The components are independent when the events of the others
can be deleted: the events left over are a run, with the same trace. A
simulation of the whole run by the run of the component alone proves it
(`run_eventsOf`).

What happened to a component since one of its own events, or up to one, is the
same in the whole list of events and in the list of its own.

Where every event names its component, a list of events is a run exactly when
the events of each component are one (`Components.run_isSome_iff`).
-/

set_option autoImplicit false

namespace Foundations

universe u v w

section Own

variable {Event : Type v} {goesOn own : Event → Bool}

/-- Up to an event of its own, a component sees the same among its own events. -/
theorem takeWhile_filter_of_stops_own (stops : ∀ event, goesOn event = false → own event = true)
    (events : List Event) :
    (events.filter own).takeWhile goesOn = (events.takeWhile goesOn).filter own := by
  induction events with
  | nil => rfl
  | cons event events ih =>
      cases going : goesOn event with
      | false =>
          rw [List.filter_cons_of_pos (stops event going),
            List.takeWhile_cons_of_neg (by simp [going]),
            List.takeWhile_cons_of_neg (by simp [going])]
          rfl
      | true =>
          rw [List.takeWhile_cons_of_pos going, List.filter_cons, List.filter_cons]
          split
          · rw [List.takeWhile_cons_of_pos going, ih]
          · exact ih

/-- Since an event of its own, likewise. -/
theorem rtakeWhile_filter_of_stops_own (stops : ∀ event, goesOn event = false → own event = true)
    (events : List Event) :
    (events.filter own).rtakeWhile goesOn = (events.rtakeWhile goesOn).filter own := by
  rw [List.rtakeWhile, ← List.filter_reverse, takeWhile_filter_of_stops_own stops,
    ← List.filter_reverse]
  rfl

end Own

namespace Machine

variable {State : Type u} {Event : Type v} {View : Type w}

/-- The events of a run that concern the component. -/
def eventsOf (step : Machine State Event) (concerns : State → Event → Bool) (start : State)
    (events : List Event) : List Event :=
  ((step.moves start events).filter fun move => concerns move.1 move.2).map Prod.snd

/-- The view of the component before each event that concerns it, and the
event. -/
def traceOf (step : Machine State Event) (concerns : State → Event → Bool) (view : State → View)
    (start : State) (events : List Event) : List (View × Event) :=
  ((step.moves start events).filter fun move => concerns move.1 move.2).map
    fun move => (view move.1, move.2)

/-- `same whole alone` is a simulation of a machine by one of its components:
events of other components are not seen, and an event of the component is taken
by both. -/
structure Simulates (step : Machine State Event) (concerns : State → Event → Bool)
    (same : State → State → Prop) : Prop where
  others : ∀ whole alone event next, same whole alone → concerns whole event = false →
    step whole event = some next → same next alone
  own : ∀ whole alone event next, same whole alone → concerns whole event = true →
    step whole event = some next → ∃ following, step alone event = some following ∧
      same next following

variable {step : Machine State Event} {concerns : State → Event → Bool} {view : State → View}

/-- **The events of other components can be deleted.** What is left is a run
that ends in a state the simulation relates, and its trace is the trace of the
component in the whole run. -/
theorem run_eventsOf {same : State → State → Prop} (simulates : step.Simulates concerns same)
    (viewed : ∀ whole alone, same whole alone → view alone = view whole)
    {start begin : State} (initially : same start begin) {events : List Event} {whole : State}
    (ran : step.run start events = some whole) :
    ∃ alone, step.run begin (step.eventsOf concerns start events) = some alone ∧
      same whole alone ∧
      (step.moves begin (step.eventsOf concerns start events)).map
        (fun move => (view move.1, move.2)) = step.traceOf concerns view start events := by
  induction events generalizing start begin with
  | nil =>
      obtain rfl := Option.some.inj ran
      exact ⟨begin, rfl, initially, rfl⟩
  | cons event events ih =>
      obtain ⟨next, moved, ran⟩ := Option.bind_eq_some_iff.mp ran
      cases concerned : concerns start event with
      | false =>
          have kept := simulates.others _ _ _ _ initially concerned moved
          simpa [eventsOf, traceOf, moves, moved, concerned] using ih kept ran
      | true =>
          obtain ⟨following, taken, kept⟩ := simulates.own _ _ _ _ initially concerned moved
          obtain ⟨alone, aloneRan, ends, traced⟩ := ih kept ran
          refine ⟨alone, ?_, ends, ?_⟩
          · simpa [eventsOf, moves, moved, concerned, run_cons, taken] using aloneRan
          · simpa [eventsOf, traceOf, moves, moved, concerned, taken,
              viewed _ _ initially] using traced

/-! ## Components named by the events

Where every event names its component, the components are independent in the
other direction too: runs of the components alone can be interleaved in any way.
-/

section Components

variable {Part Own Index : Type*} {alone : Machine Part Own} {holds : State → Prop}
  {index : Event → Index} {own : Event → Own} {part : Index → State → Part}

/-- Every event is one of the component it names, and nothing to the others. -/
structure Components (step : Machine State Event) (alone : Machine Part Own)
    (holds : State → Prop) (index : Event → Index) (own : Event → Own)
    (part : Index → State → Part) : Prop where
  keeps : ∀ state event next, holds state → step state event = some next → holds next
  own : ∀ state event, holds state →
    (step state event).map (part (index event)) = alone (part (index event) state) (own event)
  others : ∀ state event next component, holds state → step state event = some next →
    component ≠ index event → part component next = part component state

variable [DecidableEq Index]

/-- The events of one component. -/
def ownEvents (index : Event → Index) (own : Event → Own) (component : Index)
    (events : List Event) : List Own :=
  (events.filter fun event => index event = component).map own

theorem ownEvents_cons_self (event : Event) (events : List Event) :
    ownEvents index own (index event) (event :: events) =
      own event :: ownEvents index own (index event) events := by
  rw [ownEvents, List.filter_cons_of_pos (by simp), List.map_cons]
  rfl

theorem ownEvents_cons_of_ne {event : Event} {component : Index} (named : index event ≠ component)
    (events : List Event) :
    ownEvents index own component (event :: events) = ownEvents index own component events := by
  rw [ownEvents, List.filter_cons_of_neg (by simpa using named)]
  rfl

/-- A run ends where its components end alone. -/
theorem Components.run_part (components : Components step alone holds index own part)
    {start last : State} (initially : holds start) {events : List Event}
    (ran : step.run start events = some last) (component : Index) :
    alone.run (part component start) (ownEvents index own component events) =
      some (part component last) := by
  induction events generalizing start with
  | nil =>
      obtain rfl := Option.some.inj ran
      rfl
  | cons event events ih =>
      obtain ⟨next, moved, ran⟩ := Option.bind_eq_some_iff.mp ran
      have rest := ih (components.keeps _ _ _ initially moved) ran
      by_cases named : index event = component
      · subst named
        have taken := components.own start event initially
        rw [moved, Option.map_some] at taken
        rw [ownEvents_cons_self, run_cons, ← taken]
        exact rest
      · rw [ownEvents_cons_of_ne named,
          ← components.others _ _ _ component initially moved (Ne.symm named)]
        exact rest

/-- **Runs of the components are a run of the whole**, in any interleaving. -/
theorem Components.run_isSome_iff (components : Components step alone holds index own part)
    {start : State} (initially : holds start) (events : List Event) :
    (step.run start events).isSome ↔
      ∀ component, (alone.run (part component start)
        (ownEvents index own component events)).isSome := by
  constructor
  · intro ran component
    obtain ⟨last, ran⟩ := Option.isSome_iff_exists.mp ran
    exact components.run_part initially ran component ▸ rfl
  · intro all
    induction events generalizing start with
    | nil => rfl
    | cons event events ih =>
        have first := all (index event)
        rw [ownEvents_cons_self, run_cons, ← components.own start event initially] at first
        cases moved : step start event with
        | none =>
            rw [moved] at first
            cases first
        | some next =>
            rw [run_cons, moved]
            refine ih (components.keeps _ _ _ initially moved) fun component => ?_
            by_cases named : index event = component
            · subst named
              rw [moved] at first
              exact first
            · have other := all component
              rw [ownEvents_cons_of_ne named,
                ← components.others _ _ _ component initially moved (Ne.symm named)] at other
              exact other

end Components

end Machine

end Foundations
