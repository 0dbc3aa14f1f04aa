import Mathlib.Data.List.Infix
import Mathlib.Data.Option.Basic

/-!
# Machines driven by events

A machine is a partial step function. Everything the environment chooses (who
acts next, what a server answers, which identities are handed out) is part of
the event, so a run is determined by its list of events, and an event that is
not enabled ends the run.

A run has the states it visits (`visits`) and the moves it makes, each a state
together with the event taken there (`moves`). Four rules carry the proofs
about runs.

* An invariant of the step holds in every state visited (`forall_visits`).
* An invariant of the steps that meet a guard holds in every state visited by a
  run whose moves all meet the guard (`forall_visits_of_guarded`).
* When a move that misses the guard also breaks the property, the property
  holds along a run exactly when every move of the run meets the guard
  (`forall_visits_iff_guarded`).
* A property of the events so far and the state that every step preserves holds
  at the end of every run (`holds_of_run`).
-/

set_option autoImplicit false

namespace Foundations

universe u v

/-- A machine driven by events; `none` says that the event is not enabled. -/
abbrev Machine (State : Type u) (Event : Type v) := State → Event → Option State

namespace Machine

variable {State : Type u} {Event : Type v} (step : Machine State Event)

/-- The state after a list of events, if all of them are enabled. -/
def run (start : State) : List Event → Option State
  | [] => some start
  | event :: events => (step start event).bind fun next => run next events

/-- The states a run visits, the first one included. -/
def visits (start : State) : List Event → List State
  | [] => [start]
  | event :: events =>
      start :: match step start event with
        | none => []
        | some next => visits next events

/-- The moves a run makes: the state before each event, and the event. -/
def moves (start : State) : List Event → List (State × Event)
  | [] => []
  | event :: events =>
      match step start event with
      | none => []
      | some next => (start, event) :: moves next events

/-! ## Runs, states visited and moves -/

@[simp] theorem run_nil (start : State) : step.run start [] = some start := rfl

theorem run_cons (start : State) (event : Event) (events : List Event) :
    step.run start (event :: events) = (step start event).bind fun next => step.run next events :=
  rfl

theorem run_append (start : State) (first second : List Event) :
    step.run start (first ++ second) =
      (step.run start first).bind fun middle => step.run middle second := by
  induction first generalizing start with
  | nil => rfl
  | cons event first ih =>
      simp only [List.cons_append, run_cons, Option.bind_assoc]
      congr 1
      funext next
      exact ih next

theorem start_mem_visits (start : State) (events : List Event) :
    start ∈ step.visits start events := by
  cases events <;> simp [visits]

/-- The states visited are the states after the prefixes of the events. -/
theorem mem_visits_iff (start state : State) (events : List Event) :
    state ∈ step.visits start events ↔
      ∃ done rest, events = done ++ rest ∧ step.run start done = some state := by
  induction events generalizing start with
  | nil => simp [visits, eq_comm]
  | cons event events ih =>
      constructor
      · intro member
        rcases List.mem_cons.mp member with rfl | later
        · exact ⟨[], _, rfl, rfl⟩
        · cases moved : step start event with
          | none => simp [moved] at later
          | some next =>
              simp only [moved] at later
              obtain ⟨done, rest, rfl, ran⟩ := (ih next).mp later
              exact ⟨event :: done, rest, rfl, by simp [run_cons, moved, ran]⟩
      · rintro ⟨done, rest, split, ran⟩
        cases done with
        | nil =>
            obtain rfl := Option.some.inj ran
            exact step.start_mem_visits _ _
        | cons first done =>
            obtain ⟨rfl, rfl⟩ := List.cons.inj split
            obtain ⟨next, moved, ran⟩ := Option.bind_eq_some_iff.mp ran
            simp only [visits, moved]
            exact List.mem_cons_of_mem _ ((ih next).mpr ⟨done, rest, rfl, ran⟩)

/-- A move is made where its event is enabled, in the state after the events
before it. -/
theorem mem_moves_iff (start state : State) (event : Event) (events : List Event) :
    (state, event) ∈ step.moves start events ↔
      ∃ done rest, events = done ++ event :: rest ∧ step.run start done = some state ∧
        (step state event).isSome := by
  induction events generalizing start with
  | nil => simp [moves]
  | cons head events ih =>
      cases moved : step start head with
      | none =>
          simp only [moves, moved, List.not_mem_nil, false_iff]
          rintro ⟨done, rest, split, ran, enabled⟩
          cases done with
          | nil =>
              obtain ⟨rfl, rfl⟩ := List.cons.inj split
              obtain rfl := Option.some.inj ran
              simp [moved] at enabled
          | cons first done =>
              obtain ⟨rfl, rfl⟩ := List.cons.inj split
              simp [run_cons, moved] at ran
      | some next =>
          simp only [moves, moved, List.mem_cons, Prod.mk.injEq]
          constructor
          · rintro (⟨rfl, rfl⟩ | later)
            · exact ⟨[], events, rfl, rfl, by simp [moved]⟩
            · obtain ⟨done, rest, rfl, ran, enabled⟩ := (ih next).mp later
              exact ⟨head :: done, rest, rfl, by simp [run_cons, moved, ran], enabled⟩
          · rintro ⟨done, rest, split, ran, enabled⟩
            cases done with
            | nil =>
                obtain ⟨rfl, rfl⟩ := List.cons.inj split
                exact .inl ⟨(Option.some.inj ran).symm, rfl⟩
            | cons first done =>
                obtain ⟨rfl, rfl⟩ := List.cons.inj split
                simp only [run_cons, moved, Option.bind_some] at ran
                exact .inr ((ih next).mpr ⟨done, rest, rfl, ran, enabled⟩)

/-- Where a move leads is visited. -/
theorem mem_visits_of_mem_moves {start state next : State} {event : Event} {events : List Event}
    (member : (state, event) ∈ step.moves start events) (moved : step state event = some next) :
    next ∈ step.visits start events := by
  obtain ⟨done, rest, rfl, ran, -⟩ := (step.mem_moves_iff start state event events).mp member
  refine (step.mem_visits_iff start next _).mpr ⟨done ++ [event], rest, by simp, ?_⟩
  rw [run_append, ran, Option.bind_some, run_cons, moved]
  rfl

/-! ## The rules -/

variable {step}

/-- The moves of a run with one event more. -/
theorem moves_concat {start state next : State} {event : Event} {events : List Event}
    (ran : step.run start events = some state) (moved : step state event = some next) :
    step.moves start (events ++ [event]) = step.moves start events ++ [(state, event)] := by
  induction events generalizing start with
  | nil =>
      obtain rfl := Option.some.inj ran
      simp [moves, moved]
  | cons first events ih =>
      obtain ⟨middle, movedFirst, ran⟩ := Option.bind_eq_some_iff.mp ran
      simp only [List.cons_append, moves, movedFirst, ih ran]

/-- **The invariant rule for guarded moves.** A property of the first state
that every move meeting the guard preserves holds in every state visited by a
run whose moves all meet the guard. -/
theorem forall_visits_of_guarded {holds : State → Prop} {guard : State → Event → Prop}
    (keeps : ∀ state event next, holds state → guard state event →
      step state event = some next → holds next)
    {start : State} (initially : holds start) {events : List Event}
    (guarded : ∀ move ∈ step.moves start events, guard move.1 move.2) :
    ∀ state ∈ step.visits start events, holds state := by
  induction events generalizing start with
  | nil => simpa [visits] using initially
  | cons event events ih =>
      cases moved : step start event with
      | none => simpa [visits, moved] using initially
      | some next =>
          simp only [moves, visits, moved, List.forall_mem_cons] at guarded ⊢
          exact ⟨initially, ih (keeps _ _ _ initially guarded.1 moved) guarded.2⟩

/-- **The invariant rule.** A property of the first state that every step
preserves holds in every state visited. -/
theorem forall_visits {holds : State → Prop}
    (keeps : ∀ state event next, holds state → step state event = some next → holds next)
    {start : State} (initially : holds start) (events : List Event) :
    ∀ state ∈ step.visits start events, holds state :=
  @forall_visits_of_guarded _ _ step holds (fun _ _ => True)
    (fun state event next held _ moved => keeps state event next held moved) _ initially _
    fun _ _ => trivial

/-- A machine that can do less visits no more. -/
theorem visits_subset {other : Machine State Event}
    (le : ∀ state event next, step state event = some next → other state event = some next)
    (start : State) (events : List Event) :
    step.visits start events ⊆ other.visits start events := by
  induction events generalizing start with
  | nil => exact List.Subset.refl _
  | cons event events ih =>
      refine List.cons_subset_cons _ ?_
      cases moved : step start event with
      | none => exact List.nil_subset _
      | some next =>
          rw [le _ _ _ moved]
          exact ih next

/-- **The exact guard of a property.** Suppose that `holds` gives the property,
that a move meeting the guard preserves `holds`, and that a move missing the
guard breaks the property. Then the property holds in every state visited
exactly when every move meets the guard. -/
theorem forall_visits_iff_guarded {holds property : State → Prop} {guard : State → Event → Prop}
    (gives : ∀ state, holds state → property state)
    (keeps : ∀ state event next, holds state → guard state event →
      step state event = some next → holds next)
    (breaks : ∀ state event next, holds state → ¬ guard state event →
      step state event = some next → ¬ property next)
    {start : State} (initially : holds start) (events : List Event) :
    (∀ state ∈ step.visits start events, property state) ↔
      ∀ move ∈ step.moves start events, guard move.1 move.2 := by
  constructor
  · induction events generalizing start with
    | nil => simp [moves]
    | cons event events ih =>
        intro always
        cases moved : step start event with
        | none => simp [moves, moved]
        | some next =>
            simp only [moves, visits, moved, List.forall_mem_cons] at always ⊢
            have met : guard start event := by
              by_contra missed
              exact breaks _ _ _ initially missed moved
                (always.2 next (step.start_mem_visits next events))
            exact ⟨met, ih (keeps _ _ _ initially met moved) always.2⟩
  · intro guarded state visited
    exact gives state (forall_visits_of_guarded keeps initially guarded state visited)

/-- **The rule for what a state remembers.** A property of the events so far and
the state that every step preserves holds at the end of every run. -/
theorem holds_of_run {holds : List Event → State → Prop}
    (keeps : ∀ done state event next, holds done state → step state event = some next →
      holds (done ++ [event]) next)
    {start : State} (initially : holds [] start) {events : List Event} {state : State}
    (ran : step.run start events = some state) : holds events state := by
  induction events using List.reverseRecOn generalizing state with
  | nil =>
      obtain rfl := Option.some.inj ran
      exact initially
  | append_singleton done event ih =>
      rw [run_append] at ran
      obtain ⟨middle, before, last⟩ := Option.bind_eq_some_iff.mp ran
      obtain ⟨next, moved, rest⟩ := Option.bind_eq_some_iff.mp last
      obtain rfl := Option.some.inj rest
      exact keeps done middle event next (ih before) moved

/-- **The rule of the measure.** If every step that meets the guard preserves a property and
makes a measure no larger, and smaller if the step counts, a run of such steps has no more of
those that count than the measure at its start. -/
theorem counted_of_run {holds : State → Prop} {guard : Event → Prop} {measure : State → Nat}
    (counts : Event → Bool)
    (keeps : ∀ state event next, holds state → guard event → step state event = some next →
      holds next ∧ measure next + (if counts event then 1 else 0) ≤ measure state)
    {start last : State} (initially : holds start) {events : List Event}
    (guarded : ∀ event ∈ events, guard event) (ran : step.run start events = some last) :
    holds last ∧ events.countP counts + measure last ≤ measure start := by
  induction events generalizing start with
  | nil =>
      obtain rfl := Option.some.inj ran
      exact ⟨initially, (Nat.zero_add _).le⟩
  | cons event events ih =>
      obtain ⟨next, moved, ran⟩ := Option.bind_eq_some_iff.mp ran
      obtain ⟨first, rest⟩ := List.forall_mem_cons.mp guarded
      obtain ⟨held, less⟩ := keeps start event next initially first moved
      obtain ⟨ends, bound⟩ := ih held rest ran
      refine ⟨ends, ?_⟩
      rw [List.countP_cons]
      omega

/-- Where every step counts, the measure bounds the length of a run. -/
theorem measured_of_run {holds : State → Prop} {guard : Event → Prop} {measure : State → Nat}
    (keeps : ∀ state event next, holds state → guard event → step state event = some next →
      holds next ∧ measure next < measure state)
    {start last : State} (initially : holds start) {events : List Event}
    (guarded : ∀ event ∈ events, guard event) (ran : step.run start events = some last) :
    holds last ∧ events.length + measure last ≤ measure start := by
  have counted := counted_of_run (fun _ => true) keeps initially guarded ran
  rwa [List.countP_true] at counted

end Machine

end Foundations
