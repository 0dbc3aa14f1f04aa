import Kenjutsu.Foundations.Runs
import Mathlib.Data.List.Nodup

/-!
# Semaphores

A semaphore has a number of units. A visit that arrives takes one, or waits in a
queue until it is given one; a visit that leaves gives its unit back. Waiting can
be cancelled: before a unit was given to the waiter, or after that and before the
waiter could run, and then the unit goes on to somebody else.

A waiter that runs again also wakes further waiters while there are units. How
many it wakes at a time is left to the environment; it wakes at least one, unless
it was cancelled before it was given anything.

The semaphore keeps who is inside, and remembers who arrived, who was given a
unit and who gave up, each in order. In every run from a semaphore of a given
capacity

* the units are accounted for, so that at most as many visits are inside as the
  capacity says (`Accounted.units`);
* units are given in the order of arrival to those who did not give up
  (`Accounted.inOrder`);
* nobody waits for a unit that nobody will pass on (`Accounted.watched`), so that
  once everybody leaves nobody is left waiting (`drained_of_stuck`).
-/

set_option autoImplicit false

namespace Foundations

universe u

/-- How a waiter stands. -/
inductive Wakeup where
  | pending
  /-- It was given a unit and has not run yet. -/
  | woken
  /-- It was cancelled while it was pending. -/
  | cancelled
  /-- It was given a unit, and cancelled before it could run. -/
  | recalled
deriving DecidableEq, Repr

/-- The waiter has been given a unit. -/
def Wakeup.given : Wakeup → Bool
  | .woken | .recalled => true
  | _ => false

structure Semaphore (Visit : Type u) where
  /-- The units that nobody has. -/
  value : Nat
  /-- The waiters, in the order they came. -/
  waiters : List (Visit × Wakeup) := []
  inside : List Visit := []
  arrived : List Visit := []
  granted : List Visit := []
  gaveUp : List Visit := []

/-- A visit arrives, is cancelled while it waits, runs again after its wait, with
the most waiters it wakes, or leaves. -/
inductive SemaphoreEvent (Visit : Type u) where
  | enter (visit : Visit)
  | cancel (visit : Visit)
  | resume (visit : Visit) (further : Nat)
  | leave (visit : Visit)

/-- The visit that an event concerns. -/
def SemaphoreEvent.visit {Visit : Type u} : SemaphoreEvent Visit → Visit
  | .enter visit | .cancel visit | .resume visit _ | .leave visit => visit

namespace Semaphore

variable {Visit : Type u}

/-! ## The operations -/

/-- Whether a visit that arrives now has to wait. -/
def locked (semaphore : Semaphore Visit) : Bool :=
  semaphore.value = 0 || semaphore.waiters.any fun waiter => waiter.2 ≠ .cancelled

/-- The waiters that are pending. -/
def pendingOf (waiters : List (Visit × Wakeup)) : List Visit :=
  (waiters.filter fun waiter => waiter.2 = .pending).map Prod.fst

def pending (semaphore : Semaphore Visit) : List Visit := pendingOf semaphore.waiters

/-- The waiters that have been given a unit and still have to run. -/
def givenOf (waiters : List (Visit × Wakeup)) : Nat := waiters.countP fun waiter => waiter.2.given

/-- The first waiter that is pending is woken. -/
def wakeFirst : List (Visit × Wakeup) → Option (Visit × List (Visit × Wakeup))
  | [] => none
  | (visit, state) :: waiters =>
      if state = .pending then some (visit, (visit, .woken) :: waiters)
      else (wakeFirst waiters).map fun (woken, after) => (woken, (visit, state) :: after)

/-- One unit goes to the first waiter that is pending, if there is one. -/
def wakeUpNext (semaphore : Semaphore Visit) : Semaphore Visit :=
  match wakeFirst semaphore.waiters with
  | none => semaphore
  | some (visit, waiters) => { semaphore with
      value := semaphore.value - 1
      waiters
      granted := semaphore.granted ++ [visit] }

/-- At most so many waiters are woken, as long as there are units. -/
def wakeUp : Nat → Semaphore Visit → Semaphore Visit
  | 0, semaphore => semaphore
  | further + 1, semaphore =>
      if semaphore.value = 0 then semaphore else wakeUp further semaphore.wakeUpNext

/-- A visit arrives: it takes a unit, or it waits. -/
def acquire (semaphore : Semaphore Visit) (visit : Visit) : Semaphore Visit :=
  if semaphore.locked then { semaphore with
    waiters := semaphore.waiters ++ [(visit, .pending)]
    arrived := semaphore.arrived ++ [visit] }
  else { semaphore with
    value := semaphore.value - 1
    inside := semaphore.inside ++ [visit]
    arrived := semaphore.arrived ++ [visit]
    granted := semaphore.granted ++ [visit] }

section

variable [DecidableEq Visit]

/-- A visit leaves. -/
def release (semaphore : Semaphore Visit) (visit : Visit) : Semaphore Visit :=
  wakeUpNext { semaphore with
    value := semaphore.value + 1
    inside := semaphore.inside.erase visit }

/-- How the wait of a visit stands, if it waits. -/
def stateOf (semaphore : Semaphore Visit) (visit : Visit) : Option Wakeup :=
  semaphore.waiters.lookup visit

/-- The waiters, with one of them at another state. -/
def settle (visit : Visit) (state : Wakeup) (waiters : List (Visit × Wakeup)) :
    List (Visit × Wakeup) :=
  waiters.map fun waiter => if waiter.1 = visit then (visit, state) else waiter

/-- The waiters without one of them. -/
def discard (visit : Visit) (waiters : List (Visit × Wakeup)) : List (Visit × Wakeup) :=
  waiters.filter fun waiter => waiter.1 ≠ visit

/-- One event of a semaphore. -/
def step : Machine (Semaphore Visit) (SemaphoreEvent Visit)
  | semaphore, .enter visit =>
      if visit ∈ semaphore.arrived then none else some (semaphore.acquire visit)
  | semaphore, .cancel visit =>
      match semaphore.stateOf visit with
      | some .pending => some { semaphore with
          waiters := settle visit .cancelled semaphore.waiters
          gaveUp := semaphore.gaveUp ++ [visit] }
      | some .woken => some { semaphore with
          waiters := settle visit .recalled semaphore.waiters }
      | _ => none
  | semaphore, .resume visit further =>
      match semaphore.stateOf visit with
      | some .woken => some (wakeUp (further + 1) { semaphore with
          waiters := discard visit semaphore.waiters
          inside := semaphore.inside ++ [visit] })
      | some .recalled => some (wakeUp (further + 1) { semaphore with
          value := semaphore.value + 1
          waiters := discard visit semaphore.waiters })
      | some .cancelled => some (wakeUp further { semaphore with
          waiters := discard visit semaphore.waiters })
      | _ => none
  | semaphore, .leave visit =>
      if visit ∈ semaphore.inside then some (semaphore.release visit) else none

end

/-! ## Waking -/

theorem pendingOf_append (first second : List (Visit × Wakeup)) :
    pendingOf (first ++ second) = pendingOf first ++ pendingOf second := by
  rw [pendingOf, List.filter_append, List.map_append]
  rfl

theorem pendingOf_cons (visit : Visit) (state : Wakeup) (waiters : List (Visit × Wakeup)) :
    pendingOf ((visit, state) :: waiters) =
      if state = .pending then visit :: pendingOf waiters else pendingOf waiters := by
  by_cases waits : state = .pending <;> simp [pendingOf, waits]

theorem givenOf_append (first second : List (Visit × Wakeup)) :
    givenOf (first ++ second) = givenOf first + givenOf second := List.countP_append

theorem givenOf_cons (visit : Visit) (state : Wakeup) (waiters : List (Visit × Wakeup)) :
    givenOf ((visit, state) :: waiters) = givenOf waiters + if state.given then 1 else 0 :=
  List.countP_cons

/-- Nobody is pending, or the first who is has been woken. -/
theorem wakeFirst_cases (waiters : List (Visit × Wakeup)) :
    (wakeFirst waiters = none ∧ pendingOf waiters = []) ∨
      ∃ visit after, wakeFirst waiters = some (visit, after) ∧
        pendingOf waiters = visit :: pendingOf after ∧
        givenOf after = givenOf waiters + 1 ∧ after.map Prod.fst = waiters.map Prod.fst ∧
        ∀ waiter ∈ after, waiter ∈ waiters ∨ waiter.1 = visit := by
  induction waiters with
  | nil => exact .inl ⟨rfl, rfl⟩
  | cons waiter waiters ih =>
      obtain ⟨visit, state⟩ := waiter
      by_cases waits : state = .pending
      · subst waits
        refine .inr ⟨visit, (visit, .woken) :: waiters, if_pos rfl, ?_, ?_, rfl, ?_⟩
        · simp [pendingOf_cons]
        · simp [givenOf_cons, Wakeup.given]
        · intro waiter member
          rcases List.mem_cons.mp member with rfl | old
          · exact .inr rfl
          · exact .inl (List.mem_cons_of_mem _ old)
      · rcases ih with ⟨none, nobody⟩ | ⟨woken, after, found, pends, given, same, kept⟩
        · refine .inl ⟨?_, ?_⟩
          · rw [wakeFirst, if_neg waits, none]
            rfl
          · rw [pendingOf_cons, if_neg waits, nobody]
        · refine .inr ⟨woken, (visit, state) :: after, ?_, ?_, ?_, ?_, ?_⟩
          · rw [wakeFirst, if_neg waits, found]
            rfl
          · rw [pendingOf_cons, if_neg waits, pends, pendingOf_cons, if_neg waits]
          · rw [givenOf_cons, given, givenOf_cons]
            omega
          · rw [List.map_cons, same, List.map_cons]
          · intro waiter member
            rcases List.mem_cons.mp member with rfl | old
            · exact .inl List.mem_cons_self
            · exact (kept waiter old).imp_left (List.mem_cons_of_mem _)

/-- **What passing on a unit does**: nothing, if nobody is pending; otherwise the first
who is pending has it. -/
theorem wakeUpNext_cases (semaphore : Semaphore Visit) :
    (semaphore.pending = [] ∧ semaphore.wakeUpNext = semaphore) ∨
      ∃ visit after, semaphore.pending = visit :: pendingOf after ∧
        givenOf after = givenOf semaphore.waiters + 1 ∧
        after.map Prod.fst = semaphore.waiters.map Prod.fst ∧
        (∀ waiter ∈ after, waiter ∈ semaphore.waiters ∨ waiter.1 = visit) ∧
        semaphore.wakeUpNext = { semaphore with
          value := semaphore.value - 1
          waiters := after
          granted := semaphore.granted ++ [visit] } := by
  unfold wakeUpNext
  rcases wakeFirst_cases semaphore.waiters with ⟨none, nobody⟩ |
    ⟨visit, after, found, pends, given, same, kept⟩
  · rw [none]
    exact .inl ⟨nobody, rfl⟩
  · rw [found]
    exact .inr ⟨visit, after, pends, given, same, kept, rfl⟩

/-! ## Nobody is left behind -/

/-- Whoever is pending while a unit is free waits behind somebody who will pass it on. -/
def Watched (semaphore : Semaphore Visit) : Prop :=
  semaphore.pending ≠ [] → semaphore.value = 0 ∨ 0 < givenOf semaphore.waiters

variable {semaphore : Semaphore Visit}

theorem watched_init (capacity : Nat) : Watched ({ value := capacity } : Semaphore Visit) :=
  fun pends => absurd rfl pends

/-- Whoever was pending first passes units on when it runs. -/
theorem watched_wakeUpNext (semaphore : Semaphore Visit) : Watched semaphore.wakeUpNext := by
  intro pends
  rcases semaphore.wakeUpNext_cases with ⟨nobody, same⟩ | ⟨visit, after, -, given, -, -, woken⟩
  · rw [same] at pends
    exact absurd nobody pends
  · refine .inr ?_
    rw [woken]
    exact given ▸ Nat.succ_pos _

theorem Watched.wakeUp (watched : Watched semaphore) (further : Nat) :
    Watched (wakeUp further semaphore) := by
  induction further generalizing semaphore with
  | zero => exact watched
  | succ further ih =>
      unfold Semaphore.wakeUp
      split
      · exact watched
      · exact ih (watched_wakeUpNext semaphore)

/-- Waking at least one waiter leaves nobody behind. -/
theorem watched_wakeUp_succ (further : Nat) (semaphore : Semaphore Visit) :
    Watched (wakeUp (further + 1) semaphore) := by
  unfold wakeUp
  split
  · rename_i none
    exact fun _ => .inl none
  · exact (watched_wakeUpNext semaphore).wakeUp further

/-- Whoever arrives takes a unit at once only if nobody is pending. -/
theorem pending_of_not_locked (unlocked : semaphore.locked = false) :
    0 < semaphore.value ∧ semaphore.pending = [] := by
  obtain ⟨free, nobody⟩ := Bool.or_eq_false_iff.mp unlocked
  refine ⟨Nat.pos_of_ne_zero (of_decide_eq_false free), ?_⟩
  rw [pending, pendingOf, List.map_eq_nil_iff, List.filter_eq_nil_iff]
  intro waiter member pends
  have away := List.any_eq_false.mp nobody waiter member
  simp only [ne_eq, decide_not, Bool.not_eq_true', decide_eq_false_iff_not, not_not] at away
  simp [away] at pends

theorem acquire_arrived (semaphore : Semaphore Visit) (visit : Visit) :
    (semaphore.acquire visit).arrived = semaphore.arrived ++ [visit] := by
  unfold acquire
  split <;> rfl

/-- Whoever has to wait finds no free unit, or waits behind somebody. -/
theorem Watched.acquire (watched : Watched semaphore) (visit : Visit) :
    Watched (semaphore.acquire visit) := by
  unfold Semaphore.acquire
  split
  · rename_i locked
    intro _
    simp only [givenOf_append, givenOf_cons, Wakeup.given]
    rcases Bool.or_eq_true_iff.mp locked with none | some
    · exact .inl (of_decide_eq_true none)
    · obtain ⟨⟨other, state⟩, member, stays⟩ := List.any_eq_true.mp some
      cases state with
      | pending =>
          have pends : other ∈ semaphore.pending := by
            rw [pending, pendingOf, List.mem_map]
            exact ⟨(other, .pending), List.mem_filter.mpr ⟨member, by simp⟩, rfl⟩
          simpa [givenOf] using watched (List.ne_nil_of_mem pends)
      | woken =>
          have given : 0 < givenOf semaphore.waiters := List.countP_pos_iff.mpr ⟨_, member, rfl⟩
          exact .inr (by simpa [givenOf] using given)
      | recalled =>
          have given : 0 < givenOf semaphore.waiters := List.countP_pos_iff.mpr ⟨_, member, rfl⟩
          exact .inr (by simpa [givenOf] using given)
      | cancelled => simp at stays
  · rename_i unlocked
    obtain ⟨-, nobody⟩ := pending_of_not_locked (by simpa using unlocked)
    exact fun pends => absurd nobody pends

/-- How often a waiter can run again or a visit can leave before somebody arrives. -/
def work (semaphore : Semaphore Visit) : Nat :=
  2 * semaphore.waiters.length + semaphore.inside.length

/-- Passing units on moves nobody. -/
theorem wakeUpNext_kept (semaphore : Semaphore Visit) :
    semaphore.wakeUpNext.waiters.map Prod.fst = semaphore.waiters.map Prod.fst ∧
      semaphore.wakeUpNext.inside = semaphore.inside ∧
      semaphore.wakeUpNext.arrived = semaphore.arrived ∧
      semaphore.wakeUpNext.gaveUp = semaphore.gaveUp := by
  rcases semaphore.wakeUpNext_cases with ⟨-, same⟩ | ⟨visit, after, -, -, same, -, woken⟩
  · rw [same]
    exact ⟨rfl, rfl, rfl, rfl⟩
  · rw [woken]
    exact ⟨same, rfl, rfl, rfl⟩

theorem wakeUp_kept (further : Nat) (semaphore : Semaphore Visit) :
    (wakeUp further semaphore).waiters.map Prod.fst = semaphore.waiters.map Prod.fst ∧
      (wakeUp further semaphore).inside = semaphore.inside ∧
      (wakeUp further semaphore).arrived = semaphore.arrived ∧
      (wakeUp further semaphore).gaveUp = semaphore.gaveUp := by
  induction further generalizing semaphore with
  | zero => exact ⟨rfl, rfl, rfl, rfl⟩
  | succ further ih =>
      unfold wakeUp
      split
      · exact ⟨rfl, rfl, rfl, rfl⟩
      · obtain ⟨waiters, inside, arrived, gaveUp⟩ := ih semaphore.wakeUpNext
        obtain ⟨waiters', inside', arrived', gaveUp'⟩ := semaphore.wakeUpNext_kept
        exact ⟨waiters.trans waiters', inside.trans inside', arrived.trans arrived',
          gaveUp.trans gaveUp'⟩

theorem work_eq {first second : Semaphore Visit}
    (waiters : first.waiters.map Prod.fst = second.waiters.map Prod.fst)
    (inside : first.inside = second.inside) : first.work = second.work := by
  have length := congrArg List.length waiters
  rw [List.length_map, List.length_map] at length
  rw [work, work, length, inside]

/-! ## One waiter among the others -/

variable [DecidableEq Visit]

/-- A visit waits once. -/
theorem exists_split {waiters : List (Visit × Wakeup)} {visit : Visit} {state : Wakeup}
    (distinct : (waiters.map Prod.fst).Nodup) (found : waiters.lookup visit = some state) :
    ∃ before after, waiters = before ++ (visit, state) :: after ∧
      (∀ waiter ∈ before, waiter.1 ≠ visit) ∧ ∀ waiter ∈ after, waiter.1 ≠ visit := by
  obtain ⟨before, after, rfl, absent⟩ := List.lookup_eq_some_iff.mp found
  refine ⟨before, after, rfl, fun waiter member same => ?_, fun waiter member same => ?_⟩
  · simpa [same] using absent waiter member
  · rw [List.map_append, List.map_cons] at distinct
    have once := (List.nodup_cons.mp (List.nodup_append'.mp distinct).2.1).1
    exact once (List.mem_map.mpr ⟨waiter, member, same⟩)

theorem settle_eq_self {visit : Visit} {state : Wakeup} {waiters : List (Visit × Wakeup)}
    (absent : ∀ waiter ∈ waiters, waiter.1 ≠ visit) : settle visit state waiters = waiters := by
  calc settle visit state waiters = waiters.map id :=
        List.map_congr_left fun waiter member => if_neg (absent waiter member)
    _ = waiters := List.map_id waiters

theorem settle_split {before after : List (Visit × Wakeup)} {visit : Visit}
    (absentBefore : ∀ waiter ∈ before, waiter.1 ≠ visit)
    (absentAfter : ∀ waiter ∈ after, waiter.1 ≠ visit) (old new : Wakeup) :
    settle visit new (before ++ (visit, old) :: after) = before ++ (visit, new) :: after := by
  have left : settle visit new before = before := settle_eq_self absentBefore
  have right : settle visit new after = after := settle_eq_self absentAfter
  unfold settle at left right ⊢
  rw [List.map_append, List.map_cons, left, right, if_pos rfl]

theorem discard_split {before after : List (Visit × Wakeup)} {visit : Visit}
    (absentBefore : ∀ waiter ∈ before, waiter.1 ≠ visit)
    (absentAfter : ∀ waiter ∈ after, waiter.1 ≠ visit) (state : Wakeup) :
    discard visit (before ++ (visit, state) :: after) = before ++ after := by
  have left : before.filter (fun waiter => waiter.1 ≠ visit) = before :=
    List.filter_eq_self.mpr fun waiter member => by simpa using absentBefore waiter member
  have right : after.filter (fun waiter => waiter.1 ≠ visit) = after :=
    List.filter_eq_self.mpr fun waiter member => by simpa using absentAfter waiter member
  rw [discard, List.filter_append, List.filter_cons_of_neg (by simp), left, right]

/-! ## What every run keeps -/

/-- The books of a semaphore agree. -/
structure Accounted (capacity : Nat) (semaphore : Semaphore Visit) : Prop where
  /-- A unit is free, on its way to a waiter, or with a visit that is inside. -/
  units : semaphore.value + semaphore.inside.length + givenOf semaphore.waiters = capacity
  /-- Units are given in the order of arrival to those who do not give up. -/
  inOrder : semaphore.arrived.filter (fun visit => visit ∉ semaphore.gaveUp) =
    semaphore.granted ++ semaphore.pending
  unique : semaphore.arrived.Nodup
  /-- Nobody waits twice, is inside twice, or waits and is inside. -/
  distinct : (semaphore.waiters.map Prod.fst ++ semaphore.inside).Nodup
  present : ∀ visit ∈ semaphore.waiters.map Prod.fst ++ semaphore.inside ++ semaphore.gaveUp,
    visit ∈ semaphore.arrived
  /-- Nobody gets in without a unit. -/
  served : (∀ visit ∈ semaphore.inside, visit ∈ semaphore.granted) ∧
    ∀ waiter ∈ semaphore.waiters, waiter.2.given → waiter.1 ∈ semaphore.granted

variable {capacity : Nat}

/-- A semaphore that nobody has come to. -/
theorem accounted_init (capacity : Nat) :
    Accounted capacity ({ value := capacity } : Semaphore Visit) where
  units := rfl
  inOrder := rfl
  unique := List.nodup_nil
  distinct := List.nodup_nil
  present := fun _ member => member
  served := ⟨fun _ member => member, fun _ member => absurd member List.not_mem_nil⟩

/-- Passing on a free unit keeps the books. -/
theorem Accounted.wakeUpNext (accounted : Accounted capacity semaphore)
    (free : 0 < semaphore.value) : Accounted capacity semaphore.wakeUpNext := by
  rcases semaphore.wakeUpNext_cases with ⟨-, same⟩ | ⟨visit, after, pends, given, same, kept, woken⟩
  · exact same.symm ▸ accounted
  · have units := accounted.units
    rw [woken]
    exact
      { units := by
          change semaphore.value - 1 + semaphore.inside.length + givenOf after = capacity
          omega
        inOrder := by
          change _ = semaphore.granted ++ [visit] ++ pendingOf after
          rw [accounted.inOrder, pends, List.append_assoc, List.singleton_append]
        unique := accounted.unique
        distinct := by
          change (after.map Prod.fst ++ semaphore.inside).Nodup
          rw [same]
          exact accounted.distinct
        present := by
          change ∀ visit ∈ after.map Prod.fst ++ semaphore.inside ++ semaphore.gaveUp, _
          rw [same]
          exact accounted.present
        served := by
          refine ⟨fun other member => List.mem_append_left _ (accounted.served.1 other member), ?_⟩
          intro waiter member has
          rcases kept waiter member with old | rfl
          · exact List.mem_append_left _ (accounted.served.2 waiter old has)
          · exact List.mem_append_right _ (List.mem_singleton_self _) }

theorem Accounted.wakeUp (accounted : Accounted capacity semaphore) (further : Nat) :
    Accounted capacity (wakeUp further semaphore) := by
  induction further generalizing semaphore with
  | zero => exact accounted
  | succ further ih =>
      unfold Semaphore.wakeUp
      split
      · exact accounted
      · rename_i free
        exact ih (accounted.wakeUpNext (Nat.pos_of_ne_zero free))

theorem Accounted.acquire (accounted : Accounted capacity semaphore) {visit : Visit}
    (fresh : visit ∉ semaphore.arrived) : Accounted capacity (semaphore.acquire visit) := by
  have outside : visit ∉ semaphore.waiters.map Prod.fst ++ semaphore.inside := fun member =>
    fresh (accounted.present visit (List.mem_append_left _ member))
  have steady : visit ∉ semaphore.gaveUp := fun member =>
    fresh (accounted.present visit (List.mem_append_right _ member))
  have unique : (semaphore.arrived ++ [visit]).Nodup :=
    List.nodup_append'.mpr ⟨accounted.unique, List.nodup_singleton _,
      List.disjoint_singleton.mpr fresh⟩
  have filtered : (semaphore.arrived ++ [visit]).filter (fun other => other ∉ semaphore.gaveUp) =
      semaphore.granted ++ semaphore.pending ++ [visit] := by
    rw [List.filter_append, accounted.inOrder, List.filter_singleton]
    simp [steady]
  have present : ∀ other, other = visit ∨
      other ∈ semaphore.waiters.map Prod.fst ++ semaphore.inside ++ semaphore.gaveUp →
        other ∈ semaphore.arrived ++ [visit] := by
    rintro other (rfl | old)
    · exact List.mem_append_right _ (List.mem_singleton_self _)
    · exact List.mem_append_left _ (accounted.present other old)
  have units := accounted.units
  unfold Semaphore.acquire
  split
  · exact
      { units := by
          rw [givenOf_append]
          exact units
        inOrder := by
          change _ = semaphore.granted ++ pendingOf (semaphore.waiters ++ [(visit, .pending)])
          rw [filtered, pendingOf_append, ← List.append_assoc]
          rfl
        unique
        distinct := by
          rw [List.map_append, List.append_assoc]
          refine (List.perm_middle.nodup_iff).mpr (List.nodup_cons.mpr ⟨outside, ?_⟩)
          exact accounted.distinct
        present := by
          intro other member
          refine present other ?_
          simp only [List.map_append, List.map_cons, List.map_nil, List.mem_append,
            List.mem_singleton] at member ⊢
          tauto
        served := by
          refine ⟨accounted.served.1, fun waiter member has => ?_⟩
          rcases List.mem_append.mp member with old | new
          · exact accounted.served.2 waiter old has
          · rw [List.mem_singleton.mp new] at has
            exact absurd has Bool.false_ne_true }
  · rename_i unlocked
    obtain ⟨free, nobody⟩ := pending_of_not_locked (by simpa using unlocked)
    exact
      { units := by
          change semaphore.value - 1 + (semaphore.inside ++ [visit]).length +
            givenOf semaphore.waiters = capacity
          rw [List.length_append, List.length_singleton]
          omega
        inOrder := by
          change _ = semaphore.granted ++ [visit] ++ semaphore.pending
          rw [filtered, nobody, List.append_nil, List.append_nil]
        unique
        distinct := by
          rw [← List.append_assoc]
          exact List.nodup_append'.mpr ⟨accounted.distinct, List.nodup_singleton _,
            List.disjoint_singleton.mpr outside⟩
        present := by
          intro other member
          refine present other ?_
          simp only [List.mem_append, List.mem_singleton] at member ⊢
          tauto
        served := by
          refine ⟨fun other member => ?_, fun waiter member has =>
            List.mem_append_left _ (accounted.served.2 waiter member has)⟩
          rcases List.mem_append.mp member with old | new
          · exact List.mem_append_left _ (accounted.served.1 other old)
          · exact List.mem_append_right _ new }

/-- A unit comes back and is passed on. -/
theorem Accounted.release (accounted : Accounted capacity semaphore) {visit : Visit}
    (member : visit ∈ semaphore.inside) : Accounted capacity (semaphore.release visit) := by
  have left : semaphore.inside.length = (semaphore.inside.erase visit).length + 1 := by
    rw [List.length_erase_of_mem member]
    have := List.length_pos_of_mem member
    omega
  have units := accounted.units
  have given : Accounted capacity { semaphore with
      value := semaphore.value + 1
      inside := semaphore.inside.erase visit } :=
    { units := by
        change semaphore.value + 1 + (semaphore.inside.erase visit).length +
          givenOf semaphore.waiters = capacity
        omega
      inOrder := accounted.inOrder
      unique := accounted.unique
      distinct := (List.Sublist.append_left List.erase_sublist _).nodup accounted.distinct
      present := by
        intro other listed
        refine accounted.present other ?_
        simp only [List.mem_append] at listed ⊢
        rcases listed with (waits | stays) | gave
        · exact .inl (.inl waits)
        · exact .inl (.inr (List.mem_of_mem_erase stays))
        · exact .inr gave
      served := ⟨fun other member => accounted.served.1 other (List.mem_of_mem_erase member),
        accounted.served.2⟩ }
  exact given.wakeUpNext (Nat.succ_pos _)

/-- A waiter among the others: with another state, and without it. -/
theorem Accounted.split (accounted : Accounted capacity semaphore) {visit : Visit}
    {state : Wakeup} (stands : semaphore.stateOf visit = some state) :
    ∃ before after, semaphore.waiters = before ++ (visit, state) :: after ∧
      (∀ new, settle visit new semaphore.waiters = before ++ (visit, new) :: after) ∧
      discard visit semaphore.waiters = before ++ after ∧ visit ∈ semaphore.arrived := by
  obtain ⟨distinct, -, -⟩ := List.nodup_append'.mp accounted.distinct
  obtain ⟨before, after, split, absentBefore, absentAfter⟩ := exists_split distinct stands
  refine ⟨before, after, split, fun new => ?_, ?_, ?_⟩
  · rw [split, settle_split absentBefore absentAfter]
  · rw [split, discard_split absentBefore absentAfter]
  · refine accounted.present visit (List.mem_append_left _ (List.mem_append_left _ ?_))
    rw [split]
    simp

/-- The waiters without one of them, who is inside or has gone. -/
theorem Accounted.leaveQueue (accounted : Accounted capacity semaphore) {visit : Visit}
    {state : Wakeup} (stands : semaphore.stateOf visit = some state) (runs : state ≠ .pending) :
    pendingOf (discard visit semaphore.waiters) = semaphore.pending ∧
      givenOf semaphore.waiters =
        givenOf (discard visit semaphore.waiters) + (if state.given then 1 else 0) ∧
      ((discard visit semaphore.waiters).map Prod.fst ++ (semaphore.inside ++ [visit])).Nodup ∧
      visit ∈ semaphore.arrived := by
  obtain ⟨before, after, split, -, discarded, arrived⟩ := accounted.split stands
  have whole := accounted.distinct
  rw [pending, discarded, split]
  rw [split] at whole
  refine ⟨?_, ?_, ?_, arrived⟩
  · rw [pendingOf_append, pendingOf_append, pendingOf_cons, if_neg runs]
  · rw [givenOf_append, givenOf_append, givenOf_cons, Nat.add_assoc]
  · refine (List.Perm.nodup_iff ?_).mp whole
    simp only [List.map_append, List.map_cons, List.append_assoc, List.cons_append]
    refine List.Perm.append_left _ ?_
    rw [← List.append_assoc]
    exact (List.perm_append_singleton visit _).symm

/-- A waiter whose wait is over runs: it is inside with its unit, or it gives it back. -/
theorem Accounted.runOn (accounted : Accounted capacity semaphore) {visit : Visit}
    {state : Wakeup} (stands : semaphore.stateOf visit = some state) (runs : state ≠ .pending) :
    Accounted capacity { semaphore with
      value := semaphore.value + if state = .recalled then 1 else 0
      waiters := discard visit semaphore.waiters
      inside := if state = .woken then semaphore.inside ++ [visit] else semaphore.inside } := by
  obtain ⟨pends, given, distinct, arrived⟩ := accounted.leaveQueue stands runs
  have units := accounted.units
  have listed : (visit, state) ∈ semaphore.waiters := by
    obtain ⟨before, after, split, -, -, -⟩ := accounted.split stands
    exact split ▸ List.mem_append_right _ List.mem_cons_self
  have shrinks : discard visit semaphore.waiters ⊆ semaphore.waiters :=
    List.filter_sublist.subset
  have enters : (if state = .woken then semaphore.inside ++ [visit] else semaphore.inside).Sublist
      (semaphore.inside ++ [visit]) := by
    split
    · exact .refl _
    · exact List.sublist_append_left _ _
  exact
    { units := by
        change _ + _ + givenOf (discard visit semaphore.waiters) = capacity
        cases state with
        | pending => exact absurd rfl runs
        | woken =>
            simp only [Wakeup.given, if_true, reduceCtorEq, if_false, List.length_append,
              List.length_singleton] at given ⊢
            omega
        | recalled =>
            simp only [Wakeup.given, if_true, reduceCtorEq, if_false] at given ⊢
            omega
        | cancelled =>
            simp only [Wakeup.given, Bool.false_eq_true, reduceCtorEq, if_false] at given ⊢
            omega
      inOrder := by
        change _ = semaphore.granted ++ pendingOf (discard visit semaphore.waiters)
        rw [pends]
        exact accounted.inOrder
      unique := accounted.unique
      distinct := (List.Sublist.append_left enters _).nodup distinct
      present := by
        intro other member
        simp only [List.mem_append] at member
        rcases member with (waits | stays) | gave
        · exact accounted.present other (List.mem_append_left _
            (List.mem_append_left _ (List.map_subset _ shrinks waits)))
        · rcases List.mem_append.mp (enters.subset stays) with old | new
          · exact accounted.present other (List.mem_append_left _ (List.mem_append_right _ old))
          · exact List.mem_singleton.mp new ▸ arrived
        · exact accounted.present other (List.mem_append_right _ gave)
      served := by
        refine ⟨fun other member => ?_, fun waiter member => accounted.served.2 waiter
          (shrinks member)⟩
        change other ∈ if state = .woken then _ else _ at member
        split at member
        · rename_i woken
          rcases List.mem_append.mp member with old | new
          · exact accounted.served.1 other old
          · rw [List.mem_singleton.mp new]
            exact accounted.served.2 (visit, state) listed (woken ▸ rfl)
        · exact accounted.served.1 other member }

/-- A waiter that is cancelled before it was given a unit gives up. -/
theorem Accounted.cancel (accounted : Accounted capacity semaphore) {visit : Visit}
    (stands : semaphore.stateOf visit = some .pending) :
    Accounted capacity { semaphore with
      waiters := settle visit .cancelled semaphore.waiters
      gaveUp := semaphore.gaveUp ++ [visit] } := by
  obtain ⟨before, after, split, settled, -, arrived⟩ := accounted.split stands
  have same : (settle visit .cancelled semaphore.waiters).map Prod.fst =
      semaphore.waiters.map Prod.fst := by
    rw [settled, split]
    simp
  have units := accounted.units
  have order := accounted.inOrder
  rw [pending, split, pendingOf_append, pendingOf_cons, if_pos rfl] at order
  have once : (semaphore.granted ++ (pendingOf before ++ visit :: pendingOf after)).Nodup :=
    order ▸ accounted.unique.filter _
  have fresh : visit ∉ semaphore.granted ++ pendingOf before := by
    rw [← List.append_assoc] at once
    exact fun member => List.disjoint_of_nodup_append once member List.mem_cons_self
  exact
    { units := by
        rw [settled, givenOf_append, givenOf_cons]
        rw [split, givenOf_append, givenOf_cons] at units
        exact units
      inOrder :=
        calc semaphore.arrived.filter (fun other => other ∉ semaphore.gaveUp ++ [visit])
            = (semaphore.arrived.filter fun other => other ∉ semaphore.gaveUp).filter
                (fun other => other != visit) := by
              rw [List.filter_filter]
              refine List.filter_congr fun other _ => ?_
              rw [Bool.eq_iff_iff]
              simp [not_or, and_comm]
          _ = (semaphore.granted ++ pendingOf before ++ visit :: pendingOf after).erase visit := by
              rw [order, ← once.erase_eq_filter, List.append_assoc]
          _ = semaphore.granted ++ (pendingOf before ++ pendingOf after) := by
              rw [List.erase_append_right _ fresh, List.erase_cons_head, List.append_assoc]
          _ = semaphore.granted ++ pendingOf (settle visit .cancelled semaphore.waiters) := by
              rw [settled, pendingOf_append, pendingOf_cons, if_neg nofun]
      unique := accounted.unique
      distinct := by
        rw [same]
        exact accounted.distinct
      present := by
        intro other member
        rw [same, ← List.append_assoc] at member
        rcases List.mem_append.mp member with old | new
        · exact accounted.present other old
        · exact List.mem_singleton.mp new ▸ arrived
      served := by
        refine ⟨accounted.served.1, fun waiter member has => ?_⟩
        rw [settled] at member
        rcases List.mem_append.mp member with old | new
        · exact accounted.served.2 waiter (split ▸ List.mem_append_left _ old) has
        · rcases List.mem_cons.mp new with rfl | later
          · exact absurd has Bool.false_ne_true
          · refine accounted.served.2 waiter ?_ has
            exact split ▸ List.mem_append_right _ (List.mem_cons_of_mem _ later) }

/-- A waiter that is cancelled after it was given a unit keeps it until it runs. -/
theorem Accounted.recall (accounted : Accounted capacity semaphore) {visit : Visit}
    (stands : semaphore.stateOf visit = some .woken) :
    Accounted capacity { semaphore with waiters := settle visit .recalled semaphore.waiters } := by
  obtain ⟨before, after, split, settled, -, -⟩ := accounted.split stands
  have same : (settle visit .recalled semaphore.waiters).map Prod.fst =
      semaphore.waiters.map Prod.fst := by
    rw [settled, split]
    simp
  have units := accounted.units
  have order := accounted.inOrder
  exact
    { units := by
        rw [settled, givenOf_append, givenOf_cons]
        rw [split, givenOf_append, givenOf_cons] at units
        exact units
      inOrder := by
        rw [pending, settled, pendingOf_append, pendingOf_cons, if_neg nofun]
        rw [pending, split, pendingOf_append, pendingOf_cons, if_neg nofun] at order
        exact order
      unique := accounted.unique
      distinct := by
        rw [same]
        exact accounted.distinct
      present := by
        rw [same]
        exact accounted.present
      served := by
        refine ⟨accounted.served.1, fun waiter member has => ?_⟩
        rw [settled] at member
        have old := accounted.served.2
        rw [split] at old
        rcases List.mem_append.mp member with first | new
        · exact old waiter (List.mem_append_left _ first) has
        · rcases List.mem_cons.mp new with rfl | later
          · exact old (visit, .woken) (List.mem_append_right _ List.mem_cons_self) rfl
          · exact old waiter (List.mem_append_right _ (List.mem_cons_of_mem _ later)) has }

/-- Cancelling a waiter leaves nobody behind. -/
theorem Watched.settle (watched : Watched semaphore) (accounted : Accounted capacity semaphore)
    {visit : Visit} {old : Wakeup} (stands : semaphore.stateOf visit = some old) (new : Wakeup)
    (keeps : new.given = old.given) (waits : new ≠ .pending) {gaveUp : List Visit} :
    Watched { semaphore with
      waiters := Semaphore.settle visit new semaphore.waiters
      gaveUp } := by
  obtain ⟨before, after, split, settled, -, -⟩ := accounted.split stands
  have given : givenOf (Semaphore.settle visit new semaphore.waiters) =
      givenOf semaphore.waiters := by
    rw [settled, split, givenOf_append, givenOf_append, givenOf_cons, givenOf_cons, keeps]
  intro pends
  change semaphore.value = 0 ∨ 0 < givenOf (Semaphore.settle visit new semaphore.waiters)
  rw [given]
  refine watched fun nobody => pends ?_
  change pendingOf (Semaphore.settle visit new semaphore.waiters) = []
  rw [settled, pendingOf_append, pendingOf_cons, if_neg waits]
  rw [pending, split, pendingOf_append, List.append_eq_nil_iff, pendingOf_cons] at nobody
  split at nobody
  · cases nobody.2
  · exact List.append_eq_nil_iff.mpr nobody

/-! ## Runs -/

/-- **What each event does**, and when it is enabled. -/
theorem step_cases {event : SemaphoreEvent Visit} {next : Semaphore Visit}
    (moved : step semaphore event = some next) :
    (∃ visit, event = .enter visit ∧ visit ∉ semaphore.arrived ∧ next = semaphore.acquire visit) ∨
    (∃ visit, event = .cancel visit ∧ semaphore.stateOf visit = some .pending ∧
      next = { semaphore with
        waiters := settle visit .cancelled semaphore.waiters
        gaveUp := semaphore.gaveUp ++ [visit] }) ∨
    (∃ visit, event = .cancel visit ∧ semaphore.stateOf visit = some .woken ∧
      next = { semaphore with waiters := settle visit .recalled semaphore.waiters }) ∨
    (∃ visit further state, event = .resume visit further ∧
      semaphore.stateOf visit = some state ∧ state ≠ .pending ∧
      next = wakeUp (if state = .cancelled then further else further + 1) { semaphore with
        value := semaphore.value + if state = .recalled then 1 else 0
        waiters := discard visit semaphore.waiters
        inside := if state = .woken then semaphore.inside ++ [visit] else semaphore.inside }) ∨
    ∃ visit, event = .leave visit ∧ visit ∈ semaphore.inside ∧ next = semaphore.release visit := by
  cases event with
  | enter visit =>
      simp only [step, Option.ite_none_left_eq_some, Option.some.injEq] at moved
      exact .inl ⟨visit, rfl, moved.1, moved.2.symm⟩
  | cancel visit =>
      simp only [step] at moved
      split at moved
      · rename_i stands
        exact .inr (.inl ⟨visit, rfl, stands, (Option.some.inj moved).symm⟩)
      · rename_i stands
        exact .inr (.inr (.inl ⟨visit, rfl, stands, (Option.some.inj moved).symm⟩))
      · cases moved
  | resume visit further =>
      refine .inr (.inr (.inr (.inl ?_)))
      simp only [step] at moved
      split at moved
      · rename_i stands
        exact ⟨visit, further, .woken, rfl, stands, nofun, (Option.some.inj moved).symm⟩
      · rename_i stands
        exact ⟨visit, further, .recalled, rfl, stands, nofun, (Option.some.inj moved).symm⟩
      · rename_i stands
        exact ⟨visit, further, .cancelled, rfl, stands, nofun, (Option.some.inj moved).symm⟩
      · cases moved
  | leave visit =>
      simp only [step, Option.ite_none_right_eq_some, Option.some.injEq] at moved
      exact .inr (.inr (.inr (.inr ⟨visit, rfl, moved.1, moved.2.symm⟩)))

/-- Every step keeps the books, -/
theorem Accounted.step (accounted : Accounted capacity semaphore) {event : SemaphoreEvent Visit}
    {next : Semaphore Visit} (moved : Semaphore.step semaphore event = some next) :
    Accounted capacity next := by
  rcases step_cases moved with ⟨visit, -, fresh, rfl⟩ | ⟨visit, -, stands, rfl⟩ |
    ⟨visit, -, stands, rfl⟩ | ⟨visit, further, state, -, stands, runs, rfl⟩ |
    ⟨visit, -, member, rfl⟩
  · exact accounted.acquire fresh
  · exact accounted.cancel stands
  · exact accounted.recall stands
  · exact (accounted.runOn stands runs).wakeUp _
  · exact accounted.release member

/-- and leaves nobody behind. -/
theorem Watched.step (watched : Watched semaphore) (accounted : Accounted capacity semaphore)
    {event : SemaphoreEvent Visit} {next : Semaphore Visit}
    (moved : Semaphore.step semaphore event = some next) : Watched next := by
  rcases step_cases moved with ⟨visit, -, fresh, rfl⟩ | ⟨visit, -, stands, rfl⟩ |
    ⟨visit, -, stands, rfl⟩ | ⟨visit, further, state, -, stands, runs, rfl⟩ |
    ⟨visit, -, member, rfl⟩
  · exact watched.acquire visit
  · exact watched.settle accounted stands .cancelled rfl nofun
  · exact watched.settle accounted stands .recalled rfl nofun
  · by_cases gave : state = .cancelled
    · subst gave
      obtain ⟨pends, given, -, -⟩ := accounted.leaveQueue stands runs
      refine Watched.wakeUp (fun some => ?_) further
      have same : givenOf (discard visit semaphore.waiters) = givenOf semaphore.waiters :=
        given.symm
      change semaphore.value = 0 ∨ 0 < givenOf (discard visit semaphore.waiters)
      rw [same]
      exact watched fun nobody => some (pends.trans nobody)
    · rw [if_neg gave]
      exact watched_wakeUp_succ further _
  · exact watched_wakeUpNext _

/-- The books agree and nobody is left behind, in every state of every run. -/
theorem forall_visits_accounted (capacity : Nat) (events : List (SemaphoreEvent Visit)) :
    ∀ semaphore ∈ step.visits ({ value := capacity } : Semaphore Visit) events,
      Accounted capacity semaphore ∧ Watched semaphore :=
  Machine.forall_visits
    (fun _ _ _ sound moved => ⟨sound.1.step moved, sound.2.step sound.1 moved⟩)
    ⟨accounted_init capacity, watched_init capacity⟩ events

/-- **First come, first served**: of two visits the one that arrived first was given a unit
before the other one was, unless it gave up. -/
theorem Accounted.first_served (accounted : Accounted capacity semaphore) {first second : Visit}
    (earlier : [first, second].Sublist semaphore.arrived) (served : second ∈ semaphore.granted) :
    first ∈ semaphore.gaveUp ∨ first ∈ semaphore.granted := by
  by_cases gave : first ∈ semaphore.gaveUp
  · exact .inl gave
  · refine .inr ?_
    have once : (semaphore.granted ++ semaphore.pending).Nodup :=
      accounted.inOrder ▸ accounted.unique.filter _
    have stays : second ∉ semaphore.gaveUp := by
      have listed : second ∈ semaphore.arrived.filter fun visit => visit ∉ semaphore.gaveUp :=
        accounted.inOrder ▸ List.mem_append_left _ served
      simpa using (List.mem_filter.mp listed).2
    have kept := earlier.filter fun visit => visit ∉ semaphore.gaveUp
    rw [List.filter_eq_self.mpr (by simp [gave, stays]), accounted.inOrder] at kept
    obtain ⟨left, right, split, inGranted, inPending⟩ := List.sublist_append_iff.mp kept
    cases left with
    | nil =>
        obtain rfl : [first, second] = right := split
        exact absurd (inPending.subset (by simp)) (List.disjoint_of_nodup_append once served)
    | cons head rest =>
        obtain ⟨rfl, -⟩ := List.cons.inj split
        exact inGranted.subset List.mem_cons_self

/-- Nothing happens to a visit that has not arrived. -/
theorem Accounted.step_eq_none (accounted : Accounted capacity semaphore)
    {event : SemaphoreEvent Visit} (stays : ∀ visit, event ≠ .enter visit)
    (unknown : event.visit ∉ semaphore.arrived) : Semaphore.step semaphore event = none := by
  have absent : ∀ visit, visit ∉ semaphore.arrived → semaphore.stateOf visit = none := by
    intro visit unknown
    refine List.lookup_eq_none_iff.mpr fun waiter member => ?_
    refine bne_iff_ne.mpr fun same => unknown (accounted.present visit ?_)
    refine List.mem_append_left _ (List.mem_append_left _ ?_)
    exact same ▸ List.mem_map_of_mem member
  cases event with
  | enter visit => exact absurd rfl (stays visit)
  | cancel visit => simp only [Semaphore.step, absent visit unknown]
  | resume visit further => simp only [Semaphore.step, absent visit unknown]
  | leave visit =>
      refine if_neg fun member => unknown (accounted.present visit ?_)
      exact List.mem_append_left _ (List.mem_append_right _ member)

/-! ## Everybody gets in -/

/-- A waiter runs again, or a visit leaves. -/
def Drains : SemaphoreEvent Visit → Prop
  | .resume _ _ | .leave _ => True
  | _ => False

/-- Draining lets nobody arrive or give up, and comes to an end. -/
theorem Accounted.drain (accounted : Accounted capacity semaphore)
    {event : SemaphoreEvent Visit} (drains : Drains event) {next : Semaphore Visit}
    (moved : Semaphore.step semaphore event = some next) :
    next.work < semaphore.work ∧ next.arrived = semaphore.arrived ∧
      next.gaveUp = semaphore.gaveUp := by
  rcases step_cases moved with ⟨visit, rfl, -, -⟩ | ⟨visit, rfl, -, -⟩ | ⟨visit, rfl, -, -⟩ |
    ⟨visit, further, state, -, stands, runs, rfl⟩ | ⟨visit, -, member, rfl⟩
  · exact drains.elim
  · exact drains.elim
  · exact drains.elim
  · obtain ⟨waiters, inside, arrived, gaveUp⟩ :=
      wakeUp_kept (if state = .cancelled then further else further + 1) { semaphore with
        value := semaphore.value + if state = .recalled then 1 else 0
        waiters := discard visit semaphore.waiters
        inside := if state = .woken then semaphore.inside ++ [visit] else semaphore.inside }
    obtain ⟨before, after, split, -, discarded, -⟩ := accounted.split stands
    refine ⟨?_, arrived, gaveUp⟩
    have enters : (if state = .woken then semaphore.inside ++ [visit]
        else semaphore.inside).length ≤ semaphore.inside.length + 1 := by
      split <;> simp
    rw [work_eq waiters inside, work, work, discarded, split, List.length_append,
      List.length_append, List.length_cons]
    change 2 * (before.length + after.length) + List.length (if state = .woken then _ else _) < _
    omega
  · obtain ⟨waiters, inside, arrived, gaveUp⟩ := wakeUpNext_kept { semaphore with
      value := semaphore.value + 1
      inside := semaphore.inside.erase visit }
    refine ⟨?_, arrived, gaveUp⟩
    have positive := List.length_pos_of_mem member
    rw [Semaphore.release, work_eq waiters inside, work, work, List.length_erase_of_mem member]
    change 2 * semaphore.waiters.length + (semaphore.inside.length - 1) < _
    omega

/-- Only who enters arrives. -/
theorem arrived_of_step {event : SemaphoreEvent Visit} {next : Semaphore Visit}
    (moved : Semaphore.step semaphore event = some next) (stays : ∀ visit, event ≠ .enter visit) :
    next.arrived = semaphore.arrived := by
  rcases step_cases moved with ⟨visit, rfl, -, -⟩ | ⟨visit, -, -, rfl⟩ | ⟨visit, -, -, rfl⟩ |
    ⟨visit, further, state, -, -, -, rfl⟩ | ⟨visit, -, -, rfl⟩
  · exact absurd rfl (stays visit)
  · rfl
  · rfl
  · exact (wakeUp_kept _ _).2.2.1
  · exact (wakeUpNext_kept _).2.2.1

/-- **Nobody is left waiting**: if nobody can run on or leave, everybody who arrived and
did not give up has been inside and has left. -/
theorem drained_of_stuck (accounted : Accounted capacity semaphore) (watched : Watched semaphore)
    (positive : 0 < capacity)
    (stuck : ∀ event, Drains event → Semaphore.step semaphore event = none) :
    semaphore.waiters = [] ∧ semaphore.inside = [] ∧ semaphore.value = capacity ∧
      semaphore.granted = semaphore.arrived.filter (fun visit => visit ∉ semaphore.gaveUp) := by
  have empty : semaphore.inside = [] := by
    refine List.eq_nil_iff_forall_not_mem.mpr fun visit member => ?_
    have moves := stuck (.leave visit) trivial
    rw [step, if_pos member] at moves
    cases moves
  have waits : ∀ waiter ∈ semaphore.waiters, waiter.2 = .pending := by
    rintro ⟨visit, state⟩ member
    by_contra runs
    have stands : semaphore.stateOf visit = some state := by
      have distinct := (List.nodup_append'.mp accounted.distinct).1
      obtain ⟨before, after, split⟩ := List.append_of_mem member
      refine List.lookup_eq_some_iff.mpr ⟨before, after, split, fun waiter earlier => ?_⟩
      rw [split, List.map_append, List.map_cons] at distinct
      have apart := List.disjoint_of_nodup_append distinct
      refine bne_iff_ne.mpr fun same => apart (List.mem_map_of_mem earlier) ?_
      exact same ▸ List.mem_cons_self
    have moves := stuck (.resume visit 0) trivial
    cases state with
    | pending => exact runs rfl
    | _ =>
        simp only [step, stands] at moves
        cases moves
  have given : givenOf semaphore.waiters = 0 := by
    refine List.countP_eq_zero.mpr fun waiter member => ?_
    rw [waits waiter member]
    exact Bool.false_ne_true
  have units := accounted.units
  rw [empty, given] at units
  change semaphore.value = capacity at units
  have nobody : semaphore.pending = [] := by
    by_contra pends
    rcases watched pends with none | some <;> omega
  have gone : semaphore.waiters = [] := by
    have all : pendingOf semaphore.waiters = semaphore.waiters.map Prod.fst := by
      rw [pendingOf, List.filter_eq_self.mpr fun waiter member => by simp [waits waiter member]]
    exact List.map_eq_nil_iff.mp (all.symm.trans nobody)
  refine ⟨gone, empty, units, ?_⟩
  rw [accounted.inOrder, nobody, List.append_nil]

/-- **A semaphore that nobody comes to any more empties**: however waiters run on and visits
leave, it takes a bounded number of events, and when none is left to happen everybody who
arrived and did not give up has been inside, in the order of arrival. -/
theorem drains_of_run (positive : 0 < capacity) (accounted : Accounted capacity semaphore)
    (watched : Watched semaphore) {events : List (SemaphoreEvent Visit)}
    (draining : ∀ event ∈ events, Drains event) {last : Semaphore Visit}
    (ran : step.run semaphore events = some last) :
    events.length + last.work ≤ semaphore.work ∧
      ((∀ event, Drains event → Semaphore.step last event = none) →
        last.waiters = [] ∧ last.inside = [] ∧ last.value = capacity ∧
          last.granted = semaphore.arrived.filter (fun visit => visit ∉ semaphore.gaveUp)) := by
  have drained := Machine.measured_of_run
    (fun state event next (kept : (Accounted capacity state ∧ Watched state) ∧
        state.arrived = semaphore.arrived ∧ state.gaveUp = semaphore.gaveUp) drains moved => by
      obtain ⟨⟨accounted, watched⟩, arrived, gaveUp⟩ := kept
      obtain ⟨less, sameArrived, sameGaveUp⟩ := accounted.drain drains moved
      exact ⟨⟨⟨accounted.step moved, watched.step accounted moved⟩, sameArrived.trans arrived,
        sameGaveUp.trans gaveUp⟩, less⟩)
    ⟨⟨accounted, watched⟩, rfl, rfl⟩ draining ran
  obtain ⟨⟨⟨accounted, watched⟩, arrived, gaveUp⟩, bound⟩ := drained
  refine ⟨bound, fun stuck => ?_⟩
  rw [← arrived, ← gaveUp]
  exact drained_of_stuck accounted watched positive stuck

end Semaphore

end Foundations
