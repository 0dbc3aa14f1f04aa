import Kenjutsu.Mirror.Fetching
import Mathlib.Algebra.BigOperators.Group.List.Basic
import Mathlib.Algebra.Group.Action.Defs
import Mathlib.Algebra.GroupWithZero.Nat
import Mathlib.Algebra.Order.BigOperators.Group.List
import Mathlib.Algebra.Order.Group.Nat

/-!
# Every call of fetch returns

A caller that cannot go on waits for the owner of the guard or of a lock, and an owner can always
go on. So the callers are never all blocked. Each step brings one of them nearer to its return,
which is at most nine steps away, and on its way it runs `fetch_mirror` once: the lock that
`_repo_fetch_lock` reads is always there.
-/

set_option autoImplicit false

namespace Kenjutsu.Mirror

open Foundations

/-- How many steps a caller is away from its return, at most. -/
def Stage.remaining : Stage → Nat
  | .calling => 9
  | .checking => 8
  | .creating => 7
  | .reading => 6
  | .leaving _ => 5
  | .asking _ => 4
  | .waiting _ => 3
  | .fetching _ => 2
  | .releasing _ => 1
  | .returned => 0

theorem Stage.remaining_le (stage : Stage) : stage.remaining ≤ 9 := by
  cases stage <;> simp [Stage.remaining]

/-- The stages from the call of `fetch_mirror` on. -/
def Stage.Begun : Stage → Prop
  | .fetching _ | .releasing _ | .returned => True
  | _ => False

instance : (stage : Stage) → Decidable stage.Begun
  | .fetching _ | .releasing _ | .returned => .isTrue trivial
  | .calling | .checking | .creating | .reading | .leaving _ | .asking _ | .waiting _ =>
      .isFalse id

namespace FetchPool

variable {pool next : FetchPool} {index : Nat} {caller : Caller}

/-- The steps that are left to all callers, at most. -/
def work (pool : FetchPool) : Nat := (pool.callers.map fun caller => caller.stage.remaining).sum

theorem work_le (pool : FetchPool) : pool.work ≤ 9 * pool.callers.length := by
  have bound : ∀ steps ∈ pool.callers.map fun caller => caller.stage.remaining, steps ≤ 9 := by
    intro steps member
    obtain ⟨caller, -, rfl⟩ := List.mem_map.mp member
    exact caller.stage.remaining_le
  have total := List.sum_le_card_nsmul _ 9 bound
  rw [List.length_map, smul_eq_mul, Nat.mul_comm] at total
  exact total

/-- The steps that are left to the caller at an index, at most. -/
def left (pool : FetchPool) (index : Nat) : Nat :=
  (pool.callers[index]?.map fun caller => caller.stage.remaining).getD 0

theorem left_le (pool : FetchPool) (index : Nat) : pool.left index ≤ 9 := by
  unfold left
  cases pool.callers[index]? with
  | none => exact Nat.zero_le 9
  | some caller => exact caller.stage.remaining_le

/-! ## Each step counts -/

/-- A move replaces its caller by one of the same repository that is nearer to its return. -/
theorem Moved.replaces (moved : Moved pool index caller next) :
    ∃ after : Caller, next.callers = pool.callers.set index after ∧
      after.repoId = caller.repoId ∧ after.stage.remaining < caller.stage.remaining := by
  cases moved with
  | taking lock stage free =>
      refine ⟨_, rfl, rfl, ?_⟩
      rcases stage with stage | stage <;> simp [stage, Stage.remaining]
  | _ => exact ⟨_, rfl, rfl, by simp_all [Stage.remaining]⟩

/-- So there is less left to do. -/
theorem Moved.work_lt (found : pool.callers[index]? = some caller)
    (moved : Moved pool index caller next) : next.work < pool.work := by
  obtain ⟨after, callers, -, nearer⟩ := moved.replaces
  obtain ⟨here, rfl⟩ := List.getElem?_eq_some_iff.mp found
  have before := List.sum_take_add_sum_drop (pool.callers.map fun caller => caller.stage.remaining)
    index
  have split := List.drop_eq_getElem_cons here
  rw [← List.map_drop, split, List.map_cons, List.sum_cons] at before
  rw [work, work, callers, List.map_set, List.sum_set, List.length_map, if_pos here,
    ← List.map_drop]
  omega

/-- For its caller there is less left to do, and for the others as much as before. -/
theorem Moved.left_add_le (found : pool.callers[index]? = some caller)
    (moved : Moved pool index caller next) (other : Nat) :
    next.left other + (if index = other then 1 else 0) ≤ pool.left other := by
  obtain ⟨after, callers, -, nearer⟩ := moved.replaces
  have here := (List.getElem?_eq_some_iff.mp found).1
  unfold left
  rw [callers, List.getElem?_set]
  by_cases same : index = other
  · subst same
    rw [if_pos rfl, if_pos rfl, if_pos here, found]
    exact nearer
  · rw [if_neg same, if_neg same]
    exact Nat.le_refl _

/-! ## Nobody is stuck -/

/-- The owner of the guard can go on. -/
theorem isSome_advance_of_guarded (guarded : caller.stage.Guarded) :
    (pool.advance index caller).isSome := by
  unfold advance
  split <;> simp_all [Stage.Guarded]

/-- So can the owner of a lock. -/
theorem isSome_advance_of_owns {lock : Nat} (owns : caller.stage.Owns lock) :
    (pool.advance index caller).isSome := by
  unfold advance
  split <;> simp_all [Stage.Owns]

/-- Who is waited for can go on. -/
theorem Sound.isSome_step_of_waitsFor (sound : pool.Sound) {other : Nat}
    (waits : pool.WaitsFor index other) : (step pool (.run other)).isSome := by
  obtain ⟨caller, -, ⟨-, held⟩ | ⟨lock, -, owned⟩⟩ := waits
  · have found := List.getElem?_eq_getElem (sound.guard other held)
    rw [step, found]
    exact isSome_advance_of_guarded ((sound.fits other _ found).guard.mpr held)
  · have found := List.getElem?_eq_getElem (sound.owner lock other owned)
    rw [step, found]
    exact isSome_advance_of_owns (((sound.fits other _ found).owner lock).mpr owned)

/-- Where nobody can go on, everybody has returned. -/
theorem Sound.returned_of_stuck (sound : pool.Sound)
    (stuck : ∀ index, step pool (.run index) = none) :
    ∀ caller ∈ pool.callers, caller.stage = .returned := by
  intro caller member
  by_contra working
  obtain ⟨index, found⟩ := List.mem_iff_getElem?.mp member
  obtain ⟨other, waits⟩ := exists_waitsFor found working (stuck index)
  have goesOn := sound.isSome_step_of_waitsFor waits
  rw [stuck other] at goesOn
  cases goesOn

/-! ## Each caller fetches once -/

/-- The caller has run `fetch_mirror` exactly if it has come to it, and it finds a lock. -/
structure Counted (pool : FetchPool) (caller : Caller) : Prop where
  fetches : caller.fetches = if caller.stage.Begun then 1 else 0
  found : caller.stage = .reading → pool.lockMap.get caller.repoId ≠ none
  lock : caller.stage ≠ .leaving none

/-- No lock is dropped from the map. -/
theorem Moved.get_ne_none (moved : Moved pool index caller next) {repoId : String}
    (found : pool.lockMap.get repoId ≠ none) : next.lockMap.get repoId ≠ none := by
  cases moved with
  | creating stage =>
      change (pool.lockMap.set caller.repoId pool.created).get repoId ≠ none
      rw [Dict.get_set]
      split
      · exact Option.some_ne_none _
      · exact found
  | _ => exact found

/-- The caller that moves stays counted. -/
theorem Moved.counted (moved : Moved pool index caller next) (counted : pool.Counted caller) :
    ∃ after, next.callers = pool.callers.set index after ∧ next.Counted after := by
  obtain ⟨fetches, found, lock⟩ := counted
  cases moved with
  | creating stage =>
      refine ⟨_, rfl, by simp_all [Stage.Begun], ?_, nofun⟩
      intro
      change (pool.lockMap.set caller.repoId pool.created).get caller.repoId ≠ none
      rw [Dict.get_set, if_pos rfl]
      exact Option.some_ne_none _
  | present stage present => exact ⟨_, rfl, by simp_all [Stage.Begun], fun _ => present, nofun⟩
  | reading stage =>
      refine ⟨_, rfl, by simp_all [Stage.Begun], nofun, ?_⟩
      intro nothing
      exact found stage (Stage.leaving.inj nothing)
  | failing stage => exact absurd stage lock
  | taking free stage =>
      refine ⟨_, rfl, ?_, nofun, nofun⟩
      rcases stage with stage | stage <;> simp_all [Stage.Begun]
  | _ => exact ⟨_, rfl, by simp_all [Stage.Begun], by simp_all, by simp_all⟩

/-- **Every caller of every reachable pool is counted.** -/
theorem counted_of_visited (events : List FetchEvent) :
    ∀ pool ∈ Machine.visits step {} events, ∀ caller ∈ pool.callers, pool.Counted caller := by
  refine Machine.forall_visits (fun pool event next counted stepped => ?_) nofun events
  rcases step_cases stepped with ⟨repoId, -, rfl⟩ | ⟨index, mover, -, found, moved⟩
  · refine List.forall_mem_append.mpr ⟨fun caller member => ?_, List.forall_mem_singleton.mpr ?_⟩
    · obtain ⟨fetches, found, lock⟩ := counted caller member
      exact ⟨fetches, found, lock⟩
    · exact ⟨rfl, nofun, nofun⟩
  · obtain ⟨after, callers, countedAfter⟩ :=
      moved.counted (counted mover (List.mem_of_getElem? found))
    intro caller member
    rw [callers] at member
    rcases List.mem_or_eq_of_mem_set member with old | rfl
    · obtain ⟨fetches, found, lock⟩ := counted caller old
      exact ⟨fetches, fun reading => moved.get_ne_none (found reading), lock⟩
    · exact countedAfter

/-! ## Runs -/

/-- A caller that goes on leaves a reachable pool with the same callers, and less to do. -/
theorem Sound.goOn (sound : pool.Sound) (stepped : step pool (.run index) = some next) :
    next.Sound ∧ next.callers.map Caller.repoId = pool.callers.map Caller.repoId ∧
      next.work < pool.work ∧
        ∀ other, next.left other + (if index = other then 1 else 0) ≤ pool.left other := by
  rcases step_cases stepped with ⟨repoId, called, -⟩ | ⟨index, caller, same, found, moved⟩
  · cases called
  · cases same
    refine ⟨sound.moved found moved, ?_, moved.work_lt found, moved.left_add_le found⟩
    obtain ⟨after, callers, repoId, -⟩ := moved.replaces
    obtain ⟨here, rfl⟩ := List.getElem?_eq_some_iff.mp found
    have member : index < (pool.callers.map Caller.repoId).length := by
      rwa [List.length_map]
    rw [callers, List.map_set, repoId, ← List.getElem_map Caller.repoId (h := member),
      List.set_getElem_self]

/-- No caller takes more than nine turns. -/
theorem Sound.count_le (sound : pool.Sound) {turns : List Nat} {last : FetchPool}
    (ran : Machine.run step pool (turns.map FetchEvent.run) = some last) (index : Nat) :
    turns.count index ≤ 9 := by
  have counted := (Machine.counted_of_run (fun event => decide (event = .run index))
    (fun state event next (held : state.Sound) (turn : ∃ other, event = .run other) stepped => by
      obtain ⟨other, rfl⟩ := turn
      obtain ⟨after, -, -, left⟩ := held.goOn stepped
      refine ⟨after, ?_⟩
      simpa only [FetchEvent.run.injEq, decide_eq_true_eq] using left index)
    sound (List.forall_mem_map.mpr fun other _ => ⟨other, rfl⟩) ran).2
  have same : (turns.map FetchEvent.run).countP (fun event => decide (event = .run index)) =
      turns.count index := by
    rw [List.countP_map, List.count]
    refine List.countP_congr fun turn _ => ?_
    simp
  have bound := pool.left_le index
  omega

/-- **Every call of `fetch` returns**: whatever callers have done, from there on each of them has
at most nine steps to go, and all together nine for each, none of them is lost, and where nobody
can go on everybody has returned, each after one run of `fetch_mirror`. -/
theorem fetches_return {events : List FetchEvent} {turns : List Nat} {last : FetchPool}
    (reached : Machine.run step {} events = some pool)
    (ran : Machine.run step pool (turns.map FetchEvent.run) = some last) :
    (∀ index, turns.count index ≤ 9) ∧ turns.length ≤ 9 * pool.callers.length ∧
      last.callers.map Caller.repoId = pool.callers.map Caller.repoId ∧
        (∀ caller ∈ last.callers, caller.stage = .returned → caller.fetches = 1) ∧
          ((∀ index, step last (.run index) = none) →
            ∀ caller ∈ last.callers, caller.stage = .returned) := by
  have visited : pool ∈ Machine.visits step {} events :=
    (Machine.mem_visits_iff _ _ _ _).mpr ⟨events, [], (List.append_nil events).symm, reached⟩
  have atEnd : last ∈ Machine.visits step {} (events ++ turns.map FetchEvent.run) := by
    refine (Machine.mem_visits_iff _ _ _ _).mpr ⟨_, [], (List.append_nil _).symm, ?_⟩
    rw [Machine.run_append, reached, Option.bind_some, ran]
  have start := sound_of_visited events pool visited
  obtain ⟨⟨sound, callers⟩, bound⟩ := Machine.measured_of_run
    (fun state event next (kept : state.Sound ∧
        state.callers.map Caller.repoId = pool.callers.map Caller.repoId)
        (turn : ∃ index, event = .run index) stepped => by
      obtain ⟨index, rfl⟩ := turn
      obtain ⟨sound, same, less, -⟩ := kept.1.goOn stepped
      exact ⟨⟨sound, same.trans kept.2⟩, less⟩)
    ⟨start, rfl⟩ (List.forall_mem_map.mpr fun index _ => ⟨index, rfl⟩) ran
  rw [List.length_map] at bound
  refine ⟨start.count_le ran, (Nat.le_of_add_right_le bound).trans pool.work_le, callers, ?_,
    sound.returned_of_stuck⟩
  intro caller member returned
  have counted := (counted_of_visited _ last atEnd caller member).fetches
  rwa [returned] at counted

/-- Two callers of one repository come to its lock, and the first one takes it. -/
def atTheLock : List FetchEvent :=
  [.call "org/repo", .call "org/repo"] ++ [0, 0, 0, 0, 0, 0, 1, 1, 1, 1].map FetchEvent.run

/-- The second one asks while the lock is held, so it waits for the first one, and fetches again
after it. -/
def contendedTurns : List Nat := [1, 0, 0, 1, 1, 1]

theorem contended_returns :
    ∃ pool last, Machine.run step {} atTheLock = some pool ∧
      Machine.run step pool (contendedTurns.map FetchEvent.run) = some last ∧
        (∀ index, contendedTurns.count index ≤ 9) ∧
          last.callers.map Caller.repoId = pool.callers.map Caller.repoId ∧
            (∀ caller ∈ last.callers, caller.stage = .returned → caller.fetches = 1) ∧
              ((∀ index, step last (.run index) = none) →
                ∀ caller ∈ last.callers, caller.stage = .returned) := by
  obtain ⟨pool, reached⟩ : ∃ pool, Machine.run step {} atTheLock = some pool := ⟨_, rfl⟩
  obtain ⟨last, ran⟩ : ∃ last,
      Machine.run step {} (atTheLock ++ contendedTurns.map FetchEvent.run) = some last := ⟨_, rfl⟩
  rw [Machine.run_append, reached, Option.bind_some] at ran
  obtain ⟨turns, -, callers, fetches, returned⟩ := fetches_return reached ran
  exact ⟨pool, last, reached, ran, turns, callers, fetches, returned⟩

end FetchPool

end Kenjutsu.Mirror
