import Kenjutsu.Foundations.Dicts
import Kenjutsu.Foundations.Runs
import Mathlib.Logic.Function.Basic

/-!
# Fetches of one mirror by many callers

`MirrorHandle.fetch` takes the lock of its repository, which `_repo_fetch_lock` looks up or
creates under a guard, and runs `fetch_mirror` while it holds it. Any number of callers run in
any interleaving; taking and releasing a lock is one step.

No two fetches of a repository run at once, and no caller waits for a running fetch of another
one. But a caller that has waited for the lock then runs a fetch of its own, so the promise of
the docstring, that it returns at once, is kept in exactly the runs in which nobody asks for a
lock while it is held.
-/

set_option autoImplicit false

namespace Kenjutsu.Mirror

open Foundations

/-- Where a caller of `fetch` is. -/
inductive Stage where
  /-- Before it takes the guard. -/
  | calling
  /-- At `if repo_id not in _fetch_lock_map`. -/
  | checking
  /-- At `_fetch_lock_map[repo_id] = threading.Lock()`. -/
  | creating
  /-- At `return _fetch_lock_map[repo_id]`. -/
  | reading
  /-- Before it releases the guard, with the lock it returns, or with a `KeyError`. -/
  | leaving (lock : Option Nat)
  /-- Before it takes the lock of its repository. -/
  | asking (lock : Nat)
  /-- Blocked, as it found the lock taken. -/
  | waiting (lock : Nat)
  /-- In `fetch_mirror`. -/
  | fetching (lock : Nat)
  /-- After `fetch_mirror`, before it releases the lock. -/
  | releasing (lock : Nat)
  | returned
deriving DecidableEq, Repr

/-- The stages from taking the guard to releasing it. -/
def Stage.Guarded : Stage → Prop
  | .checking | .creating | .reading | .leaving _ => True
  | _ => False

/-- The stages from taking a lock to releasing it. -/
def Stage.Owns (lock : Nat) : Stage → Prop
  | .fetching own | .releasing own => own = lock
  | _ => False

/-- The stages that know the lock of the repository. -/
def Stage.Knows (lock : Nat) : Stage → Prop
  | .leaving found => found = some lock
  | .asking own | .waiting own | .fetching own | .releasing own => own = lock
  | _ => False

/-- The lock that is about to be asked for. -/
def Stage.asked? : Stage → Option Nat
  | .asking lock => some lock
  | _ => none

/-- A caller of `fetch`, with the caller that held the lock when it was blocked, and how often
it has run `fetch_mirror` itself. -/
structure Caller where
  repoId : String
  stage : Stage := .calling
  blockedBy : Option Nat := none
  fetches : Nat := 0
deriving DecidableEq, Repr

/-- The callers, and the locks by their owners. -/
structure FetchPool where
  /-- `_fetch_lock_map_guard`. -/
  guard : Option Nat := none
  /-- `_fetch_lock_map`. -/
  lockMap : Dict String Nat := ∅
  created : Nat := 0
  owners : Nat → Option Nat := fun _ => none
  callers : List Caller := []

/-- A caller starts, or one runs its next step. -/
inductive FetchEvent where
  | call (repoId : String)
  | run (index : Nat)
deriving DecidableEq, Repr

namespace FetchPool

/-- The caller goes on to a stage. -/
def goTo (pool : FetchPool) (index : Nat) (caller : Caller) (stage : Stage) : FetchPool :=
  { pool with callers := pool.callers.set index { caller with stage } }

/-- The caller takes the lock and enters `fetch_mirror`. -/
def take (pool : FetchPool) (index : Nat) (caller : Caller) (lock : Nat) : FetchPool :=
  { pool with
    owners := Function.update pool.owners lock (some index)
    callers := pool.callers.set index
      { caller with stage := .fetching lock, fetches := caller.fetches + 1 } }

/-- The next step of a caller, unless it is blocked or has returned. -/
def advance (pool : FetchPool) (index : Nat) (caller : Caller) : Option FetchPool :=
  match caller.stage with
  | .calling =>
      if pool.guard = none then some { pool.goTo index caller .checking with guard := some index }
      else none
  | .checking =>
      some (pool.goTo index caller
        (if pool.lockMap.get caller.repoId = none then .creating else .reading))
  | .creating =>
      some { pool.goTo index caller .reading with
        lockMap := pool.lockMap.set caller.repoId pool.created
        created := pool.created + 1 }
  | .reading => some (pool.goTo index caller (.leaving (pool.lockMap.get caller.repoId)))
  | .leaving none => some { pool.goTo index caller .returned with guard := none }
  | .leaving (some lock) => some { pool.goTo index caller (.asking lock) with guard := none }
  | .asking lock =>
      match pool.owners lock with
      | none => some (pool.take index caller lock)
      | some owner =>
          some (pool.goTo index { caller with blockedBy := some owner } (.waiting lock))
  | .waiting lock => if pool.owners lock = none then some (pool.take index caller lock) else none
  | .fetching lock => some (pool.goTo index caller (.releasing lock))
  | .releasing lock =>
      some { pool.goTo index caller .returned with
        owners := Function.update pool.owners lock none }
  | .returned => none

/-- One event. -/
def step : Machine FetchPool FetchEvent
  | pool, .call repoId => some { pool with callers := pool.callers ++ [{ repoId }] }
  | pool, .run index =>
      match pool.callers[index]? with
      | none => none
      | some caller => pool.advance index caller

/-! ## What is promised -/

/-- The caller is in `fetch_mirror`. -/
def Fetches (pool : FetchPool) (index : Nat) (repoId : String) : Prop :=
  ∃ caller, pool.callers[index]? = some caller ∧ caller.repoId = repoId ∧
    ∃ lock, caller.stage = .fetching lock

/-- A caller waits until another releases the guard or a lock. -/
def WaitsFor (pool : FetchPool) (index other : Nat) : Prop :=
  ∃ caller, pool.callers[index]? = some caller ∧
    (caller.stage = .calling ∧ pool.guard = some other ∨
      ∃ lock, caller.stage = .waiting lock ∧ pool.owners lock = some other)

/-- The fetches are serialized, and do not wait for those of other repositories. -/
structure Serial (pool : FetchPool) : Prop where
  /-- At most one fetch of a repository runs. -/
  exclusive : ∀ repoId index other, pool.Fetches index repoId → pool.Fetches other repoId →
    index = other
  /-- Who cannot go on waits for somebody, -/
  stuck : ∀ (index : Nat) (caller : Caller), pool.callers[index]? = some caller →
    caller.stage ≠ .returned → step pool (.run index) = none → ∃ other, pool.WaitsFor index other
  /-- and not for a running fetch of another repository. -/
  independent : ∀ (index : Nat) (caller : Caller) (other : Nat) (repoId : String),
    pool.callers[index]? = some caller → pool.WaitsFor index other →
      pool.Fetches other repoId → repoId = caller.repoId

/-- The fetches are serialized and coalesced. -/
structure Serialized (pool : FetchPool) : Prop extends Serial pool where
  /-- Who found the lock held and was blocked runs no fetch of its own, and returns after that of
  the holder. -/
  coalesced : ∀ (index : Nat) (caller : Caller) (other : Nat),
    pool.callers[index]? = some caller → caller.blockedBy = some other →
      caller.fetches = 0 ∧ (caller.stage = .returned → ¬ pool.Fetches other caller.repoId)

/-- Nobody asks for a lock while it is held. -/
def Uncontended (pool : FetchPool) : FetchEvent → Prop
  | .call _ => True
  | .run index => ∀ caller ∈ pool.callers[index]?, ∀ lock ∈ caller.stage.asked?,
      pool.owners lock = none

instance (pool : FetchPool) : (event : FetchEvent) → Decidable (pool.Uncontended event)
  | .call _ => .isTrue trivial
  | .run _ => inferInstanceAs (Decidable (∀ caller ∈ pool.callers[_]?, _))

/-! ## What one step can do -/

/-- The moves of a caller. -/
inductive Moved (pool : FetchPool) (index : Nat) (caller : Caller) : FetchPool → Prop where
  | calling (stage : caller.stage = .calling) (free : pool.guard = none) :
      Moved pool index caller { pool.goTo index caller .checking with guard := some index }
  | missing (stage : caller.stage = .checking) (absent : pool.lockMap.get caller.repoId = none) :
      Moved pool index caller (pool.goTo index caller .creating)
  | present (stage : caller.stage = .checking) (found : pool.lockMap.get caller.repoId ≠ none) :
      Moved pool index caller (pool.goTo index caller .reading)
  | creating (stage : caller.stage = .creating) :
      Moved pool index caller { pool.goTo index caller .reading with
        lockMap := pool.lockMap.set caller.repoId pool.created
        created := pool.created + 1 }
  | reading (stage : caller.stage = .reading) :
      Moved pool index caller
        (pool.goTo index caller (.leaving (pool.lockMap.get caller.repoId)))
  | failing (stage : caller.stage = .leaving none) :
      Moved pool index caller { pool.goTo index caller .returned with guard := none }
  | leaving (lock : Nat) (stage : caller.stage = .leaving (some lock)) :
      Moved pool index caller { pool.goTo index caller (.asking lock) with guard := none }
  | blocked (lock owner : Nat) (stage : caller.stage = .asking lock)
      (owned : pool.owners lock = some owner) :
      Moved pool index caller
        (pool.goTo index { caller with blockedBy := some owner } (.waiting lock))
  | taking (lock : Nat) (stage : caller.stage = .asking lock ∨ caller.stage = .waiting lock)
      (free : pool.owners lock = none) : Moved pool index caller (pool.take index caller lock)
  | fetched (lock : Nat) (stage : caller.stage = .fetching lock) :
      Moved pool index caller (pool.goTo index caller (.releasing lock))
  | releasing (lock : Nat) (stage : caller.stage = .releasing lock) :
      Moved pool index caller { pool.goTo index caller .returned with
        owners := Function.update pool.owners lock none }

variable {pool next : FetchPool} {index : Nat} {caller : Caller}

/-- **A step of a caller** is one of the moves. -/
theorem moved_of_advance (advanced : pool.advance index caller = some next) :
    Moved pool index caller next := by
  unfold advance at advanced
  split at advanced
  next stage =>
      split at advanced
      · obtain rfl := Option.some.inj advanced
        exact .calling stage (by assumption)
      · cases advanced
  next stage =>
      obtain rfl := Option.some.inj advanced
      split
      · exact .missing stage (by assumption)
      · exact .present stage (by assumption)
  next stage =>
      obtain rfl := Option.some.inj advanced
      exact .creating stage
  next stage =>
      obtain rfl := Option.some.inj advanced
      exact .reading stage
  next stage =>
      obtain rfl := Option.some.inj advanced
      exact .failing stage
  next lock stage =>
      obtain rfl := Option.some.inj advanced
      exact .leaving lock stage
  next lock stage =>
      split at advanced
      · obtain rfl := Option.some.inj advanced
        exact .taking lock (.inl stage) (by assumption)
      · rename_i owner owned
        obtain rfl := Option.some.inj advanced
        exact .blocked lock owner stage owned
  next lock stage =>
      split at advanced
      · obtain rfl := Option.some.inj advanced
        exact .taking lock (.inr stage) (by assumption)
      · cases advanced
  next lock stage =>
      obtain rfl := Option.some.inj advanced
      exact .fetched lock stage
  next lock stage =>
      obtain rfl := Option.some.inj advanced
      exact .releasing lock stage
  next stage => cases advanced

/-- **An event** is a call or a move of a caller. -/
theorem step_cases {event : FetchEvent} (stepped : step pool event = some next) :
    (∃ repoId, event = .call repoId ∧ next = { pool with callers := pool.callers ++ [{ repoId }] }) ∨
      ∃ index caller, event = .run index ∧ pool.callers[index]? = some caller ∧
        Moved pool index caller next := by
  cases event with
  | call repoId => exact .inl ⟨repoId, rfl, (Option.some.inj stepped).symm⟩
  | run index =>
      simp only [step] at stepped
      split at stepped
      · cases stepped
      · rename_i caller found
        exact .inr ⟨index, caller, rfl, found, moved_of_advance stepped⟩

/-! ## The invariant -/

/-- A caller is where the locks say it is. -/
structure Fits (pool : FetchPool) (index : Nat) (caller : Caller) : Prop where
  guard : caller.stage.Guarded ↔ pool.guard = some index
  owner : ∀ lock, caller.stage.Owns lock ↔ pool.owners lock = some index
  absent : caller.stage = .creating → pool.lockMap.get caller.repoId = none
  knows : ∀ lock, caller.stage.Knows lock → pool.lockMap.get caller.repoId = some lock

/-- Every caller fits, every owner is a caller, and no two repositories share a lock. -/
structure Sound (pool : FetchPool) : Prop where
  fits : ∀ (index : Nat) (caller : Caller), pool.callers[index]? = some caller →
    pool.Fits index caller
  guard : ∀ index, pool.guard = some index → index < pool.callers.length
  owner : ∀ lock index, pool.owners lock = some index → index < pool.callers.length
  made : ∀ repoId lock, pool.lockMap.get repoId = some lock → lock < pool.created
  apart : ∀ repoId other lock, pool.lockMap.get repoId = some lock →
    pool.lockMap.get other = some lock → repoId = other

/-- A caller fits another pool whose locks are the same for it. -/
theorem Fits.frame {other : FetchPool} (fits : pool.Fits index caller)
    (guard : other.guard = some index ↔ pool.guard = some index)
    (owner : ∀ lock, other.owners lock = some index ↔ pool.owners lock = some index)
    (absent : caller.stage = .creating → other.lockMap.get caller.repoId = none)
    (knows : ∀ lock, pool.lockMap.get caller.repoId = some lock →
      other.lockMap.get caller.repoId = some lock) : other.Fits index caller where
  guard := fits.guard.trans guard.symm
  owner lock := (fits.owner lock).trans (owner lock).symm
  absent := absent
  knows lock known := knows lock (fits.knows lock known)

/-- A move of one caller is sound if the caller fits after it, the locks that change are its
own, and the table of locks stays. -/
theorem Sound.move {moved : Caller} (sound : pool.Sound)
    (here : index < pool.callers.length)
    (callers : next.callers = pool.callers.set index moved)
    (fits : next.Fits index moved)
    (guard : ∀ other, other ≠ index → (next.guard = some other ↔ pool.guard = some other))
    (owner : ∀ lock other, other ≠ index →
      (next.owners lock = some other ↔ pool.owners lock = some other))
    (lockMap : next.lockMap = pool.lockMap) (created : next.created = pool.created) :
    next.Sound where
  fits := by
    intro other caller found
    rw [callers, List.getElem?_set] at found
    by_cases same : index = other
    · subst same
      rw [if_pos rfl, if_pos here] at found
      obtain rfl := Option.some.inj found
      exact fits
    · rw [if_neg same] at found
      have fitted := sound.fits other caller found
      exact fitted.frame (guard other (Ne.symm same)) (fun lock => owner lock other (Ne.symm same))
        (fun creating => lockMap ▸ fitted.absent creating) fun lock known => lockMap ▸ known
  guard other held := by
    rw [callers, List.length_set]
    by_cases same : other = index
    · exact same ▸ here
    · exact sound.guard other ((guard other same).mp held)
  owner lock other held := by
    rw [callers, List.length_set]
    by_cases same : other = index
    · exact same ▸ here
    · exact sound.owner lock other ((owner lock other same).mp held)
  made := by
    rw [lockMap, created]
    exact sound.made
  apart := by
    rw [lockMap]
    exact sound.apart

/-- Whoever holds the guard is alone with it. -/
theorem Sound.guard_unique (sound : pool.Sound) {other : Nat} {rival : Caller}
    (found : pool.callers[index]? = some caller) (foundRival : pool.callers[other]? = some rival)
    (guarded : caller.stage.Guarded) (guardedRival : rival.stage.Guarded) : index = other := by
  have holds := (sound.fits index caller found).guard.mp guarded
  have holdsRival := (sound.fits other rival foundRival).guard.mp guardedRival
  exact Option.some.inj (holds.symm.trans holdsRival)

/-- A new lock is stored for a repository that has none. -/
theorem Sound.store (sound : pool.Sound) (found : pool.callers[index]? = some caller)
    (stage : caller.stage = .creating) :
    Sound { pool.goTo index caller .reading with
      lockMap := pool.lockMap.set caller.repoId pool.created
      created := pool.created + 1 } := by
  obtain ⟨guard, owner, absent, -⟩ := sound.fits index caller found
  have nothing := absent stage
  have here : index < pool.callers.length := (List.getElem?_eq_some_iff.mp found).1
  have callersLength : (pool.goTo index caller .reading).callers.length = pool.callers.length :=
    List.length_set
  have guarded : caller.stage.Guarded := by
    rw [stage]
    trivial
  refine ⟨?_, ?_, ?_, ?_, ?_⟩
  · intro other rival foundRival
    change (pool.callers.set index { caller with stage := .reading })[other]? = some rival
      at foundRival
    rw [List.getElem?_set] at foundRival
    by_cases same : index = other
    · subst same
      rw [if_pos rfl, if_pos here] at foundRival
      obtain rfl := Option.some.inj foundRival
      rw [stage] at guard owner
      exact ⟨guard, owner, nofun, nofun⟩
    · rw [if_neg same] at foundRival
      refine (sound.fits other rival foundRival).frame .rfl (fun _ => .rfl) ?_ ?_
      · intro creating
        refine absurd (sound.guard_unique found foundRival guarded ?_) same
        rw [creating]
        trivial
      · intro lock known
        rw [Dict.get_set, if_neg, known]
        intro repoId
        rw [repoId, nothing] at known
        cases known
  · exact fun other held => callersLength ▸ sound.guard other held
  · exact fun lock other held => callersLength ▸ sound.owner lock other held
  · intro repoId lock known
    rw [Dict.get_set] at known
    split at known
    · obtain rfl := Option.some.inj known
      exact Nat.lt_succ_self _
    · exact Nat.lt_succ_of_lt (sound.made repoId lock known)
  · intro repoId other lock known knownOther
    rw [Dict.get_set] at known knownOther
    split at known <;> split at knownOther
    · rename_i first second
      exact first.trans second.symm
    · obtain rfl := Option.some.inj known
      exact absurd (sound.made other _ knownOther) (Nat.lt_irrefl _)
    · obtain rfl := Option.some.inj knownOther
      exact absurd (sound.made repoId _ known) (Nat.lt_irrefl _)
    · exact sound.apart repoId other lock known knownOther

/-- A caller goes on and touches no lock. -/
theorem Sound.goTo (sound : pool.Sound) (found : pool.callers[index]? = some caller)
    {moved : Caller} {stage : Stage}
    (fits : (pool.goTo index moved stage).Fits index { moved with stage }) :
    (pool.goTo index moved stage).Sound :=
  sound.move (List.getElem?_eq_some_iff.mp found).1 rfl fits (fun _ _ => .rfl) (fun _ _ _ => .rfl)
    rfl rfl

/-- A caller takes the guard, or releases it: nobody else has it before or after. -/
theorem Sound.goToGuard (sound : pool.Sound) (found : pool.callers[index]? = some caller)
    {stage : Stage} {guard : Option Nat} (own : ∀ other ∈ pool.guard, other = index)
    (own' : ∀ other ∈ guard, other = index)
    (fits : Fits { pool.goTo index caller stage with guard } index { caller with stage }) :
    Sound { pool.goTo index caller stage with guard } := by
  refine sound.move (List.getElem?_eq_some_iff.mp found).1 rfl fits ?_ (fun _ _ _ => .rfl) rfl rfl
  intro other differs
  exact iff_of_false (fun held => differs (own' other held)) fun held => differs (own other held)

/-- The owners of locks after one lock was taken or released: nobody else has it before or
after. -/
theorem update_owners_iff {owners : Nat → Option Nat} {lock : Nat} {owner : Option Nat}
    (own : ∀ other ∈ owners lock, other = index) (own' : ∀ other ∈ owner, other = index)
    (asked : Nat) {other : Nat} (differs : other ≠ index) :
    Function.update owners lock owner asked = some other ↔ owners asked = some other := by
  by_cases same : asked = lock
  · rw [same, Function.update_self]
    exact iff_of_false (fun held => differs (own' other held)) fun held => differs (own other held)
  · rw [Function.update_of_ne same]

/-- Taking a lock that is free is sound. -/
theorem Sound.take (sound : pool.Sound) (found : pool.callers[index]? = some caller) {lock : Nat}
    (stage : caller.stage = .asking lock ∨ caller.stage = .waiting lock)
    (free : pool.owners lock = none) : (pool.take index caller lock).Sound := by
  obtain ⟨guard, owner, -, knows⟩ := sound.fits index caller found
  have unguarded : ¬ pool.guard = some index := by
    rcases stage with stage | stage <;> rw [stage] at guard <;> exact guard.mpr
  have known : pool.lockMap.get caller.repoId = some lock := by
    rcases stage with stage | stage <;> rw [stage] at knows <;> exact knows lock rfl
  have ownsNone : ∀ other, ¬ pool.owners other = some index := by
    intro other
    rcases stage with stage | stage <;> rw [stage] at owner <;> exact (owner other).mpr
  refine sound.move (List.getElem?_eq_some_iff.mp found).1 rfl
    ⟨iff_of_false id unguarded, ?_, nofun, ?_⟩ (fun _ _ => .rfl) ?_ rfl rfl
  · intro other
    by_cases same : other = lock
    · subst same
      simp [FetchPool.take, Stage.Owns]
    · simp [FetchPool.take, Stage.Owns, same, Ne.symm same, ownsNone other]
  · rintro _ rfl
    exact known
  · intro asked other
    exact update_owners_iff (by simp [free]) (by simp) asked

/-- Releasing the own lock is sound. -/
theorem Sound.release (sound : pool.Sound) (found : pool.callers[index]? = some caller)
    {lock : Nat} (stage : caller.stage = .releasing lock) :
    Sound { pool.goTo index caller .returned with
      owners := Function.update pool.owners lock none } := by
  obtain ⟨guard, owner, -, -⟩ := sound.fits index caller found
  rw [stage] at guard owner
  have held := (owner lock).mp rfl
  refine sound.move (List.getElem?_eq_some_iff.mp found).1 rfl ⟨guard, ?_, nofun, nofun⟩
    (fun _ _ => .rfl) ?_ rfl rfl
  · intro other
    by_cases same : other = lock
    · subst same
      simp [Stage.Owns]
    · have others := owner other
      simp only [Stage.Owns, Ne.symm same, false_iff] at others
      simp [Stage.Owns, same, others]
  · intro asked other
    exact update_owners_iff (by simp [held]) (by simp) asked

/-- **Every move is sound.** -/
theorem Sound.moved (sound : pool.Sound) (found : pool.callers[index]? = some caller)
    (moved : Moved pool index caller next) : next.Sound := by
  obtain ⟨guard, owner, absent, knows⟩ := sound.fits index caller found
  cases moved with
  | calling stage free =>
      rw [stage] at guard owner
      exact sound.goToGuard found (by simp [free]) (by simp)
        ⟨by simp [Stage.Guarded], owner, nofun, nofun⟩
  | missing stage absent =>
      rw [stage] at guard owner
      exact sound.goTo found ⟨guard, owner, fun _ => absent, nofun⟩
  | present stage present =>
      rw [stage] at guard owner
      exact sound.goTo found ⟨guard, owner, nofun, nofun⟩
  | creating stage => exact sound.store found stage
  | reading stage =>
      rw [stage] at guard owner
      exact sound.goTo found ⟨guard, owner, nofun, fun lock known => known⟩
  | failing stage =>
      rw [stage] at guard owner
      exact sound.goToGuard found (by simp [guard.mp trivial]) nofun
        ⟨by simp [Stage.Guarded], owner, nofun, nofun⟩
  | leaving lock stage =>
      rw [stage] at guard owner knows
      refine sound.goToGuard found (by simp [guard.mp trivial]) nofun
        ⟨by simp [Stage.Guarded], owner, nofun, ?_⟩
      rintro _ rfl
      exact knows lock rfl
  | blocked lock holder stage owned =>
      rw [stage] at guard owner knows
      exact sound.goTo found ⟨guard, owner, nofun, knows⟩
  | taking lock stage free => exact sound.take found stage free
  | fetched lock stage =>
      rw [stage] at guard owner knows
      exact sound.goTo found ⟨guard, owner, nofun, knows⟩
  | releasing lock stage => exact sound.release found stage

/-- A call is sound. -/
theorem Sound.call (sound : pool.Sound) (repoId : String) :
    Sound { pool with callers := pool.callers ++ [{ repoId }] } := by
  have longer : pool.callers.length < (pool.callers ++ [({ repoId } : Caller)]).length := by simp
  refine ⟨?_, ?_, ?_, sound.made, sound.apart⟩
  · intro index caller found
    by_cases old : index < pool.callers.length
    · rw [List.getElem?_append_left old] at found
      exact (sound.fits index caller found).frame .rfl (fun _ => .rfl)
        (sound.fits index caller found).absent fun _ known => known
    · rw [List.getElem?_append_right (Nat.le_of_not_lt old)] at found
      obtain rfl := List.mem_singleton.mp (List.mem_of_getElem? found)
      refine ⟨iff_of_false id fun held => old (sound.guard index held), fun lock => ?_, nofun, nofun⟩
      exact iff_of_false id fun held => old (sound.owner lock index held)
  · exact fun index held => (sound.guard index held).trans longer
  · exact fun lock index held => (sound.owner lock index held).trans longer

/-- No caller, no lock. -/
theorem sound_empty : Sound {} :=
  ⟨nofun, nofun, nofun, by simp, by simp⟩

/-- **Every reachable pool is sound.** -/
theorem sound_of_visited (events : List FetchEvent) :
    ∀ pool ∈ Machine.visits step {} events, pool.Sound := by
  refine Machine.forall_visits (fun pool event next sound stepped => ?_) sound_empty events
  rcases step_cases stepped with ⟨repoId, -, rfl⟩ | ⟨index, caller, -, found, moved⟩
  · exact sound.call repoId
  · exact sound.moved found moved

/-! ## Exclusion and independence -/

/-- A running fetch holds the lock of its repository, and no other. -/
theorem Sound.fetches (sound : pool.Sound) {repoId : String} (fetches : pool.Fetches index repoId) :
    ∃ lock, pool.lockMap.get repoId = some lock ∧
      ∀ other, pool.owners other = some index ↔ lock = other := by
  obtain ⟨caller, found, rfl, lock, stage⟩ := fetches
  obtain ⟨-, owner, -, knows⟩ := sound.fits index caller found
  rw [stage] at owner knows
  exact ⟨lock, knows lock rfl, fun other => (owner other).symm⟩

/-- No two fetches of a repository run at once. -/
theorem Sound.exclusive (sound : pool.Sound) {repoId : String} {other : Nat}
    (fetches : pool.Fetches index repoId) (fetchesOther : pool.Fetches other repoId) :
    index = other := by
  obtain ⟨lock, known, owns⟩ := sound.fetches fetches
  obtain ⟨same, knownOther, ownsOther⟩ := sound.fetches fetchesOther
  obtain rfl := Option.some.inj (known.symm.trans knownOther)
  exact Option.some.inj (((owns lock).mpr rfl).symm.trans ((ownsOther lock).mpr rfl))

/-- Who cannot go on waits for somebody. -/
theorem exists_waitsFor (found : pool.callers[index]? = some caller)
    (working : caller.stage ≠ .returned) (stuck : step pool (.run index) = none) :
    ∃ other, pool.WaitsFor index other := by
  simp only [step, found] at stuck
  unfold advance at stuck
  split at stuck
  next stage =>
      cases held : pool.guard with
      | none => simp [held] at stuck
      | some other => exact ⟨other, caller, found, .inl ⟨stage, held⟩⟩
  next => cases stuck
  next => cases stuck
  next => cases stuck
  next => cases stuck
  next => cases stuck
  next => split at stuck <;> cases stuck
  next lock stage =>
      cases owned : pool.owners lock with
      | none => simp [owned] at stuck
      | some other => exact ⟨other, caller, found, .inr ⟨lock, stage, owned⟩⟩
  next => cases stuck
  next => cases stuck
  next stage => exact absurd stage working

/-- Who waits does not wait for a running fetch of another repository. -/
theorem Sound.independent (sound : pool.Sound) (found : pool.callers[index]? = some caller)
    {other : Nat} {repoId : String} (waits : pool.WaitsFor index other)
    (fetches : pool.Fetches other repoId) : repoId = caller.repoId := by
  obtain ⟨waiter, foundWaiter, waits⟩ := waits
  obtain rfl := Option.some.inj (found.symm.trans foundWaiter)
  rcases waits with ⟨-, held⟩ | ⟨lock, stage, owned⟩
  · obtain ⟨fetcher, foundFetcher, -, lock, stage⟩ := fetches
    have guarded := (sound.fits other fetcher foundFetcher).guard.mpr held
    rw [stage] at guarded
    cases guarded
  · obtain ⟨same, known, owns⟩ := sound.fetches fetches
    obtain rfl := (owns lock).mp owned
    refine sound.apart _ _ same known ((sound.fits index caller found).knows same ?_)
    rw [stage]
    rfl

theorem Sound.serial (sound : pool.Sound) : pool.Serial where
  exclusive _ _ _ := sound.exclusive
  stuck _ _ := exists_waitsFor
  independent _ _ _ _ found := sound.independent found

/-! ## Waiting -/

/-- What a move does to its caller: it is blocked, it takes a lock, or it remembers what it
has. -/
theorem Moved.callers (moved : Moved pool index caller next) :
    ∃ after, next.callers = pool.callers.set index after ∧
      ((∃ lock owner, caller.stage = .asking lock ∧ pool.owners lock = some owner ∧
          after.blockedBy = some owner) ∨
        after.blockedBy = caller.blockedBy) := by
  cases moved with
  | blocked lock owner stage owned => exact ⟨_, rfl, .inl ⟨lock, owner, stage, owned, rfl⟩⟩
  | _ => exact ⟨_, rfl, .inr rfl⟩

/-- Nobody has waited for a lock. -/
def Unblocked (pool : FetchPool) : Prop := ∀ caller ∈ pool.callers, caller.blockedBy = none

theorem Unblocked.step (unblocked : pool.Unblocked) {event : FetchEvent}
    (uncontended : pool.Uncontended event) (stepped : FetchPool.step pool event = some next) :
    next.Unblocked := by
  rcases step_cases stepped with ⟨repoId, -, rfl⟩ | ⟨index, caller, rfl, found, moved⟩
  · exact List.forall_mem_append.mpr ⟨unblocked, List.forall_mem_singleton.mpr rfl⟩
  · obtain ⟨after, callers, cases⟩ := moved.callers
    have free : after.blockedBy = none := by
      rcases cases with ⟨lock, owner, stage, owned, blocked⟩ | kept
      · have asked : lock ∈ caller.stage.asked? := by
          rw [stage]
          rfl
        rw [uncontended caller found lock asked] at owned
        cases owned
      · exact kept.trans (unblocked caller (List.mem_of_getElem? found))
    intro other member
    rw [callers] at member
    rcases List.mem_or_eq_of_mem_set member with old | rfl
    · exact unblocked other old
    · exact free

theorem Unblocked.serialized (unblocked : pool.Unblocked) (sound : pool.Sound) :
    pool.Serialized where
  toSerial := sound.serial
  coalesced index caller other found blocked := by
    rw [unblocked caller (List.mem_of_getElem? found)] at blocked
    cases blocked

/-- Who has waited for a lock waits still, or has gone on to a fetch of its own. -/
def Waited (pool : FetchPool) (index : Nat) : Prop :=
  ∃ caller, pool.callers[index]? = some caller ∧ caller.blockedBy ≠ none ∧
    ((∃ lock, caller.stage = .waiting lock) ∨
      0 < caller.fetches ∧ ((∃ lock, caller.stage = .fetching lock) ∨
        (∃ lock, caller.stage = .releasing lock) ∨ caller.stage = .returned))

/-- The move of a caller that has waited. -/
theorem Waited.moved (found : pool.callers[index]? = some caller) (blocked : caller.blockedBy ≠ none)
    (went : (∃ lock, caller.stage = .waiting lock) ∨
      0 < caller.fetches ∧ ((∃ lock, caller.stage = .fetching lock) ∨
        (∃ lock, caller.stage = .releasing lock) ∨ caller.stage = .returned))
    (moved : Moved pool index caller next) : next.Waited index := by
  have here : index < pool.callers.length := (List.getElem?_eq_some_iff.mp found).1
  cases moved with
  | taking lock stage free =>
      exact ⟨_, List.getElem?_set_self here, blocked, .inr ⟨Nat.succ_pos _, .inl ⟨lock, rfl⟩⟩⟩
  | fetched lock stage =>
      simp only [stage, reduceCtorEq, exists_false, false_or] at went
      exact ⟨_, List.getElem?_set_self here, blocked, .inr ⟨went.1, .inr (.inl ⟨lock, rfl⟩)⟩⟩
  | releasing lock stage =>
      simp only [stage, reduceCtorEq, exists_false, false_or] at went
      exact ⟨_, List.getElem?_set_self here, blocked, .inr ⟨went.1, .inr (.inr rfl)⟩⟩
  | _ => simp_all

/-- **Who has waited fetches.** -/
theorem Waited.step (waited : pool.Waited index) {event : FetchEvent}
    (stepped : FetchPool.step pool event = some next) : next.Waited index := by
  obtain ⟨caller, found, blocked, went⟩ := waited
  have here : index < pool.callers.length := (List.getElem?_eq_some_iff.mp found).1
  rcases step_cases stepped with ⟨repoId, -, rfl⟩ | ⟨other, mover, -, foundMover, moved⟩
  · exact ⟨caller, (List.getElem?_append_left here).trans found, blocked, went⟩
  · by_cases same : other = index
    · subst same
      obtain rfl := Option.some.inj (found.symm.trans foundMover)
      exact Waited.moved found blocked went moved
    · obtain ⟨after, callers, -⟩ := moved.callers
      refine ⟨caller, ?_, blocked, went⟩
      rw [callers, List.getElem?_set_ne same]
      exact found

/-- A contended move makes its caller wait. -/
theorem waited_of_contended {event : FetchEvent} (contended : ¬ pool.Uncontended event)
    (stepped : FetchPool.step pool event = some next) : ∃ index, next.Waited index := by
  cases event with
  | call repoId => exact absurd trivial contended
  | run index =>
      simp only [Uncontended, not_forall] at contended
      obtain ⟨caller, found, lock, asked, held⟩ := contended
      obtain ⟨owner, owned⟩ := Option.ne_none_iff_exists'.mp held
      have here : index < pool.callers.length := (List.getElem?_eq_some_iff.mp found).1
      have stage : caller.stage = .asking lock := by
        cases at' : caller.stage <;> simp_all [Stage.asked?]
      rw [Option.mem_def] at found
      simp only [FetchPool.step, found, advance, stage, owned] at stepped
      obtain rfl := Option.some.inj stepped
      exact ⟨index, _, List.getElem?_set_self here, Option.some_ne_none _, .inl ⟨lock, rfl⟩⟩

/-! ## Runs -/

/-- **Fetches are serialized in every run**, and no fetch waits for one of another repository.
They are coalesced where nobody asks for a lock while it is held; and in a run that all callers
return from, only there. -/
theorem fetches_serialized (events : List FetchEvent) :
    (∀ pool ∈ Machine.visits step {} events, pool.Serial) ∧
      ((∀ move ∈ Machine.moves step {} events, Uncontended move.1 move.2) →
        ∀ pool ∈ Machine.visits step {} events, pool.Serialized) ∧
      ∀ last, Machine.run step {} events = some last →
        (∀ caller ∈ last.callers, caller.stage = .returned) →
        (∀ pool ∈ Machine.visits step {} events, pool.Serialized) →
          ∀ move ∈ Machine.moves step {} events, Uncontended move.1 move.2 := by
  refine ⟨fun pool visited => (sound_of_visited events pool visited).serial, ?_, ?_⟩
  · intro guarded pool visited
    have unblocked : ∀ pool ∈ Machine.visits step {} events, pool.Unblocked :=
      Machine.forall_visits_of_guarded (fun _ _ _ unblocked uncontended stepped =>
        unblocked.step uncontended stepped) nofun guarded
    exact (unblocked pool visited).serialized (sound_of_visited events pool visited)
  · rintro last ran returned serialized ⟨pool, event⟩ made
    by_contra contended
    obtain ⟨done, rest, rfl, before, enabled⟩ := (Machine.mem_moves_iff _ _ _ _ _).mp made
    obtain ⟨next, stepped⟩ := Option.isSome_iff_exists.mp enabled
    obtain ⟨index, waited⟩ := waited_of_contended contended stepped
    have after : Machine.run step next rest = some last := by
      rw [Machine.run_append, before, Option.bind_some, Machine.run_cons, stepped] at ran
      exact ran
    have always : ∀ pool ∈ Machine.visits step next rest, pool.Waited index :=
      Machine.forall_visits (fun _ _ _ waited stepped => Waited.step waited stepped) waited rest
    have atLast : last ∈ Machine.visits step next rest :=
      (Machine.mem_visits_iff _ _ _ _).mpr ⟨rest, [], (List.append_nil rest).symm, after⟩
    obtain ⟨caller, found, blocked, went⟩ := always last atLast
    obtain ⟨other, blocked⟩ := Option.ne_none_iff_exists'.mp blocked
    have atEnd : last ∈ Machine.visits step {} (done ++ event :: rest) :=
      (Machine.mem_visits_iff _ _ _ _).mpr ⟨_, [], (List.append_nil _).symm, ran⟩
    have none := ((serialized last atEnd).coalesced index caller other found blocked).1
    rcases went with ⟨lock, stage⟩ | ⟨some, -⟩
    · rw [returned caller (List.mem_of_getElem? found)] at stage
      cases stage
    · omega

/-! ## Samples -/

/-- A caller after another. -/
def oneAfterTheOther : List FetchEvent :=
  [.call "repo-1", .run 0, .run 0, .run 0, .run 0, .run 0, .run 0, .run 0, .run 0,
    .call "repo-1", .run 1, .run 1, .run 1, .run 1, .run 1, .run 1, .run 1]

/-- Two callers, of which the second asks for the lock while the first holds it. -/
def oneDuringTheOther : List FetchEvent :=
  [.call "repo-1", .call "repo-1", .run 0, .run 0, .run 0, .run 0, .run 0, .run 0,
    .run 1, .run 1, .run 1, .run 1, .run 1, .run 0, .run 0, .run 1]

/-- The first run is serialized and coalesced. -/
theorem serialized_oneAfterTheOther :
    ∀ pool ∈ Machine.visits step {} oneAfterTheOther, pool.Serialized :=
  (fetches_serialized oneAfterTheOther).2.1 (by decide +kernel)

/-- In the second one the caller that was blocked fetches as well. -/
theorem not_serialized_oneDuringTheOther :
    ¬ ∀ pool ∈ Machine.visits step {} oneDuringTheOther, pool.Serialized := by
  intro serialized
  have callers : (Machine.run step {} oneDuringTheOther).map FetchPool.callers =
      some [⟨"repo-1", .returned, none, 1⟩, ⟨"repo-1", .fetching 0, some 0, 1⟩] := by decide +kernel
  obtain ⟨last, ran, callers⟩ := Option.map_eq_some_iff.mp callers
  have atEnd : last ∈ Machine.visits step {} oneDuringTheOther :=
    (Machine.mem_visits_iff _ _ _ _).mpr ⟨_, [], (List.append_nil _).symm, ran⟩
  have found : last.callers[1]? = some ⟨"repo-1", .fetching 0, some 0, 1⟩ := by
    rw [callers]
    rfl
  have none := ((serialized last atEnd).coalesced 1 _ 0 found rfl).1
  cases none

end FetchPool

end Kenjutsu.Mirror
