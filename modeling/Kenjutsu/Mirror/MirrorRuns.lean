import Kenjutsu.Mirror.FetchProgress
import Kenjutsu.Mirror.GitFetch

/-!
# Fetches of the mirrors, with git and pushes

The callers of `fetch` run as in the pool, and in `fetch_mirror` each of them checks its directory
and runs a `git fetch` there. That reads the refs of the remote at some moment of its run and
writes them into the mirror one after another, while pushes and other callers go on, and it may
fail halfway.

What is promised is that no ref of a mirror goes back to an older state of the remote, and that
who comes back from a `fetch` that went well finds the refs as they were at one moment after the
call (`Fresh`).
-/

set_option autoImplicit false

namespace Kenjutsu.Mirror

open Foundations FileSystem

/-! ## The callers and the files -/

/-- The callers of `fetch` and the files, with what each caller and each mirror has come to. The
states of a remote are counted by the pushes to it. -/
structure Mirrors where
  pool : FetchPool := {}
  files : Files
  pushes : Location → Nat := fun _ => 0
  /-- The state of the remote when a caller called, -/
  asked : Nat → Nat := fun _ => 0
  /-- the directory in which its `git fetch` is run, -/
  started : Nat → Option Location := fun _ => none
  /-- the state of the remote when that read the refs, -/
  listed : Nat → Option Nat := fun _ => none
  /-- and the refs that it has brought. -/
  fetched : Nat → Text → Bool := fun _ _ => false
  /-- How the `fetch_mirror` of a caller has ended. -/
  outcomes : Nat → Option (Except Raised Unit) := fun _ => none
  /-- The state of the remote that a ref of a mirror was brought from. -/
  brought : Location → Text → Option Nat := fun _ _ => none

/-- A push to the remote of a mirror, a call of `fetch`, the next step of a caller that is not in
`fetch_mirror`, and of one that is there the check of its directory, the moment at which its git
reads the refs, and what its git does next. -/
inductive MirrorEvent where
  | push (place : Location)
  | call (repoId : String)
  | run (index : Nat)
  | check (index : Nat)
  | list (index : Nat)
  | git (index : Nat) (progress : Progress)

/-- The caller is in `fetch_mirror`. -/
def Stage.fetches : Stage → Bool
  | .fetching _ => true
  | _ => false

/-- The caller at an index, if it is in `fetch_mirror`. -/
def FetchPool.fetching? (pool : FetchPool) (index : Nat) : Option Caller :=
  pool.callers[index]?.filter fun caller => caller.stage.fetches

/-- `fetch_mirror` up to where git is run: in which directory that is. -/
def checkMirror (repoId : Text) (config : MirrorConfig) (files : Files) : Except Raised Location :=
  let dest := mirrorPath config repoId
  if !files.exists? dest then
    .error (.mirrorNotFound ("Mirror not found at ".toList ++ dest.str))
  else
    match files.resolve dest with
    | none => .error .notADirectory
    | some location => if files.isDir location then .ok location else .error .notADirectory

/-- What becomes of the answer of git. -/
def fetchOutcome : Except Text Unit → Except Raised Unit
  | .error stderr => .error (.mirrorFetch stderr)
  | .ok () => .ok ()

/-- The two parts are `fetch_mirror`. -/
theorem fetchMirror_outcome (git : Git) (repoId : Text) (config : MirrorConfig) (files : Files) :
    (fetchMirror git repoId config files).1 =
      (checkMirror repoId config files).bind fun _ =>
        fetchOutcome ((git.fetch fetchCommand (mirrorPath config repoId)).map fun _ => ()) := by
  unfold fetchMirror checkMirror
  dsimp only
  split
  · rfl
  · cases leads : files.resolve (mirrorPath config repoId) with
    | none => simp [isDirectory, leads, Except.bind]
    | some location =>
        cases isDir : files.isDir location with
        | false => simp [isDirectory, leads, isDir, Except.bind]
        | true =>
            cases git.fetch fetchCommand (mirrorPath config repoId) <;>
              simp [isDirectory, leads, isDir, Except.bind, Except.map, fetchOutcome]

/-- A directory in which git is run is where the path leads. -/
theorem checkMirror_eq_ok_iff {repoId : Text} {config : MirrorConfig} {files : Files}
    {location : Location} : checkMirror repoId config files = .ok location ↔
      files.resolve (mirrorPath config repoId) = some location ∧ files.isDir location := by
  unfold checkMirror
  dsimp only
  cases leads : files.resolve (mirrorPath config repoId) with
  | none => simp [FileSystem.exists?, leads]
  | some other =>
      cases isDir : files.isDir other with
      | false =>
          have elsewhere : ¬(some other = some location ∧ files.isDir location) := by
            rintro ⟨same, there⟩
            obtain rfl := Option.some.inj same
            rw [isDir] at there
            cases there
          rw [iff_false_right elsewhere]
          split <;> simp [isDir]
      | true =>
          have present : files.exists? (mirrorPath config repoId) := by
            rw [FileSystem.exists?, leads]
            exact Option.isSome_of_any isDir
          simp only [present, Bool.not_true, Bool.false_eq_true, if_false, isDir, if_true,
            Except.ok.injEq, Option.some.injEq]
          constructor
          · rintro rfl
            exact ⟨rfl, isDir⟩
          · exact And.left

/-- The call of a caller in `fetch_mirror` comes back. -/
def Mirrors.ends (state : Mirrors) (index : Nat) (outcome : Except Raised Unit) : Option Mirrors :=
  (state.pool.step (.run index)).map fun pool =>
    { state with pool, outcomes := Function.update state.outcomes index (some outcome) }

section

variable (git : GitFetch) (config : MirrorConfig) (refsAt : Location → Nat → Refs)

/-- The mirror that git works on when it is run for a repository. -/
def placeOf (files : Files) (repoId : String) : Option Location :=
  git.repository files (files.target (mirrorPath config repoId.toList))

/-- What the git of a caller has read. -/
def Mirrors.read? (state : Mirrors) (location : Location) (index : Nat) : Option Refs := do
  let place ← git.repository state.files location
  let count ← state.listed index
  return refsAt place count

/-- What the git of a caller leaves behind. -/
def Mirrors.proceed (state : Mirrors) (location : Location) (index : Nat) (progress : Progress) :
    Mirrors :=
  { state with
    files := progress.files
    fetched := Function.update state.fetched index fun name =>
      state.fetched index name || progress.brought name
    brought := fun place name =>
      if git.repository state.files location = some place ∧ progress.brought name then
        state.listed index
      else state.brought place name }

/-- One event. -/
def mirrorStep : Machine Mirrors MirrorEvent
  | state, .push place =>
      some { state with
        pushes := Function.update state.pushes place (state.pushes place + 1) }
  | state, .call repoId =>
      let current := ((placeOf git config state.files repoId).map state.pushes).getD 0
      (state.pool.step (.call repoId)).map fun pool =>
        { state with pool, asked := Function.update state.asked state.pool.callers.length current }
  | state, .run index =>
      match state.pool.fetching? index with
      | some _ => none
      | none => (state.pool.step (.run index)).map fun pool => { state with pool }
  | state, .check index =>
      match state.pool.fetching? index, state.started index with
      | some caller, none =>
          match checkMirror caller.repoId.toList config state.files with
          | .error raised => state.ends index (.error raised)
          | .ok location =>
              some { state with started := Function.update state.started index (some location) }
      | _, _ => none
  | state, .list index =>
      match state.pool.fetching? index, state.started index, state.listed index with
      | some _, some location, none =>
          (git.repository state.files location).map fun place =>
            { state with
              listed := Function.update state.listed index (some (state.pushes place)) }
      | _, _, _ => none
  | state, .git index progress =>
      match state.pool.fetching? index, state.started index with
      | some _, some location =>
          let proceeded := state.proceed git location index progress
          match progress.answer with
          | none => some proceeded
          | some answer => proceeded.ends index (fetchOutcome answer)
      | _, _ => none

/-! ## What is promised -/

/-- Who has come through `fetch_mirror` finds each ref as the remote had it at the call, or
later. -/
def UpToDate (state : Mirrors) : Prop :=
  ∀ (index : Nat) (caller : Caller), state.pool.callers[index]? = some caller →
    state.outcomes index = some (.ok ()) →
      ∀ place mirror, placeOf git config state.files caller.repoId = some place →
        state.files.markAt place = some mirror → ∀ name,
          ∃ count, state.asked index ≤ count ∧ count ≤ state.pushes place ∧
            mirror.refs.lookup name = (refsAt place count).lookup name

/-- Who comes through it finds all refs as they were at one moment after the call. -/
def Arrives (state next : Mirrors) : Prop :=
  ∀ (index : Nat) (caller : Caller), state.pool.callers[index]? = some caller →
    state.outcomes index ≠ some (.ok ()) → next.outcomes index = some (.ok ()) →
      ∀ place mirror, placeOf git config state.files caller.repoId = some place →
        next.files.markAt place = some mirror →
          ∃ count, state.asked index ≤ count ∧ count ≤ state.pushes place ∧
            ∀ name, mirror.refs.lookup name = (refsAt place count).lookup name

/-- No ref of a mirror goes back to an older state of the remote. -/
def GoesOn (state next : Mirrors) : Prop :=
  ∀ place name, ∀ count ∈ state.brought place name,
    ∃ later ∈ next.brought place name, count ≤ later

/-- All this along a run. -/
structure Fresh (start : Files) (events : List MirrorEvent) : Prop where
  upToDate : ∀ state ∈ (mirrorStep git config).visits { files := start } events,
    UpToDate git config refsAt state
  arrives : ∀ move ∈ (mirrorStep git config).moves { files := start } events, ∀ next,
    mirrorStep git config move.1 move.2 = some next → Arrives git config refsAt move.1 next
  goesOn : ∀ move ∈ (mirrorStep git config).moves { files := start } events, ∀ next,
    mirrorStep git config move.1 move.2 = some next → GoesOn move.1 next

/-- Only the given ids are asked for, and git does what it may. -/
def Permitted (ids : Set String) (state : Mirrors) : MirrorEvent → Prop
  | .call repoId => repoId ∈ ids
  | .git index progress => ∀ location ∈ state.started index,
      git.proceeds state.files location (state.read? git refsAt location index)
        (state.fetched index) progress
  | _ => True

/-- The runs in which this is so. -/
def Runs (ids : Set String) (start : Files) (events : List MirrorEvent) : Prop :=
  ∀ move ∈ (mirrorStep git config).moves { files := start } events,
    Permitted git refsAt ids move.1 move.2

/-- No two of the ids lead git to one mirror. -/
def Apart (files : Files) (ids : Set String) : Prop :=
  ∀ first ∈ ids, ∀ second ∈ ids, ∀ place, placeOf git config files first = some place →
    placeOf git config files second = some place → first = second

end

/-! ## The steps -/

section Steps

variable {git : GitFetch} {config : MirrorConfig} {refsAt : Location → Nat → Refs}
  {state next : Mirrors} {index : Nat} {caller : Caller} {pool : FetchPool}

theorem exists_lock_of_fetches (fetches : caller.stage.fetches) :
    ∃ lock, caller.stage = .fetching lock := by
  unfold Stage.fetches at fetches
  split at fetches
  · rename_i lock stage
    exact ⟨lock, stage⟩
  · cases fetches

theorem begun_of_fetches (fetches : caller.stage.fetches) : caller.stage.Begun := by
  obtain ⟨lock, stage⟩ := exists_lock_of_fetches fetches
  rw [stage]
  trivial

/-- Who has come to `fetch_mirror` does not come to it again. -/
theorem FetchPool.Moved.stages {after : FetchPool}
    (moved : FetchPool.Moved pool index caller after) :
    ∃ later : Caller, after.callers = pool.callers.set index later ∧
      later.repoId = caller.repoId ∧
        (caller.stage.Begun → later.stage.Begun ∧ later.stage.fetches = false) := by
  cases moved with
  | taking lock stage free =>
      refine ⟨_, rfl, rfl, ?_⟩
      rcases stage with stage | stage <;> simp [stage, Stage.Begun]
  | _ => exact ⟨_, rfl, rfl, by simp_all [Stage.Begun, Stage.fetches]⟩

theorem fetching?_eq_some_iff : pool.fetching? index = some caller ↔
    pool.callers[index]? = some caller ∧ caller.stage.fetches := by
  rw [FetchPool.fetching?, Option.filter_eq_some_iff]

/-- What an event does. -/
inductive Stepped (git : GitFetch) (config : MirrorConfig) (state : Mirrors) :
    MirrorEvent → Mirrors → Prop where
  | pushed (place : Location) :
      Stepped git config state (.push place) { state with
        pushes := Function.update state.pushes place (state.pushes place + 1) }
  | called (repoId : String) :
      Stepped git config state (.call repoId) { state with
        pool := { state.pool with callers := state.pool.callers ++ [{ repoId }] }
        asked := Function.update state.asked state.pool.callers.length
          (((placeOf git config state.files repoId).map state.pushes).getD 0) }
  | moved {index : Nat} {caller : Caller} {pool : FetchPool}
      (found : state.pool.callers[index]? = some caller)
      (moved : FetchPool.Moved state.pool index caller pool) :
      Stepped git config state (.run index) { state with pool }
  | raised {index : Nat} {caller : Caller} {pool : FetchPool} (raised : Raised)
      (found : state.pool.callers[index]? = some caller)
      (moved : FetchPool.Moved state.pool index caller pool) :
      Stepped git config state (.check index) { state with
        pool
        outcomes := Function.update state.outcomes index (some (.error raised)) }
  | started {index : Nat} {caller : Caller} {location : Location}
      (found : state.pool.callers[index]? = some caller) (fetches : caller.stage.fetches)
      (checked : checkMirror caller.repoId.toList config state.files = .ok location) :
      Stepped git config state (.check index) { state with
        started := Function.update state.started index (some location) }
  | listed {index : Nat} {caller : Caller} {location place : Location}
      (found : state.pool.callers[index]? = some caller) (fetches : caller.stage.fetches)
      (started : state.started index = some location) (first : state.listed index = none)
      (finds : git.repository state.files location = some place) :
      Stepped git config state (.list index) { state with
        listed := Function.update state.listed index (some (state.pushes place)) }
  | proceeded {index : Nat} {caller : Caller} {location : Location} {progress : Progress}
      (found : state.pool.callers[index]? = some caller) (fetches : caller.stage.fetches)
      (started : state.started index = some location) :
      Stepped git config state (.git index progress) (state.proceed git location index progress)
  | ended {index : Nat} {caller : Caller} {location : Location} {progress : Progress}
      {answer : Except Text Unit} {pool : FetchPool}
      (found : state.pool.callers[index]? = some caller) (fetches : caller.stage.fetches)
      (started : state.started index = some location) (answered : progress.answer = some answer)
      (moved : FetchPool.Moved state.pool index caller pool) :
      Stepped git config state (.git index progress)
        { state.proceed git location index progress with
          pool
          outcomes := Function.update state.outcomes index (some (fetchOutcome answer)) }

/-- A caller that goes on is one of the pool and moves. -/
theorem moved_of_step (stepped : state.pool.step (.run index) = some pool) :
    ∃ caller, state.pool.callers[index]? = some caller ∧
      FetchPool.Moved state.pool index caller pool := by
  rcases FetchPool.step_cases stepped with ⟨_, called, -⟩ | ⟨_, caller, same, found, moved⟩
  · cases called
  · cases same
    exact ⟨caller, found, moved⟩

theorem stepped_of_mirrorStep {event : MirrorEvent}
    (step : mirrorStep git config state event = some next) :
    Stepped git config state event next := by
  cases event with
  | push place =>
      obtain rfl := Option.some.inj step
      exact .pushed place
  | call repoId =>
      obtain rfl := Option.some.inj step
      exact .called repoId
  | run index =>
      simp only [mirrorStep] at step
      split at step
      · cases step
      · obtain ⟨pool, stepped, rfl⟩ := Option.map_eq_some_iff.mp step
        obtain ⟨caller, found, moved⟩ := moved_of_step stepped
        exact .moved found moved
  | check index =>
      simp only [mirrorStep] at step
      split at step
      · rename_i caller fetching first
        obtain ⟨found, fetches⟩ := fetching?_eq_some_iff.mp fetching
        split at step
        · rename_i raised checked
          obtain ⟨pool, stepped, rfl⟩ := Option.map_eq_some_iff.mp step
          obtain ⟨mover, here, moved⟩ := moved_of_step stepped
          exact .raised raised here moved
        · rename_i location checked
          obtain rfl := Option.some.inj step
          exact .started found fetches checked
      · cases step
  | list index =>
      simp only [mirrorStep] at step
      split at step
      · rename_i caller location fetching started first
        obtain ⟨found, fetches⟩ := fetching?_eq_some_iff.mp fetching
        obtain ⟨place, finds, rfl⟩ := Option.map_eq_some_iff.mp step
        exact .listed found fetches started first finds
      · cases step
  | git index progress =>
      simp only [mirrorStep] at step
      split at step
      · rename_i caller location fetching started
        obtain ⟨found, fetches⟩ := fetching?_eq_some_iff.mp fetching
        split at step
        · obtain rfl := Option.some.inj step
          exact .proceeded found fetches started
        · rename_i answer answered
          obtain ⟨pool, stepped, rfl⟩ := Option.map_eq_some_iff.mp step
          obtain ⟨mover, here, moved⟩ := moved_of_step stepped
          obtain rfl := Option.some.inj (found.symm.trans here)
          exact .ended found fetches started answered moved
      · cases step

end Steps

end Kenjutsu.Mirror
