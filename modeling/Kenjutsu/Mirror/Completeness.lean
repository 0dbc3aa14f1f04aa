import Kenjutsu.Foundations.Runs
import Kenjutsu.Mirror.Lifecycle

/-!
# Mirrors that exist are complete

A bare clone has no fetch refspec until `git config` has written it, and the directory of
the clone stays when `git config` fails. So the mirrors stay complete along a run exactly
when no `git config` fails after its `git clone` (`stayComplete_iff_configures`).
-/

set_option autoImplicit false

namespace Kenjutsu.Mirror

open Foundations FileSystem

/-! ## Runs -/

/-- A call of one of the four operations, with what git answers in it. -/
inductive LifecycleEvent where
  | clone (git : Git) (repoUrl repoId : Text) (repoSizeBytes : Int)
  | fetch (git : Git) (repoId : Text)
  | delete (repoId : Text)
  | get (repoId : Text)

/-- Every call goes through; those that raise may change the files as well. -/
def lifecycle (config : MirrorConfig) : Machine Files LifecycleEvent
  | files, .clone git repoUrl repoId repoSizeBytes =>
      some (cloneMirror git repoUrl repoId config repoSizeBytes files).2
  | files, .fetch git repoId => some (fetchMirror git repoId config files).2
  | files, .delete repoId => some (deleteMirror repoId config files).2
  | files, .get _ => some files

/-- Every mirror that `get_mirror` finds has its fetch refspec configured, so that a
successful fetch brings the refs. -/
def Complete (config : MirrorConfig) (files : Files) : Prop :=
  ∀ repr repoId handle, getMirror repr repoId config files = .ok handle →
    ∀ location mirror, files.resolve handle.path = some location →
      files.markAt location = some mirror →
        mirror.fetch = some fetchRefspec ∧
          ∀ (git : Git) (refs : Refs), git.fetch fetchCommand handle.path = .ok refs →
            (fetchMirror git repoId config files).1 = .ok () ∧
              (fetchMirror git repoId config files).2.markAt location = some { mirror with refs }

/-- If the call is a clone that raises, the mirrors afterwards are those before. -/
def FailsCleanly (config : MirrorConfig) (files : Files) : LifecycleEvent → Prop
  | .clone git repoUrl repoId repoSizeBytes =>
      ∀ raised after, cloneMirror git repoUrl repoId config repoSizeBytes files =
          (.error raised, after) →
        ∀ location, (after.markAt location).isSome ↔ (files.markAt location).isSome
  | _ => True

/-- The repository's path does not exist, and `git clone` succeeds. -/
structure Clones (git : Git) (repoUrl repoId : Text) (config : MirrorConfig)
    (repoSizeBytes : Int) (files cloned : Files) : Prop where
  absent : files.exists? (mirrorPath config repoId) = false
  succeeds : git.cloneInto (cloneCommand config repoUrl repoSizeBytes (mirrorPath config repoId))
    (mirrorPath config repoId) files = .ok cloned

/-- If the call is a clone in which `git clone` succeeds, `git config` does. -/
def Configures (config : MirrorConfig) (files : Files) : LifecycleEvent → Prop
  | .clone git repoUrl repoId repoSizeBytes =>
      ∀ cloned, Clones git repoUrl repoId config repoSizeBytes files cloned →
        git.config configCommand (mirrorPath config repoId) = .ok ()
  | _ => True

/-- Every mirror has its fetch refspec configured. -/
def AllConfigured (files : Files) : Prop :=
  ∀ location mirror, files.markAt location = some mirror → mirror.fetch = some fetchRefspec

variable {config : MirrorConfig} {files : Files} {git : Git} {repoUrl repoId : Text}
  {repoSizeBytes : Int}

/-! ## What the operations do -/

/-- If git does not clone, `clone_mirror` raises and leaves the files as they are. -/
theorem cloneMirror_of_not_clones
    (none : ∀ cloned, ¬Clones git repoUrl repoId config repoSizeBytes files cloned) :
    ∃ raised, cloneMirror git repoUrl repoId config repoSizeBytes files = (.error raised, files) := by
  unfold cloneMirror
  dsimp only
  split
  · exact ⟨_, rfl⟩
  · rename_i absent
    split
    · exact ⟨_, rfl⟩
    · rename_i cloned succeeds
      exact absurd ⟨Bool.eq_false_iff.mpr absent, succeeds⟩ (none cloned)

/-- If git clones, what is cloned stays, and `git config` decides. -/
theorem cloneMirror_of_clones {cloned : Files}
    (clones : Clones git repoUrl repoId config repoSizeBytes files cloned) :
    cloneMirror git repoUrl repoId config repoSizeBytes files =
      match git.config configCommand (mirrorPath config repoId) with
      | .error stderr =>
          (.error (.mirrorClone ("Failed to configure fetch refspec: ".toList ++ stderr)), cloned)
      | .ok () => (.ok (mirrorPath config repoId), changeMirror (mirrorPath config repoId)
          (fun mirror => { mirror with fetch := some fetchRefspec }) cloned) := by
  unfold cloneMirror
  dsimp only
  cases git.config configCommand (mirrorPath config repoId) <;>
    simp only [clones.absent, clones.succeeds, Bool.false_eq_true, if_false]

/-- What git has cloned is a mirror without a fetch refspec. -/
theorem exists_of_cloneInto {command : List Text} {dest : Path} {cloned : Files}
    (clones : git.cloneInto command dest files = .ok cloned) :
    ∃ location refs, cloned.resolve dest = some location ∧
      ∀ other, cloned.markAt other =
        if other = location then some { fetch := none, refs } else files.markAt other := by
  unfold Git.cloneInto at clones
  split at clones
  · cases clones
  · rename_i brought succeeds
    split at clones
    · cases clones
    · rename_i made creates
      obtain rfl := Except.ok.inj clones
      obtain ⟨location, leads, marks⟩ := create_spec creates
      exact ⟨location, brought.refs, leads, marks⟩

theorem markAt_changeMirror {dest : Path} {location : Location}
    (leads : files.resolve dest = some location) (change : BareMirror → BareMirror)
    (other : Location) :
    (changeMirror dest change files).markAt other =
      if other = location then (files.markAt location).map change else files.markAt other := by
  rw [changeMirror, leads]
  exact markAt_modifyMark files location other change

/-- A found mirror exists. -/
theorem getMirror_eq_ok_iff {repr : Text → Text} {handle : MirrorHandle} :
    getMirror repr repoId config files = .ok handle ↔
      files.exists? (mirrorPath config repoId) ∧ handle = ⟨repoId, mirrorPath config repoId⟩ := by
  unfold getMirror
  dsimp only
  cases files.exists? (mirrorPath config repoId) with
  | true => exact ⟨fun found => ⟨rfl, (Except.ok.inj found).symm⟩, fun found => found.2 ▸ rfl⟩
  | false =>
      constructor
      · intro found
        cases found
      · rintro ⟨⟨⟩⟩

theorem exists?_of_markAt {path : Path} {location : Location} {mirror : BareMirror}
    (leads : files.resolve path = some location) (marked : files.markAt location = some mirror) :
    files.exists? path ∧ isDirectory files path := by
  rw [exists?, isDirectory, leads, Option.any_some, Option.any_some, FileSystem.isDir,
    get_of_markAt marked]
  exact ⟨rfl, rfl⟩

/-- A successful fetch of a mirror. -/
theorem fetchMirror_eq_ok {location : Location} {mirror : BareMirror} {refs : Refs}
    (leads : files.resolve (mirrorPath config repoId) = some location)
    (marked : files.markAt location = some mirror)
    (fetches : git.fetch fetchCommand (mirrorPath config repoId) = .ok refs) :
    fetchMirror git repoId config files =
      (.ok (), changeMirror (mirrorPath config repoId) (BareMirror.fetched refs) files) := by
  obtain ⟨present, isDirectory⟩ := exists?_of_markAt leads marked
  simp [fetchMirror, present, isDirectory, fetches]

/-! ## Configured mirrors -/

/-- Where every mirror is configured, the mirrors are complete. -/
theorem AllConfigured.complete (configured : AllConfigured files) : Complete config files := by
  intro repr repoId handle found location mirror leads marked
  obtain ⟨-, rfl⟩ := getMirror_eq_ok_iff.mp found
  have refspec := configured location mirror marked
  refine ⟨refspec, fun git refs fetches => ?_⟩
  rw [fetchMirror_eq_ok leads marked fetches]
  refine ⟨rfl, ?_⟩
  rw [markAt_changeMirror leads, if_pos rfl, marked, Option.map_some, BareMirror.fetched,
    if_pos refspec]

theorem AllConfigured.cloneMirror (configured : AllConfigured files)
    (configures : Configures config files (.clone git repoUrl repoId repoSizeBytes)) :
    AllConfigured (cloneMirror git repoUrl repoId config repoSizeBytes files).2 := by
  by_cases clones : ∃ cloned, Clones git repoUrl repoId config repoSizeBytes files cloned
  · obtain ⟨cloned, clones⟩ := clones
    obtain ⟨location, refs, leads, marks⟩ := exists_of_cloneInto clones.succeeds
    rw [cloneMirror_of_clones clones, configures cloned clones]
    intro other mirror marked
    rw [markAt_changeMirror leads] at marked
    split at marked
    · obtain ⟨original, -, rfl⟩ := Option.map_eq_some_iff.mp marked
      rfl
    · rename_i elsewhere
      rw [marks, if_neg elsewhere] at marked
      exact configured other mirror marked
  · obtain ⟨raised, raises⟩ := cloneMirror_of_not_clones (not_exists.mp clones)
    rwa [raises]

theorem AllConfigured.changeMirror (configured : AllConfigured files) (dest : Path) (refs : Refs) :
    AllConfigured (changeMirror dest (BareMirror.fetched refs) files) := by
  cases leads : files.resolve dest with
  | none => rwa [Mirror.changeMirror, leads]
  | some location =>
      intro other mirror marked
      rw [markAt_changeMirror leads] at marked
      split at marked
      · obtain ⟨original, found, rfl⟩ := Option.map_eq_some_iff.mp marked
        have refspec := configured location original found
        rwa [BareMirror.fetched, if_pos refspec]
      · exact configured other mirror marked

theorem AllConfigured.fetchMirror (configured : AllConfigured files) (git : Git) (repoId : Text)
    (config : MirrorConfig) : AllConfigured (fetchMirror git repoId config files).2 := by
  unfold Mirror.fetchMirror
  dsimp only
  split
  · exact configured
  · split
    · exact configured
    · split
      · exact configured
      · exact configured.changeMirror _ _

theorem AllConfigured.deleteMirror (configured : AllConfigured files) (repoId : Text)
    (config : MirrorConfig) : AllConfigured (deleteMirror repoId config files).2 := by
  unfold Mirror.deleteMirror
  dsimp only
  split
  · split
    · exact configured
    · split
      · exact configured
      · intro other mirror marked
        rw [markAt_removeTree] at marked
        split at marked
        · cases marked
        · exact configured other mirror marked
  · exact configured

/-! ## Steps and runs -/

theorem allConfigured_of_step {next : Files} {event : LifecycleEvent}
    (configured : AllConfigured files) (configures : Configures config files event)
    (moved : lifecycle config files event = some next) : AllConfigured next := by
  cases event with
  | clone git repoUrl repoId repoSizeBytes =>
      obtain rfl := Option.some.inj moved
      exact configured.cloneMirror configures
  | fetch git repoId =>
      obtain rfl := Option.some.inj moved
      exact configured.fetchMirror git repoId config
  | delete repoId =>
      obtain rfl := Option.some.inj moved
      exact configured.deleteMirror repoId config
  | get repoId =>
      obtain rfl := Option.some.inj moved
      exact configured

/-- After a clone without its configuration, `get_mirror` finds a mirror that is not
complete. -/
theorem not_complete_of_step {next : Files} {event : LifecycleEvent}
    (fails : ¬Configures config files event)
    (moved : lifecycle config files event = some next) : ¬Complete config next := by
  cases event with
  | fetch git repoId => exact absurd trivial fails
  | delete repoId => exact absurd trivial fails
  | get repoId => exact absurd trivial fails
  | clone git repoUrl repoId repoSizeBytes =>
      obtain rfl := Option.some.inj moved
      intro complete
      obtain ⟨cloned, clones, fails⟩ : ∃ cloned,
          Clones git repoUrl repoId config repoSizeBytes files cloned ∧
            git.config configCommand (mirrorPath config repoId) ≠ .ok () := by
        simpa [Configures] using fails
      obtain ⟨location, refs, leads, marks⟩ := exists_of_cloneInto clones.succeeds
      have marked := (marks location).trans (if_pos rfl)
      rw [cloneMirror_of_clones clones] at complete
      cases answer : git.config configCommand (mirrorPath config repoId) with
      | ok => exact fails answer
      | error stderr =>
          rw [answer] at complete
          have present := (exists?_of_markAt leads marked).1
          have found : getMirror id repoId config cloned =
              .ok ⟨repoId, mirrorPath config repoId⟩ := getMirror_eq_ok_iff.mpr ⟨present, rfl⟩
          obtain ⟨refspec, -⟩ := complete id repoId _ found location _ leads marked
          cases refspec

theorem failsCleanly_of_configures {event : LifecycleEvent}
    (configures : Configures config files event) : FailsCleanly config files event := by
  cases event with
  | fetch git repoId => trivial
  | delete repoId => trivial
  | get repoId => trivial
  | clone git repoUrl repoId repoSizeBytes =>
      intro raised after raises location
      by_cases clones : ∃ cloned, Clones git repoUrl repoId config repoSizeBytes files cloned
      · obtain ⟨cloned, clones⟩ := clones
        rw [cloneMirror_of_clones clones, configures cloned clones] at raises
        cases (Prod.mk.inj raises).1
      · obtain ⟨other, unchanged⟩ := cloneMirror_of_not_clones (not_exists.mp clones)
        rw [raises] at unchanged
        rw [(Prod.mk.inj unchanged).2]

/-- **Mirrors stay complete and failed clones leave nothing behind** exactly when no
`git config` fails after its `git clone` has succeeded. -/
theorem stayComplete_iff_configures (config : MirrorConfig) {start : Files}
    (configured : AllConfigured start) (events : List LifecycleEvent) :
    (∀ move ∈ (lifecycle config).moves start events, FailsCleanly config move.1 move.2) ∧
        (∀ files ∈ (lifecycle config).visits start events, Complete config files) ↔
      ∀ move ∈ (lifecycle config).moves start events, Configures config move.1 move.2 := by
  have exactly := @Machine.forall_visits_iff_guarded _ _ (lifecycle config) AllConfigured
    (Complete config) (Configures config) (fun _ configured => configured.complete)
    (fun _ _ _ configured configures moved => allConfigured_of_step configured configures moved)
    (fun _ _ _ _ fails moved => not_complete_of_step fails moved) start configured events
  constructor
  · rintro ⟨-, complete⟩
    exact exactly.mp complete
  · intro configures
    exact ⟨fun move member => failsCleanly_of_configures (configures move member),
      exactly.mpr configures⟩

/-! ## Two runs -/

/-- A file system with nothing but its root. -/
def emptyFiles : Files := ⟨[], [([], .directory none)]⟩

def exampleConfig : MirrorConfig := { storagePath := Path.parse "/mirrors".toList }

/-- Git clones one branch and answers `git config` as given. -/
def exampleGit (configured : Except Text Unit) : Git where
  clone _ := .ok ⟨[("refs/heads/main".toList, "1111111".toList)], []⟩
  blocked := []
  config _ _ := configured
  fetch _ _ := .ok [("refs/heads/main".toList, "2222222".toList)]

theorem allConfigured_emptyFiles : AllConfigured emptyFiles := by
  intro location mirror marked
  have found := get_of_markAt marked
  unfold FileSystem.get emptyFiles at found
  rw [List.lookup_cons] at found
  split at found
  · cases Option.some.inj found
  · cases found

/-- A clone whose configuration succeeds, and a fetch. -/
def clonedAndFetched : List LifecycleEvent :=
  [.clone (exampleGit (.ok ())) "url".toList "repo".toList 0,
    .fetch (exampleGit (.ok ())) "repo".toList]

theorem stayComplete_clonedAndFetched :
    (∀ move ∈ (lifecycle exampleConfig).moves emptyFiles clonedAndFetched,
        FailsCleanly exampleConfig move.1 move.2) ∧
      ∀ files ∈ (lifecycle exampleConfig).visits emptyFiles clonedAndFetched,
        Complete exampleConfig files := by
  refine (stayComplete_iff_configures exampleConfig allConfigured_emptyFiles _).mpr ?_
  refine List.forall_mem_cons.mpr ⟨fun _ _ => rfl, List.forall_mem_singleton.mpr trivial⟩

/-- The same clone with a failing configuration raises and leaves a mirror behind, and
`get_mirror` finds it. -/
theorem not_stayComplete_unconfigured :
    ¬((∀ move ∈ (lifecycle exampleConfig).moves emptyFiles
          [.clone (exampleGit (.error "error".toList)) "url".toList "repo".toList 0],
        FailsCleanly exampleConfig move.1 move.2) ∧
      ∀ files ∈ (lifecycle exampleConfig).visits emptyFiles
          [.clone (exampleGit (.error "error".toList)) "url".toList "repo".toList 0],
        Complete exampleConfig files) := by
  rintro ⟨-, complete⟩
  have fails : ¬Configures exampleConfig emptyFiles
      (.clone (exampleGit (.error "error".toList)) "url".toList "repo".toList 0) := by
    intro configures
    cases configures _ ⟨rfl, rfl⟩
  refine not_complete_of_step fails rfl (complete _ ?_)
  exact List.mem_cons_of_mem _ List.mem_cons_self

end Kenjutsu.Mirror
