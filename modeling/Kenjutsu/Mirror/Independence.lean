import Kenjutsu.Mirror.Completeness

/-!
# Mirrors of different repositories

Mirrors are cloned into an empty storage directory and deleted again, in any order. If
every repository id is the name of a directory entry, each mirror is a directory of its
own in the storage, no mirror is touched by what happens to another one, and
`all_mirror_sizes` lists the ids with the sizes. An id that is a path of any other kind is
never listed, as the listing has names only (`independent_iff_names`).
-/

set_option autoImplicit false

namespace Kenjutsu.Mirror

open Foundations FileSystem

/-! ## Clones and deletions -/

/-- The files, and the ids of the repositories cloned and not deleted. -/
structure Storage where
  files : Files
  cloned : List Text

inductive StorageEvent where
  | clone (git : Git) (repoUrl repoId : Text) (repoSizeBytes : Int)
  | delete (repoId : Text)

/-- A repository is cloned while it is not cloned yet, and its mirror is deleted while it
is. Git succeeds: there is no step where a command of git fails. -/
def storageStep (config : MirrorConfig) : Machine Storage StorageEvent
  | storage, .clone git repoUrl repoId repoSizeBytes =>
      if repoId ∈ storage.cloned then none
      else
        match cloneMirror git repoUrl repoId config repoSizeBytes storage.files with
        | (.ok _, files) => some { files, cloned := storage.cloned ++ [repoId] }
        | (.error (.mirrorClone _), _) => none
        | (.error _, files) => some { storage with files }
  | storage, .delete repoId =>
      if repoId ∈ storage.cloned then
        some {
          files := (deleteMirror repoId config storage.files).2
          cloned := storage.cloned.filter (· ≠ repoId) }
      else none

/-- The mirror of the repository exists, and it is the same afterwards. -/
def Intact (config : MirrorConfig) (files after : Files) (repoId : Text) : Prop :=
  ∃ location, files.resolve (mirrorPath config repoId) = some location ∧
    after.resolve (mirrorPath config repoId) = some location ∧
    (files.get location).isSome ∧ ∀ below, location <:+ below → after.get below = files.get below

/-- A clone returns the path of the mirror. A deletion returns; the mirror is gone, and
nothing outside the storage directory changes. Either leaves the other mirrors intact. -/
def Undisturbed (config : MirrorConfig) (storage : Storage) : StorageEvent → Prop
  | .clone git repoUrl repoId repoSizeBytes =>
      (cloneMirror git repoUrl repoId config repoSizeBytes storage.files).1 =
          .ok (mirrorPath config repoId) ∧
        ∀ other ∈ storage.cloned, Intact config storage.files
          (cloneMirror git repoUrl repoId config repoSizeBytes storage.files).2 other
  | .delete repoId =>
      (deleteMirror repoId config storage.files).1 = .ok () ∧
        (deleteMirror repoId config storage.files).2.exists? (mirrorPath config repoId) = false ∧
        (∃ top, storage.files.resolve config.storagePath = some top ∧
          ∀ location, ¬top <:+ location →
            (deleteMirror repoId config storage.files).2.get location =
              storage.files.get location) ∧
        ∀ other ∈ storage.cloned, other ≠ repoId →
          Intact config storage.files (deleteMirror repoId config storage.files).2 other

/-- `all_mirror_sizes` lists the repositories cloned and not deleted, each with the value of
`mirror_size_bytes`, and no others. -/
def Accounts (config : MirrorConfig) (storage : Storage) : Prop :=
  ∃ sizes, allMirrorSizes config storage.files = .ok sizes ∧
    ∀ repoId,
      (repoId ∈ storage.cloned → ∃ size,
        mirrorSizeBytes repoId config storage.files = .ok size ∧ sizes.get repoId = some size) ∧
      (repoId ∉ storage.cloned → sizes.get repoId = none)

/-- Along a run, no call disturbs another mirror and the sizes are accounted for. -/
def Independent (config : MirrorConfig) (start : Storage) (events : List StorageEvent) : Prop :=
  (∀ move ∈ (storageStep config).moves start events, Undisturbed config move.1 move.2) ∧
    ∀ storage ∈ (storageStep config).visits start events, Accounts config storage

/-- If the event is a clone, the repository id is a name. -/
def NamesClone : StorageEvent → Prop
  | .clone _ _ repoId _ => IsName repoId
  | .delete _ => True

/-- The storage directory exists or can be made, and there is nothing in it. -/
def EmptyStorage (config : MirrorConfig) (files : Files) : Prop :=
  ∃ made, files.makeDirs (files.start config.storagePath) config.storagePath.steps = some made ∧
    ∀ top, made.resolve config.storagePath = some top →
      ∀ location, top <:+ location → location ≠ top → made.get location = none

/-! ## Names below the storage directory -/

theorem mirrorPath_of_name (config : MirrorConfig) (name : Name) :
    mirrorPath config name.text =
      ⟨config.storagePath.root, config.storagePath.steps ++ [.down name]⟩ :=
  Path.join_parse_of_isName config.storagePath name.isName

/-- The path of a mirror leads one step down from where the storage path leads. -/
theorem resolve_mirrorPath {config : MirrorConfig} {files : Files} {top : Location}
    (leads : files.resolve config.storagePath = some top) (isDir : files.isDir top) (name : Name) :
    files.resolve (mirrorPath config name.text) = some (name :: top) := by
  rw [mirrorPath_of_name]
  exact resolve_down leads isDir name

/-! ## The invariant -/

/-- The files with the storage directory and nothing in it: the storage path leads to the
directory `top`. -/
structure Base (config : MirrorConfig) (base : Files) (top : Location) : Prop where
  leads : base.resolve config.storagePath = some top
  isDir : base.isDir top
  empty : ∀ location, top <:+ location → location ≠ top → base.get location = none

/-- The mirrors are the entries of the storage directory with the ids as names. Before the
first clone the storage directory may have to be made. -/
structure Sound (config : MirrorConfig) (base : Files) (top : Location) (storage : Storage) :
    Prop where
  cwd : storage.files.cwd = base.cwd
  directories : (storage.cloned = [] ∧ storage.files.makeDirs
      (storage.files.start config.storagePath) config.storagePath.steps = some base) ∨
    ∀ location, base.isDir location → storage.files.isDir location
  absent : ∀ name : Name, name.text ∉ storage.cloned → ∀ location, name :: top <:+ location →
    storage.files.get location = none
  present : ∀ repoId ∈ storage.cloned, ∃ name : Name, name.text = repoId ∧
    (storage.files.markAt (name :: top)).isSome

/-- The files with the storage directory made. -/
structure Made (config : MirrorConfig) (top : Location) (storage : Storage) (made : Files) :
    Prop where
  makes : storage.files.makeDirs (storage.files.start config.storagePath)
    config.storagePath.steps = some made
  leads : made.resolve config.storagePath = some top
  isDir : made.isDir top
  absent : ∀ name : Name, name.text ∉ storage.cloned → ∀ location, name :: top <:+ location →
    made.get location = none
  same : storage.cloned ≠ [] → made = storage.files

variable {config : MirrorConfig} {base made : Files} {top : Location} {storage : Storage}
  {repoId : Text}

/-- Once the directories are there, the storage path leads to the storage directory. -/
theorem Base.leads_of_directories (isBase : Base config base top) {files : Files}
    (cwd : files.cwd = base.cwd)
    (directories : ∀ location, base.isDir location → files.isDir location) :
    files.resolve config.storagePath = some top ∧ files.isDir top :=
  ⟨resolve_mono cwd directories isBase.leads, directories top isBase.isDir⟩

/-- Nothing is below an entry of the storage directory that is not there. -/
theorem Base.get_eq_none (isBase : Base config base top) {name : Name} {location : Location}
    (below : name :: top <:+ location) : base.get location = none := by
  refine isBase.empty location ((List.suffix_cons name top).trans below) ?_
  rintro rfl
  have length := below.length_le
  rw [List.length_cons] at length
  omega

theorem Sound.exists_made (sound : Sound config base top storage)
    (isBase : Base config base top) :
    ∃ made, Made config top storage made ∧ made.cwd = base.cwd ∧
      ∀ location, base.isDir location → made.isDir location := by
  rcases sound.directories with ⟨none, makes⟩ | directories
  · refine ⟨base, ⟨makes, isBase.leads, isBase.isDir, fun name _ location below =>
      isBase.get_eq_none below, fun some => absurd none some⟩, rfl, fun _ isDir => isDir⟩
  · obtain ⟨leads, isDir⟩ := isBase.leads_of_directories sound.cwd directories
    have makes := makeDirs_of_walk leads (Option.isSome_of_any isDir)
    rw [if_pos isDir] at makes
    exact ⟨storage.files, ⟨makes, leads, isDir, sound.absent, fun _ => rfl⟩, sound.cwd, directories⟩

/-- Where there is a mirror, the storage path leads to the storage directory. -/
theorem Sound.leads (sound : Sound config base top storage) (isBase : Base config base top)
    (member : repoId ∈ storage.cloned) :
    storage.files.resolve config.storagePath = some top ∧ storage.files.isDir top := by
  obtain ⟨made, isMade, -, -⟩ := sound.exists_made isBase
  have some : storage.cloned ≠ [] := List.ne_nil_of_mem member
  rw [← isMade.same some]
  exact ⟨isMade.leads, isMade.isDir⟩

/-- A mirror is where its path leads. -/
theorem Sound.resolve (sound : Sound config base top storage) (isBase : Base config base top)
    {name : Name} (member : name.text ∈ storage.cloned) :
    storage.files.resolve (mirrorPath config name.text) = some (name :: top) := by
  obtain ⟨leads, isDir⟩ := sound.leads isBase member
  exact resolve_mirrorPath leads isDir name

theorem Sound.isSome_markAt (sound : Sound config base top storage) {name : Name}
    (member : name.text ∈ storage.cloned) : (storage.files.markAt (name :: top)).isSome := by
  obtain ⟨other, same, marked⟩ := sound.present _ member
  rwa [← Name.eq_of_text same]

/-! ## Clones -/

/-- The path of a repository that is not cloned does not exist. -/
theorem Made.not_exists (isMade : Made config top storage made) {name : Name}
    (fresh : name.text ∉ storage.cloned) :
    storage.files.exists? (mirrorPath config name.text) = false := by
  have extended := makeDirs_extends isMade.makes
  cases leads : storage.files.resolve (mirrorPath config name.text) with
  | none => rw [exists?, leads]; rfl
  | some location =>
      rw [mirrorPath_of_name] at leads
      obtain ⟨parent, leadsFirst, rfl⟩ := exists_resolve_of_down leads
      have sameTop := resolve_mono extended.cwd (fun _ => extended.isDir) leadsFirst
      obtain rfl : parent = top := Option.some.inj (sameTop.symm.trans isMade.leads)
      have absent := extended.get_eq_none (isMade.absent name fresh _ (List.suffix_refl _))
      rw [exists?, mirrorPath_of_name, leads, Option.any_some, absent]
      rfl

/-- Unless a command of git fails, the clone returns, and there is a mirror with the name;
elsewhere there is what was there. -/
theorem Made.cloneMirror (isMade : Made config top storage made) {name : Name}
    (fresh : name.text ∉ storage.cloned) (git : Git) (repoUrl : Text) (repoSizeBytes : Int) :
    (∃ message, (cloneMirror git repoUrl name.text config repoSizeBytes storage.files).1 =
        .error (.mirrorClone message)) ∨
      ∃ after, cloneMirror git repoUrl name.text config repoSizeBytes storage.files =
          (.ok (mirrorPath config name.text), after) ∧
        after.cwd = made.cwd ∧ (after.markAt (name :: top)).isSome ∧
        ∀ other, ¬name :: top <:+ other → after.get other = made.get other := by
  have absent := isMade.absent name fresh _ (List.suffix_refl _)
  unfold Mirror.cloneMirror
  simp only [isMade.not_exists fresh, Bool.false_eq_true, if_false]
  unfold Git.cloneInto
  cases git.clone (cloneCommand config repoUrl repoSizeBytes (mirrorPath config name.text)) with
  | error stderr => exact .inl ⟨stderr, rfl⟩
  | ok brought =>
      obtain ⟨created, creates, cwd, leads, marked, elsewhere⟩ := exists_create_down isMade.makes
        isMade.leads isMade.isDir absent { fetch := none, refs := brought.refs } brought.contents
      rw [← mirrorPath_of_name] at creates leads
      simp only [creates]
      cases git.config configCommand (mirrorPath config name.text) with
      | error stderr => exact .inl ⟨_, rfl⟩
      | ok =>
          refine .inr ⟨_, rfl, ?_⟩
          rw [changeMirror, leads]
          refine ⟨?_, ?_, fun other outside => ?_⟩
          · rw [cwd_modifyMark, cwd]
          · rw [markAt_modifyMark, if_pos rfl, marked]
            rfl
          · have differ : other ≠ name :: top := by
              rintro rfl
              exact outside (List.suffix_refl _)
            rw [get_modifyMark_of_ne _ _ _ _ differ, elsewhere other outside]

/-- The entries that are not below a name keep the directories of the base. -/
theorem Base.isDir_of_elsewhere (isBase : Base config base top) {name : Name} {files after : Files}
    (elsewhere : ∀ other, ¬name :: top <:+ other → after.get other = files.get other)
    (kept : ∀ location, base.isDir location → files.isDir location) :
    ∀ location, base.isDir location → after.isDir location := by
  intro location isDir
  have outside : ¬name :: top <:+ location := fun below => by
    rw [FileSystem.isDir, isBase.get_eq_none below] at isDir
    cases isDir
  rw [FileSystem.isDir, elsewhere location outside]
  exact kept location isDir

theorem Sound.clone (sound : Sound config base top storage) (isBase : Base config base top)
    (isMade : Made config top storage made)
    (kept : ∀ location, base.isDir location → made.isDir location) {name : Name}
    (fresh : name.text ∉ storage.cloned) {after : Files} (cwd : after.cwd = base.cwd)
    (marked : (after.markAt (name :: top)).isSome)
    (elsewhere : ∀ other, ¬name :: top <:+ other → after.get other = made.get other) :
    Sound config base top ⟨after, storage.cloned ++ [name.text]⟩ where
  cwd := cwd
  directories := .inr (isBase.isDir_of_elsewhere elsewhere kept)
  absent := by
    intro other notCloned location below
    rw [List.mem_append, List.mem_singleton, not_or] at notCloned
    have differ : other ≠ name := fun same => notCloned.2 (same ▸ rfl)
    rw [elsewhere location (not_suffix_of_ne differ below)]
    exact isMade.absent other notCloned.1 location below
  present := by
    intro repoId member
    rcases List.mem_append.mp member with earlier | last
    · obtain ⟨other, rfl, otherMarked⟩ := sound.present repoId earlier
      have differ : other ≠ name := by
        rintro rfl
        exact fresh earlier
      refine ⟨other, rfl, ?_⟩
      rwa [FileSystem.markAt, elsewhere _ (not_suffix_of_ne differ (List.suffix_refl _)),
        isMade.same (List.ne_nil_of_mem earlier)]
    · exact ⟨name, (List.mem_singleton.mp last).symm, marked⟩

/-- A mirror is intact if what is below its name is the same. -/
theorem Sound.intact (sound : Sound config base top storage) (isBase : Base config base top)
    {after : Storage} (soundAfter : Sound config base top after) {name : Name}
    (member : name.text ∈ storage.cloned) (memberAfter : name.text ∈ after.cloned)
    (same : ∀ below, name :: top <:+ below → after.files.get below = storage.files.get below) :
    Intact config storage.files after.files name.text := by
  refine ⟨name :: top, sound.resolve isBase member, soundAfter.resolve isBase memberAfter, ?_, same⟩
  obtain ⟨mirror, marked⟩ := Option.isSome_iff_exists.mp (sound.isSome_markAt member)
  rw [get_of_markAt marked]
  rfl

/-! ## Deletions -/

/-- Deleting a mirror removes what is below its name. -/
theorem Sound.deleteMirror (sound : Sound config base top storage) (isBase : Base config base top)
    {name : Name} (member : name.text ∈ storage.cloned) :
    deleteMirror name.text config storage.files =
      (.ok (), storage.files.removeTree (name :: top)) := by
  have leads := sound.resolve isBase member
  obtain ⟨mirror, marked⟩ := Option.isSome_iff_exists.mp (sound.isSome_markAt member)
  obtain ⟨present, isDirectory⟩ := exists?_of_markAt leads marked
  simp [Mirror.deleteMirror, present, isDirectory, leads]

theorem Sound.directories_of_mem (sound : Sound config base top storage)
    (member : repoId ∈ storage.cloned) :
    ∀ location, base.isDir location → storage.files.isDir location := by
  rcases sound.directories with ⟨none, -⟩ | directories
  · rw [none] at member
    cases member
  · exact directories

theorem Sound.delete (sound : Sound config base top storage) (isBase : Base config base top)
    {name : Name} (member : name.text ∈ storage.cloned) :
    Sound config base top
      ⟨storage.files.removeTree (name :: top), storage.cloned.filter (· ≠ name.text)⟩ where
  cwd := sound.cwd
  directories := .inr (isBase.isDir_of_elsewhere
    (fun _ outside => get_removeTree_of_not_suffix outside) (sound.directories_of_mem member))
  absent := by
    intro other notCloned location below
    rw [get_removeTree]
    split
    · rfl
    · rename_i outside
      have differ : other.text ≠ name.text := fun same =>
        outside (Name.eq_of_text same ▸ below)
      have notMember : other.text ∉ storage.cloned := fun cloned =>
        notCloned (List.mem_filter.mpr ⟨cloned, decide_eq_true differ⟩)
      exact sound.absent other notMember location below
  present := by
    intro repoId kept
    obtain ⟨cloned, differ⟩ := List.mem_filter.mp kept
    obtain ⟨other, rfl, marked⟩ := sound.present repoId cloned
    have apart : other ≠ name := fun same => of_decide_eq_true differ (same ▸ rfl)
    refine ⟨other, rfl, ?_⟩
    rwa [markAt_removeTree, if_neg (not_suffix_of_ne apart (List.suffix_refl _))]

/-- The deletion of a mirror disturbs no other mirror and nothing outside the storage. -/
theorem Sound.undisturbed_delete (sound : Sound config base top storage)
    (isBase : Base config base top) {name : Name} (member : name.text ∈ storage.cloned) :
    Undisturbed config storage (.delete name.text) := by
  have soundAfter := sound.delete isBase member
  have leads := (sound.leads isBase member).1
  obtain ⟨leadsAfter, isDirAfter⟩ := isBase.leads_of_directories soundAfter.cwd
    (isBase.isDir_of_elsewhere (fun _ outside => get_removeTree_of_not_suffix outside)
      (sound.directories_of_mem member))
  rw [Undisturbed, sound.deleteMirror isBase member]
  refine ⟨rfl, ?_, ⟨top, leads, fun location outside => ?_⟩, fun repoId cloned differ => ?_⟩
  · rw [exists?, resolve_mirrorPath leadsAfter isDirAfter name, Option.any_some, get_removeTree,
      if_pos (List.suffix_refl _)]
    rfl
  · exact get_removeTree_of_not_suffix fun below =>
      outside ((List.suffix_cons name top).trans below)
  · obtain ⟨other, rfl, -⟩ := sound.present repoId cloned
    have apart : other ≠ name := fun same => differ (same ▸ rfl)
    exact sound.intact isBase soundAfter cloned
      (List.mem_filter.mpr ⟨cloned, decide_eq_true differ⟩) fun below isBelow =>
        get_removeTree_of_not_suffix (not_suffix_of_ne apart isBelow)

/-! ## Sizes -/

/-- If the storage path exists, it leads to the storage directory. -/
theorem Sound.leads_of_exists (sound : Sound config base top storage)
    (isBase : Base config base top) (present : storage.files.exists? config.storagePath) :
    storage.files.resolve config.storagePath = some top ∧ storage.files.isDir top := by
  obtain ⟨made, isMade, -, -⟩ := sound.exists_made isBase
  have extended := makeDirs_extends isMade.makes
  obtain ⟨location, leads, isThere⟩ := (Option.any_eq_true _ _).mp present
  obtain rfl : location = top := Option.some.inj
    ((resolve_mono extended.cwd (fun _ => extended.isDir) leads).symm.trans isMade.leads)
  have makes := makeDirs_of_walk leads isThere
  rw [isMade.makes] at makes
  split at makes
  · exact ⟨leads, ‹_›⟩
  · cases makes

/-- The listing has the directories in the storage directory, by their names. -/
theorem get_sizesIn_eq_some_iff {files : Files} {top : Location} {repoId : Text} {size : Nat} :
    (sizesIn files top).get repoId = some size ↔
      ∃ name : Name, files.isDir (name :: top) ∧ name.text = repoId ∧
        files.sizeBelow (name :: top) = size := by
  rw [sizesIn, Dict.get_ofList_eq_some_iff, List.mem_map]
  · simp only [Prod.mk.injEq]
    refine exists_congr fun name => and_congr_left fun _ => ?_
    rw [directories, List.mem_filter, mem_names_iff, and_iff_right_iff_imp]
    exact Option.isSome_of_any
  · intro first isFirst second isSecond sameKey
    obtain ⟨name, -, rfl⟩ := List.mem_map.mp isFirst
    obtain ⟨other, -, rfl⟩ := List.mem_map.mp isSecond
    rw [Name.eq_of_text sameKey]

theorem Sound.mirrorSizeBytes (sound : Sound config base top storage)
    (isBase : Base config base top) {name : Name} (member : name.text ∈ storage.cloned) :
    mirrorSizeBytes name.text config storage.files =
      .ok (storage.files.sizeBelow (name :: top)) := by
  have leads := sound.resolve isBase member
  obtain ⟨mirror, marked⟩ := Option.isSome_iff_exists.mp (sound.isSome_markAt member)
  simp [Mirror.mirrorSizeBytes, (exists?_of_markAt leads marked).1, totalSize, leads]

/-- The sizes of the mirrors are accounted for. -/
theorem Sound.accounts (sound : Sound config base top storage) (isBase : Base config base top) :
    Accounts config storage := by
  cases present : storage.files.exists? config.storagePath with
  | false =>
      refine ⟨∅, by simp [allMirrorSizes, present], fun repoId => ⟨fun member => ?_, fun _ => rfl⟩⟩
      obtain ⟨leads, isDir⟩ := sound.leads isBase member
      rw [exists?, leads, Option.any_some, Option.isSome_of_any isDir] at present
      cases present
  | true =>
      obtain ⟨leads, isDir⟩ := sound.leads_of_exists isBase present
      have listed : allMirrorSizes config storage.files = .ok (sizesIn storage.files top) := by
        simp [allMirrorSizes, present, isDirectory, leads, isDir]
      refine ⟨_, listed, fun repoId => ⟨fun member => ?_, fun notCloned => ?_⟩⟩
      · obtain ⟨name, rfl, marked⟩ := sound.present repoId member
        obtain ⟨mirror, marked⟩ := Option.isSome_iff_exists.mp marked
        have isDirectory : storage.files.isDir (name :: top) := by
          rw [FileSystem.isDir, get_of_markAt marked]
          rfl
        exact ⟨_, sound.mirrorSizeBytes isBase member,
          get_sizesIn_eq_some_iff.mpr ⟨name, isDirectory, rfl, rfl⟩⟩
      · rw [Option.eq_none_iff_forall_ne_some]
        intro size found
        obtain ⟨name, isDirectory, rfl, -⟩ := get_sizesIn_eq_some_iff.mp found
        rw [FileSystem.isDir, sound.absent name notCloned _ (List.suffix_refl _)] at isDirectory
        cases isDirectory

/-! ## Steps and runs -/

/-- A clone that git makes below a name keeps the invariant and disturbs no other mirror. -/
theorem Sound.step_clone (sound : Sound config base top storage) (isBase : Base config base top)
    {name : Name} {git : Git} {repoUrl : Text} {repoSizeBytes : Int} {next : Storage}
    (moved : storageStep config storage (.clone git repoUrl name.text repoSizeBytes) = some next) :
    Sound config base top next ∧
      Undisturbed config storage (.clone git repoUrl name.text repoSizeBytes) := by
  rw [storageStep] at moved
  split at moved
  · cases moved
  · rename_i fresh
    obtain ⟨made, isMade, cwd, kept⟩ := sound.exists_made isBase
    obtain ⟨message, raises⟩ | ⟨after, returns, cwdAfter, marked, elsewhere⟩ :=
      isMade.cloneMirror fresh git repoUrl repoSizeBytes
    · cases result : cloneMirror git repoUrl name.text config repoSizeBytes storage.files with
      | mk outcome files =>
          obtain rfl : outcome = .error (.mirrorClone message) := by rw [← raises, result]
          rw [result] at moved
          cases moved
    · rw [returns] at moved
      obtain rfl := Option.some.inj moved
      have soundAfter :=
        sound.clone isBase isMade kept fresh (cwdAfter.trans cwd) marked elsewhere
      rw [Undisturbed, returns]
      refine ⟨soundAfter, rfl, fun repoId member => ?_⟩
      obtain ⟨other, rfl, -⟩ := sound.present repoId member
      have apart : other ≠ name := by
        rintro rfl
        exact fresh member
      refine sound.intact isBase soundAfter member (List.mem_append_left _ member) ?_
      intro below isBelow
      rw [elsewhere below (not_suffix_of_ne apart isBelow),
        isMade.same (List.ne_nil_of_mem member)]

/-- A step keeps the invariant and disturbs nothing if the id that it clones is a name. -/
theorem Sound.step (sound : Sound config base top storage) (isBase : Base config base top)
    {event : StorageEvent} {next : Storage} (named : NamesClone event)
    (moved : storageStep config storage event = some next) :
    Sound config base top next ∧ Undisturbed config storage event := by
  cases event with
  | clone git repoUrl repoId repoSizeBytes =>
      let name : Name := ⟨repoId, named⟩
      have movedName : storageStep config storage (.clone git repoUrl name.text repoSizeBytes) =
        some next := moved
      exact sound.step_clone isBase movedName
  | delete repoId =>
      rw [storageStep] at moved
      split at moved
      · rename_i member
        obtain ⟨name, rfl, -⟩ := sound.present repoId member
        obtain rfl := Option.some.inj moved
        refine ⟨?_, sound.undisturbed_delete isBase member⟩
        rw [sound.deleteMirror isBase member]
        exact sound.delete isBase member
      · cases moved

/-- An empty storage directory satisfies the invariant. -/
theorem EmptyStorage.sound {files : Files} (empty : EmptyStorage config files) :
    ∃ base top, Base config base top ∧ Sound config base top ⟨files, []⟩ := by
  obtain ⟨base, makes, nothing⟩ := empty
  have extended := makeDirs_extends makes
  obtain ⟨top, walks, isDir⟩ := exists_walk_of_makeDirs makes
  have leads : base.resolve config.storagePath = some top := by
    rw [← walks, resolve, start, start, extended.cwd]
  have isBase : Base config base top := ⟨leads, isDir, nothing top leads⟩
  refine ⟨base, top, isBase, extended.cwd.symm, .inl ⟨rfl, makes⟩, ?_, by simp⟩
  intro name _ location below
  exact extended.get_eq_none (isBase.get_eq_none below)

/-- Only names are listed. -/
theorem isName_of_listed {files : Files} {sizes : Dict Text Nat} {size : Nat}
    (listed : allMirrorSizes config files = .ok sizes) (found : sizes.get repoId = some size) :
    IsName repoId := by
  unfold allMirrorSizes at listed
  split at listed
  · obtain rfl := Except.ok.inj listed
    cases found
  · split at listed
    · cases listed
    · split at listed
      · obtain rfl := Except.ok.inj listed
        cases found
      · obtain rfl := Except.ok.inj listed
        obtain ⟨name, -, rfl, -⟩ := get_sizesIn_eq_some_iff.mp found
        exact name.isName

theorem Accounts.isName (accounts : Accounts config storage) (member : repoId ∈ storage.cloned) :
    IsName repoId := by
  obtain ⟨sizes, listed, each⟩ := accounts
  obtain ⟨size, -, found⟩ := (each repoId).1 member
  exact isName_of_listed listed found

/-- What an undisturbed clone brings is listed after it, so its id is a name. -/
theorem Undisturbed.namesClone {event : StorageEvent} {next : Storage}
    (undisturbed : Undisturbed config storage event)
    (moved : storageStep config storage event = some next) (accounts : Accounts config next) :
    NamesClone event := by
  cases event with
  | delete repoId => trivial
  | clone git repoUrl repoId repoSizeBytes =>
      rw [storageStep] at moved
      split at moved
      · cases moved
      · cases result : cloneMirror git repoUrl repoId config repoSizeBytes storage.files with
        | mk outcome files =>
            have returns := undisturbed.1
            rw [result] at returns moved
            obtain rfl := returns
            obtain rfl := Option.some.inj moved
            exact accounts.isName (List.mem_append_right _ (List.mem_singleton_self _))

/-- **Mirrors are independent** exactly when every id that is cloned is a name: whatever is
cloned and deleted in whatever order, into a storage directory that is empty. -/
theorem independent_iff_names {files : Files} (empty : EmptyStorage config files)
    (events : List StorageEvent) :
    Independent config ⟨files, []⟩ events ↔
      ∀ move ∈ (storageStep config).moves ⟨files, []⟩ events, NamesClone move.2 := by
  constructor
  · rintro ⟨undisturbed, accounts⟩ ⟨storage, event⟩ member
    obtain ⟨-, -, -, -, enabled⟩ := (Machine.mem_moves_iff _ _ _ _ _).mp member
    obtain ⟨next, moved⟩ := Option.isSome_iff_exists.mp enabled
    exact (undisturbed _ member).namesClone moved
      (accounts next (Machine.mem_visits_of_mem_moves _ member moved))
  · intro named
    obtain ⟨base, top, isBase, sound⟩ := empty.sound
    have always := @Machine.forall_visits_of_guarded _ _ (storageStep config)
      (Sound config base top) (fun _ event => NamesClone event)
      (fun _ _ _ sound named moved => (sound.step isBase named moved).1) _ sound events named
    refine ⟨?_, fun storage visited => (always storage visited).accounts isBase⟩
    rintro ⟨storage, event⟩ member
    obtain ⟨done, rest, split, ran, enabled⟩ := (Machine.mem_moves_iff _ _ _ _ _).mp member
    obtain ⟨next, moved⟩ := Option.isSome_iff_exists.mp enabled
    have visited := (Machine.mem_visits_iff (storageStep config) _ _ _).mpr
      ⟨done, event :: rest, split, ran⟩
    exact ((always storage visited).step isBase (named _ member) moved).2

/-! ## Two storages -/

/-- Git clones one file of the size, and succeeds in everything. -/
def cloningGit (size : Nat) : Git where
  clone _ := .ok ⟨[], [([⟨"HEAD".toList, by decide⟩], some size)]⟩
  blocked := []
  config _ _ := .ok ()
  fetch _ _ := .ok []

theorem emptyStorage_emptyFiles : EmptyStorage exampleConfig emptyFiles := by
  let mirrors : Name := ⟨"mirrors".toList, by decide⟩
  refine ⟨emptyFiles.put [mirrors] (.directory none), rfl, fun top leads location below differ => ?_⟩
  have leadsThere : (emptyFiles.put [mirrors] (.directory none)).resolve
      exampleConfig.storagePath = some [mirrors] := rfl
  obtain rfl := Option.some.inj (leads.symm.trans leadsThere)
  have notRoot : location ≠ [] := by
    rintro rfl
    simp at below
  rw [get_put, if_neg differ, FileSystem.get, emptyFiles, List.lookup_cons,
    beq_false_of_ne notRoot]
  rfl

/-- Two repositories cloned and one of them deleted. -/
def twoCloned : List StorageEvent :=
  [.clone (cloningGit 50) "url-a".toList "repo-a".toList 0,
    .clone (cloningGit 80) "url-b".toList "repo-b".toList 0, .delete "repo-a".toList]

/-- The run goes to its end, and the mirrors are independent. -/
theorem independent_twoCloned :
    ((storageStep exampleConfig).run ⟨emptyFiles, []⟩ twoCloned).map Storage.cloned =
        some ["repo-b".toList] ∧
      Independent exampleConfig ⟨emptyFiles, []⟩ twoCloned := by
  have named : ∀ event ∈ twoCloned, NamesClone event := by
    have first : IsName "repo-a".toList := by decide
    have second : IsName "repo-b".toList := by decide
    simp only [twoCloned, List.forall_mem_cons, List.not_mem_nil, false_imp_iff, implies_true,
      and_true]
    exact ⟨first, second, trivial⟩
  refine ⟨rfl, (independent_iff_names emptyStorage_emptyFiles twoCloned).mpr ?_⟩
  rintro ⟨storage, event⟩ member
  obtain ⟨done, rest, split, -, -⟩ := (Machine.mem_moves_iff _ _ _ _ _).mp member
  exact named event (split ▸ List.mem_append_right _ List.mem_cons_self)

/-- A mirror below a directory of the storage is not listed by its id. -/
theorem not_independent_orgRepo :
    ¬Independent exampleConfig ⟨emptyFiles, []⟩
      [.clone (cloningGit 50) "url".toList "org/repo".toList 0] := by
  rintro ⟨undisturbed, accounts⟩
  obtain ⟨next, moved⟩ : ∃ next, storageStep exampleConfig ⟨emptyFiles, []⟩
      (.clone (cloningGit 50) "url".toList "org/repo".toList 0) = some next := ⟨_, rfl⟩
  have member : (⟨emptyFiles, []⟩, .clone (cloningGit 50) "url".toList "org/repo".toList 0) ∈
      (storageStep exampleConfig).moves ⟨emptyFiles, []⟩
        [.clone (cloningGit 50) "url".toList "org/repo".toList 0] := by
    rw [Machine.moves, moved]
    exact List.mem_cons_self
  have visited := Machine.mem_visits_of_mem_moves _ member moved
  have isName : IsName "org/repo".toList :=
    (undisturbed _ member).namesClone moved (accounts next visited)
  revert isName
  decide

end Kenjutsu.Mirror
