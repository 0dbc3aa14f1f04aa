import Kenjutsu.Foundations.Dicts
import Kenjutsu.Foundations.FileSystems

/-!
# The lifecycle of bare mirrors

A mirror is a directory that git has cloned: the mark of the directory says which fetch
refspec is configured and which refs the mirror has. The repository id is a path below the
storage path, taken as it is.

What git answers is the environment's choice. A failing `git clone` leaves no directory; a
`git fetch` brings the refs of the remote only where the fetch refspec is configured, as a
bare clone has none by itself.
-/

set_option autoImplicit false

namespace Kenjutsu.Mirror

open Foundations

/-- What `remote.origin.fetch` is set to. -/
def fetchRefspec : Text := "+refs/*:refs/*".toList

abbrev Refs := List (Text × Text)

/-- A bare mirror: the value of `remote.origin.fetch`, and the refs. -/
structure BareMirror where
  fetch : Option Text
  refs : Refs
deriving DecidableEq

abbrev Files := FileSystem BareMirror

structure MirrorConfig where
  storagePath : Path
  largeRepoThresholdBytes : Int := 1 * 1024 ^ 3
  blobSizeLimit : Text := "1m".toList

/-- The exceptions of the lifecycle, and the one of the operating system for what is not a
directory. -/
inductive Raised where
  | mirrorAlreadyExists (message : Text)
  | mirrorNotFound (message : Text)
  | mirrorClone (message : Text)
  | mirrorFetch (message : Text)
  | notADirectory
deriving DecidableEq

/-- The filesystem path of a repository's bare mirror. -/
def mirrorPath (config : MirrorConfig) (repoId : Text) : Path :=
  config.storagePath.join (Path.parse repoId)

/-! ## Git -/

/-- What a clone brings: refs, and the files with their sizes and the directories below the
directory of the mirror. -/
structure Cloned where
  refs : Refs
  contents : List (Location × Option Nat)

/-- How git answers each command line, run in a directory or not: with the standard error
if it fails. `blocked` is the one where the directory of a clone cannot be made. -/
structure Git where
  clone : List Text → Except Text Cloned
  blocked : Text
  config : List Text → Path → Except Text Unit
  fetch : List Text → Path → Except Text Refs

/-- `git clone` into a directory that does not exist. -/
def Git.cloneInto (git : Git) (command : List Text) (dest : Path) (files : Files) :
    Except Text Files :=
  match git.clone command with
  | .error stderr => .error stderr
  | .ok cloned =>
      match files.create dest { fetch := none, refs := cloned.refs } cloned.contents with
      | none => .error git.blocked
      | some made => .ok made

/-- What a successful `git fetch --prune` makes of a mirror. -/
def BareMirror.fetched (refs : Refs) (mirror : BareMirror) : BareMirror :=
  if mirror.fetch = some fetchRefspec then { mirror with refs } else mirror

/-- The file system with the mirror at a path changed. -/
def changeMirror (dest : Path) (change : BareMirror → BareMirror) (files : Files) : Files :=
  match files.resolve dest with
  | none => files
  | some location => files.modifyMark location change

/-! ## Operations -/

def cloneCommand (config : MirrorConfig) (repoUrl : Text) (repoSizeBytes : Int) (dest : Path) :
    List Text :=
  ["git".toList, "clone".toList, "--bare".toList] ++
    (if repoSizeBytes ≥ config.largeRepoThresholdBytes then
      ["--filter=blob:limit=".toList ++ config.blobSizeLimit] else []) ++
    [repoUrl, dest.str]

def configCommand : List Text :=
  ["git".toList, "config".toList, "remote.origin.fetch".toList, fetchRefspec]

def fetchCommand : List Text := ["git".toList, "fetch".toList, "--prune".toList]

/-- `clone_mirror`. -/
def cloneMirror (git : Git) (repoUrl repoId : Text) (config : MirrorConfig) (repoSizeBytes : Int)
    (files : Files) : Except Raised Path × Files :=
  let dest := mirrorPath config repoId
  if files.exists? dest then
    (.error (.mirrorAlreadyExists ("Mirror already exists at ".toList ++ dest.str)), files)
  else
    match git.cloneInto (cloneCommand config repoUrl repoSizeBytes dest) dest files with
    | .error stderr => (.error (.mirrorClone stderr), files)
    | .ok cloned =>
        -- the directory stays when its configuration fails
        match git.config configCommand dest with
        | .error stderr =>
            (.error (.mirrorClone ("Failed to configure fetch refspec: ".toList ++ stderr)), cloned)
        | .ok () =>
            (.ok dest, changeMirror dest (fun mirror => { mirror with fetch := some fetchRefspec })
              cloned)

/-- Whether a path leads to a directory. -/
def isDirectory (files : Files) (path : Path) : Bool := (files.resolve path).any files.isDir

/-- `fetch_mirror`. -/
def fetchMirror (git : Git) (repoId : Text) (config : MirrorConfig) (files : Files) :
    Except Raised Unit × Files :=
  let dest := mirrorPath config repoId
  if !files.exists? dest then
    (.error (.mirrorNotFound ("Mirror not found at ".toList ++ dest.str)), files)
  else if !isDirectory files dest then (.error .notADirectory, files)
  else
    match git.fetch fetchCommand dest with
    | .error stderr => (.error (.mirrorFetch stderr), files)
    | .ok refs => (.ok (), changeMirror dest (BareMirror.fetched refs) files)

/-- `delete_mirror`. -/
def deleteMirror (repoId : Text) (config : MirrorConfig) (files : Files) :
    Except Raised Unit × Files :=
  let dest := mirrorPath config repoId
  if files.exists? dest then
    if !isDirectory files dest then (.error .notADirectory, files)
    else
      match files.resolve dest with
      | none => (.ok (), files)
      | some location => (.ok (), files.removeTree location)
  else (.ok (), files)

/-- The total size of the files below a path. -/
def totalSize (files : Files) (path : Path) : Nat := ((files.resolve path).map files.sizeBelow).getD 0

/-- `mirror_size_bytes`. -/
def mirrorSizeBytes (repoId : Text) (config : MirrorConfig) (files : Files) : Except Raised Nat :=
  let dest := mirrorPath config repoId
  if !files.exists? dest then
    .error (.mirrorNotFound ("Mirror not found at ".toList ++ dest.str))
  else .ok (totalSize files dest)

/-- The names of the directories in a directory. -/
def directories (files : Files) (location : Location) : List Name :=
  (files.names location).filter fun name => files.isDir (name :: location)

/-- Each directory in a directory by its name, with the total size below it. -/
def sizesIn (files : Files) (location : Location) : Dict Text Nat :=
  Dict.ofList ((directories files location).map fun name =>
    (name.text, files.sizeBelow (name :: location)))

/-- `all_mirror_sizes`. -/
def allMirrorSizes (config : MirrorConfig) (files : Files) : Except Raised (Dict Text Nat) :=
  if !files.exists? config.storagePath then .ok ∅
  else if !isDirectory files config.storagePath then .error .notADirectory
  else
    match files.resolve config.storagePath with
    | none => .ok ∅
    | some location => .ok (sizesIn files location)

structure MirrorHandle where
  repoId : Text
  path : Path
deriving DecidableEq

/-- `get_mirror`; `repr` is the built-in function. -/
def getMirror (repr : Text → Text) (repoId : Text) (config : MirrorConfig) (files : Files) :
    Except Raised MirrorHandle :=
  let path := mirrorPath config repoId
  if !files.exists? path then
    .error (.mirrorNotFound
      ("Mirror not found for repo ".toList ++ repr repoId ++ " at ".toList ++ path.str))
  else .ok { repoId, path }

end Kenjutsu.Mirror
