import Kenjutsu.Foundations.Text

/-!
# Parsed unified diffs

Every line of a hunk has line numbers in the old and in the new file of its own, so
either view of a file can be put together without parsing again.
-/

set_option autoImplicit false

namespace Kenjutsu.Diff

open Foundations

inductive ChangeType where
  | add
  | delete
  | context
deriving DecidableEq, Repr

/-- A line of a hunk; an addition has no old line number, a deletion no new one. -/
structure HunkLine where
  changeType : ChangeType
  content : Text
  oldLineno : Option Nat
  newLineno : Option Nat
deriving DecidableEq, Repr

/-- The enclosing function or class that the AST extension finds. -/
structure ScopeContext where
  kind : Text
  name : Text
  signature : Text
  startLine : Nat
  endLine : Nat
  language : Text
deriving DecidableEq, Repr

/-- A contiguous block of changes. -/
structure Hunk where
  oldStart : Nat
  oldCount : Nat
  newStart : Nat
  newCount : Nat
  lines : List HunkLine
  sectionHeader : Text := []
  enclosingScope : Option ScopeContext := none
deriving DecidableEq, Repr

/-- No line of the hunk is an addition. -/
def Hunk.isDeletionOnly (hunk : Hunk) : Bool :=
  !hunk.lines.any fun line => line.changeType = .add

/-- The changes of one file; a new file has no old path, a deleted one no new path. -/
structure PatchFile where
  oldPath : Option Text
  newPath : Option Text
  hunks : List Hunk
  isBinary : Bool := false
deriving DecidableEq, Repr

/-- The new path when there is one, otherwise the old path; an empty path counts as none. -/
def PatchFile.path (file : PatchFile) : Text :=
  ((file.newPath.filter (· ≠ [])).or (file.oldPath.filter (· ≠ []))).getD []

def PatchFile.isNewFile (file : PatchFile) : Bool :=
  file.oldPath.isNone && file.newPath.isSome

def PatchFile.isDeletedFile (file : PatchFile) : Bool :=
  file.oldPath.isSome && file.newPath.isNone

theorem PatchFile.isDeletedFile_of_newPath {file : PatchFile} {path : Text}
    (newPath : file.newPath = some path) : file.isDeletedFile = false := by
  simp [isDeletedFile, newPath]

def PatchFile.isRename (file : PatchFile) : Bool :=
  file.oldPath.isSome && file.newPath.isSome && file.oldPath ≠ file.newPath

end Kenjutsu.Diff
