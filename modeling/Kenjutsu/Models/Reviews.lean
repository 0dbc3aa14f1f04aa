import Mathlib.Data.List.Basic

/-!
# Reviews

The lifecycle of a single pull request review run.
-/

set_option autoImplicit false

namespace Kenjutsu.Models

/-- Lifecycle status for a PR review. -/
inductive ReviewStatus where
  | queued
  | processing
  | complete
  | failed
  | aborted
  | superseded
deriving DecidableEq

/-- A review that is still a live result: not superseded, aborted, or failed. -/
def ReviewStatus.isCanonical (status : ReviewStatus) : Bool :=
  !([.superseded, .aborted, .failed].contains status)

/-- One review run for a specific PR commit. -/
structure Review where
  id : String
  repoId : String
  prNumber : Int
  headSha : String
  status : ReviewStatus := .queued
  supersededBy : Option String := none
deriving DecidableEq

end Kenjutsu.Models
