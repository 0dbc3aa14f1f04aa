import Kenjutsu.Models.Findings

/-!
# Types of the review pipeline

The typed interfaces between the business logic and the orchestration layer.
-/

set_option autoImplicit false

namespace Kenjutsu.Pipeline.Types

/-- Status values for a review record, updated at each pipeline step. -/
inductive ReviewStatus where
  | queued
  | shaChecking
  | processingDiff
  | extractingContext
  | runningDeterministic
  | runningLlm
  | scoringEvidence
  | publishing
  | complete
  | failed
  | superseded
  | aborted
deriving DecidableEq, Repr

/-- Identifying metadata for a pull request review job. -/
structure PrMetadata where
  repoId : String
  prNumber : Int
  baseSha : String
  headSha : String
  repoUrl : String
deriving DecidableEq, Repr

/-- Parsed diff and context ready for analysis steps. -/
structure ReviewRequest where
  prMetadata : PrMetadata
  diffPatches : List String
deriving DecidableEq, Repr

/-- Structural information extracted from the repo mirror. -/
structure StructuralContext where
  repoId : String
  headSha : String
  referencedSymbols : List String := []
  callGraphEdges : List (String × String) := []
deriving DecidableEq, Repr

/-- Final outcome of a review workflow run. -/
structure ReviewResult where
  status : String
  reason : Option String := none
  findingCount : Int := 0
deriving DecidableEq, Repr

end Kenjutsu.Pipeline.Types
