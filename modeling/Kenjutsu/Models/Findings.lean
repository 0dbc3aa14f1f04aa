import Mathlib.Data.List.Basic

/-!
# Findings

A finding and the five independent dimensions of its signal. The values of the
enumerations are the strings stored in the database and shown in comments.
-/

set_option autoImplicit false

namespace Kenjutsu.Models

/-- How the finding was produced. -/
inductive Origin where
  | deterministic
  | graph
  | llm
  | predictive
deriving DecidableEq, Repr

/-- How certain we are the finding is correct. -/
inductive Confidence where
  | verified
  | high
  | medium
  | low
deriving DecidableEq, Repr

/-- How important it is to fix. -/
inductive Severity where
  | critical
  | warning
  | suggestion
deriving DecidableEq, Repr

/-- What kind of finding. -/
inductive Category where
  | bug
  | security
  | breakingChange
  | performance
  | missingTest
  | coChange
  | staleDoc
  | style
deriving DecidableEq, Repr

/-- The value of the enumeration member. -/
def Category.value : Category → String
  | .bug => "bug"
  | .security => "security"
  | .breakingChange => "breaking-change"
  | .performance => "performance"
  | .missingTest => "missing-test"
  | .coChange => "co-change"
  | .staleDoc => "stale-doc"
  | .style => "style"

/-- Whether and how to show the finding. -/
inductive Publishability where
  | publish
  | redactAndPublish
  | suppress
  | auditOnly
deriving DecidableEq, Repr

/-- The value of the enumeration member. -/
def Publishability.value : Publishability → String
  | .publish => "publish"
  | .redactAndPublish => "redact-and-publish"
  | .suppress => "suppress"
  | .auditOnly => "audit-only"

/-- A single review finding. -/
structure Finding where
  filePath : String
  lineStart : Int
  lineEnd : Int
  origin : Origin
  confidence : Confidence
  severity : Severity
  category : Category
  publishability : Publishability := .publish
  description : String
  suggestion : Option String := none
  evidenceSources : List String := []
deriving DecidableEq, Repr

end Kenjutsu.Models
