import Mathlib.Data.List.Basic
import Kenjutsu.Foundations.Dicts
import Kenjutsu.Foundations.Tables

/-!
# Database rows

The rows of `repos`, `reviews` and `findings` with the columns that the modelled
functions read or write. Each table has its primary key as an invariant.
-/

set_option autoImplicit false

namespace Kenjutsu.Db

open Foundations

/-- A UUID, as its 32 hexadecimal digits. -/
structure UUID where
  digits : List (Fin 16)
  length_eq : digits.length = 32
deriving DecidableEq

/-- Numerals are digits. -/
instance neZeroBase : @NeZero Nat Zero.ofOfNat0 16 := ⟨by decide⟩

namespace UUID

/-- A lower case hexadecimal digit. -/
def hexDigit (digit : Fin 16) : Char := "0123456789abcdef".toList.getD digit.val '0'

/-- The digits in groups of 8, 4, 4, 4 and 12. -/
def strChars (id : UUID) : List Char :=
  let digits := id.digits.map hexDigit
  digits.take 8 ++ '-' :: (digits.drop 8).take 4 ++ '-' :: (digits.drop 12).take 4 ++
    '-' :: (digits.drop 16).take 4 ++ '-' :: digits.drop 20

/-- `str(id)`. -/
def str (id : UUID) : String := String.ofList id.strChars

theorem hexDigit_injective : Function.Injective hexDigit := by decide

theorem hexDigit_ne_hyphen (digit : Fin 16) : hexDigit digit ≠ '-' := by
  revert digit
  decide

/-- Without the hyphens, the digits are left. -/
theorem strChars_filter (id : UUID) :
    id.strChars.filter (· ≠ '-') = id.digits.map hexDigit := by
  have keeps : ∀ part : List Char, part ⊆ id.digits.map hexDigit →
      part.filter (· ≠ '-') = part := by
    intro part within
    refine List.filter_eq_self.mpr fun digit member => ?_
    obtain ⟨value, -, rfl⟩ := List.mem_map.mp (within member)
    simp [hexDigit_ne_hyphen]
  have group : ∀ start, (id.digits.map hexDigit).drop start =
      ((id.digits.map hexDigit).drop start).take 4 ++ (id.digits.map hexDigit).drop (start + 4) := by
    intro start
    rw [← List.drop_drop, List.take_append_drop]
  have dropped : ∀ start, (id.digits.map hexDigit).drop start ⊆ id.digits.map hexDigit :=
    fun start => List.drop_subset start _
  have taken : ∀ start, ((id.digits.map hexDigit).drop start).take 4 ⊆ id.digits.map hexDigit :=
    fun start digit member => dropped start (List.take_subset 4 _ member)
  calc id.strChars.filter (· ≠ '-')
      = (id.digits.map hexDigit).take 8 ++ (((id.digits.map hexDigit).drop 8).take 4 ++
          (((id.digits.map hexDigit).drop 12).take 4 ++
            (((id.digits.map hexDigit).drop 16).take 4 ++ (id.digits.map hexDigit).drop 20))) := by
        simp only [strChars, List.filter_append, List.append_assoc, List.cons_append,
          List.filter_cons, keeps _ (List.take_subset 8 _), keeps _ (taken _), keeps _ (dropped _)]
        simp
    _ = id.digits.map hexDigit := by
        rw [← group 16, ← group 12, ← group 8, List.take_append_drop]

/-- Different ids are written differently. -/
theorem str_injective : Function.Injective str := by
  intro first second same
  have chars : first.strChars = second.strChars := String.ofList_injective same
  have digits : first.digits.map hexDigit = second.digits.map hexDigit := by
    rw [← strChars_filter, ← strChars_filter, chars]
  obtain ⟨firstDigits, firstLength⟩ := first
  obtain ⟨secondDigits, secondLength⟩ := second
  obtain rfl : firstDigits = secondDigits := List.map_injective_iff.mpr hexDigit_injective digits
  rfl

end UUID

/-- A row of `repos`. -/
structure Repo where
  id : UUID
  installationId : UUID
  fullName : String

/-- A row of `reviews`. `github_comment_ids` maps the `str` of a finding id to
the id of its comment. -/
structure Review where
  id : UUID
  repoId : UUID
  prNumber : Int
  headSha : String
  githubReviewId : Option Int := none
  githubCommentIds : Option (Dict String Int) := none

/-- A row of `findings`. -/
structure Finding where
  id : UUID
  reviewId : UUID
  fingerprint : String
  filePath : String
  lineStart : Int
  lineEnd : Int
  origin : String
  confidence : String
  severity : String
  category : String
  publishability : String
  description : String
  suggestion : Option String := none
  evidenceSourcesJson : List String := []
  published : Bool := false
  githubCommentId : Option Int := none
deriving DecidableEq

/-- The tables, each with its primary key. -/
structure Database where
  repos : Table Repo.id
  reviews : Table Review.id
  findings : Table Finding.id

namespace Database

/-! ## Assignments -/

/-- Set `github_review_id` of a review. -/
def setReviewId (database : Database) (reviewId : UUID) (githubReviewId : Int) : Database :=
  { database with
    reviews := database.reviews.update reviewId
      (fun review => { review with githubReviewId := some githubReviewId }) (fun _ => rfl) }

/-- Set `github_comment_ids` of a review. -/
def setCommentIds (database : Database) (reviewId : UUID) (commentIds : Dict String Int) :
    Database :=
  { database with
    reviews := database.reviews.update reviewId
      (fun review => { review with githubCommentIds := some commentIds }) (fun _ => rfl) }

/-- Set `github_comment_id` of a finding. -/
def setCommentId (database : Database) (findingId : UUID) (commentId : Int) : Database :=
  { database with
    findings := database.findings.update findingId
      (fun finding => { finding with githubCommentId := some commentId }) (fun _ => rfl) }

/-- Set `published` of a finding. -/
def setPublished (database : Database) (findingId : UUID) : Database :=
  { database with
    findings := database.findings.update findingId
      (fun finding => { finding with published := true }) (fun _ => rfl) }

/-- Everything assigned for a new comment. -/
def recordComment (database : Database) (reviewId findingId : UUID) (commentId : Int)
    (commentIds : Dict String Int) : Database :=
  ((database.setCommentId findingId commentId).setPublished findingId).setCommentIds reviewId
    commentIds

@[simp] theorem find_setReviewId (database : Database) (reviewId sought : UUID)
    (githubReviewId : Int) :
    (database.setReviewId reviewId githubReviewId).reviews.find sought =
      if sought = reviewId then (database.reviews.find reviewId).map fun review =>
        { review with githubReviewId := some githubReviewId }
      else database.reviews.find sought := by
  simp only [setReviewId, Table.find_update]

@[simp] theorem find_setCommentIds (database : Database) (reviewId sought : UUID)
    (commentIds : Dict String Int) :
    (database.setCommentIds reviewId commentIds).reviews.find sought =
      if sought = reviewId then (database.reviews.find reviewId).map fun review =>
        { review with githubCommentIds := some commentIds }
      else database.reviews.find sought := by
  simp only [setCommentIds, Table.find_update]

@[simp] theorem find_setPublished (database : Database) (findingId sought : UUID) :
    (database.setPublished findingId).findings.find sought =
      if sought = findingId then (database.findings.find findingId).map fun finding =>
        { finding with published := true }
      else database.findings.find sought := by
  simp only [setPublished, Table.find_update]

@[simp] theorem find_recordComment (database : Database) (reviewId findingId sought : UUID)
    (commentId : Int) (commentIds : Dict String Int) :
    (database.recordComment reviewId findingId commentId commentIds).findings.find sought =
      if sought = findingId then (database.findings.find findingId).map fun finding =>
        { finding with githubCommentId := some commentId, published := true }
      else database.findings.find sought := by
  simp only [recordComment, setCommentIds, setPublished, setCommentId, Table.find_update]
  by_cases same : sought = findingId
  · simp only [if_pos same, if_true, Option.map_map]
    rfl
  · simp only [if_neg same]

theorem reviews_recordComment (database : Database) (reviewId findingId : UUID) (commentId : Int)
    (commentIds : Dict String Int) :
    (database.recordComment reviewId findingId commentId commentIds).reviews =
      (database.setCommentIds reviewId commentIds).reviews := rfl

/-! ## What is stored for a review -/

/-- The stored GitHub id of a review. -/
def storedReviewId (database : Database) (reviewId : UUID) : Option Int :=
  (database.reviews.find reviewId).bind Review.githubReviewId

/-- The stored map of comment ids of a review. -/
def storedCommentIds (database : Database) (reviewId : UUID) : Dict String Int :=
  ((database.reviews.find reviewId).bind Review.githubCommentIds).getD ∅

/-- The comment id stored with a finding of a review. -/
def storedCommentId (database : Database) (reviewId findingId : UUID) : Option Int :=
  (database.findings.find findingId).bind fun finding =>
    if finding.reviewId = reviewId then finding.githubCommentId else none

end Database

end Kenjutsu.Db
