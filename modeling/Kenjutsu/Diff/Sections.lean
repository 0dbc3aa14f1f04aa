import Kenjutsu.Diff.Parser

/-!
# The sections of a diff

A section goes from a `diff --git` line to the next one. Its lines, its block and its
entry depend on no other section, whatever stands in them, so a diff is parsed section
by section (`parseDiff_append`).
-/

set_option autoImplicit false

namespace Kenjutsu.Diff

open Foundations Foundations.Text

/-- The text is empty or ends with a newline. -/
def EndsLine (text : Text) : Prop := text = [] ∨ text.getLast? = some '\n'

instance (text : Text) : Decidable (EndsLine text) :=
  inferInstanceAs (Decidable (text = [] ∨ text.getLast? = some '\n'))

theorem EndsLine.append {first second : Text} (one : EndsLine first) (two : EndsLine second) :
    EndsLine (first ++ second) := by
  rcases two with rfl | ends
  · rwa [List.append_nil]
  · exact .inr (by rw [List.getLast?_append, ends, Option.some_or])

theorem endsLine_unlines (lines : List Text) : EndsLine (unlines lines) := by
  rcases List.eq_nil_or_concat lines with rfl | ⟨before, last, rfl⟩
  · exact .inl rfl
  · exact .inr (by simp [unlines])

/-! ## Blocks -/

/-- The lines of a text that ends with a newline do not depend on what follows. -/
theorem splitlines_append_of_endsLine {first : Text} (ends : EndsLine first) (second : Text) :
    splitlines (first ++ second) = splitlines first ++ splitlines second := by
  rcases ends with rfl | ends
  · rfl
  · obtain ⟨line, rfl⟩ := List.getLast?_eq_some_iff.mp ends
    rw [List.append_assoc, List.singleton_append, splitlines_append]
    rfl

/-- The blocks do not depend on what follows if a block starts there. -/
theorem fileBlocks_append_of_head (first : List Text) {second : List Text}
    (next : ∀ line, second.head? = some line → startsBlock line) :
    fileBlocks (first ++ second) = fileBlocks first ++ fileBlocks second := by
  induction first with
  | nil => rfl
  | cons line first ih =>
      have sameEnd : (first ++ second).takeWhile (fun later => !startsBlock later) =
          first.takeWhile fun later => !startsBlock later := by
        rw [List.takeWhile_append]
        split
        · rename_i whole
          rw [(List.takeWhile_prefix _).eq_of_length whole]
          cases second with
          | nil => exact List.append_nil _
          | cons later second =>
              rw [List.takeWhile_cons_of_neg (by simp [next later rfl]), List.append_nil]
        · rfl
      rw [List.cons_append, fileBlocks, fileBlocks, sameEnd, ih]
      split <;> rfl

/-- The first line of a section starts a block. -/
theorem startsBlock_head_splitlines {text : Text} (starts : startsBlock text) :
    ∀ line, (splitlines text).head? = some line → startsBlock line := by
  obtain ⟨rest, rfl⟩ := List.isPrefixOf_iff_prefix.mp starts
  have unbroken : Unbroken "diff --git ".toList := by decide
  obtain ⟨first, others, lines⟩ := exists_splitlines_append unbroken (by decide) rest
  rw [lines]
  rintro line ⟨⟩
  exact startsWith_append "diff --git " first

/-- In a blank text no line starts a block. -/
theorem fileBlocks_of_blank {text : Text} (blank : strip text = []) :
    fileBlocks (splitlines text) = [] := by
  rw [fileBlocks_eq_nil_iff]
  intro line member
  by_contra starts
  obtain ⟨rest, rfl⟩ := List.isPrefixOf_iff_prefix.mp (Bool.of_not_eq_false starts)
  have inText := mem_of_mem_splitFrom false text _ member 'd' List.mem_cons_self
  have space := isSpace_of_strip_eq_nil blank 'd' inText
  cases space

/-- Blank texts need no return of their own. -/
theorem parseDiff_eq (text : Text) (includeDeletions : Bool) :
    parseDiff text includeDeletions =
      if includeDeletions then (fileBlocks (splitlines text)).map parseBlock
      else applyDeletionOmission ((fileBlocks (splitlines text)).map parseBlock) := by
  unfold parseDiff
  split
  · rename_i blank
    have stripped : strip text = [] := by
      rcases Bool.or_eq_true_iff.mp blank with empty | stripped
      · rw [of_decide_eq_true empty]
        rfl
      · exact of_decide_eq_true stripped
    rw [fileBlocks_of_blank stripped]
    split <;> rfl
  · rfl

/-! ## Entries -/

/-- Without deletions, the entries are those that the omission keeps. -/
theorem parseDiff_false (text : Text) :
    parseDiff text false = applyDeletionOmission (parseDiff text) := by
  rw [parseDiff_eq, parseDiff_eq, if_pos rfl, if_neg (by simp)]

/-- An entry that is not deleted is the first with the deletions or without. -/
theorem exists_parseDiff_eq_cons {text : Text} {file : PatchFile} {others : List PatchFile}
    (parsed : parseDiff text = file :: others) (kept : file.isDeletedFile = false)
    (includeDeletions : Bool) :
    ∃ hunks more, parseDiff text includeDeletions = { file with hunks } :: more := by
  cases includeDeletions with
  | true => exact ⟨file.hunks, others, parsed⟩
  | false =>
      rw [parseDiff_false, parsed, applyDeletionOmission, List.filter_cons_of_pos (by simp [kept])]
      exact ⟨_, _, rfl⟩

theorem applyDeletionOmission_append (first second : List PatchFile) :
    applyDeletionOmission (first ++ second) =
      applyDeletionOmission first ++ applyDeletionOmission second := by
  rw [applyDeletionOmission, List.filter_append, List.map_append]
  rfl

/-- What follows a text that ends with a newline is parsed by itself if it starts a
section. -/
theorem parseDiff_append {first second : Text} (ends : EndsLine first)
    (next : second = [] ∨ startsBlock second) (includeDeletions : Bool) :
    parseDiff (first ++ second) includeDeletions =
      parseDiff first includeDeletions ++ parseDiff second includeDeletions := by
  rcases next with rfl | starts
  · rw [List.append_nil]
    exact (List.append_nil _).symm
  · have blocks : fileBlocks (splitlines (first ++ second)) =
        fileBlocks (splitlines first) ++ fileBlocks (splitlines second) := by
      rw [splitlines_append_of_endsLine ends,
        fileBlocks_append_of_head _ (startsBlock_head_splitlines starts)]
    simp only [parseDiff_eq, blocks, List.map_append, applyDeletionOmission_append]
    split <;> rfl

/-- A text that starts a section and ends with a newline. -/
structure IsSection (text : Text) : Prop where
  starts : startsBlock text
  ends : EndsLine text

instance (text : Text) : Decidable (IsSection text) :=
  decidable_of_iff (startsBlock text ∧ EndsLine text)
    ⟨fun ⟨starts, ends⟩ => ⟨starts, ends⟩, fun ⟨starts, ends⟩ => ⟨starts, ends⟩⟩

theorem startsBlock_append {text : Text} (starts : startsBlock text) (more : Text) :
    startsBlock (text ++ more) := by
  obtain ⟨rest, rfl⟩ := List.isPrefixOf_iff_prefix.mp starts
  rw [List.append_assoc]
  exact startsWith_append "diff --git " _

section Flatten

variable {sections : List Text} (areSections : ∀ text ∈ sections, IsSection text)

include areSections

theorem startsBlock_flatten : sections.flatten = [] ∨ startsBlock sections.flatten := by
  cases sections with
  | nil => exact .inl rfl
  | cons text sections =>
      exact .inr (startsBlock_append (areSections text List.mem_cons_self).starts _)

/-- Sections are parsed one by one. -/
theorem parseDiff_flatten (includeDeletions : Bool) :
    parseDiff sections.flatten includeDeletions =
      sections.flatMap fun text => parseDiff text includeDeletions := by
  induction sections with
  | nil => rfl
  | cons text sections ih =>
      obtain ⟨first, others⟩ := List.forall_mem_cons.mp areSections
      rw [List.flatten_cons, parseDiff_append first.ends (startsBlock_flatten others), ih others,
        List.flatMap_cons]

end Flatten

end Kenjutsu.Diff
