import Kenjutsu.Diff.Parser

/-!
# Line numbers without gaps

Every hunk of a parsed diff has its lines numbered by `numberLines` from its starts
(`numbered_of_mem_parseDiff`), whatever the text was. So the lines of the new file have
consecutive numbers from the new start, and those of the old file from the old start.
-/

set_option autoImplicit false

namespace Kenjutsu.Diff

open Foundations Foundations.Text

/-- The lines that stand in the new file. -/
def newLines (lines : List HunkLine) : List HunkLine :=
  lines.filter fun line => line.changeType ≠ .delete

/-- The lines that stood in the old file. -/
def oldLines (lines : List HunkLine) : List HunkLine :=
  lines.filter fun line => line.changeType ≠ .add

/-- Additions have no old number and deletions no new one, context lines have both, and on
either side the numbers count up from the start of the hunk. -/
structure GapFree (hunk : Hunk) : Prop where
  additions : ∀ line ∈ hunk.lines, line.changeType = .add → line.oldLineno = none
  deletions : ∀ line ∈ hunk.lines, line.changeType = .delete → line.newLineno = none
  contexts : ∀ line ∈ hunk.lines, line.changeType = .context →
    line.oldLineno.isSome ∧ line.newLineno.isSome
  newNumbers : (newLines hunk.lines).map HunkLine.newLineno =
    (List.range' hunk.newStart (newLines hunk.lines).length).map some
  oldNumbers : (oldLines hunk.lines).map HunkLine.oldLineno =
    (List.range' hunk.oldStart (oldLines hunk.lines).length).map some

/-! ## Numbered lines -/

variable (oldLineno newLineno : Nat) (bodies : List (ChangeType × Text))

/-- Which numbers a line has is told by its type. -/
theorem sides_of_mem_numberLines :
    ∀ line ∈ numberLines oldLineno newLineno bodies,
      (line.changeType = .add ↔ line.oldLineno = none) ∧
        (line.changeType = .delete ↔ line.newLineno = none) := by
  fun_induction numberLines oldLineno newLineno bodies with
  | case1 => simp
  | case2 oldLineno newLineno content rest ih => simpa using ih
  | case3 oldLineno newLineno content rest ih => simpa using ih
  | case4 oldLineno newLineno content rest ih => simpa using ih

/-- The new numbers count up: an addition and a context line take the next one. -/
theorem newLineno_numberLines :
    (newLines (numberLines oldLineno newLineno bodies)).map HunkLine.newLineno =
      (List.range' newLineno (newLines (numberLines oldLineno newLineno bodies)).length).map
        some := by
  unfold newLines
  fun_induction numberLines oldLineno newLineno bodies with
  | case1 => rfl
  | case2 oldLineno newLineno content rest ih => simpa [List.range'_succ] using ih
  | case3 oldLineno newLineno content rest ih => simpa using ih
  | case4 oldLineno newLineno content rest ih => simpa [List.range'_succ] using ih

/-- The old numbers count up: a deletion and a context line take the next one. -/
theorem oldLineno_numberLines :
    (oldLines (numberLines oldLineno newLineno bodies)).map HunkLine.oldLineno =
      (List.range' oldLineno (oldLines (numberLines oldLineno newLineno bodies)).length).map
        some := by
  unfold oldLines
  fun_induction numberLines oldLineno newLineno bodies with
  | case1 => rfl
  | case2 oldLineno newLineno content rest ih => simpa using ih
  | case3 oldLineno newLineno content rest ih => simpa [List.range'_succ] using ih
  | case4 oldLineno newLineno content rest ih => simpa [List.range'_succ] using ih

/-- The lines of the hunk are numbered from its starts. -/
def Hunk.Numbered (hunk : Hunk) : Prop :=
  ∃ bodies, hunk.lines = numberLines hunk.oldStart hunk.newStart bodies

theorem Hunk.Numbered.gapFree {hunk : Hunk} (numbered : hunk.Numbered) : GapFree hunk := by
  obtain ⟨bodies, lines⟩ := numbered
  have sides := sides_of_mem_numberLines hunk.oldStart hunk.newStart bodies
  rw [← lines] at sides
  refine ⟨fun line member => (sides line member).1.mp,
    fun line member => (sides line member).2.mp, fun line member isContext => ?_, ?_, ?_⟩
  · have bothSides := sides line member
    rw [isContext] at bothSides
    constructor
    · exact Option.isSome_iff_ne_none.mpr fun none => by cases bothSides.1.mpr none
    · exact Option.isSome_iff_ne_none.mpr fun none => by cases bothSides.2.mpr none
  · rw [lines]
    exact newLineno_numberLines _ _ bodies
  · rw [lines]
    exact oldLineno_numberLines _ _ bodies

/-! ## Parsed hunks -/

theorem numbered_of_mem_parseHunks (lines : List Text) :
    ∀ hunk ∈ parseHunks lines, hunk.Numbered := by
  induction lines with
  | nil => simp [parseHunks]
  | cons line lines ih =>
      cases found : matchHunkHeader line with
      | none => rwa [parseHunks_cons_none (by simp [isHunkHeader, found])]
      | some header =>
          rw [parseHunks_cons_some found, List.forall_mem_cons]
          exact ⟨⟨_, rfl⟩, ih⟩

theorem numbered_of_mem_parseBlock (block : List Text) :
    ∀ hunk ∈ (parseBlock block).hunks, hunk.Numbered := by
  intro hunk member
  simp only [parseBlock, FileHeader.entry] at member
  split at member
  · cases member
  · exact numbered_of_mem_parseHunks _ hunk member

/-- The omission leaves the hunks that it keeps as they are. -/
theorem exists_of_mem_applyDeletionOmission {patches : List PatchFile} {patch : PatchFile}
    (member : patch ∈ applyDeletionOmission patches) :
    ∃ original ∈ patches, patch.hunks.Sublist original.hunks := by
  obtain ⟨original, kept, rfl⟩ := List.mem_map.mp member
  exact ⟨original, (List.mem_filter.mp kept).1, List.filter_sublist⟩

theorem numbered_of_mem_parseDiff (diffText : Text) (includeDeletions : Bool) :
    ∀ patch ∈ parseDiff diffText includeDeletions, ∀ hunk ∈ patch.hunks, hunk.Numbered := by
  have ofBlocks : ∀ patch ∈ (fileBlocks (splitlines diffText)).map parseBlock,
      ∀ hunk ∈ patch.hunks, hunk.Numbered := by
    rw [List.forall_mem_map]
    exact fun block _ => numbered_of_mem_parseBlock block
  intro patch member hunk isHunk
  unfold parseDiff at member
  split at member
  · cases member
  · split at member
    · exact ofBlocks patch member hunk isHunk
    · obtain ⟨original, isOriginal, kept⟩ := exists_of_mem_applyDeletionOmission member
      exact ofBlocks original isOriginal hunk (kept.subset isHunk)

/-- **The line numbers of every parsed hunk are without gaps**, whatever the text. -/
theorem gapFree_of_mem_parseDiff (diffText : Text) (includeDeletions : Bool) :
    ∀ patch ∈ parseDiff diffText includeDeletions, ∀ hunk ∈ patch.hunks, GapFree hunk := by
  intro patch member hunk isHunk
  exact (numbered_of_mem_parseDiff diffText includeDeletions patch member hunk isHunk).gapFree

/-- A hunk with an unknown line and an empty line in it. -/
def oddDiff : Text := "diff --git a/x b/x\n+++ b/x\n@@ -7 +9 @@\n?\n+one\n\n-two".toList

def oddHunk : Hunk where
  oldStart := 7
  oldCount := 1
  newStart := 9
  newCount := 1
  lines := numberLines 7 9 [(.add, "one".toList), (.context, []), (.delete, "two".toList)]

theorem parseDiff_oddDiff :
    parseDiff oddDiff =
      [{ oldPath := some "x".toList, newPath := some "x".toList, hunks := [oddHunk] }] := by
  have found : matchHunkHeader "@@ -7 +9 @@".toList = some ⟨['7'], none, ['9'], none, []⟩ := by
    decide
  have notBlank : ¬(decide (oddDiff = []) || decide (strip oddDiff = [])) = true := by decide
  have blocks : fileBlocks (splitlines oddDiff) =
      [["diff --git a/x b/x".toList, "+++ b/x".toList, "@@ -7 +9 @@".toList, ['?'],
        "+one".toList, [], "-two".toList]] := by
    decide
  have noHeaders : ∀ line ∈ [['?'], "+one".toList, [], "-two".toList],
      isHunkHeader line = false := by
    decide
  have hunks : parseHunks ["@@ -7 +9 @@".toList, ['?'], "+one".toList, [], "-two".toList] =
      [oddHunk] := by
    have below := parseHunks_append noHeaders []
    rw [parseHunks_cons_some found, ← List.append_nil [['?'], "+one".toList, [], "-two".toList],
      below, parseHunks]
    decide
  have header : readHeader {} ["diff --git a/x b/x".toList, "+++ b/x".toList,
      "@@ -7 +9 @@".toList, ['?'], "+one".toList, [], "-two".toList] =
        ({ oldPath := some "x".toList, newPath := some "x".toList },
          ["@@ -7 +9 @@".toList, ['?'], "+one".toList, [], "-two".toList]) := by
    decide
  rw [parseDiff, if_neg notBlank, blocks, if_pos rfl, List.map_singleton, parseBlock, header]
  simp only [FileHeader.entry, hunks, Bool.false_eq_true, if_false]

/-- The unknown line takes no number. -/
theorem gapFree_oddDiff : GapFree oddHunk := by
  have parsed := parseDiff_oddDiff
  refine gapFree_of_mem_parseDiff oddDiff true
    ⟨some "x".toList, some "x".toList, [oddHunk], false⟩ ?_ oddHunk ?_
  · simp [parsed]
  · simp

end Kenjutsu.Diff
