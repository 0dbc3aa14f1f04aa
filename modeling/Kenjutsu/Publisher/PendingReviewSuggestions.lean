import Kenjutsu.Foundations.Fences
import Kenjutsu.Foundations.Text
import Kenjutsu.Publisher.PendingReview

/-!
# The suggestion of a comment

The body of a comment is read as Markdown: a suggestion block opens at a line that is
"```suggestion" and closes at the next line of three or more backticks, and only those. Lines
end with newlines. The description and the suggestion of a finding are written by a model and
put into the body as they are, so a line of either may be taken for a fence.
-/

set_option autoImplicit false

namespace Kenjutsu.Publisher

open Foundations Kenjutsu.Models

/-- A line that opens a suggestion block. -/
def opener : Text := "```suggestion".toList

/-- The line that `format_comment_body` closes a block with. -/
def closer : Text := "```".toList

/-- A line of three or more backticks. -/
def closesBlock (line : Text) : Bool := 3 ≤ line.length && line.all (· = '\x60')

theorem closesBlock_opener : closesBlock opener = false := by decide

/-- The fences of suggestion blocks. -/
def suggestionFence : Fence Text where
  opens line := line = opener
  closes := closesBlock
  apart line opens := by
    rw [of_decide_eq_true opens]
    exact closesBlock_opener

/-- The lines of a text. -/
def lines (text : String) : List Text := text.toList.splitOn '\n'

/-- The contents of the suggestion blocks of a body. -/
def suggestionBlocks (body : String) : List Text :=
  (suggestionFence.blocks (lines body)).map (List.intercalate ['\n'])

/-- The suggestion of a finding, if it is not empty. -/
def suggestionOf (finding : Finding) : List Text :=
  match finding.suggestion with
  | none => []
  | some suggestion => if suggestion = "" then [] else [suggestion.toList]

/-- The suggestion blocks of the comment are the suggestion of the finding: one if it is not
empty, and none otherwise. -/
def RendersSuggestion (finding : Finding) : Prop :=
  suggestionBlocks (formatCommentBody finding) = suggestionOf finding

/-- No line of the description opens a block, and no line of the suggestion closes one. -/
structure Fenceless (finding : Finding) : Prop where
  description : opener ∉ lines finding.description
  suggestion : ∀ line ∈ lines (finding.suggestion.getD ""), closesBlock line = false

instance (finding : Finding) : Decidable (Fenceless finding) :=
  decidable_of_iff (opener ∉ lines finding.description ∧
      ∀ line ∈ lines (finding.suggestion.getD ""), closesBlock line = false)
    ⟨fun ⟨description, suggestion⟩ => ⟨description, suggestion⟩,
      fun ⟨description, suggestion⟩ => ⟨description, suggestion⟩⟩

/-! ## The lines of a comment -/

theorem newline_notMem_badge (severity : Severity) : '\n' ∉ (severityBadge severity).toList := by
  cases severity <;> decide

/-- The lines before the suggestion: the badge, an empty one and the description. -/
theorem lines_heading (finding : Finding) :
    lines (severityBadge finding.severity ++ "\n\n" ++ finding.description) =
      (severityBadge finding.severity).toList :: [] :: lines finding.description := by
  have written : (severityBadge finding.severity ++ "\n\n" ++ finding.description).toList =
      (severityBadge finding.severity).toList ++ '\n' :: ([] ++ '\n' :: finding.description.toList) := by
    simp
  rw [lines, written, List.splitOn_append_cons_self, List.splitOn_append_cons_self,
    List.splitOn_eq_singleton (newline_notMem_badge finding.severity)]
  rfl

/-- The lines after a text: an empty one, and the suggestion between its fences. -/
theorem lines_append_suggestion (text suggestion : String) :
    lines (text ++ ("\n\n```suggestion\n" ++ suggestion ++ "\n```")) =
      lines text ++ [[]] ++ opener :: (lines suggestion ++ [closer]) := by
  have opening : "\n\n```suggestion\n".toList = '\n' :: '\n' :: (opener ++ ['\n']) := by
    decide +kernel
  have closing : "\n```".toList = '\n' :: closer := by decide +kernel
  have written : (text ++ ("\n\n```suggestion\n" ++ suggestion ++ "\n```")).toList =
      text.toList ++ '\n' :: ([] ++ '\n' :: (opener ++ '\n' ::
        (suggestion.toList ++ '\n' :: closer))) := by
    simp only [String.toList_append, opening, closing, List.append_assoc, List.cons_append,
      List.nil_append]
  have openerLine : opener.splitOn '\n' = [opener] := List.splitOn_eq_singleton (by decide)
  have closerLine : closer.splitOn '\n' = [closer] := List.splitOn_eq_singleton (by decide)
  rw [lines, written, List.splitOn_append_cons_self, List.splitOn_append_cons_self,
    List.splitOn_append_cons_self, List.splitOn_append_cons_self, openerLine, closerLine]
  simp [lines]

/-! ## The blocks -/

/-- The badge and an empty line open no block. -/
theorem opens_heading (finding : Finding) :
    (∀ line ∈ lines (severityBadge finding.severity ++ "\n\n" ++ finding.description),
      suggestionFence.opens line = false) ↔ opener ∉ lines finding.description := by
  have badge : (severityBadge finding.severity).toList ≠ opener := by
    cases finding.severity <;> decide
  have empty : ([] : Text) ≠ opener := by decide
  rw [lines_heading, List.forall_mem_cons, List.forall_mem_cons]
  simp only [suggestionFence, decide_eq_false_iff_not]
  rw [and_iff_right badge, and_iff_right empty]
  exact ⟨fun plain member => plain opener member rfl, fun absent line member same =>
    absent (same ▸ member)⟩

/-- The contents of the blocks are one text exactly if the lines of the only block are those of
the text. -/
theorem suggestionBlocks_eq_singleton_iff {body text : String} (nonempty : text ≠ "") :
    suggestionBlocks body = [text.toList] ↔ suggestionFence.blocks (lines body) = [lines text] := by
  constructor
  · intro contents
    obtain ⟨block, blocks, content⟩ := List.map_eq_singleton_iff.mp contents
    have plain : ∀ line ∈ block, '\n' ∉ line := by
      intro line member
      have isBlock : block ∈ suggestionFence.blocks (lines body) := by
        rw [blocks]
        exact List.mem_singleton_self block
      exact Text.not_mem_of_mem_splitOn '\n' _ line (Fence.mem_of_mem_blocks isBlock line member)
    have someLine : block ≠ [] := by
      rintro rfl
      exact nonempty (String.toList_inj.mp (by rw [← content]; rfl))
    rw [blocks, lines, ← content, List.splitOn_intercalate '\n' plain someLine]
  · intro blocks
    rw [suggestionBlocks, blocks, List.map_singleton, lines, List.intercalate_splitOn]

/-- A heading alone has no block exactly if the description opens none. -/
theorem suggestionBlocks_heading_eq_nil_iff (finding : Finding) :
    suggestionBlocks (severityBadge finding.severity ++ "\n\n" ++ finding.description) = [] ↔
      opener ∉ lines finding.description := by
  rw [suggestionBlocks, List.map_eq_nil_iff, Fence.blocks_eq_nil_iff, opens_heading]

/-- A heading with a suggestion after it has the suggestion as its only block exactly if the
description opens none and the suggestion closes none. -/
theorem suggestionBlocks_suggestion_iff (finding : Finding) {suggestion : String}
    (nonempty : suggestion ≠ "") :
    suggestionBlocks (severityBadge finding.severity ++ "\n\n" ++ finding.description ++
        ("\n\n```suggestion\n" ++ suggestion ++ "\n```")) = [suggestion.toList] ↔
      opener ∉ lines finding.description ∧
        ∀ line ∈ lines suggestion, closesBlock line = false := by
  have opens : suggestionFence.opens opener = true := decide_eq_true (Eq.refl opener)
  have closes : suggestionFence.closes closer = true := by decide
  have empty : suggestionFence.opens [] = false := by decide
  rw [suggestionBlocks_eq_singleton_iff nonempty, lines_append_suggestion,
    Fence.blocks_fenced_iff opens closes, List.forall_mem_append, List.forall_mem_singleton,
    and_iff_left empty, opens_heading]
  rfl

/-- **The suggestion is rendered** exactly if neither text of the finding has a fence. -/
theorem rendersSuggestion_iff (finding : Finding) :
    RendersSuggestion finding ↔ Fenceless finding := by
  have fenceless_iff : Fenceless finding ↔ opener ∉ lines finding.description ∧
      ∀ line ∈ lines (finding.suggestion.getD ""), closesBlock line = false :=
    ⟨fun ⟨description, suggestion⟩ => ⟨description, suggestion⟩,
      fun ⟨description, suggestion⟩ => ⟨description, suggestion⟩⟩
  have nothing : ∀ line ∈ lines "", closesBlock line = false := by decide
  rw [fenceless_iff, RendersSuggestion, formatCommentBody, suggestionOf]
  cases finding.suggestion with
  | none =>
      rw [Option.getD_none, and_iff_left nothing]
      exact suggestionBlocks_heading_eq_nil_iff finding
  | some suggestion =>
      simp only [Option.getD_some]
      by_cases empty : suggestion = ""
      · rw [if_pos empty, if_pos empty, empty, and_iff_left nothing]
        exact suggestionBlocks_heading_eq_nil_iff finding
      · rw [if_neg empty, if_neg empty]
        exact suggestionBlocks_suggestion_iff finding empty

/-! ## Samples -/

/-- A finding whose suggestion is Markdown with a block of code in it. -/
def codeBlockFinding : Finding where
  filePath := "README.md"
  lineStart := 3
  lineEnd := 5
  origin := .llm
  confidence := .high
  severity := .suggestion
  category := .staleDoc
  description := "The example is out of date."
  suggestion := "```\npip install kenjutsu\n```"

/-- The first line of the suggestion closes its block, which is empty. -/
theorem not_rendersSuggestion_codeBlock : ¬ RendersSuggestion codeBlockFinding := by
  have blocks : suggestionBlocks (formatCommentBody codeBlockFinding) = [[]] := by decide +kernel
  intro renders
  rw [RendersSuggestion, blocks] at renders
  exact absurd renders (by decide +kernel)

end Kenjutsu.Publisher
