import Kenjutsu.Diff.Reparsing
import Kenjutsu.Diff.Signatures

/-!
# Parsed diffs with their scopes

The parser numbers the lines of a hunk, and the AST extension looks for a scope around
the rows that the header of the hunk announces. The two meet in the lines of the new
file: the scope that a hunk of a parsed diff gets is the tightest one around the lines
that its header announces, and if the header tells the number of its lines truly, each
of them lies between the first and the last line of the scope (`parseDiff_scoped`). A hunk
that adds or keeps nothing gets the scope of the line before it. `find_enclosing_scope`, asked
for one hunk, finds the same scope.

Nothing else of the diff changes, and extending it again changes nothing
(`extendHunksWithAst_idem`).
-/

set_option autoImplicit false

namespace Kenjutsu.Diff

open Foundations Foundations.Text

/-! ## Lines and rows -/

/-- The lines of the new file that the header of a hunk announces, or the line before it if
there is none. -/
def Hunk.announced (hunk : Hunk) : List Nat := List.range' hunk.newStart (max hunk.newCount 1)

/-- A node reaches over the lines; lines are counted from one. -/
def Spans (node : Node) (numbers : List Nat) : Prop :=
  ∀ number ∈ numbers, node.label.startPoint.row + 1 ≤ number ∧
    number ≤ node.label.endPoint.row + 1

/-- The rows that are looked for are those of the announced lines. -/
theorem encloses_hunkRows_iff {scopeKinds : List String} {hunk : Hunk} {node : Node} :
    encloses scopeKinds (hunkRows hunk).1 (hunkRows hunk).2 node ↔
      node.label.type ∈ scopeKinds ∧ Spans node hunk.announced := by
  rw [encloses_iff]
  refine and_congr_right fun _ => ⟨?_, fun spans => ?_⟩
  · rintro ⟨starts, ends⟩ number member
    obtain ⟨offset, within, rfl⟩ := List.mem_range'.mp member
    simp only [hunkRows] at starts ends
    omega
  · have first : hunk.newStart ∈ hunk.announced := List.mem_range'.mpr ⟨0, by omega, by omega⟩
    have last : hunk.newStart + (max hunk.newCount 1 - 1) ∈ hunk.announced :=
      List.mem_range'.mpr ⟨max hunk.newCount 1 - 1, by omega, by omega⟩
    have starts := spans _ first
    have ends := spans _ last
    simp only [hunkRows]
    omega

/-! ## Scopes of hunks -/

/-- The tightest scope of a file around the lines that a hunk announces. -/
structure IsTightestScope (parsed : Parsed) (hunk : Hunk) (scope : Node) : Prop where
  mem : scope ∈ parsed.tree.root.subtrees
  isScope : scope.label.type ∈ scopeKindsOf parsed.langName
  spans : Spans scope hunk.announced
  smallest : ∀ other ∈ parsed.tree.root.subtrees,
    other.label.type ∈ scopeKindsOf parsed.langName → Spans other hunk.announced →
      rowSpan scope ≤ rowSpan other
  innermost : ∀ other ∈ scope.descendants,
    other.label.type ∈ scopeKindsOf parsed.langName → ¬Spans other hunk.announced

/-- What a hunk becomes when its file is parsed. -/
structure ScopesHunk (parsed : Parsed) (hunk extended : Hunk) : Prop where
  frame : extended = { hunk with enclosingScope := extended.enclosingScope }
  none_iff : extended.enclosingScope = none ↔ ∀ node ∈ parsed.tree.root.subtrees,
    node.label.type ∈ scopeKindsOf parsed.langName → ¬Spans node hunk.announced
  tightest : ∀ context, extended.enclosingScope = some context →
    ∃ scope, IsTightestScope parsed hunk scope ∧
      context = buildScopeContext scope (Bytes.splitlines parsed.source) parsed.langName
  lines : (newLines hunk.lines).length = hunk.newCount →
    ∀ context, extended.enclosingScope = some context → ∀ line ∈ extended.lines, ∀ number,
      line.newLineno = some number → context.startLine ≤ number ∧ number ≤ context.endLine

/-- What a file becomes: its hunks get their scopes if it is parsed, which are those that
`find_enclosing_scope` finds. -/
def ScopesFile (treeSitter : TreeSitter) (fileContentGetter : Text → Option Source)
    (patch extended : PatchFile) : Prop :=
  (parsePatch treeSitter fileContentGetter patch = none → extended = patch) ∧
    ∀ parsed, parsePatch treeSitter fileContentGetter patch = some parsed →
      extended = { patch with hunks := extended.hunks } ∧
        List.Forall₂ (ScopesHunk parsed) patch.hunks extended.hunks ∧
          ∃ content, fileContentGetter patch.path = some content ∧
            List.Forall₂ (fun hunk extended =>
              findEnclosingScope treeSitter content hunk parsed.langName =
                some extended.enclosingScope) patch.hunks extended.hunks

variable {treeSitter : TreeSitter} {fileContentGetter : Text → Option Source}
  {parsed : Parsed} {hunk : Hunk}

theorem isTightestScope_of_scopeOf (nested : Nested parsed.tree.root) {scope : Node}
    (found : parsed.scopeOf hunk = some scope) : IsTightestScope parsed hunk scope := by
  have tightest := isTightest_of_found nested (hunkRows_le hunk) found
  refine ⟨tightest.mem, tightest.isScope, ?_, ?_, ?_⟩
  · have around := encloses_iff.mpr ⟨tightest.isScope, tightest.contains⟩
    exact (encloses_hunkRows_iff.mp around).2
  · intro other member isScope spans
    exact tightest.smallest other member (encloses_hunkRows_iff.mpr ⟨isScope, spans⟩)
  · intro other below isScope spans
    exact tightest.innermost other below (encloses_hunkRows_iff.mpr ⟨isScope, spans⟩)

/-- The lines of a numbered hunk are the announced ones, if their number is. -/
theorem mem_announced_of_numbered (numbered : hunk.Numbered)
    (honest : (newLines hunk.lines).length = hunk.newCount) :
    ∀ line ∈ hunk.lines, ∀ number, line.newLineno = some number → number ∈ hunk.announced := by
  intro line member number isNumber
  have gapFree := numbered.gapFree
  have isNew : line ∈ newLines hunk.lines := by
    refine List.mem_filter.mpr ⟨member, decide_eq_true fun isDeletion => ?_⟩
    rw [gapFree.deletions line member isDeletion] at isNumber
    cases isNumber
  have listed : some number ∈ (newLines hunk.lines).map HunkLine.newLineno :=
    isNumber ▸ List.mem_map_of_mem isNew
  rw [gapFree.newNumbers, honest] at listed
  obtain ⟨same, inRange, isSame⟩ := List.mem_map.mp listed
  obtain rfl := Option.some.inj isSame
  obtain ⟨offset, within, rfl⟩ := List.mem_range'.mp inRange
  exact List.mem_range'.mpr ⟨offset, by omega, rfl⟩

/-- A hunk without a scope gets the one that is found. -/
theorem enclosingScope_extendHunk (noScope : hunk.enclosingScope = none) :
    (parsed.extendHunk hunk).enclosingScope = parsed.contextOf hunk := by
  rw [Parsed.extendHunk]
  cases parsed.contextOf hunk with
  | none => exact noScope
  | some context => rfl

/-- A hunk without a scope gets the tightest one. -/
theorem scopesHunk_extendHunk (nested : Nested parsed.tree.root) (numbered : hunk.Numbered)
    (noScope : hunk.enclosingScope = none) : ScopesHunk parsed hunk (parsed.extendHunk hunk) := by
  cases found : parsed.scopeOf hunk with
  | none =>
      have same : parsed.extendHunk hunk = hunk := by
        rw [Parsed.extendHunk, Parsed.contextOf, found]
        rfl
      rw [same]
      refine ⟨rfl, iff_of_true noScope fun node member isScope spans => ?_, ?_, ?_⟩
      · exact (findInnermostScope_eq_none_iff nested (hunkRows_le hunk)).mp found node member
          (encloses_hunkRows_iff.mpr ⟨isScope, spans⟩)
      · intro context isContext
        rw [noScope] at isContext
        cases isContext
      · intro _ context isContext
        rw [noScope] at isContext
        cases isContext
  | some scope =>
      have extended : parsed.extendHunk hunk = { hunk with
          enclosingScope := some (buildScopeContext scope (Bytes.splitlines parsed.source)
            parsed.langName) } := by
        rw [Parsed.extendHunk, Parsed.contextOf, found]
        rfl
      have tightest := isTightestScope_of_scopeOf nested found
      rw [extended]
      refine ⟨rfl, iff_of_false (Option.some_ne_none _) fun none => ?_, ?_, ?_⟩
      · exact none scope tightest.mem tightest.isScope tightest.spans
      · rintro _ ⟨⟩
        exact ⟨scope, tightest, rfl⟩
      · rintro honest _ ⟨⟩ line member number isNumber
        exact tightest.spans number (mem_announced_of_numbered numbered honest line member number
          isNumber)

/-! ## Parsed diffs -/

/-- The parser gives trees in which the rows of each node contain those of its children. -/
def TreeSitter.NestsRows (treeSitter : TreeSitter) : Prop :=
  ∀ langName source tree, treeSitter.parse langName source = some tree → Nested tree.root

theorem nested_of_parsePatch (nests : treeSitter.NestsRows) {patch : PatchFile}
    (isParsed : parsePatch treeSitter fileContentGetter patch = some parsed) :
    Nested parsed.tree.root := by
  obtain ⟨_, _, tree, -, -, parses, rfl⟩ := exists_of_parsePatch isParsed
  exact nests _ _ tree parses

theorem scopesFile_extendPatch (nests : treeSitter.NestsRows) {patch : PatchFile}
    (numbered : ∀ hunk ∈ patch.hunks, hunk.Numbered)
    (noScope : ∀ hunk ∈ patch.hunks, hunk.enclosingScope = none) :
    ScopesFile treeSitter fileContentGetter patch
      (extendPatch treeSitter fileContentGetter patch) := by
  unfold extendPatch
  constructor
  · intro notParsed
    rw [notParsed]
  · intro parsed isParsed
    have nested := nested_of_parsePatch nests isParsed
    rw [isParsed]
    obtain ⟨content, isContent, finds⟩ := findEnclosingScope_eq isParsed
    refine ⟨rfl, List.forall₂_map_right_iff.mpr (List.forall₂_same.mpr fun hunk member => ?_),
      content, isContent,
      List.forall₂_map_right_iff.mpr (List.forall₂_same.mpr fun hunk member => ?_)⟩
    · exact scopesHunk_extendHunk nested (numbered hunk member) (noScope hunk member)
    · rw [finds, enclosingScope_extendHunk (noScope hunk member)]

/-! ## Extending twice -/

/-- The scope of a hunk depends on its header only. -/
theorem extendHunk_idem (parsed : Parsed) (hunk : Hunk) :
    parsed.extendHunk (parsed.extendHunk hunk) = parsed.extendHunk hunk := by
  cases isContext : parsed.contextOf hunk with
  | none =>
      have same : parsed.extendHunk hunk = hunk := by
        rw [Parsed.extendHunk, isContext]
      rw [same, same]
  | some context =>
      have extended : parsed.extendHunk hunk = { hunk with enclosingScope := some context } := by
        rw [Parsed.extendHunk, isContext]
      have sameContext : parsed.contextOf { hunk with enclosingScope := some context } =
          some context := isContext
      rw [extended, Parsed.extendHunk, sameContext]

/-- What is parsed for a file does not depend on the scopes of its hunks. -/
theorem parsePatch_map_extendHunk (patch : PatchFile) :
    parsePatch treeSitter fileContentGetter
        { patch with hunks := patch.hunks.map parsed.extendHunk } =
      parsePatch treeSitter fileContentGetter patch := by
  have sameGuard : (patch.isBinary || patch.isDeletedFile ||
      (patch.hunks.map parsed.extendHunk = [] : Bool)) =
        (patch.isBinary || patch.isDeletedFile || (patch.hunks = [] : Bool)) := by
    simp only [List.map_eq_nil_iff]
  unfold parsePatch
  exact congrArg (fun guard : Bool => if guard then none else _) sameGuard

theorem extendPatch_idem (patch : PatchFile) :
    extendPatch treeSitter fileContentGetter (extendPatch treeSitter fileContentGetter patch) =
      extendPatch treeSitter fileContentGetter patch := by
  cases isParsed : parsePatch treeSitter fileContentGetter patch with
  | none =>
      have same : extendPatch treeSitter fileContentGetter patch = patch := by
        rw [extendPatch, isParsed]
      rw [same, same]
  | some parsed =>
      have extended : extendPatch treeSitter fileContentGetter patch =
          { patch with hunks := patch.hunks.map parsed.extendHunk } := by
        rw [extendPatch, isParsed]
      have idem : parsed.extendHunk ∘ parsed.extendHunk = parsed.extendHunk :=
        funext (extendHunk_idem parsed)
      rw [extended, extendPatch, parsePatch_map_extendHunk, isParsed]
      simp only [List.map_map, idem]

theorem extendHunksWithAst_idem (patches : List PatchFile) :
    extendHunksWithAst treeSitter (extendHunksWithAst treeSitter patches fileContentGetter)
        fileContentGetter = extendHunksWithAst treeSitter patches fileContentGetter := by
  unfold extendHunksWithAst
  rw [List.map_map]
  exact List.map_congr_left fun patch _ => extendPatch_idem patch

/-! ## From a diff to its scopes -/

/-- **A parsed diff gets the scopes of its lines**, whatever the text, the files and their
trees are, and extending it again changes nothing. -/
theorem parseDiff_scoped (treeSitter : TreeSitter) (nests : treeSitter.NestsRows)
    (fileContentGetter : Text → Option Source) (diffText : Text) (includeDeletions : Bool) :
    let patches := parseDiff diffText includeDeletions
    let extended := extendHunksWithAst treeSitter patches fileContentGetter
    List.Forall₂ (ScopesFile treeSitter fileContentGetter) patches extended ∧
      extendHunksWithAst treeSitter extended fileContentGetter = extended := by
  intro patches extended
  refine ⟨List.forall₂_map_right_iff.mpr (List.forall₂_same.mpr fun patch member => ?_),
    extendHunksWithAst_idem patches⟩
  obtain ⟨formed, -⟩ := returned_of_mem_parseDiff diffText includeDeletions patch member
  exact scopesFile_extendPatch nests
    (numbered_of_mem_parseDiff diffText includeDeletions patch member)
    fun hunk isHunk => (formed.hunks hunk isHunk).noScope

/-- The second row of a function is added, and a row before its first one deleted. -/
def ownRowDiff : Text :=
  unlines ["diff --git a/a.py b/a.py".toList, "--- a/a.py".toList, "+++ b/a.py".toList,
    "@@ -1 +0,0 @@".toList, "-import os".toList,
    "@@ -3,0 +2 @@ def f(a,".toList, "+      b):".toList]

theorem nestsRows_ownRow : (Layout.parserOf Layout.ownRowRoot).NestsRows := by
  intro langName source tree parses
  have isRoot : tree.root = Layout.ownRowRoot := by
    unfold Layout.parserOf at parses
    dsimp only at parses
    split at parses
    · exact (congrArg SyntaxTree.root (Option.some.inj parses)).symm
    · cases parses
  rw [isRoot]
  decide

/-- The addition gets the function, the deletion nothing. -/
theorem ownRowDiff_scoped :
    let patches := parseDiff ownRowDiff
    let extended := extendHunksWithAst (Layout.parserOf Layout.ownRowRoot) patches
      fun _ => some (.str Layout.ownRow)
    (extended.map fun file => file.hunks.map fun hunk => hunk.enclosingScope.map fun context =>
        (context.startLine, context.endLine)) = [[none, some (1, 3)]] ∧
      List.Forall₂ (ScopesFile (Layout.parserOf Layout.ownRowRoot)
        fun _ => some (.str Layout.ownRow)) patches extended := by
  intro patches extended
  refine ⟨by decide +kernel, ?_⟩
  exact (parseDiff_scoped (Layout.parserOf Layout.ownRowRoot) nestsRows_ownRow
    (fun _ => some (.str Layout.ownRow)) ownRowDiff true).1

end Kenjutsu.Diff
