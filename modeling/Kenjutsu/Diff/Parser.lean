import Kenjutsu.Diff.Models
import Kenjutsu.Foundations.Patterns

/-!
# The unified diff parser

`parse_diff` cuts the lines of a diff into blocks at the `diff --git` lines. In each
block one loop reads the header lines of the file, and two nested loops read the
hunks: the outer one looks for a hunk header, the inner one reads lines until the
next.

The loops are functions of the lines that are left. A hunk never contains a hunk
header, so the outer loop finds every one of them (`parseHunks_cons_some`).
-/

set_option autoImplicit false

namespace Kenjutsu.Diff

open Foundations Foundations.Text

/-! ## The patterns -/

/-- The groups of `_HUNK_HEADER`; a count may be missing. -/
structure HunkHeaderMatch where
  oldStart : Text
  oldCount : Option Text
  newStart : Text
  newCount : Option Text
  sectionHeader : Text
deriving DecidableEq, Repr

/-- `(?:,(\d+))?`. -/
def matchCount (text : Text) : Option Text × Text :=
  match literal "," text with
  | none => (none, text)
  | some rest =>
      match digits rest with
      | none => (none, text)
      | some (count, rest) => (some count, rest)

/-- `_HUNK_HEADER.match`, for `^@@ -(\d+)(?:,(\d+))? \+(\d+)(?:,(\d+))? @@(.*)$`. -/
def matchHunkHeader (line : Text) : Option HunkHeaderMatch := do
  let rest ← literal "@@ -" line
  let (oldStart, rest) ← digits rest
  let (oldCount, rest) := matchCount rest
  let rest ← literal " +" rest
  let (newStart, rest) ← digits rest
  let (newCount, rest) := matchCount rest
  let rest ← literal " @@" rest
  let sectionHeader ← restOfLine rest
  return { oldStart, oldCount, newStart, newCount, sectionHeader }

def isHunkHeader (line : Text) : Bool := (matchHunkHeader line).isSome

/-- `re.match` of `^diff --git a/(.+) b/(.+)$`. -/
def matchGitHeader (line : Text) : Option (Text × Text) := do
  let rest ← literal "diff --git a/" line
  let rest ← restOfLine rest
  greedyGroups " b/" rest

/-- `_strip_path_prefix`. -/
def stripPathPrefix (path : Text) : Option Text :=
  if path = "/dev/null".toList then none
  else if startsWith path "a/" || startsWith path "b/" then some (path.drop 2)
  else some path

/-! ## Hunks -/

/-- The inner loop: the lines of a hunk, and what is left from the line it stops
at. -/
def readHunkLines (oldLineno newLineno : Nat) : List Text → List HunkLine × List Text
  | [] => ([], [])
  | raw :: lines =>
      if isHunkHeader raw then ([], raw :: lines)
      else if startsWith raw "diff --git" then ([], raw :: lines)
      else if startsWith raw "+" then
        let (hunkLines, rest) := readHunkLines oldLineno (newLineno + 1) lines
        (⟨.add, raw.drop 1, none, some newLineno⟩ :: hunkLines, rest)
      else if startsWith raw "-" then
        let (hunkLines, rest) := readHunkLines (oldLineno + 1) newLineno lines
        (⟨.delete, raw.drop 1, some oldLineno, none⟩ :: hunkLines, rest)
      else if startsWith raw " " || raw = [] then
        let (hunkLines, rest) := readHunkLines (oldLineno + 1) (newLineno + 1) lines
        (⟨.context, if startsWith raw " " then raw.drop 1 else raw, some oldLineno,
          some newLineno⟩ :: hunkLines, rest)
      -- the marker for a missing newline, and unknown lines
      else readHunkLines oldLineno newLineno lines

theorem length_readHunkLines_le (oldLineno newLineno : Nat) (lines : List Text) :
    (readHunkLines oldLineno newLineno lines).2.length ≤ lines.length := by
  fun_induction readHunkLines oldLineno newLineno lines <;> simp_all <;> omega

/-- The hunk below a header. -/
def HunkHeaderMatch.hunk (header : HunkHeaderMatch) (lines : List HunkLine) : Hunk where
  oldStart := int header.oldStart
  oldCount := (header.oldCount.map int).getD 1
  newStart := int header.newStart
  newCount := (header.newCount.map int).getD 1
  lines := lines
  sectionHeader := strip header.sectionHeader

/-- `_parse_hunks`, the outer loop. -/
def parseHunks : List Text → List Hunk
  | [] => []
  | line :: lines =>
      match matchHunkHeader line with
      | none => parseHunks lines
      | some header =>
          let read := readHunkLines (int header.oldStart) (int header.newStart) lines
          header.hunk read.1 :: parseHunks read.2
termination_by lines => lines.length
decreasing_by
  all_goals simp only [List.length_cons]
  · omega
  · have := length_readHunkLines_le (int header.oldStart) (int header.newStart) lines
    omega

/-- What a line of a hunk carries: the type and the content of a hunk line, or
nothing. -/
def carriedLine (raw : Text) : Option (ChangeType × Text) :=
  if startsWith raw "+" then some (.add, raw.drop 1)
  else if startsWith raw "-" then some (.delete, raw.drop 1)
  else if startsWith raw " " || raw = [] then
    some (.context, if startsWith raw " " then raw.drop 1 else raw)
  else none

/-- The inner loop stops at the line. -/
def endsHunk (raw : Text) : Bool := isHunkHeader raw || startsWith raw "diff --git"

/-- What is read below a hunk header. -/
def readable (lines : List Text) : List (ChangeType × Text) :=
  (lines.takeWhile fun raw => !endsHunk raw).filterMap carriedLine

/-- Lines numbered from the starts of a hunk. -/
def numberLines (oldLineno newLineno : Nat) : List (ChangeType × Text) → List HunkLine
  | [] => []
  | (.add, content) :: rest =>
      ⟨.add, content, none, some newLineno⟩ :: numberLines oldLineno (newLineno + 1) rest
  | (.delete, content) :: rest =>
      ⟨.delete, content, some oldLineno, none⟩ :: numberLines (oldLineno + 1) newLineno rest
  | (.context, content) :: rest =>
      ⟨.context, content, some oldLineno, some newLineno⟩ ::
        numberLines (oldLineno + 1) (newLineno + 1) rest

/-- Type and content of a hunk line. -/
def HunkLine.body (line : HunkLine) : ChangeType × Text := (line.changeType, line.content)

theorem map_body_numberLines (oldLineno newLineno : Nat) (bodies : List (ChangeType × Text)) :
    (numberLines oldLineno newLineno bodies).map HunkLine.body = bodies := by
  fun_induction numberLines oldLineno newLineno bodies <;> simp_all [HunkLine.body]

/-- **The inner loop numbers what is readable.** -/
theorem readHunkLines_eq (oldLineno newLineno : Nat) (lines : List Text) :
    (readHunkLines oldLineno newLineno lines).1 =
      numberLines oldLineno newLineno (readable lines) := by
  unfold readable
  fun_induction readHunkLines oldLineno newLineno lines <;>
    simp_all [endsHunk, carriedLine, numberLines]

theorem parseHunks_cons_none {line : Text} (other : isHunkHeader line = false)
    (lines : List Text) : parseHunks (line :: lines) = parseHunks lines := by
  rw [parseHunks, Option.not_isSome_iff_eq_none.mp (Bool.eq_false_iff.mp other)]

/-- The lines the inner loop consumes have no hunk header among them. -/
theorem parseHunks_readHunkLines (oldLineno newLineno : Nat) (lines : List Text) :
    parseHunks (readHunkLines oldLineno newLineno lines).2 = parseHunks lines := by
  fun_induction readHunkLines oldLineno newLineno lines with
  | case1 => rfl
  | case2 => rfl
  | case3 => rfl
  | case4 _ _ _ _ other _ _ _ _ read ih =>
      rw [parseHunks_cons_none (Bool.eq_false_iff.mpr other), ← ih, read]
  | case5 _ _ _ _ other _ _ _ _ _ read ih =>
      rw [parseHunks_cons_none (Bool.eq_false_iff.mpr other), ← ih, read]
  | case6 _ _ _ _ other _ _ _ _ _ _ read ih =>
      rw [parseHunks_cons_none (Bool.eq_false_iff.mpr other), ← ih, read]
  | case7 _ _ _ _ other _ _ _ _ ih =>
      rw [parseHunks_cons_none (Bool.eq_false_iff.mpr other), ← ih]

/-- **Every hunk header gives a hunk**, with what is readable below it. -/
theorem parseHunks_cons_some {line : Text} {header : HunkHeaderMatch}
    (found : matchHunkHeader line = some header) (lines : List Text) :
    parseHunks (line :: lines) =
      header.hunk (numberLines (int header.oldStart) (int header.newStart) (readable lines)) ::
        parseHunks lines := by
  rw [parseHunks, found]
  simp only [readHunkLines_eq, parseHunks_readHunkLines]

theorem parseHunks_append {lines : List Text} (others : ∀ line ∈ lines, isHunkHeader line = false)
    (more : List Text) : parseHunks (lines ++ more) = parseHunks more := by
  induction lines with
  | nil => rfl
  | cons line lines ih =>
      obtain ⟨other, others⟩ := List.forall_mem_cons.mp others
      rw [List.cons_append, parseHunks_cons_none other, ih others]

theorem length_parseHunks (lines : List Text) :
    (parseHunks lines).length = lines.countP isHunkHeader := by
  induction lines with
  | nil => rw [parseHunks]; rfl
  | cons line lines ih =>
      cases found : matchHunkHeader line with
      | none =>
          have other : isHunkHeader line = false := by simp [isHunkHeader, found]
          rw [parseHunks_cons_none other, List.countP_cons_of_neg (by simp [other]), ih]
      | some header =>
          have isHeader : isHunkHeader line := by simp [isHunkHeader, found]
          rw [parseHunks_cons_some found, List.countP_cons_of_pos isHeader, List.length_cons, ih]

/-- What is readable after some lines is readable unless one of them ends the hunk. -/
theorem readable_append (lines more : List Text) :
    readable (lines ++ more) =
      readable lines ++ if lines.any endsHunk then [] else readable more := by
  unfold readable
  induction lines with
  | nil => rfl
  | cons line lines ih =>
      rw [List.cons_append, List.takeWhile_cons, List.takeWhile_cons, List.any_cons]
      cases endsHunk line with
      | true => rfl
      | false =>
          simp only [Bool.not_false, if_true, Bool.false_or]
          cases carried : carriedLine line with
          | none => rw [List.filterMap_cons_none carried, List.filterMap_cons_none carried, ih]
          | some body =>
              rw [List.filterMap_cons_some carried, List.filterMap_cons_some carried, ih]
              rfl

/-- What is readable ends at the latest where the next hunk begins. -/
theorem readable_append_of_head (lines : List Text) {more : List Text}
    (next : ∀ line, more.head? = some line → isHunkHeader line) :
    readable (lines ++ more) = readable lines := by
  have stops : readable more = [] := by
    cases more with
    | nil => rfl
    | cons line more => simp [readable, endsHunk, next line rfl]
  rw [readable_append, stops, ite_self, List.append_nil]

/-- **A header with lines below it gives one hunk** when none of them is a header. -/
theorem parseHunks_segment {line : Text} {header : HunkHeaderMatch} {below more : List Text}
    (found : matchHunkHeader line = some header)
    (others : ∀ line ∈ below, isHunkHeader line = false)
    (next : ∀ line, more.head? = some line → isHunkHeader line) :
    parseHunks (line :: below ++ more) =
      header.hunk (numberLines (int header.oldStart) (int header.newStart) (readable below)) ::
        parseHunks more := by
  rw [List.cons_append, parseHunks_cons_some found, readable_append_of_head below next,
    parseHunks_append others]

/-! ## Files -/

/-- What the header lines of a block have told so far. -/
structure FileHeader where
  oldPath : Option Text := none
  newPath : Option Text := none
  isBinary : Bool := false
  renameFrom : Option Text := none
  renameTo : Option Text := none
deriving DecidableEq, Repr

/-- The loop over the header lines of a block: what they tell, and the lines in which
hunks are looked for. -/
def readHeader (header : FileHeader) : List Text → FileHeader × List Text
  | [] => (header, [])
  | line :: block =>
      if startsWith line "diff --git " then
        match matchGitHeader line with
        | some (oldPath, newPath) =>
            readHeader { header with oldPath := some oldPath, newPath := some newPath } block
        | none => readHeader header block
      else if startsWith line "--- " then
        readHeader { header with oldPath := stripPathPrefix (line.drop 4) } block
      else if startsWith line "+++ " then
        ({ header with newPath := stripPathPrefix (line.drop 4) }, block)
      else if startsWith line "Binary files" then ({ header with isBinary := true }, [])
      else if startsWith line "rename from " then
        readHeader { header with renameFrom := some (line.drop "rename from ".length) } block
      else if startsWith line "rename to " then
        readHeader { header with renameTo := some (line.drop "rename to ".length) } block
      else readHeader header block

/-- The loop over the header lines looks at the line. -/
def isHeaderLine (line : Text) : Bool :=
  ["diff --git ", "--- ", "+++ ", "Binary files", "rename from ", "rename to "].any
    (startsWith line)

theorem readHeader_append {lines : List Text} (others : ∀ line ∈ lines, isHeaderLine line = false)
    (header : FileHeader) (block : List Text) :
    readHeader header (lines ++ block) = readHeader header block := by
  induction lines with
  | nil => rfl
  | cons line lines ih =>
      obtain ⟨other, others⟩ := List.forall_mem_cons.mp others
      simp only [isHeaderLine, List.any_cons, List.any_nil, Bool.or_false, Bool.or_eq_false_iff]
        at other
      simp [readHeader, other, ih others]

/-- The entry that a header tells, with the lines in which hunks are looked for; the
paths of a rename take precedence. -/
def FileHeader.entry (header : FileHeader) (hunkLines : List Text) : PatchFile where
  oldPath := match header.renameFrom with
    | some path => some path
    | none => header.oldPath
  newPath := match header.renameTo with
    | some path => some path
    | none => header.newPath
  hunks := if header.isBinary then [] else parseHunks hunkLines
  isBinary := header.isBinary

@[simp] theorem FileHeader.oldPath_entry (header : FileHeader) (hunkLines : List Text) :
    (header.entry hunkLines).oldPath = header.renameFrom.or header.oldPath := by
  unfold FileHeader.entry
  cases header.renameFrom <;> rfl

@[simp] theorem FileHeader.newPath_entry (header : FileHeader) (hunkLines : List Text) :
    (header.entry hunkLines).newPath = header.renameTo.or header.newPath := by
  unfold FileHeader.entry
  cases header.renameTo <;> rfl

/-- The entry of one block. -/
def parseBlock (block : List Text) : PatchFile :=
  let (header, hunkLines) := readHeader {} block
  header.entry hunkLines

/-- The line starts a block. -/
def startsBlock (line : Text) : Bool := startsWith line "diff --git "

/-- The blocks: each from a line that starts one up to the next. -/
def fileBlocks : List Text → List (List Text)
  | [] => []
  | line :: lines =>
      if startsBlock line then
        (line :: lines.takeWhile fun later => !startsBlock later) :: fileBlocks lines
      else fileBlocks lines

/-- Lines before the first block belong to none. -/
theorem fileBlocks_append {lines : List Text} (others : ∀ line ∈ lines, startsBlock line = false)
    (more : List Text) : fileBlocks (lines ++ more) = fileBlocks more := by
  induction lines with
  | nil => rfl
  | cons line lines ih =>
      obtain ⟨other, others⟩ := List.forall_mem_cons.mp others
      rw [List.cons_append, fileBlocks, if_neg (by simp [other]), ih others]

theorem fileBlocks_eq_nil_iff {lines : List Text} :
    fileBlocks lines = [] ↔ ∀ line ∈ lines, startsBlock line = false := by
  induction lines with
  | nil => simp [fileBlocks]
  | cons line lines ih =>
      cases starts : startsBlock line <;> simp [fileBlocks, starts, ih]

/-- A block ends where the next one starts. -/
theorem fileBlocks_cons_append {line : Text} {block more : List Text}
    (starts : startsBlock line) (others : ∀ line ∈ block, startsBlock line = false)
    (next : ∀ later, more.head? = some later → startsBlock later) :
    fileBlocks (line :: block ++ more) = (line :: block) :: fileBlocks more := by
  have inside : ∀ line ∈ block, (!startsBlock line) = true := by simpa using others
  have stops : ∀ later, more.head? = some later → (!startsBlock later) = false := by
    intro later isNext
    rw [next later isNext]
    rfl
  rw [List.cons_append, fileBlocks, if_pos starts, takeWhile_append_stop inside stops,
    fileBlocks_append others]

/-- `_apply_deletion_omission`. -/
def applyDeletionOmission (patches : List PatchFile) : List PatchFile :=
  (patches.filter fun patch => !patch.isDeletedFile).map fun patch =>
    { patch with hunks := patch.hunks.filter fun hunk => !hunk.isDeletionOnly }

/-- `parse_diff`. -/
def parseDiff (diffText : Text) (includeDeletions : Bool := true) : List PatchFile :=
  if diffText = [] || strip diffText = [] then []
  else
    let patches := (fileBlocks (splitlines diffText)).map parseBlock
    if includeDeletions then patches else applyDeletionOmission patches

end Kenjutsu.Diff
