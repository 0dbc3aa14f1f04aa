import Kenjutsu.Diff.Parser

/-!
# Diffs as git prints them

`render` prints a list of entries line by line. What git may choose (the extended
header lines, whether a count of one is written, where the markers for a missing
newline stand, what the line of a binary file says) is a style, given separately
for each file and each hunk.

Every kind of line has a lemma that says what the parser makes of it. They meet in
`parseDiff_render`: the entries are read back, whatever the style.
-/

set_option autoImplicit false

namespace Kenjutsu.Diff

open Foundations Foundations.Text

/-! ## Styles -/

/-- The extended header lines, apart from those of a rename. -/
inductive ExtendedKeyword where
  | index
  | oldMode
  | newMode
  | newFileMode
  | deletedFileMode
  | similarityIndex
  | dissimilarityIndex
deriving DecidableEq, Repr

def ExtendedKeyword.text : ExtendedKeyword → String
  | .index => "index "
  | .oldMode => "old mode "
  | .newMode => "new mode "
  | .newFileMode => "new file mode "
  | .deletedFileMode => "deleted file mode "
  | .similarityIndex => "similarity index "
  | .dissimilarityIndex => "dissimilarity index "

structure ExtendedHeader where
  keyword : ExtendedKeyword
  value : Text
  unbroken : Unbroken value

def ExtendedHeader.line (header : ExtendedHeader) : Text :=
  header.keyword.text.toList ++ header.value

/-- How a hunk is printed: which counts of one are left out, and after which lines
the marker for a missing newline stands. -/
structure HunkStyle where
  omitOldCount : Bool := false
  omitNewCount : Bool := false
  markers : List Bool := []

/-- How a file is printed: the extended header lines before and after those of a
rename, what the line of a binary file says, and the styles of the hunks. -/
structure FileStyle where
  before : List ExtendedHeader := []
  after : List ExtendedHeader := []
  operands : { text : Text // Unbroken text } := ⟨[], unbroken_nil⟩
  hunks : List HunkStyle := []

/-! ## Rendering -/

def ChangeType.mark : ChangeType → Char
  | .add => '+'
  | .delete => '-'
  | .context => ' '

def renderLine (line : HunkLine) : Text := line.changeType.mark :: line.content

def noNewlineMarker : Text := "\\ No newline at end of file".toList

def renderBody : List Bool → List HunkLine → List Text
  | _, [] => []
  | markers, line :: lines =>
      renderLine line ::
        ((if markers.headD false then [noNewlineMarker] else []) ++ renderBody markers.tail lines)

def renderCount (omitted : Bool) (count : Nat) : Text :=
  if omitted && count = 1 then [] else ",".toList ++ str count

/-- A hunk header up to the second `@@`. -/
def renderRanges (style : HunkStyle) (hunk : Hunk) : Text :=
  "@@ -".toList ++ (str hunk.oldStart ++ (renderCount style.omitOldCount hunk.oldCount ++
    (" +".toList ++ (str hunk.newStart ++ (renderCount style.omitNewCount hunk.newCount ++
      " @@".toList)))))

def renderHunkHeader (style : HunkStyle) (hunk : Hunk) : Text :=
  renderRanges style hunk ++ if hunk.sectionHeader = [] then [] else ' ' :: hunk.sectionHeader

def renderHunk (style : HunkStyle) (hunk : Hunk) : List Text :=
  renderHunkHeader style hunk :: renderBody style.markers hunk.lines

def renderHunks : List HunkStyle → List Hunk → List Text
  | _, [] => []
  | styles, hunk :: hunks => renderHunk (styles.headD {}) hunk ++ renderHunks styles.tail hunks

/-- The `diff --git` line; a path that is missing is replaced by the other. -/
def renderGitHeader (file : PatchFile) : Text :=
  "diff --git a/".toList ++ ((file.oldPath.or file.newPath).getD [] ++ (" b/".toList ++
    (file.newPath.or file.oldPath).getD []))

def renderRename (file : PatchFile) : List Text :=
  match file.oldPath, file.newPath with
  | some old, some new =>
      if old = new then [] else ["rename from ".toList ++ old, "rename to ".toList ++ new]
  | _, _ => []

/-- The `---` or `+++` line. -/
def renderSide (mark : String) (side : String) : Option Text → Text
  | some path => mark.toList ++ (side.toList ++ path)
  | none => mark.toList ++ "/dev/null".toList

/-- The lines of a file before its hunks. -/
def renderFileHeader (style : FileStyle) (file : PatchFile) : List Text :=
  renderGitHeader file :: (style.before.map ExtendedHeader.line ++ (renderRename file ++
    (style.after.map ExtendedHeader.line ++
      if file.isBinary then ["Binary files ".toList ++ (style.operands.val ++ " differ".toList)]
      else if file.hunks = [] then []
      else [renderSide "--- " "a/" file.oldPath, renderSide "+++ " "b/" file.newPath])))

def renderFile (style : FileStyle) (file : PatchFile) : List Text :=
  renderFileHeader style file ++
    if file.isBinary then [] else renderHunks style.hunks file.hunks

def renderFiles : List FileStyle → List PatchFile → List Text
  | _, [] => []
  | styles, file :: files => renderFile (styles.headD {}) file ++ renderFiles styles.tail files

/-- A diff as git prints it. -/
def render (styles : List FileStyle) (files : List PatchFile) : Text :=
  unlines (renderFiles styles files)

/-! ## What can be printed -/

/-- The lines are numbered without gaps from the starts. -/
def WellNumbered (hunk : Hunk) : Prop :=
  hunk.lines = numberLines hunk.oldStart hunk.newStart (hunk.lines.map HunkLine.body)

/-- A hunk whose texts have no line end in them, with a section header without white
space around it. -/
structure PrintableHunk (hunk : Hunk) : Prop where
  numbered : WellNumbered hunk
  contents : ∀ line ∈ hunk.lines, Unbroken line.content
  sectionHeader : Unbroken hunk.sectionHeader
  stripped : strip hunk.sectionHeader = hunk.sectionHeader
  noScope : hunk.enclosingScope = none

/-- A path that is not empty and has no white space in it. -/
def PrintablePath (path : Text) : Prop :=
  path ≠ [] ∧ ∀ character ∈ path, isSpace character = false

instance (path : Text) : Decidable (PrintablePath path) :=
  haveI : Decidable (∀ character ∈ path, isSpace character = false) := List.decidableBAll _ path
  instDecidableAnd

/-- A binary entry has no hunks, and an entry without hunks has both paths. -/
structure PrintableFile (file : PatchFile) : Prop where
  paths : ∀ path, file.oldPath = some path ∨ file.newPath = some path → PrintablePath path
  hunks : ∀ hunk ∈ file.hunks, PrintableHunk hunk
  binary : file.isBinary → file.hunks = []
  bothPaths : file.hunks = [] → file.oldPath.isSome ∧ file.newPath.isSome

/-! ## Hunks are read back -/

theorem carriedLine_renderLine (line : HunkLine) :
    carriedLine (renderLine line) = some line.body := by
  obtain ⟨type, content, old, new⟩ := line
  cases type <;> rfl

theorem endsHunk_renderLine (line : HunkLine) : endsHunk (renderLine line) = false := by
  obtain ⟨type, content, old, new⟩ := line
  cases type <;> rfl

theorem forall_mem_renderBody {holds : Text → Prop} {markers : List Bool} {lines : List HunkLine}
    (ofLine : ∀ line ∈ lines, holds (renderLine line)) (ofMarker : holds noNewlineMarker) :
    ∀ line ∈ renderBody markers lines, holds line := by
  induction lines generalizing markers with
  | nil => simp [renderBody]
  | cons line lines ih =>
      obtain ⟨first, others⟩ := List.forall_mem_cons.mp ofLine
      rw [renderBody, List.forall_mem_cons, List.forall_mem_append]
      refine ⟨first, ?_, ih others⟩
      split
      · simpa using ofMarker
      · simp

theorem endsHunk_of_mem_renderBody (markers : List Bool) (lines : List HunkLine) :
    ∀ line ∈ renderBody markers lines, endsHunk line = false :=
  forall_mem_renderBody (fun line _ => endsHunk_renderLine line) rfl

theorem filterMap_carriedLine_renderBody (markers : List Bool) (lines : List HunkLine) :
    (renderBody markers lines).filterMap carriedLine = lines.map HunkLine.body := by
  induction lines generalizing markers with
  | nil => rfl
  | cons line lines ih =>
      have marker : carriedLine noNewlineMarker = none := rfl
      rw [renderBody, List.filterMap_cons_some (carriedLine_renderLine line), List.filterMap_append,
        ih, List.map_cons]
      split
      · rw [List.filterMap_cons_none marker]
        rfl
      · rfl

/-- The body of a hunk is read back, with the markers left out. -/
theorem readable_renderBody (markers : List Bool) (lines : List HunkLine) :
    readable (renderBody markers lines) = lines.map HunkLine.body := by
  have all : ∀ line ∈ renderBody markers lines, (!endsHunk line) = true := by
    simpa using endsHunk_of_mem_renderBody markers lines
  rw [readable, List.takeWhile_eq_self_iff.mpr all, filterMap_carriedLine_renderBody]

/-- A count as it is matched. -/
def matchedCount (omitted : Bool) (count : Nat) : Option Text :=
  if omitted && count = 1 then none else some (str count)

theorem int_matchedCount (omitted : Bool) (count : Nat) :
    ((matchedCount omitted count).map int).getD 1 = count := by
  unfold matchedCount
  split
  · rename_i left
    exact (of_decide_eq_true (Bool.and_eq_true_iff.mp left).2).symm
  · exact int_str count

theorem digits_str (number : Nat) {rest : Text}
    (stops : ∀ character, rest.head? = some character → isDecimal character = false) :
    digits (str number ++ rest) = some (str number, rest) :=
  digits_append (str_ne_nil number) (fun _ => isDecimal_of_mem_str) stops

theorem matchCount_renderCount (omitted : Bool) (count : Nat) {rest : Text}
    (space : rest.head? = some ' ') :
    matchCount (renderCount omitted count ++ rest) = (matchedCount omitted count, rest) := by
  obtain ⟨rest, rfl⟩ : ∃ later, rest = ' ' :: later := by
    cases rest with
    | nil => cases space
    | cons character rest => exact ⟨rest, by rw [Option.some.inj space]⟩
  unfold renderCount matchedCount
  by_cases left : (omitted && decide (count = 1)) = true
  · rw [if_pos left, if_pos left]
    rfl
  · rw [if_neg left, if_neg left, List.append_assoc, matchCount, literal_append]
    simp only []
    rw [digits_str count (by rintro _ ⟨⟩; rfl)]

/-- A start is followed by a comma or by a space. -/
theorem isDecimal_head_renderCount (omitted : Bool) (count : Nat) {rest : Text}
    (space : rest.head? = some ' ') :
    ∀ character, (renderCount omitted count ++ rest).head? = some character →
      isDecimal character = false := by
  unfold renderCount
  split
  · rw [List.nil_append, space]
    rintro _ ⟨⟩
    rfl
  · rintro _ ⟨⟩
    rfl

/-- What `_HUNK_HEADER` makes of a printed header. -/
def headerMatch (style : HunkStyle) (hunk : Hunk) (sectionHeader : Text) : HunkHeaderMatch where
  oldStart := str hunk.oldStart
  oldCount := matchedCount style.omitOldCount hunk.oldCount
  newStart := str hunk.newStart
  newCount := matchedCount style.omitNewCount hunk.newCount
  sectionHeader := sectionHeader

theorem matchHunkHeader_renderRanges (style : HunkStyle) (hunk : Hunk) {sectionHeader : Text}
    (oneLine : '\n' ∉ sectionHeader) :
    matchHunkHeader (renderRanges style hunk ++ sectionHeader) =
      some (headerMatch style hunk sectionHeader) := by
  unfold renderRanges matchHunkHeader
  simp only [List.append_assoc, literal_append, Option.bind_eq_bind, Option.bind_some]
  rw [digits_str _ (isDecimal_head_renderCount _ _ rfl)]
  simp only [Option.bind_some]
  rw [matchCount_renderCount _ _ rfl]
  simp only [Option.bind_some, literal_append]
  rw [digits_str _ (isDecimal_head_renderCount _ _ rfl)]
  simp only [Option.bind_some]
  rw [matchCount_renderCount _ _ rfl]
  simp only [Option.bind_some, literal_append, restOfLine_of_not_mem oneLine]
  rfl

theorem hunk_headerMatch (style : HunkStyle) (hunk : Hunk) (sectionHeader : Text)
    (lines : List HunkLine) :
    (headerMatch style hunk sectionHeader).hunk lines =
      { hunk with lines, sectionHeader := strip sectionHeader, enclosingScope := none } := by
  simp only [HunkHeaderMatch.hunk, headerMatch, int_str, int_matchedCount]

theorem not_mem_of_unbroken {line : Text} (unbroken : Unbroken line) : '\n' ∉ line := by
  intro member
  have plain := unbroken '\n' member
  cases plain

/-- A printed header is matched, with the section header to be stripped. -/
theorem matchHunkHeader_renderHunkHeader (style : HunkStyle) {hunk : Hunk}
    (printable : PrintableHunk hunk) :
    ∃ sectionHeader, matchHunkHeader (renderHunkHeader style hunk) =
        some (headerMatch style hunk sectionHeader) ∧
      strip sectionHeader = hunk.sectionHeader := by
  have oneLine := not_mem_of_unbroken printable.sectionHeader
  refine ⟨_, matchHunkHeader_renderRanges style hunk ?_, ?_⟩
  · split
    · exact List.not_mem_nil
    · simpa using oneLine
  · split
    · rename_i empty
      rw [empty]
      rfl
    · rw [strip_space_cons, printable.stripped]

theorem head_renderHunks {styles : List HunkStyle} {hunks : List Hunk}
    (printable : ∀ hunk ∈ hunks, PrintableHunk hunk) :
    ∀ line, (renderHunks styles hunks).head? = some line → isHunkHeader line := by
  cases hunks with
  | nil => simp [renderHunks]
  | cons hunk hunks =>
      rintro _ ⟨⟩
      obtain ⟨sectionHeader, found, -⟩ :=
        matchHunkHeader_renderHunkHeader (styles.headD {}) (printable hunk List.mem_cons_self)
      rw [isHunkHeader, found]
      rfl

/-- **Hunks are read back.** -/
theorem parseHunks_renderHunks (styles : List HunkStyle) {hunks : List Hunk}
    (printable : ∀ hunk ∈ hunks, PrintableHunk hunk) :
    parseHunks (renderHunks styles hunks) = hunks := by
  induction hunks generalizing styles with
  | nil => rw [renderHunks, parseHunks]
  | cons hunk hunks ih =>
      obtain ⟨first, others⟩ := List.forall_mem_cons.mp printable
      obtain ⟨sectionHeader, found, stripped⟩ :=
        matchHunkHeader_renderHunkHeader (styles.headD {}) first
      have inside : ∀ line ∈ renderBody (styles.headD {}).markers hunk.lines,
          isHunkHeader line = false := fun line member =>
        (Bool.or_eq_false_iff.mp (endsHunk_of_mem_renderBody _ _ line member)).1
      rw [renderHunks, renderHunk, parseHunks_segment found inside (head_renderHunks others),
        ih _ others, readable_renderBody, hunk_headerMatch, stripped]
      congr 1
      have numbered : numberLines (int (headerMatch (styles.headD {}) hunk sectionHeader).oldStart)
          (int (headerMatch (styles.headD {}) hunk sectionHeader).newStart)
          (hunk.lines.map HunkLine.body) = hunk.lines := by
        simp only [headerMatch, int_str]
        exact first.numbered.symm
      rw [numbered, ← first.noScope]

/-! ## Files are read back -/

theorem isHeaderLine_extendedHeader (header : ExtendedHeader) :
    isHeaderLine header.line = false := by
  obtain ⟨keyword, value, unbroken⟩ := header
  cases keyword <;> simp only [ExtendedHeader.line, ExtendedKeyword.text] <;> rfl

theorem readHeader_extendedHeaders (headers : List ExtendedHeader) (header : FileHeader)
    (block : List Text) :
    readHeader header (headers.map ExtendedHeader.line ++ block) = readHeader header block := by
  refine readHeader_append ?_ header block
  rw [List.forall_mem_map]
  exact fun extended _ => isHeaderLine_extendedHeader extended

/-- The pattern of the `diff --git` line looks for two names with `" b/"` between them. -/
theorem matchGitHeader_of_names {old new : Text} (oldLine : '\n' ∉ old) (newLine : '\n' ∉ new) :
    matchGitHeader ("diff --git a/".toList ++ (old ++ (" b/".toList ++ new))) =
      greedyGroups " b/" (old ++ (" b/".toList ++ new)) := by
  have oneLine : '\n' ∉ old ++ (" b/".toList ++ new) := by simp [oldLine, newLine]
  unfold matchGitHeader
  rw [literal_append]
  simp only [Option.bind_eq_bind, Option.bind_some]
  rw [restOfLine_of_not_mem oneLine]
  rfl

/-- The paths of the `diff --git` line are read back. -/
theorem matchGitHeader_of_paths {old new : Text} (oldPath : PrintablePath old)
    (newPath : PrintablePath new) :
    matchGitHeader ("diff --git a/".toList ++ (old ++ (" b/".toList ++ new))) =
      some (old, new) := by
  have oneLine : ∀ {path : Text}, PrintablePath path → '\n' ∉ path := fun printable =>
    not_mem_of_unbroken (unbroken_of_no_space printable.2)
  have noSpace : ' ' ∉ new := by
    intro member
    have plain := newPath.2 ' ' member
    cases plain
  have spelled : " b/".toList = ' ' :: ['b', '/'] := rfl
  have absent := not_infix_of_not_mem spelled noSpace
  rw [matchGitHeader_of_names (oneLine oldPath) (oneLine newPath)]
  exact (greedyGroups_append_iff spelled (by decide) oldPath.1 newPath.1
    fun last => absent last.isInfix).mpr absent

/-- What the `diff --git` line tells. -/
def gitHeader (file : PatchFile) : FileHeader :=
  match matchGitHeader (renderGitHeader file) with
  | some (old, new) => { oldPath := some old, newPath := some new }
  | none => {}

/-- What the lines of a rename add. -/
def FileHeader.rename (header : FileHeader) (file : PatchFile) : FileHeader :=
  match file.oldPath, file.newPath with
  | some old, some new =>
      if old = new then header else { header with renameFrom := some old, renameTo := some new }
  | _, _ => header

theorem readHeader_gitHeader (file : PatchFile) (block : List Text) :
    readHeader {} (renderGitHeader file :: block) = readHeader (gitHeader file) block := by
  have starts : startsWith (renderGitHeader file) "diff --git " = true := rfl
  rw [readHeader, if_pos starts]
  unfold gitHeader
  cases matchGitHeader (renderGitHeader file) <;> rfl

theorem readHeader_renderRename (file : PatchFile) (header : FileHeader) (block : List Text) :
    readHeader header (renderRename file ++ block) = readHeader (header.rename file) block := by
  unfold renderRename FileHeader.rename
  cases file.oldPath with
  | none => rfl
  | some old =>
      cases file.newPath with
      | none => rfl
      | some new =>
          by_cases same : old = new
          · simp only [same, if_true, List.nil_append]
          · simp only [same, if_false]
            rfl

theorem readHeader_sides (old new : Option Text) (header : FileHeader) (block : List Text) :
    readHeader header (renderSide "--- " "a/" old :: renderSide "+++ " "b/" new :: block) =
      ({ header with oldPath := old, newPath := new }, block) := by
  cases old <;> cases new <;> rfl

/-- Up to the extended header lines, the header lines of a file are read whatever
follows them. -/
theorem readHeader_renderFileHeader (style : FileStyle) (file : PatchFile) (block : List Text) :
    readHeader {} (renderFileHeader style file ++ block) =
      readHeader ((gitHeader file).rename file)
        ((if file.isBinary then ["Binary files ".toList ++ (style.operands.val ++ " differ".toList)]
          else if file.hunks = [] then []
          else [renderSide "--- " "a/" file.oldPath, renderSide "+++ " "b/" file.newPath]) ++
            block) := by
  simp only [renderFileHeader, List.cons_append, List.append_assoc]
  rw [readHeader_gitHeader, readHeader_extendedHeaders, readHeader_renderRename,
    readHeader_extendedHeaders]

theorem FileHeader.rename_withBinary (header : FileHeader) (file : PatchFile) (isBinary : Bool) :
    { header.rename file with isBinary } = ({ header with isBinary } : FileHeader).rename file := by
  unfold FileHeader.rename
  repeat' split
  all_goals rfl

theorem FileHeader.rename_withPaths (header : FileHeader) (file : PatchFile)
    (oldPath newPath : Option Text) :
    { header.rename file with oldPath, newPath } =
      ({ header with oldPath, newPath } : FileHeader).rename file := by
  unfold FileHeader.rename
  repeat' split
  all_goals rfl

/-- The lines of a rename confirm the paths. -/
theorem entry_rename {file : PatchFile} {isBinary : Bool} (hunkLines : List Text) :
    (({ oldPath := file.oldPath, newPath := file.newPath, isBinary } : FileHeader).rename
        file).entry hunkLines =
      { file with hunks := if isBinary then [] else parseHunks hunkLines, isBinary } := by
  obtain ⟨oldPath, newPath, hunks, binary⟩ := file
  unfold FileHeader.rename FileHeader.entry
  cases oldPath with
  | none => rfl
  | some old =>
      cases newPath with
      | none => rfl
      | some new =>
          by_cases same : old = new
          · simp only [same, if_true]
          · simp only [same, if_false]

/-- The `diff --git` line tells the paths of an entry that has both. -/
theorem gitHeader_of_bothPaths {file : PatchFile} (printable : PrintableFile file)
    (both : file.oldPath.isSome ∧ file.newPath.isSome) :
    gitHeader file = { oldPath := file.oldPath, newPath := file.newPath } := by
  obtain ⟨old, oldPath⟩ := Option.isSome_iff_exists.mp both.1
  obtain ⟨new, newPath⟩ := Option.isSome_iff_exists.mp both.2
  unfold gitHeader renderGitHeader
  rw [oldPath, newPath, Option.some_or, Option.some_or, Option.getD_some, Option.getD_some,
    matchGitHeader_of_paths (printable.paths old (.inl oldPath))
      (printable.paths new (.inr newPath))]

/-- Whatever the `diff --git` line tells, the sides replace it. -/
theorem gitHeader_withPaths (file : PatchFile) (oldPath newPath : Option Text) :
    { gitHeader file with oldPath, newPath } = ({ oldPath, newPath } : FileHeader) := by
  unfold gitHeader
  cases matchGitHeader (renderGitHeader file) <;> rfl

/-- **The lines of a file are read back.** -/
theorem parseBlock_renderFile (style : FileStyle) {file : PatchFile}
    (printable : PrintableFile file) : parseBlock (renderFile style file) = file := by
  unfold parseBlock renderFile
  rw [readHeader_renderFileHeader]
  cases binary : file.isBinary with
  | true =>
      have noHunks := printable.binary binary
      have read : ∀ header : FileHeader,
          readHeader header ["Binary files ".toList ++ (style.operands.val ++ " differ".toList)] =
            ({ header with isBinary := true }, []) := fun _ => rfl
      simp only [if_true, List.append_nil]
      rw [read, FileHeader.rename_withBinary,
        gitHeader_of_bothPaths printable (printable.bothPaths noHunks), entry_rename, if_pos rfl,
        ← noHunks, ← binary]
  | false =>
      simp only [Bool.false_eq_true, if_false]
      by_cases noHunks : file.hunks = []
      · rw [if_pos noHunks, noHunks, renderHunks, List.append_nil, readHeader,
          gitHeader_of_bothPaths printable (printable.bothPaths noHunks), entry_rename,
          if_neg (by simp), parseHunks, ← noHunks, ← binary]
      · rw [if_neg noHunks]
        simp only [List.cons_append, List.nil_append]
        rw [readHeader_sides, FileHeader.rename_withPaths, gitHeader_withPaths, entry_rename,
          if_neg (by simp), parseHunks_renderHunks _ printable.hunks, ← binary]

/-! ## Line ends -/

theorem unbroken_str (number : Nat) : Unbroken (str number) := by
  have noDigit : lineEnds.all fun character => !character.isDigit := by decide
  intro character member
  cases breaks : isLineEnd character with
  | false => rfl
  | true =>
      have other := List.all_eq_true.mp noDigit character (List.contains_iff_mem.mp breaks)
      rw [isDigit_of_mem_str member] at other
      cases other

theorem unbroken_renderCount (omitted : Bool) (count : Nat) :
    Unbroken (renderCount omitted count) := by
  unfold renderCount
  split
  · exact unbroken_nil
  · exact Unbroken.append (by decide) (unbroken_str count)

theorem unbroken_renderRanges (style : HunkStyle) (hunk : Hunk) :
    Unbroken (renderRanges style hunk) := by
  have new : Unbroken (str hunk.newStart ++ (renderCount style.omitNewCount hunk.newCount ++
      " @@".toList)) :=
    (unbroken_str _).append ((unbroken_renderCount _ _).append (by decide))
  have plus : Unbroken " +".toList := by decide
  exact Unbroken.append (by decide)
    ((unbroken_str _).append ((unbroken_renderCount _ _).append (plus.append new)))

theorem unbroken_renderLine {line : HunkLine} (content : Unbroken line.content) :
    Unbroken (renderLine line) := by
  have mark : isLineEnd line.changeType.mark = false := by cases line.changeType <;> rfl
  exact List.forall_mem_cons.mpr ⟨mark, content⟩

theorem unbroken_renderHunks (styles : List HunkStyle) {hunks : List Hunk}
    (printable : ∀ hunk ∈ hunks, PrintableHunk hunk) :
    ∀ line ∈ renderHunks styles hunks, Unbroken line := by
  induction hunks generalizing styles with
  | nil => simp [renderHunks]
  | cons hunk hunks ih =>
      obtain ⟨first, others⟩ := List.forall_mem_cons.mp printable
      rw [renderHunks, renderHunk, List.forall_mem_append, List.forall_mem_cons]
      refine ⟨⟨(unbroken_renderRanges _ hunk).append ?_, ?_⟩, ih _ others⟩
      · split
        · exact unbroken_nil
        · exact List.forall_mem_cons.mpr ⟨rfl, first.sectionHeader⟩
      · exact forall_mem_renderBody
          (fun line member => unbroken_renderLine (first.contents line member)) (by decide)

theorem ExtendedHeader.unbroken_line (header : ExtendedHeader) : Unbroken header.line := by
  refine Unbroken.append ?_ header.unbroken
  cases header.keyword <;> decide

/-- What holds of every kind of line holds of the header lines below the first. -/
theorem forall_mem_tail_renderFileHeader {holds : Text → Prop} (style : FileStyle)
    (file : PatchFile) (extended : ∀ header : ExtendedHeader, holds header.line)
    (rename : ∀ old new, file.oldPath = some old → file.newPath = some new →
      holds ("rename from ".toList ++ old) ∧ holds ("rename to ".toList ++ new))
    (binary : holds ("Binary files ".toList ++ (style.operands.val ++ " differ".toList)))
    (sides : holds (renderSide "--- " "a/" file.oldPath) ∧
      holds (renderSide "+++ " "b/" file.newPath)) :
    ∀ line ∈ (renderFileHeader style file).tail, holds line := by
  have renames : ∀ line ∈ renderRename file, holds line := by
    unfold renderRename
    split
    · rename_i old new oldPath newPath
      split
      · simp
      · simpa using rename old new oldPath newPath
    · simp
  rw [renderFileHeader, List.tail_cons, List.forall_mem_append, List.forall_mem_append,
    List.forall_mem_append, List.forall_mem_map, List.forall_mem_map]
  refine ⟨fun header _ => extended header, renames, fun header _ => extended header, ?_⟩
  split
  · exact List.forall_mem_singleton.mpr binary
  · split
    · simp
    · simpa using sides

theorem unbroken_renderSide {mark side : String} {path : Option Text}
    (markPlain : Unbroken mark.toList) (sidePlain : Unbroken side.toList)
    (plain : ∀ text, path = some text → Unbroken text) :
    Unbroken (renderSide mark side path) := by
  cases path with
  | none => exact markPlain.append (by decide)
  | some text => exact markPlain.append (sidePlain.append (plain text rfl))

theorem unbroken_renderGitHeader {file : PatchFile}
    (paths : ∀ path, file.oldPath = some path ∨ file.newPath = some path → Unbroken path) :
    Unbroken (renderGitHeader file) := by
  have either : ∀ first second : Option Text,
      (∀ path, first = some path ∨ second = some path → Unbroken path) →
        Unbroken ((first.or second).getD []) := by
    intro first second plain
    cases first with
    | some path => exact plain path (.inl rfl)
    | none =>
        cases second with
        | some path => exact plain path (.inr rfl)
        | none => exact unbroken_nil
  have between : Unbroken " b/".toList := by decide
  exact Unbroken.append (by decide) ((either _ _ paths).append
    (between.append (either _ _ fun path isPath => paths path isPath.symm)))

/-- The header lines of a file have no line end in them when the paths have none. -/
theorem unbroken_renderFileHeader (style : FileStyle) {file : PatchFile}
    (paths : ∀ path, file.oldPath = some path ∨ file.newPath = some path → Unbroken path) :
    ∀ line ∈ renderFileHeader style file, Unbroken line := by
  have below := forall_mem_tail_renderFileHeader style file ExtendedHeader.unbroken_line
    (fun old new isOld isNew => ⟨Unbroken.append (by decide) (paths old (.inl isOld)),
      Unbroken.append (by decide) (paths new (.inr isNew))⟩)
    (Unbroken.append (by decide) (style.operands.property.append (by decide)))
    ⟨unbroken_renderSide (by decide) (by decide) fun path isOld => paths path (.inl isOld),
      unbroken_renderSide (by decide) (by decide) fun path isNew => paths path (.inr isNew)⟩
  exact List.forall_mem_cons.mpr ⟨unbroken_renderGitHeader paths, below⟩

/-! ## Blocks -/

theorem startsBlock_of_mem_renderHunks (styles : List HunkStyle) (hunks : List Hunk) :
    ∀ line ∈ renderHunks styles hunks, startsBlock line = false := by
  have ofBody : ∀ line : HunkLine, startsBlock (renderLine line) = false := by
    rintro ⟨type, content, old, new⟩
    cases type <;> rfl
  induction hunks generalizing styles with
  | nil => simp [renderHunks]
  | cons hunk hunks ih =>
      rw [renderHunks, renderHunk, List.forall_mem_append, List.forall_mem_cons]
      exact ⟨⟨rfl, forall_mem_renderBody (fun line _ => ofBody line) rfl⟩, ih _⟩

theorem startsBlock_extendedHeader (header : ExtendedHeader) :
    startsBlock header.line = false := by
  have other := isHeaderLine_extendedHeader header
  simp only [isHeaderLine, List.any_cons, Bool.or_eq_false_iff] at other
  exact other.1

/-- After its first line, no header line of a file starts a block. -/
theorem startsBlock_of_mem_tail (style : FileStyle) (file : PatchFile) :
    ∀ line ∈ (renderFileHeader style file).tail, startsBlock line = false := by
  refine forall_mem_tail_renderFileHeader style file startsBlock_extendedHeader
    (fun _ _ _ _ => ⟨rfl, rfl⟩) rfl ⟨?_, ?_⟩
  · cases file.oldPath <;> rfl
  · cases file.newPath <;> rfl

theorem startsBlock_renderGitHeader (file : PatchFile) : startsBlock (renderGitHeader file) := rfl

/-- **The blocks of a printed diff** are the files. -/
theorem map_parseBlock_fileBlocks (styles : List FileStyle) {files : List PatchFile}
    (printable : ∀ file ∈ files, PrintableFile file) :
    (fileBlocks (renderFiles styles files)).map parseBlock = files := by
  induction files generalizing styles with
  | nil => rfl
  | cons file files ih =>
      obtain ⟨first, others⟩ := List.forall_mem_cons.mp printable
      have next : ∀ later, (renderFiles styles.tail files).head? = some later →
          startsBlock later := by
        cases files with
        | nil => simp [renderFiles]
        | cons other files =>
            rintro _ ⟨⟩
            exact startsBlock_renderGitHeader other
      have inside : ∀ line ∈ (renderFile (styles.headD {}) file).tail,
          startsBlock line = false := by
        rw [renderFile, renderFileHeader, List.cons_append, List.tail_cons, List.forall_mem_append]
        refine ⟨startsBlock_of_mem_tail (styles.headD {}) file, ?_⟩
        split
        · simp
        · exact startsBlock_of_mem_renderHunks _ _
      have whole : renderFile (styles.headD {}) file =
          renderGitHeader file :: (renderFile (styles.headD {}) file).tail := rfl
      rw [renderFiles, whole, fileBlocks_cons_append (startsBlock_renderGitHeader file) inside next,
        List.map_cons, ih _ others, ← whole, parseBlock_renderFile _ first]

theorem unbroken_renderFiles (styles : List FileStyle) {files : List PatchFile}
    (printable : ∀ file ∈ files, PrintableFile file) :
    ∀ line ∈ renderFiles styles files, Unbroken line := by
  induction files generalizing styles with
  | nil => simp [renderFiles]
  | cons file files ih =>
      obtain ⟨first, others⟩ := List.forall_mem_cons.mp printable
      rw [renderFiles, renderFile, List.forall_mem_append, List.forall_mem_append]
      refine ⟨⟨unbroken_renderFileHeader _ fun path isPath => ?_, ?_⟩, ih _ others⟩
      · exact unbroken_of_no_space (first.paths path isPath).2
      · split
        · simp
        · exact unbroken_renderHunks _ first.hunks

/-- A printed diff is not blank, so its blocks are parsed. -/
theorem parseDiff_of_starts {text rest : Text} (starts : text = 'd' :: rest) :
    parseDiff text = (fileBlocks (splitlines text)).map parseBlock := by
  have notBlank : ¬ (decide (text = []) || decide (strip text = [])) = true := by
    have plain : strip ('d' :: rest) ≠ [] := strip_ne_nil rfl
    simp [starts, plain]
  unfold parseDiff
  rw [if_neg notBlank, if_pos rfl]

/-- **Parsing inverts printing.** Whatever the style, the entries are read back. -/
theorem parseDiff_render (styles : List FileStyle) {files : List PatchFile}
    (printable : ∀ file ∈ files, PrintableFile file) : parseDiff (render styles files) = files := by
  cases files with
  | nil => rfl
  | cons file files =>
      obtain ⟨rest, starts⟩ : ∃ rest, render styles (file :: files) = 'd' :: rest := ⟨_, rfl⟩
      rw [parseDiff_of_starts starts, render,
        splitlines_unlines_of_unbroken (unbroken_renderFiles styles printable),
        map_parseBlock_fileBlocks styles printable]

/-- A renamed file with one hunk. -/
def renamedFile : PatchFile where
  oldPath := some "old.py".toList
  newPath := some "new.py".toList
  hunks := [
    { oldStart := 10, oldCount := 2, newStart := 10, newCount := 1
      lines := numberLines 10 10 [(.context, "diff --git a/x b/x".toList), (.delete, "-- x".toList)]
      sectionHeader := "def f(x):".toList }]

/-- A changed binary file. -/
def binaryFile : PatchFile where
  oldPath := some "image.png".toList
  newPath := some "image.png".toList
  hunks := []
  isBinary := true

/-- The two files are read back, printed with the marker for a missing newline after
the last line and with the count of one left out. -/
theorem parseDiff_render_renamed_binary :
    parseDiff (render [{ hunks := [{ omitNewCount := true, markers := [false, true] }] }]
      [renamedFile, binaryFile]) = [renamedFile, binaryFile] := by
  have oldPath : PrintablePath "old.py".toList := by decide
  have newPath : PrintablePath "new.py".toList := by decide
  have imagePath : PrintablePath "image.png".toList := by decide
  refine parseDiff_render _ (List.forall_mem_cons.mpr ⟨?renamed, List.forall_mem_singleton.mpr ?_⟩)
  case renamed =>
    refine ⟨?_, List.forall_mem_singleton.mpr ?_, by decide, by decide⟩
    · rintro path (isPath | isPath)
      · exact Option.some.inj isPath ▸ oldPath
      · exact Option.some.inj isPath ▸ newPath
    · exact ⟨rfl, by decide, by decide, by decide, rfl⟩
  refine ⟨?_, List.forall_mem_nil _, by decide, by decide⟩
  rintro path (isPath | isPath) <;> exact Option.some.inj isPath ▸ imagePath

end Kenjutsu.Diff
