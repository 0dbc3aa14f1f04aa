import Kenjutsu.Diff.Rendering
import Kenjutsu.Diff.Sections

/-!
# Entries in git's format

An entry says how a file changed (modified, added, deleted or renamed) and what there is
of its content: nothing, the line of a binary file, or hunks. Only with hunks are there
`---` and `+++` lines, and a name with a space in it has a tab after it there.

The lines of an entry before its hunks tell the parser the paths (`parseBlock_lines`),
whatever the hunks are; so the entry is the first one of its section
(`parseDiff_entry`), and the only one unless a piece of its hunks starts a block.
-/

set_option autoImplicit false

namespace Kenjutsu.Diff

open Foundations Foundations.Text

/-! ## Names -/

/-- The printing characters for which git quotes a name, and the line and paragraph
separators. -/
def quotedCharacters : List Char := ['"', '\\', '\u2028', '\u2029']

/-- No control character, and none for which git quotes a name. -/
def isPrinted (character : Char) : Bool :=
  0x20 ≤ character.toNat && !(0x7f ≤ character.toNat && character.toNat < 0xa0) &&
    !quotedCharacters.contains character

/-- The name of a file that git prints as it is. -/
structure FileName where
  text : Text
  nonempty : text ≠ []
  printed : ∀ character ∈ text, isPrinted character
  notDirectory : text.getLast? ≠ some '/'
deriving DecidableEq

/-- The name with the tab that follows it in a `---` or `+++` line. -/
def FileName.withTab (name : FileName) : Text :=
  name.text ++ if ' ' ∈ name.text then ['\t'] else []

theorem FileName.unbroken (name : FileName) : Unbroken name.text := by
  have noEnd : lineEnds.all fun character => !isPrinted character := by decide
  intro character member
  cases breaks : isLineEnd character with
  | false => rfl
  | true =>
      have other := List.all_eq_true.mp noEnd character (List.contains_iff_mem.mp breaks)
      rw [name.printed character member] at other
      cases other

theorem FileName.unbroken_withTab (name : FileName) : Unbroken name.withTab := by
  refine name.unbroken.append ?_
  split <;> decide

theorem FileName.withTab_eq_iff (name : FileName) :
    name.withTab = name.text ↔ ' ' ∉ name.text := by
  unfold withTab
  split <;> simp_all

/-- If a name has `" b/"` in it, something follows. -/
theorem FileName.not_suffix (name : FileName) : ¬" b/".toList <:+ name.text := by
  rintro ⟨before, same⟩
  apply name.notDirectory
  rw [← same, List.getLast?_append]
  rfl

/-! ## Entries -/

inductive Change where
  | modified (name : FileName)
  | added (name : FileName)
  | deleted (name : FileName)
  | renamed (old new : FileName) (differ : old ≠ new)

namespace Change

def old : Change → FileName
  | modified name | added name | deleted name => name
  | renamed old _ _ => old

def new : Change → FileName
  | modified name | added name | deleted name => name
  | renamed _ new _ => new

/-- The file of the old version, if there is one. -/
def oldFile : Change → Option FileName
  | added _ => none
  | change => some change.old

/-- The file of the new version, if there is one. -/
def newFile : Change → Option FileName
  | deleted _ => none
  | change => some change.new

/-- The keyword that announces the change, if there is one. -/
def announcement : Change → Option ExtendedKeyword
  | added _ => some .newFileMode
  | deleted _ => some .deletedFileMode
  | _ => none

def renameFrom : Change → Option FileName
  | renamed old _ _ => some old
  | _ => none

def renameTo : Change → Option FileName
  | renamed _ new _ => some new
  | _ => none

end Change

/-- What there is of the content. A file that is empty, or that only changed its mode or
its name, has none. -/
inductive Content where
  | unchanged
  | binary
  | text (styles : List HunkStyle) (hunks : List Hunk) (nonempty : hunks ≠ [])

def Content.isText : Content → Bool
  | .text .. => true
  | _ => false

/-- An entry, with the mode that is announced and the extended header lines that are not
determined by the change. -/
structure GitEntry where
  change : Change
  content : Content
  mode : { text : Text // Unbroken text } := ⟨[], unbroken_nil⟩
  before : List ExtendedHeader := []
  after : List ExtendedHeader := []
  unannounced : ∀ header ∈ before ++ after,
    header.keyword ≠ .newFileMode ∧ header.keyword ≠ .deletedFileMode := by simp

namespace GitEntry

def announcements (entry : GitEntry) : List ExtendedHeader :=
  entry.change.announcement.toList.map fun keyword =>
    ⟨keyword, entry.mode.val, entry.mode.property⟩

def gitHeader (entry : GitEntry) : Text :=
  "diff --git a/".toList ++ (entry.change.old.text ++ (" b/".toList ++ entry.change.new.text))

def renames (entry : GitEntry) : List Text :=
  (entry.change.renameFrom.toList.map fun old => "rename from ".toList ++ old.text) ++
    entry.change.renameTo.toList.map fun new => "rename to ".toList ++ new.text

/-- A file as it is named in the line of a binary file. -/
def operand (side : String) : Option FileName → Text
  | some name => side.toList ++ name.text
  | none => "/dev/null".toList

/-- The `---` or `+++` line. -/
def sideLine (mark side : String) : Option FileName → Text
  | some name => mark.toList ++ (side.toList ++ name.withTab)
  | none => mark.toList ++ "/dev/null".toList

def binaryLine (old new : Option FileName) : Text :=
  "Binary files ".toList ++ (operand "a/" old ++ (" and ".toList ++ (operand "b/" new ++
    " differ".toList)))

/-- The lines between the extended header lines and the hunks. -/
def contentHeader (entry : GitEntry) : List Text :=
  match entry.content with
  | .unchanged => []
  | .binary => [binaryLine entry.change.oldFile entry.change.newFile]
  | .text .. => [sideLine "--- " "a/" entry.change.oldFile,
      sideLine "+++ " "b/" entry.change.newFile]

def hunkLines (entry : GitEntry) : List Text :=
  match entry.content with
  | .text styles hunks _ => renderHunks styles hunks
  | _ => []

/-- The header lines after the first. -/
def headerRest (entry : GitEntry) : List Text :=
  (entry.before ++ entry.announcements).map ExtendedHeader.line ++
    (entry.renames ++ (entry.after.map ExtendedHeader.line ++ entry.contentHeader))

def lines (entry : GitEntry) : List Text :=
  entry.gitHeader :: entry.headerRest ++ entry.hunkLines

def render (entry : GitEntry) : Text := unlines entry.lines

/-- The entry is announced by the keyword. -/
def Announces (entry : GitEntry) (keyword : ExtendedKeyword) : Prop :=
  ∃ header ∈ entry.before ++ entry.announcements ++ entry.after, header.keyword = keyword

/-! ## The lines before the hunks -/

/-- What holds of every kind of header line holds of those of the entry. -/
theorem forall_mem_headerRest (entry : GitEntry) {holds : Text → Prop}
    (extended : ∀ header : ExtendedHeader, holds header.line)
    (rename : ∀ name : FileName,
      holds ("rename from ".toList ++ name.text) ∧ holds ("rename to ".toList ++ name.text))
    (binary : ∀ old new, holds (binaryLine old new))
    (side : ∀ file, holds (sideLine "--- " "a/" file) ∧ holds (sideLine "+++ " "b/" file)) :
    ∀ line ∈ entry.headerRest, holds line := by
  have renames : ∀ line ∈ entry.renames, holds line := by
    unfold renames
    rw [List.forall_mem_append, List.forall_mem_map, List.forall_mem_map]
    exact ⟨fun name _ => (rename name).1, fun name _ => (rename name).2⟩
  have contentHeader : ∀ line ∈ entry.contentHeader, holds line := by
    unfold GitEntry.contentHeader
    split
    · simp
    · simpa using binary _ _
    · simpa using ⟨(side _).1, (side _).2⟩
  unfold headerRest
  rw [List.forall_mem_append, List.forall_mem_append, List.forall_mem_append, List.forall_mem_map,
    List.forall_mem_map]
  exact ⟨fun header _ => extended header, renames, fun header _ => extended header, contentHeader⟩

theorem startsBlock_gitHeader (entry : GitEntry) : startsBlock entry.gitHeader := rfl

theorem startsBlock_of_mem_headerRest (entry : GitEntry) :
    ∀ line ∈ entry.headerRest, startsBlock line = false := by
  refine entry.forall_mem_headerRest startsBlock_extendedHeader (fun _ => ⟨rfl, rfl⟩)
    (fun _ _ => rfl) fun file => ?_
  cases file <;> exact ⟨rfl, rfl⟩

theorem unbroken_of_mem_headerRest (entry : GitEntry) :
    ∀ line ∈ entry.headerRest, Unbroken line := by
  have operandPlain : ∀ (side : String) (file : Option FileName), Unbroken side.toList →
      Unbroken (operand side file) := by
    intro side file plain
    cases file with
    | none => exact (by decide : Unbroken "/dev/null".toList)
    | some name => exact plain.append name.unbroken
  have sidePlain : ∀ (mark side : String) (file : Option FileName), Unbroken mark.toList →
      Unbroken side.toList → Unbroken (sideLine mark side file) := by
    intro mark side file markPlain plain
    cases file with
    | none => exact markPlain.append (by decide)
    | some name => exact markPlain.append (plain.append name.unbroken_withTab)
  refine entry.forall_mem_headerRest ExtendedHeader.unbroken_line (fun name => ?_)
    (fun old new => ?_) fun file => ?_
  · exact ⟨Unbroken.append (by decide) name.unbroken, Unbroken.append (by decide) name.unbroken⟩
  · have between : Unbroken " and ".toList := by decide
    exact Unbroken.append (by decide) ((operandPlain "a/" old (by decide)).append
      (between.append ((operandPlain "b/" new (by decide)).append (by decide))))
  · exact ⟨sidePlain _ _ file (by decide) (by decide), sidePlain _ _ file (by decide) (by decide)⟩

theorem unbroken_gitHeader (entry : GitEntry) : Unbroken entry.gitHeader := by
  have between : Unbroken " b/".toList := by decide
  exact Unbroken.append (by decide)
    (entry.change.old.unbroken.append (between.append entry.change.new.unbroken))

/-! ## What the parser makes of them -/

/-- What the `diff --git` line and the lines of a rename tell. -/
def named (entry : GitEntry) : FileHeader where
  oldPath := (matchGitHeader entry.gitHeader).map Prod.fst
  newPath := (matchGitHeader entry.gitHeader).map Prod.snd
  renameFrom := entry.change.renameFrom.map FileName.text
  renameTo := entry.change.renameTo.map FileName.text

/-- What all header lines tell. -/
def header (entry : GitEntry) : FileHeader :=
  match entry.content with
  | .unchanged => entry.named
  | .binary => { entry.named with isBinary := true }
  | .text .. => { entry.named with
      oldPath := entry.change.oldFile.map FileName.withTab
      newPath := entry.change.newFile.map FileName.withTab }

theorem renameFrom_header (entry : GitEntry) :
    entry.header.renameFrom = entry.change.renameFrom.map FileName.text := by
  unfold header
  split <;> rfl

theorem renameTo_header (entry : GitEntry) :
    entry.header.renameTo = entry.change.renameTo.map FileName.text := by
  unfold header
  split <;> rfl

theorem readHeader_sideLines (old new : Option FileName) (header : FileHeader)
    (block : List Text) :
    readHeader header (sideLine "--- " "a/" old :: sideLine "+++ " "b/" new :: block) =
      ({ header with
        oldPath := old.map FileName.withTab, newPath := new.map FileName.withTab }, block) := by
  cases old <;> cases new <;> rfl

theorem readHeader_renames (entry : GitEntry) (oldPath newPath : Option Text)
    (block : List Text) :
    readHeader { oldPath, newPath } (entry.renames ++ block) =
      readHeader {
        oldPath, newPath
        renameFrom := entry.change.renameFrom.map FileName.text
        renameTo := entry.change.renameTo.map FileName.text } block := by
  unfold renames
  cases entry.change <;> rfl

/-- The header lines are read whatever hunks follow them. -/
theorem readHeader_lines (entry : GitEntry) {block : List Text}
    (onlyHunks : entry.hunkLines = [] → block = []) :
    readHeader {} (entry.gitHeader :: (entry.headerRest ++ block)) = (entry.header, block) := by
  have first : ∀ rest, readHeader {} (entry.gitHeader :: rest) =
      readHeader {
        oldPath := (matchGitHeader entry.gitHeader).map Prod.fst
        newPath := (matchGitHeader entry.gitHeader).map Prod.snd } rest := by
    intro rest
    have starts : startsWith entry.gitHeader "diff --git " = true := entry.startsBlock_gitHeader
    rw [readHeader, if_pos starts]
    cases matchGitHeader entry.gitHeader <;> rfl
  rw [first, headerRest, List.append_assoc, readHeader_extendedHeaders, List.append_assoc,
    readHeader_renames, List.append_assoc, readHeader_extendedHeaders]
  unfold contentHeader header
  cases content : entry.content with
  | unchanged =>
      rw [onlyHunks (by rw [hunkLines, content])]
      rfl
  | binary =>
      rw [onlyHunks (by rw [hunkLines, content])]
      rfl
  | text styles hunks nonempty =>
      simp only [List.cons_append, List.nil_append]
      exact readHeader_sideLines _ _ entry.named block

theorem matchGitHeader_gitHeader (entry : GitEntry) :
    matchGitHeader entry.gitHeader =
      greedyGroups " b/" (entry.change.old.text ++ (" b/".toList ++ entry.change.new.text)) :=
  matchGitHeader_of_names (not_mem_of_unbroken entry.change.old.unbroken)
    (not_mem_of_unbroken entry.change.new.unbroken)

/-- The pattern finds some paths. -/
theorem isSome_matchGitHeader (entry : GitEntry) : (matchGitHeader entry.gitHeader).isSome := by
  obtain ⟨old, new, found, -⟩ :=
    @greedyGroups_longest " b/" _ _ entry.change.old.nonempty entry.change.new.nonempty
  rw [matchGitHeader_gitHeader, found]
  rfl

/-- It finds the paths of the entry exactly when the new one has no `" b/"` in it. -/
theorem matchGitHeader_eq_iff (entry : GitEntry) :
    matchGitHeader entry.gitHeader = some (entry.change.old.text, entry.change.new.text) ↔
      ¬" b/".toList <:+: entry.change.new.text := by
  have spelled : " b/".toList = ' ' :: ['b', '/'] := rfl
  rw [matchGitHeader_gitHeader]
  exact greedyGroups_append_iff spelled (by decide) entry.change.old.nonempty
    entry.change.new.nonempty entry.change.new.not_suffix

/-! ## The section of the entry -/

/-- What the parser sees of the hunks. -/
def seen (entry : GitEntry) : List Text := entry.hunkLines.flatMap pieces

theorem splitlines_render (entry : GitEntry) :
    splitlines entry.render = entry.gitHeader :: (entry.headerRest ++ entry.seen) := by
  have headerPlain : ∀ line ∈ entry.gitHeader :: entry.headerRest, Unbroken line :=
    List.forall_mem_cons.mpr ⟨entry.unbroken_gitHeader, entry.unbroken_of_mem_headerRest⟩
  rw [render, splitlines_unlines, lines, List.flatMap_append,
    flatMap_pieces_of_unbroken headerPlain]
  rfl

/-- The entry is the first one of its section; where a piece of its hunks starts a block,
there are more. -/
theorem parseDiff_entry (entry : GitEntry) :
    parseDiff entry.render =
      entry.header.entry (entry.seen.takeWhile fun line => !startsBlock line) ::
        (fileBlocks entry.seen).map parseBlock := by
  have inside : ∀ line ∈ entry.headerRest, (!startsBlock line) = true := by
    simpa using entry.startsBlock_of_mem_headerRest
  have onlyHunks : entry.hunkLines = [] →
      (entry.seen.takeWhile fun line => !startsBlock line) = [] := by
    intro none
    rw [seen, none]
    rfl
  rw [parseDiff_eq, if_pos rfl, splitlines_render, fileBlocks,
    if_pos entry.startsBlock_gitHeader, List.takeWhile_append_of_pos inside,
    fileBlocks_append entry.startsBlock_of_mem_headerRest, List.map_cons, parseBlock,
    readHeader_lines entry onlyHunks]

theorem isSection_render (entry : GitEntry) : IsSection entry.render :=
  ⟨startsWith_append "diff --git " _, endsLine_unlines entry.lines⟩

end GitEntry

/-- The entries one after another. -/
def renderEntries (entries : List GitEntry) : Text := (entries.map GitEntry.render).flatten

/-- The entries are parsed one by one. -/
theorem parseDiff_renderEntries (entries : List GitEntry) (includeDeletions : Bool) :
    parseDiff (renderEntries entries) includeDeletions =
      entries.flatMap fun entry => parseDiff entry.render includeDeletions := by
  have areSections : ∀ text ∈ entries.map GitEntry.render, IsSection text :=
    List.forall_mem_map.mpr fun entry _ => entry.isSection_render
  rw [renderEntries, parseDiff_flatten areSections, List.flatMap_map]

end Kenjutsu.Diff
