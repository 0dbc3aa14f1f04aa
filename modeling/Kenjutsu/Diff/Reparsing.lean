import Kenjutsu.Diff.Lines
import Kenjutsu.Diff.Numbering

/-!
# Printing what was parsed

The parser takes any text. What it returns is always fit to be printed, up to the paths:
the hunks are numbered from their starts, no text in them has a line end, and section
headers are stripped (`returned_of_mem_parseDiff`).

So every entry with hunks is read back after it has been printed, whatever the text it
came from. An entry without hunks has nothing but its `diff --git` line and the lines of
a rename to tell its paths; `parseDiff_reprinted` says for which paths they do, and that
what has been printed and parsed once does not change any more.
-/

set_option autoImplicit false

namespace Kenjutsu.Diff

open Foundations Foundations.Text

variable {line text rest : Text} {lines block : List Text} {header : FileHeader}
  {file : PatchFile} {files : List PatchFile} {includeDeletions : Bool}

/-! ## Hunks -/

theorem matchCount_suffix {count : Option Text} (found : matchCount text = (count, rest)) :
    rest <:+ text := by
  unfold matchCount at found
  split at found
  · obtain ⟨-, rfl⟩ := Prod.mk.inj found
    exact List.suffix_rfl
  · rename_i behind isBehind
    split at found
    · obtain ⟨-, rfl⟩ := Prod.mk.inj found
      exact List.suffix_rfl
    · rename_i digitsFound
      obtain ⟨-, rfl⟩ := Prod.mk.inj found
      exact (digits_suffix digitsFound).trans (literal_suffix isBehind)

/-- The section header is part of the line. -/
theorem sectionHeader_sublist {header : HunkHeaderMatch}
    (found : matchHunkHeader line = some header) : header.sectionHeader.Sublist line := by
  unfold matchHunkHeader at found
  simp only [Option.bind_eq_bind, Option.bind_eq_some_iff] at found
  obtain ⟨one, atOne, ⟨oldStart, two⟩, atTwo, three, atThree, ⟨newStart, four⟩, atFour, five,
    atFive, sectionHeader, isGroup, same⟩ := found
  obtain rfl := Option.some.inj same
  have toTwo : two <:+ line := (digits_suffix atTwo).trans (literal_suffix atOne)
  have toThree := (literal_suffix atThree).trans (matchCount_suffix rfl)
  have toFive := (literal_suffix atFive).trans (matchCount_suffix rfl)
  exact (isPrefix_of_restOfLine isGroup).sublist.trans
    ((toFive.trans ((digits_suffix atFour).trans (toThree.trans toTwo))).sublist)

/-- A parsed hunk can be printed. -/
theorem printable_of_mem_parseHunks (unbroken : ∀ line ∈ lines, Unbroken line) :
    ∀ hunk ∈ parseHunks lines, PrintableHunk hunk := by
  induction lines with
  | nil => simp [parseHunks]
  | cons line lines ih =>
      obtain ⟨first, others⟩ := List.forall_mem_cons.mp unbroken
      cases found : matchHunkHeader line with
      | none => rw [parseHunks_cons_none (by simp [isHunkHeader, found])]; exact ih others
      | some header =>
          rw [parseHunks_cons_some found, List.forall_mem_cons]
          refine ⟨⟨?_, ?_, ?_, strip_strip _, rfl⟩, ih others⟩
          · exact congrArg _ (map_body_numberLines _ _ _).symm
          · intro hunkLine member
            have carried := List.mem_map_of_mem (f := HunkLine.body) member
            rw [HunkHeaderMatch.hunk, map_body_numberLines] at carried
            exact unbroken_of_mem_readable others _ carried
          · exact first.sublist ((strip_sublist _).trans (sectionHeader_sublist found))

/-! ## Header lines -/

/-- A path without a line end, if there is one. -/
def PlainPath (path : Option Text) : Prop := ∀ text, path = some text → Unbroken text

theorem plainPath_none : PlainPath none := fun _ isPath => nomatch isPath

theorem plainPath_some (unbroken : Unbroken text) : PlainPath (some text) := by
  rintro _ ⟨⟩
  exact unbroken

theorem PlainPath.or {first second : Option Text} (one : PlainPath first)
    (two : PlainPath second) : PlainPath (first.or second) := by
  cases first with
  | none => exact two
  | some path => exact one

/-- No path that the header lines have told has a line end in it. -/
structure FileHeader.Plain (header : FileHeader) : Prop where
  oldPath : PlainPath header.oldPath
  newPath : PlainPath header.newPath
  renameFrom : PlainPath header.renameFrom
  renameTo : PlainPath header.renameTo

theorem plainPath_stripPathPrefix (unbroken : Unbroken text) :
    PlainPath (stripPathPrefix text) := by
  unfold stripPathPrefix
  split
  · exact plainPath_none
  · split
    · exact plainPath_some (unbroken.drop 2)
    · exact plainPath_some unbroken

/-- The groups of the `diff --git` line: they are parts of it, and behind the first
character of the second one `" b/"` comes at most at the end. -/
theorem of_matchGitHeader {first second : Text}
    (found : matchGitHeader line = some (first, second)) :
    first.Sublist line ∧ second.Sublist line ∧ second ≠ [] ∧
      ¬" b/".toList <:+: second.dropLast := by
  have spelled : " b/".toList = ' ' :: ['b', '/'] := rfl
  unfold matchGitHeader at found
  simp only [Option.bind_eq_bind, Option.bind_eq_some_iff] at found
  obtain ⟨rest, isRest, group, isGroup, groups⟩ := found
  obtain ⟨rfl, firstNonempty, secondNonempty⟩ := eq_of_greedyGroups groups
  have inLine := (isPrefix_of_restOfLine isGroup).sublist.trans (literal_suffix isRest).sublist
  refine ⟨(List.sublist_append_left _ _).trans inLine, ?_, secondNonempty, ?_⟩
  · exact ((List.sublist_append_right _ _).trans (List.sublist_append_right _ _)).trans inLine
  · exact (greedyGroups_eq_iff spelled (by decide) firstNonempty secondNonempty).mp groups

/-- The header lines tell paths that are parts of them, and hunks are looked for in the
lines that are left. -/
theorem plain_readHeader (plain : header.Plain) (unbroken : ∀ line ∈ block, Unbroken line) :
    (readHeader header block).1.Plain ∧ ∀ line ∈ (readHeader header block).2, Unbroken line := by
  induction block generalizing header with
  | nil => exact ⟨plain, unbroken⟩
  | cons line block ih =>
      obtain ⟨first, others⟩ := List.forall_mem_cons.mp unbroken
      unfold readHeader
      split
      · split
        · rename_i old new found
          obtain ⟨oldPart, newPart, -⟩ := of_matchGitHeader found
          exact ih { plain with
            oldPath := plainPath_some (first.sublist oldPart)
            newPath := plainPath_some (first.sublist newPart) } others
        · exact ih plain others
      · split
        · exact ih { plain with oldPath := plainPath_stripPathPrefix (first.drop 4) } others
        · split
          · exact ⟨{ plain with newPath := plainPath_stripPathPrefix (first.drop 4) }, others⟩
          · split
            · exact ⟨⟨plain.oldPath, plain.newPath, plain.renameFrom, plain.renameTo⟩,
                List.forall_mem_nil _⟩
            · split
              · exact ih { plain with renameFrom := plainPath_some (first.drop _) } others
              · split
                · exact ih { plain with renameTo := plainPath_some (first.drop _) } others
                · exact ih plain others

/-! ## What the parser returns -/

/-- An entry that can be printed, though its paths may be any texts without a line end, or
missing. -/
structure WellFormedFile (file : PatchFile) : Prop where
  oldPath : PlainPath file.oldPath
  newPath : PlainPath file.newPath
  hunks : ∀ hunk ∈ file.hunks, PrintableHunk hunk
  binary : file.isBinary → file.hunks = []

theorem wellFormed_parseBlock (unbroken : ∀ line ∈ block, Unbroken line) :
    WellFormedFile (parseBlock block) := by
  have nothing : FileHeader.Plain {} :=
    ⟨plainPath_none, plainPath_none, plainPath_none, plainPath_none⟩
  obtain ⟨plain, below⟩ := plain_readHeader nothing unbroken
  unfold parseBlock
  refine ⟨?_, ?_, ?_, ?_⟩
  · rw [FileHeader.oldPath_entry]
    exact plain.renameFrom.or plain.oldPath
  · rw [FileHeader.newPath_entry]
    exact plain.renameTo.or plain.newPath
  · dsimp only [FileHeader.entry]
    split
    · exact List.forall_mem_nil _
    · exact printable_of_mem_parseHunks below
  · intro isBinary
    exact if_pos isBinary

/-- The omission of deletions has nothing to do. -/
structure NothingOmitted (file : PatchFile) : Prop where
  notDeleted : file.isDeletedFile = false
  additions : ∀ hunk ∈ file.hunks, hunk.isDeletionOnly = false

theorem nothingOmitted_of_mem_applyDeletionOmission
    (member : file ∈ applyDeletionOmission files) : NothingOmitted file := by
  obtain ⟨original, kept, rfl⟩ := List.mem_map.mp member
  have notDeleted : original.isDeletedFile = false := by simpa using (List.mem_filter.mp kept).2
  exact ⟨notDeleted, fun hunk isKept => by simpa using (List.mem_filter.mp isKept).2⟩

theorem applyDeletionOmission_eq_self (kept : ∀ file ∈ files, NothingOmitted file) :
    applyDeletionOmission files = files := by
  have all : files.filter (fun file => !file.isDeletedFile) = files := by
    rw [List.filter_eq_self]
    exact fun file member => by simp [(kept file member).notDeleted]
  rw [applyDeletionOmission, all]
  refine (List.map_congr_left fun file member => ?_).trans (List.map_id files)
  have allHunks : file.hunks.filter (fun hunk => !hunk.isDeletionOnly) = file.hunks := by
    rw [List.filter_eq_self]
    exact fun hunk isHunk => by simp [(kept file member).additions hunk isHunk]
  rw [allHunks]
  rfl

/-- The omission changes nothing but the hunks of an entry. -/
theorem of_mem_applyDeletionOmission (member : file ∈ applyDeletionOmission files) :
    ∃ original ∈ files, file.oldPath = original.oldPath ∧ file.newPath = original.newPath ∧
      file.isBinary = original.isBinary ∧ file.hunks.Sublist original.hunks := by
  obtain ⟨original, kept, rfl⟩ := List.mem_map.mp member
  exact ⟨original, (List.mem_filter.mp kept).1, rfl, rfl, rfl, List.filter_sublist⟩

/-- The lines of a block are lines of the text. -/
theorem mem_of_mem_fileBlocks (isBlock : block ∈ fileBlocks lines) :
    ∀ line ∈ block, line ∈ lines := by
  induction lines with
  | nil => cases isBlock
  | cons first lines ih =>
      rw [fileBlocks] at isBlock
      split at isBlock
      · rcases List.mem_cons.mp isBlock with rfl | later
        · exact fun line member => ((List.takeWhile_sublist _).cons_cons first).subset member
        · exact fun line member => List.mem_cons_of_mem _ (ih later line member)
      · exact fun line member => List.mem_cons_of_mem _ (ih isBlock line member)

/-- What is known of every entry that the parser returns. -/
structure Returned (includeDeletions : Bool) (file : PatchFile) : Prop where
  wellFormed : WellFormedFile file
  nothingOmitted : includeDeletions = false → NothingOmitted file

theorem wellFormed_of_mem_map_parseBlock (diffText : Text) :
    ∀ file ∈ (fileBlocks (splitlines diffText)).map parseBlock, WellFormedFile file := by
  rw [List.forall_mem_map]
  exact fun block isBlock => wellFormed_parseBlock fun line member =>
    unbroken_of_mem_splitFrom false diffText line (mem_of_mem_fileBlocks isBlock line member)

/-- **Whatever the text**, the parser returns entries that can be printed. -/
theorem returned_of_mem_parseDiff (diffText : Text) (includeDeletions : Bool) :
    ∀ file ∈ parseDiff diffText includeDeletions, Returned includeDeletions file := by
  have formed := wellFormed_of_mem_map_parseBlock diffText
  intro file member
  unfold parseDiff at member
  split at member
  · cases member
  · split at member
    · rename_i included
      exact ⟨formed file member, fun omitted => by rw [included] at omitted; cases omitted⟩
    · obtain ⟨original, isOriginal, sameOld, sameNew, sameBinary, isSublist⟩ :=
        of_mem_applyDeletionOmission member
      obtain ⟨oldPath, newPath, hunks, binary⟩ :=
        formed original isOriginal
      refine ⟨⟨?_, ?_, ?_, ?_⟩, fun _ => nothingOmitted_of_mem_applyDeletionOmission member⟩
      · rwa [sameOld]
      · rwa [sameNew]
      · exact fun hunk isHunk => hunks hunk (isSublist.subset isHunk)
      · intro isBinary
        have none := binary (sameBinary ▸ isBinary)
        rw [none] at isSublist
        exact List.sublist_nil.mp isSublist

/-! ## Entries are read back -/

/-- The lines before the hunks tell the paths: there is none, or there are two, and if they
are the same, `" b/"` does not stand before another character in it. -/
def TellsPaths (file : PatchFile) : Prop :=
  match file.oldPath, file.newPath with
  | none, none => True
  | some old, some new => old = new → new ≠ [] ∧ ¬" b/".toList <:+: new.dropLast
  | _, _ => False

/-- What is told by the `diff --git` line tells it again. -/
theorem tellsPaths_gitHeader (file : PatchFile) (isBinary : Bool) :
    TellsPaths ⟨(gitHeader file).oldPath, (gitHeader file).newPath, [], isBinary⟩ := by
  unfold gitHeader
  cases found : matchGitHeader (renderGitHeader file) with
  | none => trivial
  | some names =>
      obtain ⟨old, new⟩ := names
      exact fun _ => (of_matchGitHeader found).2.2

theorem unbroken_renderFile (style : FileStyle) (formed : WellFormedFile file) :
    ∀ line ∈ renderFile style file, Unbroken line := by
  rw [renderFile, List.forall_mem_append]
  refine ⟨unbroken_renderFileHeader style fun path isPath => ?_, ?_⟩
  · exact isPath.elim (formed.oldPath path) (formed.newPath path)
  · split
    · exact List.forall_mem_nil _
    · exact unbroken_renderHunks _ formed.hunks

/-- An entry with hunks is read back: its `---` and `+++` lines tell the paths. -/
theorem parseBlock_renderFile_of_hunks (style : FileStyle) (formed : WellFormedFile file)
    (hunks : file.hunks ≠ []) : parseBlock (renderFile style file) = file := by
  have text : file.isBinary = false := by
    by_contra binary
    exact hunks (formed.binary (Bool.not_eq_false _ ▸ binary))
  unfold parseBlock renderFile
  rw [readHeader_renderFileHeader]
  simp only [text, Bool.false_eq_true, if_false, if_neg hunks, List.cons_append, List.nil_append]
  rw [readHeader_sides, FileHeader.rename_withPaths, gitHeader_withPaths, entry_rename,
    if_neg (by simp), parseHunks_renderHunks _ formed.hunks, ← text]

theorem gitHeader_eq (file : PatchFile) :
    gitHeader file =
      { oldPath := (gitHeader file).oldPath, newPath := (gitHeader file).newPath } := by
  unfold gitHeader
  cases matchGitHeader (renderGitHeader file) <;> rfl

/-- The lines of a rename tell both paths; without them there is the `diff --git` line. -/
theorem entry_rename_nil (file : PatchFile) (isBinary : Bool) :
    (({ gitHeader file with isBinary } : FileHeader).rename file).entry [] =
      if file.isRename then ⟨file.oldPath, file.newPath, [], isBinary⟩
      else ⟨(gitHeader file).oldPath, (gitHeader file).newPath, [], isBinary⟩ := by
  have noLines : parseHunks [] = [] := by rw [parseHunks]
  rw [gitHeader_eq]
  unfold FileHeader.rename FileHeader.entry PatchFile.isRename
  rw [noLines, ite_self]
  cases file.oldPath with
  | none => rfl
  | some old =>
      cases file.newPath with
      | none => rfl
      | some new => by_cases same : old = new <;> simp [same]

/-- Of an entry without hunks, the `diff --git` line and the lines of a rename are read. -/
theorem parseBlock_renderFile_of_noHunks (style : FileStyle) (noHunks : file.hunks = []) :
    parseBlock (renderFile style file) =
      if file.isRename then file
      else ⟨(gitHeader file).oldPath, (gitHeader file).newPath, [], file.isBinary⟩ := by
  have itself : (⟨file.oldPath, file.newPath, [], file.isBinary⟩ : PatchFile) = file := by
    rw [← noHunks]
  unfold parseBlock renderFile
  rw [readHeader_renderFileHeader]
  cases binary : file.isBinary with
  | true =>
      have read : ∀ header : FileHeader,
          readHeader header ["Binary files ".toList ++ (style.operands.val ++ " differ".toList)] =
            ({ header with isBinary := true }, []) := fun _ => rfl
      simp only [if_true, List.append_nil]
      rw [read, FileHeader.rename_withBinary, entry_rename_nil, ← binary, itself]
  | false =>
      have notBinary : gitHeader file = { gitHeader file with isBinary := false } := by
        rw [gitHeader_eq]
      simp only [Bool.false_eq_true, if_false, noHunks, if_true, renderHunks, List.append_nil]
      rw [readHeader, notBinary, entry_rename_nil, ← binary, itself]

theorem tellsPaths_of_isRename (rename : file.isRename) : TellsPaths file := by
  unfold PatchFile.isRename at rename
  unfold TellsPaths
  cases isOld : file.oldPath with
  | none => simp [isOld] at rename
  | some old =>
      cases isNew : file.newPath with
      | none => simp [isNew] at rename
      | some new =>
          intro same
          simp [isOld, isNew, same] at rename

/-- An entry that was printed without hunks and read back tells its paths. -/
theorem tellsPaths_parseBlock_renderFile (style : FileStyle) (noHunks : file.hunks = []) :
    TellsPaths (parseBlock (renderFile style file)) ∧
      (parseBlock (renderFile style file)).hunks = [] := by
  rw [parseBlock_renderFile_of_noHunks style noHunks]
  split
  · rename_i rename
    exact ⟨tellsPaths_of_isRename rename, noHunks⟩
  · exact ⟨tellsPaths_gitHeader file file.isBinary, rfl⟩

/-- A name is read off a `diff --git` line that has it on both sides exactly if `" b/"`
does not stand before another character in it. -/
theorem matchGitHeader_same_iff {name : Text} (unbroken : Unbroken name) :
    matchGitHeader ("diff --git a/".toList ++ (name ++ (" b/".toList ++ name))) =
        some (name, name) ↔
      name ≠ [] ∧ ¬" b/".toList <:+: name.dropLast := by
  have spelled : " b/".toList = ' ' :: ['b', '/'] := rfl
  constructor
  · exact fun found => (of_matchGitHeader found).2.2
  · rintro ⟨nonempty, absent⟩
    rw [matchGitHeader_of_names (not_mem_of_unbroken unbroken) (not_mem_of_unbroken unbroken)]
    exact (greedyGroups_eq_iff spelled (by decide) nonempty nonempty).mpr absent

/-- An entry without hunks is read back if its paths are told. -/
theorem parseBlock_renderFile_of_tellsPaths (style : FileStyle) (formed : WellFormedFile file)
    (noHunks : file.hunks = []) (tells : TellsPaths file) :
    parseBlock (renderFile style file) = file := by
  rw [parseBlock_renderFile_of_noHunks style noHunks]
  split
  · rfl
  · rename_i noRename
    obtain ⟨oldPath, newPath, hunks, isBinary⟩ := file
    obtain rfl : hunks = [] := noHunks
    unfold gitHeader renderGitHeader
    cases oldPath with
    | none =>
        cases newPath with
        | none => rfl
        | some new => cases tells
    | some old =>
        cases newPath with
        | none => cases tells
        | some new =>
            obtain rfl : old = new := by simpa [PatchFile.isRename] using noRename
            dsimp only [Option.some_or, Option.getD_some]
            rw [(matchGitHeader_same_iff (formed.newPath old rfl)).mpr (tells rfl)]

/-- **An entry is read back** exactly if it has hunks or its paths are told. -/
theorem parseBlock_renderFile_eq_iff (style : FileStyle) (formed : WellFormedFile file) :
    parseBlock (renderFile style file) = file ↔ (file.hunks = [] → TellsPaths file) := by
  constructor
  · intro readBack noHunks
    exact readBack ▸ (tellsPaths_parseBlock_renderFile style noHunks).1
  · intro tells
    by_cases noHunks : file.hunks = []
    · exact parseBlock_renderFile_of_tellsPaths style formed noHunks (tells noHunks)
    · exact parseBlock_renderFile_of_hunks style formed noHunks

/-! ## Diffs are read back -/

/-- The first entry of a printed diff has a block of its own. -/
theorem fileBlocks_renderFiles_cons (styles : List FileStyle) (file : PatchFile)
    (files : List PatchFile) :
    fileBlocks (renderFiles styles (file :: files)) =
      renderFile (styles.headD {}) file :: fileBlocks (renderFiles styles.tail files) := by
  have next : ∀ later, (renderFiles styles.tail files).head? = some later → startsBlock later := by
    cases files with
    | nil => simp [renderFiles]
    | cons other files =>
        rintro _ ⟨⟩
        exact startsBlock_renderGitHeader other
  have inside : ∀ line ∈ (renderFile (styles.headD {}) file).tail, startsBlock line = false := by
    rw [renderFile, renderFileHeader, List.cons_append, List.tail_cons, List.forall_mem_append]
    refine ⟨startsBlock_of_mem_tail (styles.headD {}) file, ?_⟩
    split
    · simp
    · exact startsBlock_of_mem_renderHunks _ _
  exact fileBlocks_cons_append (startsBlock_renderGitHeader file) inside next

/-- What is read of a printed diff before deletions are omitted. -/
def readBack (styles : List FileStyle) (files : List PatchFile) : List PatchFile :=
  (fileBlocks (renderFiles styles files)).map parseBlock

theorem readBack_cons (styles : List FileStyle) (file : PatchFile) (files : List PatchFile) :
    readBack styles (file :: files) =
      parseBlock (renderFile (styles.headD {}) file) :: readBack styles.tail files := by
  rw [readBack, fileBlocks_renderFiles_cons, List.map_cons]
  rfl

theorem exists_of_mem_readBack (styles : List FileStyle) (member : file ∈ readBack styles files) :
    ∃ style, ∃ original ∈ files, file = parseBlock (renderFile style original) := by
  induction files generalizing styles with
  | nil => cases member
  | cons first files ih =>
      rw [readBack_cons] at member
      rcases List.mem_cons.mp member with isFirst | later
      · exact ⟨_, first, List.mem_cons_self, isFirst⟩
      · obtain ⟨style, original, isOriginal, same⟩ := ih _ later
        exact ⟨style, original, List.mem_cons_of_mem _ isOriginal, same⟩

theorem readBack_eq_iff (styles : List FileStyle) (formed : ∀ file ∈ files, WellFormedFile file) :
    readBack styles files = files ↔ ∀ file ∈ files, file.hunks = [] → TellsPaths file := by
  induction files generalizing styles with
  | nil => exact iff_of_true rfl (List.forall_mem_nil _)
  | cons file files ih =>
      obtain ⟨first, others⟩ := List.forall_mem_cons.mp formed
      rw [readBack_cons, List.cons_eq_cons, parseBlock_renderFile_eq_iff _ first, ih _ others,
        List.forall_mem_cons]

/-- Entry by entry, those with hunks are read back. -/
theorem forall₂_readBack (styles : List FileStyle) (formed : ∀ file ∈ files, WellFormedFile file) :
    List.Forall₂ (fun original again => original.hunks ≠ [] → again = original) files
      (readBack styles files) := by
  induction files generalizing styles with
  | nil => exact .nil
  | cons file files ih =>
      obtain ⟨first, others⟩ := List.forall_mem_cons.mp formed
      rw [readBack_cons]
      exact .cons (parseBlock_renderFile_of_hunks _ first) (ih _ others)

theorem unbroken_of_mem_renderFiles (styles : List FileStyle)
    (formed : ∀ file ∈ files, WellFormedFile file) :
    ∀ line ∈ renderFiles styles files, Unbroken line := by
  induction files generalizing styles with
  | nil => simp [renderFiles]
  | cons file files ih =>
      obtain ⟨first, others⟩ := List.forall_mem_cons.mp formed
      rw [renderFiles, List.forall_mem_append]
      exact ⟨unbroken_renderFile _ first, ih _ others⟩

/-- The omission has nothing to do on what is read back. -/
theorem nothingOmitted_of_mem_readBack (styles : List FileStyle)
    (formed : ∀ file ∈ files, WellFormedFile file) (kept : ∀ file ∈ files, NothingOmitted file) :
    ∀ file ∈ readBack styles files, NothingOmitted file := by
  intro file member
  obtain ⟨style, original, isOriginal, rfl⟩ := exists_of_mem_readBack styles member
  by_cases noHunks : original.hunks = []
  · obtain ⟨tells, none⟩ := tellsPaths_parseBlock_renderFile style noHunks
    refine ⟨?_, by rw [none]; exact List.forall_mem_nil _⟩
    unfold TellsPaths at tells
    unfold PatchFile.isDeletedFile
    split at tells
    · rename_i noOld _
      rw [noOld]
      rfl
    · rename_i isNew
      rw [isNew, Option.isNone_some, Bool.and_false]
    · cases tells
  · rw [parseBlock_renderFile_of_hunks style (formed original isOriginal) noHunks]
    exact kept original isOriginal

/-- What the parser makes of printed entries that it has returned. -/
theorem parseDiff_render_returned (styles : List FileStyle)
    (returned : ∀ file ∈ files, Returned includeDeletions file) :
    parseDiff (render styles files) includeDeletions = readBack styles files := by
  have formed := fun file member => (returned file member).wellFormed
  have blocks : (fileBlocks (splitlines (render styles files))).map parseBlock =
      readBack styles files := by
    rw [render, splitlines_unlines_of_unbroken (unbroken_of_mem_renderFiles styles formed),
      readBack]
  cases files with
  | nil => rfl
  | cons file files =>
      obtain ⟨rest, starts⟩ : ∃ rest, render styles (file :: files) = 'd' :: rest := ⟨_, rfl⟩
      have notBlank : strip ('d' :: rest) ≠ [] := strip_ne_nil rfl
      unfold parseDiff
      rw [if_neg (by simp [starts, notBlank]), blocks]
      split
      · rfl
      · rename_i omitted
        exact applyDeletionOmission_eq_self (nothingOmitted_of_mem_readBack styles formed
          fun file member => (returned file member).nothingOmitted (by simpa using omitted))

/-- Entries printed and parsed. -/
def reprint (styles : List FileStyle) (includeDeletions : Bool) (files : List PatchFile) :
    List PatchFile :=
  parseDiff (render styles files) includeDeletions

/-- **Printed and parsed again.** Whatever the text and the styles, the entries that the
parser returns are read back exactly if those without hunks tell their paths, and those with hunks
always are, entry by entry; and what has been read back is read back again. -/
theorem parseDiff_reprinted (diffText : Text) (includeDeletions : Bool)
    (styles : List FileStyle) :
    (reprint styles includeDeletions (parseDiff diffText includeDeletions) =
        parseDiff diffText includeDeletions ↔
      ∀ file ∈ parseDiff diffText includeDeletions, file.hunks = [] → TellsPaths file) ∧
    List.Forall₂ (fun original again => original.hunks ≠ [] → again = original)
      (parseDiff diffText includeDeletions)
      (reprint styles includeDeletions (parseDiff diffText includeDeletions)) ∧
    ∀ more, reprint more includeDeletions
        (reprint styles includeDeletions (parseDiff diffText includeDeletions)) =
      reprint styles includeDeletions (parseDiff diffText includeDeletions) := by
  have returned := returned_of_mem_parseDiff diffText includeDeletions
  have formed := fun file member => (returned file member).wellFormed
  have once := parseDiff_render_returned styles returned
  refine ⟨?_, ?_, ?_⟩
  · rw [reprint, once]
    exact readBack_eq_iff styles formed
  · rw [reprint, once]
    exact forall₂_readBack styles formed
  · intro more
    have again := returned_of_mem_parseDiff (render styles (parseDiff diffText includeDeletions))
      includeDeletions
    rw [reprint, reprint, parseDiff_render_returned more again]
    refine (readBack_eq_iff more fun file member => (again file member).wellFormed).mpr ?_
    intro file member noHunks
    rw [once] at member
    obtain ⟨style, original, isOriginal, rfl⟩ := exists_of_mem_readBack styles member
    by_cases hunks : original.hunks = []
    · exact (tellsPaths_parseBlock_renderFile style hunks).1
    · rw [parseBlock_renderFile_of_hunks style (formed original isOriginal) hunks] at noHunks
      exact absurd noHunks hunks

end Kenjutsu.Diff
