import Kenjutsu.Diff.Rendering

/-!
# The lines of the changed files

The parser reads a diff by `splitlines`, which breaks lines at more characters than
git does. A line of a changed file may have any of these characters in it, and so may
the section header of a hunk, which is taken from a line of the file.

What the parser sees of a hunk is the first piece of its header, and below it the
rest of the header and the pieces of the body lines. It carries the lines of the
diff faithfully exactly when no body line is broken and what was cut off the header
adds nothing (`SplitsCleanly`).
-/

set_option autoImplicit false

namespace Kenjutsu.Diff

open Foundations Foundations.Text

/-! ## What is to be carried -/

/-- A line of a file by its number; lines are counted from one. -/
def lineAt (file : List Text) (number : Nat) : Option Text :=
  if number = 0 then none else file[number - 1]?

/-- A numbered line is the line of the file with this number. -/
def AgreesWith (old new : List Text) (line : HunkLine) : Prop :=
  (∀ number, line.oldLineno = some number → lineAt old number = some line.content) ∧
    ∀ number, line.newLineno = some number → lineAt new number = some line.content

/-- An entry that says how an old file differs from a new one: each hunk is numbered
from its starts, and its lines are lines of the files. A path with a line end in it
would be quoted. -/
structure IsDiff (old new : List Text) (file : PatchFile) : Prop where
  notBinary : file.isBinary = false
  paths : ∀ path, file.oldPath = some path ∨ file.newPath = some path → Unbroken path
  numbered : ∀ hunk ∈ file.hunks, WellNumbered hunk
  agrees : ∀ hunk ∈ file.hunks, ∀ line ∈ hunk.lines, AgreesWith old new line

def Hunk.bodies (hunk : Hunk) : List (ChangeType × Text) := hunk.lines.map HunkLine.body

/-- There is one entry; hunk by hunk, every body line has yielded one hunk line with
the full content; and the numbered lines are lines of the files. -/
def CarriesLines (old new : List Text) (file : PatchFile) (parsed : List PatchFile) : Prop :=
  ∃ entry, parsed = [entry] ∧ entry.hunks.map Hunk.bodies = file.hunks.map Hunk.bodies ∧
    ∀ hunk ∈ entry.hunks, ∀ line ∈ hunk.lines, AgreesWith old new line

/-- No body line has another line end in it; and of the pieces that are cut off the
section header, none starts a hunk or a file, and they carry nothing (or, if one of
them ends the hunk, just what the body lines carry). -/
structure SplitsCleanly (hunk : Hunk) : Prop where
  contents : ∀ line ∈ hunk.lines, Unbroken line.content
  starts : ∀ piece ∈ spill hunk.sectionHeader,
    isHunkHeader piece = false ∧ startsBlock piece = false
  carries : readable (spill hunk.sectionHeader) =
    if (spill hunk.sectionHeader).any endsHunk then hunk.bodies else []

/-! ## What the parser sees -/

/-- The first piece of a hunk header. -/
def seenHeader (style : HunkStyle) (hunk : Hunk) : Text :=
  (renderHunkHeader style hunk).takeWhile fun character => !isLineEnd character

/-- The pieces below it. -/
def below (style : HunkStyle) (hunk : Hunk) : List Text :=
  spill (renderHunkHeader style hunk) ++ (renderBody style.markers hunk.lines).flatMap pieces

def seenHunks : List HunkStyle → List Hunk → List Text
  | _, [] => []
  | styles, hunk :: hunks =>
      seenHeader (styles.headD {}) hunk :: below (styles.headD {}) hunk ++
        seenHunks styles.tail hunks

theorem flatMap_pieces_renderHunks (styles : List HunkStyle) (hunks : List Hunk) :
    (renderHunks styles hunks).flatMap pieces = seenHunks styles hunks := by
  induction hunks generalizing styles with
  | nil => rfl
  | cons hunk hunks ih =>
      rw [renderHunks, renderHunk, List.flatMap_append, List.flatMap_cons, pieces_eq, ih]
      simp only [seenHunks, seenHeader, below, List.cons_append, List.append_assoc]

/-- The first piece is a hunk header with the ranges of the hunk. -/
theorem matchHunkHeader_seenHeader (style : HunkStyle) (hunk : Hunk) :
    ∃ sectionHeader, matchHunkHeader (seenHeader style hunk) =
      some (headerMatch style hunk sectionHeader) := by
  have plain : ∀ character ∈ renderRanges style hunk, (!isLineEnd character) = true := by
    simpa [Unbroken] using unbroken_renderRanges style hunk
  unfold seenHeader renderHunkHeader
  rw [List.takeWhile_append_of_pos plain]
  refine ⟨_, matchHunkHeader_renderRanges style hunk fun member => ?_⟩
  have breaks := List.mem_takeWhile_imp member
  cases breaks

theorem isHunkHeader_seenHeader (style : HunkStyle) (hunk : Hunk) :
    isHunkHeader (seenHeader style hunk) := by
  obtain ⟨sectionHeader, found⟩ := matchHunkHeader_seenHeader style hunk
  rw [isHunkHeader, found]
  rfl

theorem startsBlock_seenHeader (style : HunkStyle) (hunk : Hunk) :
    startsBlock (seenHeader style hunk) = false := rfl

theorem head_seenHunks (styles : List HunkStyle) (hunks : List Hunk) :
    ∀ line, (seenHunks styles hunks).head? = some line → isHunkHeader line := by
  cases hunks with
  | nil => simp [seenHunks]
  | cons hunk hunks =>
      rintro _ ⟨⟩
      exact isHunkHeader_seenHeader _ hunk

theorem length_le_countP_seenHunks (styles : List HunkStyle) (hunks : List Hunk) :
    hunks.length ≤ (seenHunks styles hunks).countP isHunkHeader := by
  induction hunks generalizing styles with
  | nil => simp
  | cons hunk hunks ih =>
      have rest := ih styles.tail
      rw [seenHunks, List.cons_append, List.countP_cons_of_pos (isHunkHeader_seenHeader _ hunk),
        List.countP_append, List.length_cons]
      omega

/-! ## One hunk -/

theorem spill_renderHunkHeader (style : HunkStyle) (hunk : Hunk) :
    spill (renderHunkHeader style hunk) = spill hunk.sectionHeader := by
  have space : Unbroken [' '] := by decide
  rw [renderHunkHeader, spill_append (unbroken_renderRanges style hunk)]
  split
  · rename_i empty
    rw [empty]
  · exact spill_append space hunk.sectionHeader

theorem unbroken_of_mem_below (style : HunkStyle) (hunk : Hunk) :
    ∀ line ∈ below style hunk, Unbroken line := by
  intro line member
  rcases List.mem_append.mp member with cut | body
  · exact unbroken_of_mem_spill cut
  · obtain ⟨whole, -, member⟩ := List.mem_flatMap.mp body
    exact unbroken_of_mem_pieces member

/-- A line carries itself, or what follows its first character. -/
theorem content_of_carriedLine {raw : Text} {carried : ChangeType × Text}
    (yields : carriedLine raw = some carried) : carried.2 = raw.drop 1 ∨ carried.2 = raw := by
  unfold carriedLine at yields
  split at yields
  · exact .inl (congrArg Prod.snd (Option.some.inj yields)).symm
  · split at yields
    · exact .inl (congrArg Prod.snd (Option.some.inj yields)).symm
    · split at yields
      · rw [← Option.some.inj yields]
        split
        · exact .inl rfl
        · exact .inr rfl
      · cases yields

/-- What is readable in lines without line ends has none. -/
theorem unbroken_of_mem_readable {lines : List Text} (unbroken : ∀ line ∈ lines, Unbroken line) :
    ∀ carried ∈ readable lines, Unbroken carried.2 := by
  intro carried member
  obtain ⟨raw, taken, yields⟩ := List.mem_filterMap.mp member
  have plain := unbroken raw ((List.takeWhile_sublist _).subset taken)
  rcases content_of_carriedLine yields with same | same
  · rw [same]
    exact plain.drop 1
  · rw [same]
    exact plain

/-- The pieces of a body without other line ends are its lines. -/
theorem below_of_contents (style : HunkStyle) {hunk : Hunk}
    (contents : ∀ line ∈ hunk.lines, Unbroken line.content) :
    below style hunk = spill hunk.sectionHeader ++ renderBody style.markers hunk.lines := by
  rw [below, spill_renderHunkHeader, flatMap_pieces_of_unbroken]
  exact forall_mem_renderBody
    (fun line member => unbroken_renderLine (contents line member)) (by decide)

/-- **One hunk** is read below its header exactly when it splits cleanly. -/
theorem readable_below_iff (style : HunkStyle) (hunk : Hunk) :
    (∀ line ∈ below style hunk, isHunkHeader line = false ∧ startsBlock line = false) ∧
        readable (below style hunk) = hunk.bodies ↔
      SplitsCleanly hunk := by
  have readsBody : ∀ cut : List Text,
      readable (cut ++ renderBody style.markers hunk.lines) = hunk.bodies ↔
        readable cut = if cut.any endsHunk then hunk.bodies else [] := by
    intro cut
    rw [readable_append, readable_renderBody, ← Hunk.bodies]
    cases cut.any endsHunk <;> simp
  constructor
  · rintro ⟨plain, reads⟩
    have contents : ∀ line ∈ hunk.lines, Unbroken line.content := by
      intro line member
      apply unbroken_of_mem_readable (unbroken_of_mem_below style hunk) line.body
      rw [reads]
      exact List.mem_map_of_mem member
    rw [below_of_contents style contents] at plain reads
    exact ⟨contents, fun piece member => plain piece (List.mem_append_left _ member),
      (readsBody _).mp reads⟩
  · intro clean
    rw [below_of_contents style clean.contents, List.forall_mem_append]
    refine ⟨⟨clean.starts, ?_⟩, (readsBody _).mpr clean.carries⟩
    refine forall_mem_renderBody (fun line _ => ?_) ⟨rfl, rfl⟩
    obtain ⟨type, content, old, new⟩ := line
    cases type <;> exact ⟨rfl, rfl⟩

/-- With nothing cut off its header, a hunk splits cleanly if its lines do. -/
theorem splitsCleanly_iff_contents {hunk : Hunk} (sectionHeader : Unbroken hunk.sectionHeader) :
    SplitsCleanly hunk ↔ ∀ line ∈ hunk.lines, Unbroken line.content := by
  have nothing := spill_of_unbroken sectionHeader
  constructor
  · exact fun clean => clean.contents
  · intro contents
    refine ⟨contents, ?_, ?_⟩
    · simp [nothing]
    · simp [nothing, readable]

/-! ## All hunks -/

/-- The hunks below clean headers are numbered as they were printed. -/
theorem lines_parseHunks_of_splitsCleanly (styles : List HunkStyle) {hunks : List Hunk}
    (clean : ∀ hunk ∈ hunks, SplitsCleanly hunk) :
    (parseHunks (seenHunks styles hunks)).map Hunk.lines =
      hunks.map fun hunk => numberLines hunk.oldStart hunk.newStart hunk.bodies := by
  induction hunks generalizing styles with
  | nil => rw [seenHunks, parseHunks]; rfl
  | cons hunk hunks ih =>
      obtain ⟨first, others⟩ := List.forall_mem_cons.mp clean
      obtain ⟨plain, reads⟩ := (readable_below_iff (styles.headD {}) hunk).mpr first
      obtain ⟨sectionHeader, found⟩ := matchHunkHeader_seenHeader (styles.headD {}) hunk
      rw [seenHunks, parseHunks_segment found (fun line member => (plain line member).1)
        (head_seenHunks _ hunks), List.map_cons, List.map_cons, ih _ others, reads]
      simp only [HunkHeaderMatch.hunk, headerMatch, int_str]

/-- No line the parser sees in clean hunks starts a file. -/
theorem startsBlock_of_splitsCleanly (styles : List HunkStyle) {hunks : List Hunk}
    (clean : ∀ hunk ∈ hunks, SplitsCleanly hunk) :
    ∀ line ∈ seenHunks styles hunks, startsBlock line = false := by
  induction hunks generalizing styles with
  | nil => simp [seenHunks]
  | cons hunk hunks ih =>
      obtain ⟨first, others⟩ := List.forall_mem_cons.mp clean
      have plain := ((readable_below_iff (styles.headD {}) hunk).mpr first).1
      rw [seenHunks, List.forall_mem_append, List.forall_mem_cons]
      exact ⟨⟨startsBlock_seenHeader _ hunk, fun line member => (plain line member).2⟩, ih _ others⟩

/-- Hunks that are carried one for one split cleanly: no line below a header is a
header itself, as there would be too many hunks. -/
theorem splitsCleanly_of_parseHunks (styles : List HunkStyle) {hunks : List Hunk}
    (carried : (parseHunks (seenHunks styles hunks)).map Hunk.bodies = hunks.map Hunk.bodies)
    (plain : ∀ line ∈ seenHunks styles hunks, startsBlock line = false) :
    ∀ hunk ∈ hunks, SplitsCleanly hunk := by
  induction hunks generalizing styles with
  | nil => simp
  | cons hunk hunks ih =>
      obtain ⟨sectionHeader, found⟩ := matchHunkHeader_seenHeader (styles.headD {}) hunk
      rw [seenHunks, List.forall_mem_append, List.forall_mem_cons] at plain
      rw [seenHunks, List.cons_append, parseHunks_cons_some found,
        readable_append_of_head _ (head_seenHunks _ hunks), List.map_cons, List.map_cons] at carried
      obtain ⟨first, others⟩ := List.cons.inj carried
      have noHeaders : ∀ line ∈ below (styles.headD {}) hunk, isHunkHeader line = false := by
        have many := length_le_countP_seenHunks styles.tail hunks
        have exactly := congrArg List.length others
        rw [List.length_map, List.length_map, length_parseHunks, List.countP_append] at exactly
        have none : (below (styles.headD {}) hunk).countP isHunkHeader = 0 := by omega
        simpa using List.countP_eq_zero.mp none
      rw [parseHunks_append noHeaders] at others
      have reads : readable (below (styles.headD {}) hunk) = hunk.bodies :=
        (map_body_numberLines ..).symm.trans first
      rw [List.forall_mem_cons]
      refine ⟨(readable_below_iff (styles.headD {}) hunk).mp ⟨fun line member => ?_, reads⟩,
        ih _ others plain.2⟩
      exact ⟨noHeaders line member, plain.1.2 line member⟩

/-! ## The whole diff -/

/-- The lines the parser sees of a diff of one file. -/
theorem splitlines_render (style : FileStyle) {file : PatchFile} (notBinary : file.isBinary = false)
    (paths : ∀ path, file.oldPath = some path ∨ file.newPath = some path → Unbroken path) :
    splitlines (render [style] [file]) =
      renderFileHeader style file ++ seenHunks style.hunks file.hunks := by
  have lines : renderFiles [style] [file] =
      renderFileHeader style file ++ renderHunks style.hunks file.hunks := by
    simp [renderFiles, renderFile, notBinary]
  rw [render, splitlines_unlines, lines, List.flatMap_append,
    flatMap_pieces_of_unbroken (unbroken_renderFileHeader style paths), flatMap_pieces_renderHunks]

/-- The block of the file goes up to the first line below a hunk header that starts
another file. -/
theorem parseDiff_render_file (style : FileStyle) {file : PatchFile}
    (notBinary : file.isBinary = false)
    (paths : ∀ path, file.oldPath = some path ∨ file.newPath = some path → Unbroken path) :
    parseDiff (render [style] [file]) =
      parseBlock (renderFileHeader style file ++ (seenHunks style.hunks file.hunks).takeWhile
        fun line => !startsBlock line) ::
      (fileBlocks (seenHunks style.hunks file.hunks)).map parseBlock := by
  obtain ⟨rest, starts⟩ : ∃ rest, render [style] [file] = 'd' :: rest := ⟨_, rfl⟩
  have others := startsBlock_of_mem_tail style file
  have inside : ∀ line ∈ (renderFileHeader style file).tail, (!startsBlock line) = true := by
    simpa using others
  have whole : renderFileHeader style file =
      renderGitHeader file :: (renderFileHeader style file).tail := rfl
  rw [parseDiff_of_starts starts, splitlines_render style notBinary paths, whole, List.cons_append,
    fileBlocks, if_pos (startsBlock_renderGitHeader file), List.takeWhile_append_of_pos inside,
    fileBlocks_append others]
  rfl

/-- The hunks of a block are those below its header lines. -/
theorem hunks_parseBlock (style : FileStyle) {file : PatchFile}
    (notBinary : file.isBinary = false) :
    (parseBlock (renderFileHeader style file ++ seenHunks style.hunks file.hunks)).hunks =
      parseHunks (seenHunks style.hunks file.hunks) := by
  unfold parseBlock
  rw [readHeader_renderFileHeader, notBinary, if_neg (by simp)]
  by_cases noHunks : file.hunks = []
  · have none : ∀ header : FileHeader, (header.entry []).hunks = parseHunks [] := by
      intro header
      rw [FileHeader.entry, parseHunks, ite_self]
    rw [if_pos noHunks, noHunks, seenHunks, List.append_nil, readHeader]
    exact none _
  · rw [if_neg noHunks]
    simp only [List.cons_append, List.nil_append]
    rw [readHeader_sides, FileHeader.rename_withPaths, gitHeader_withPaths, entry_rename]
    rfl

variable {old new : List Text} {file : PatchFile}

/-- When every hunk splits cleanly, the lines are carried. -/
theorem carriesLines_of_splitsCleanly (style : FileStyle) (diff : IsDiff old new file)
    (clean : ∀ hunk ∈ file.hunks, SplitsCleanly hunk) :
    CarriesLines old new file (parseDiff (render [style] [file])) := by
  have plain := startsBlock_of_splitsCleanly style.hunks clean
  have inside : ∀ line ∈ seenHunks style.hunks file.hunks, (!startsBlock line) = true := by
    simpa using plain
  have lines : (parseHunks (seenHunks style.hunks file.hunks)).map Hunk.lines =
      file.hunks.map Hunk.lines := by
    rw [lines_parseHunks_of_splitsCleanly style.hunks clean]
    exact List.map_congr_left fun hunk member => (diff.numbered hunk member).symm
  refine ⟨parseBlock (renderFileHeader style file ++ seenHunks style.hunks file.hunks), ?_, ?_, ?_⟩
  · rw [parseDiff_render_file style diff.notBinary diff.paths, fileBlocks_eq_nil_iff.mpr plain,
      List.takeWhile_eq_self_iff.mpr inside, List.map_nil]
  · rw [hunks_parseBlock style diff.notBinary]
    have bodies := congrArg (List.map (List.map HunkLine.body)) lines
    rw [List.map_map, List.map_map] at bodies
    exact bodies
  · rw [hunks_parseBlock style diff.notBinary]
    intro hunk member line listed
    have sameLines : hunk.lines ∈ file.hunks.map Hunk.lines := by
      rw [← lines]
      exact List.mem_map_of_mem member
    obtain ⟨printed, isHunk, same⟩ := List.mem_map.mp sameLines
    exact diff.agrees printed isHunk line (same ▸ listed)

/-- When the lines are carried, every hunk splits cleanly. -/
theorem splitsCleanly_of_carriesLines (style : FileStyle) (diff : IsDiff old new file)
    (carried : CarriesLines old new file (parseDiff (render [style] [file]))) :
    ∀ hunk ∈ file.hunks, SplitsCleanly hunk := by
  obtain ⟨entry, parsed, bodies, -⟩ := carried
  rw [parseDiff_render_file style diff.notBinary diff.paths] at parsed
  obtain ⟨rfl, noOther⟩ := List.cons.inj parsed
  have plain := fileBlocks_eq_nil_iff.mp (List.map_eq_nil_iff.mp noOther)
  have inside : ∀ line ∈ seenHunks style.hunks file.hunks, (!startsBlock line) = true := by
    simpa using plain
  rw [List.takeWhile_eq_self_iff.mpr inside, hunks_parseBlock style diff.notBinary] at bodies
  exact splitsCleanly_of_parseHunks style.hunks bodies plain

/-- **When the parser carries the lines of the changed files**: exactly when every
hunk splits cleanly, whatever the lines have in them. -/
theorem carriesLines_iff_splitsCleanly (style : FileStyle) (diff : IsDiff old new file) :
    CarriesLines old new file (parseDiff (render [style] [file])) ↔
      ∀ hunk ∈ file.hunks, SplitsCleanly hunk :=
  ⟨splitsCleanly_of_carriesLines style diff, carriesLines_of_splitsCleanly style diff⟩

/-- The changes of `a.txt`, whose only line is replaced by another. -/
def replaceLine (line other : Text) : PatchFile where
  oldPath := some "a.txt".toList
  newPath := some "a.txt".toList
  hunks := [
    { oldStart := 1, oldCount := 1, newStart := 1, newCount := 1
      lines := numberLines 1 1 [(.delete, line), (.add, other)] }]

theorem isDiff_replaceLine (line other : Text) :
    IsDiff [line] [other] (replaceLine line other) where
  notBinary := rfl
  paths := by
    have plain : Unbroken "a.txt".toList := by decide
    rintro path (isPath | isPath) <;> exact Option.some.inj isPath ▸ plain
  numbered := by
    simp [replaceLine, WellNumbered, numberLines, HunkLine.body]
  agrees := by
    simp [replaceLine, numberLines, AgreesWith, lineAt]

/-- Lines without other line ends are carried. -/
theorem carriesLines_tab :
    CarriesLines ["x\ty".toList] ["x y".toList] (replaceLine "x\ty".toList "x y".toList)
      (parseDiff (render [{}] [replaceLine "x\ty".toList "x y".toList])) := by
  apply (carriesLines_iff_splitsCleanly {} (isDiff_replaceLine _ _)).mpr
  refine List.forall_mem_singleton.mpr ((splitsCleanly_iff_contents (by decide)).mpr ?_)
  decide

/-- A line with a form feed in it is cut off there. -/
theorem formFeed_not_carriesLines :
    IsDiff ["x\x0cy".toList] ["x y".toList] (replaceLine "x\x0cy".toList "x y".toList) ∧
      ¬ CarriesLines ["x\x0cy".toList] ["x y".toList] (replaceLine "x\x0cy".toList "x y".toList)
        (parseDiff (render [{}] [replaceLine "x\x0cy".toList "x y".toList])) := by
  refine ⟨isDiff_replaceLine _ _, fun carried => ?_⟩
  have clean := splitsCleanly_of_carriesLines {} (isDiff_replaceLine _ _) carried
  have contents := (clean _ (List.mem_singleton_self _)).contents
  revert contents
  decide

end Kenjutsu.Diff
