import Kenjutsu.Diff.GitEntries

/-!
# The paths of the entries

The parser takes the paths of a rename from its own lines, so they are always right. The
`---` and `+++` lines give a path with the tab that follows a name with a space in it.
Where there are no such lines, the `diff --git` line is split at the last `" b/"`, which
may stand in the name.
-/

set_option autoImplicit false

namespace Kenjutsu.Diff

open Foundations Foundations.Text

namespace GitEntry

/-- Wherever the entry stands in a diff, it yields a file with its paths: the path of the
file is the new one, and only a rename counts as one. -/
def RecoversPaths (entry : GitEntry) : Prop :=
  ∀ before after : Text, EndsLine before → (after = [] ∨ startsBlock after) →
    ∀ includeDeletions, ∃ file others,
      parseDiff (before ++ (entry.render ++ after)) includeDeletions =
        parseDiff before includeDeletions ++ file :: others ∧
      file.oldPath = some entry.change.old.text ∧ file.newPath = some entry.change.new.text ∧
      file.path = entry.change.new.text ∧
      (file.isRename ↔ entry.change.old ≠ entry.change.new)

/-- The entry is a rename; or it has hunks, and no space in its name; or it has no hunks,
and no `" b/"` in its name. -/
def Readable (entry : GitEntry) : Prop :=
  entry.change.old ≠ entry.change.new ∨
    match entry.content with
    | .text .. => ' ' ∉ entry.change.new.text
    | _ => ¬" b/".toList <:+: entry.change.new.text

theorem map_fst_snd_eq_iff {pair : Option (Text × Text)} {first second : Text} :
    pair.map Prod.fst = some first ∧ pair.map Prod.snd = some second ↔
      pair = some (first, second) := by
  cases pair with
  | none => simp
  | some pair => simp [Prod.ext_iff]

/-- The header lines of a modified file tell its name if it is readable. -/
theorem paths_modified_iff (entry : GitEntry) {name : FileName}
    (modified : entry.change = .modified name) :
    entry.header.oldPath = some name.text ∧ entry.header.newPath = some name.text ↔
      match entry.content with
      | .text .. => ' ' ∉ name.text
      | _ => ¬" b/".toList <:+: name.text := by
  have found := entry.matchGitHeader_eq_iff
  rw [modified] at found
  unfold header
  cases entry.content with
  | unchanged => exact map_fst_snd_eq_iff.trans found
  | binary => exact map_fst_snd_eq_iff.trans found
  | text styles hunks nonempty =>
      rw [modified]
      simpa [Change.oldFile, Change.newFile, Change.old, Change.new] using name.withTab_eq_iff

/-- The header lines tell the paths of a readable entry, and of no other. -/
theorem paths_eq_iff (entry : GitEntry) (hunkLines : List Text)
    (versions : entry.change.oldFile.isSome ∧ entry.change.newFile.isSome) :
    (entry.header.entry hunkLines).oldPath = some entry.change.old.text ∧
        (entry.header.entry hunkLines).newPath = some entry.change.new.text ↔
      entry.Readable := by
  rw [FileHeader.oldPath_entry, FileHeader.newPath_entry, renameFrom_header, renameTo_header,
    Readable]
  cases change : entry.change with
  | modified name =>
      simpa [Change.renameFrom, Change.renameTo, Change.old, Change.new] using
        entry.paths_modified_iff change
  | added name => simp [change, Change.oldFile] at versions
  | deleted name => simp [change, Change.newFile] at versions
  | renamed old new differ =>
      simp [Change.renameFrom, Change.renameTo, Change.old, Change.new, differ]

/-- The path of a file and whether it is renamed follow from its two paths. -/
theorem path_isRename {file : PatchFile} {old new : FileName}
    (oldPath : file.oldPath = some old.text) (newPath : file.newPath = some new.text) :
    file.path = new.text ∧ (file.isRename ↔ old ≠ new) := by
  have differ : old.text = new.text ↔ old = new :=
    ⟨fun same => by cases old; cases new; congr, fun same => same ▸ rfl⟩
  have counts : (some new.text).filter (· ≠ []) = some new.text :=
    Option.filter_eq_some_iff.mpr ⟨rfl, decide_eq_true new.nonempty⟩
  constructor
  · rw [PatchFile.path, newPath, counts]
    rfl
  · simp [PatchFile.isRename, oldPath, newPath, differ]

/-- The paths of a readable entry are recovered. -/
theorem Readable.recoversPaths {entry : GitEntry} (readable : entry.Readable)
    (versions : entry.change.oldFile.isSome ∧ entry.change.newFile.isSome) :
    entry.RecoversPaths := by
  intro before after ends next includeDeletions
  obtain ⟨oldPath, newPath⟩ := (entry.paths_eq_iff
    (entry.seen.takeWhile fun line => !startsBlock line) versions).mpr readable
  have kept := PatchFile.isDeletedFile_of_newPath newPath
  obtain ⟨hunks, others, parsed⟩ :=
    exists_parseDiff_eq_cons entry.parseDiff_entry kept includeDeletions
  have starts := startsBlock_append entry.isSection_render.starts after
  -- the omission of deletions may change the hunks, but not the paths
  obtain ⟨isPath, isRename⟩ := @path_isRename ⟨_, _, hunks, _⟩ _ _ oldPath newPath
  refine ⟨⟨_, _, hunks, _⟩, others ++ parseDiff after includeDeletions, ?_, oldPath, newPath,
    isPath, isRename⟩
  rw [parseDiff_append ends (.inr starts), parseDiff_append entry.isSection_render.ends next,
    parsed, List.cons_append]

/-- An entry whose paths are recovered is readable. -/
theorem RecoversPaths.readable {entry : GitEntry} (recovers : entry.RecoversPaths)
    (versions : entry.change.oldFile.isSome ∧ entry.change.newFile.isSome) : entry.Readable := by
  obtain ⟨file, others, parsed, oldPath, newPath, -⟩ := recovers [] [] (.inl rfl) (.inl rfl) true
  rw [List.append_nil, List.nil_append, parseDiff_entry] at parsed
  obtain ⟨rfl, -⟩ := List.cons.inj parsed
  exact (entry.paths_eq_iff _ versions).mp ⟨oldPath, newPath⟩

/-- **The paths of a modified or renamed file are recovered** exactly when the entry is
readable. -/
theorem recoversPaths_iff_readable (entry : GitEntry)
    (versions : entry.change.oldFile.isSome ∧ entry.change.newFile.isSome) :
    entry.RecoversPaths ↔ entry.Readable :=
  ⟨fun recovers => recovers.readable versions, fun readable => readable.recoversPaths versions⟩

/-- The hunk of a file whose only line is replaced. -/
def replacedLine : Hunk where
  oldStart := 1
  oldCount := 1
  newStart := 1
  newCount := 1
  lines := numberLines 1 1 [(.delete, "x".toList), (.add, "y".toList)]

/-- A change of the content of a file. -/
def edit (name : FileName) : GitEntry where
  change := .modified name
  content := .text [] [replacedLine] (by simp)

def plainName : FileName := ⟨"a.txt".toList, by decide, List.all_eq_true.mp (by decide), by decide⟩

def spacedName : FileName := ⟨"a b.txt".toList, by decide, List.all_eq_true.mp (by decide), by decide⟩

theorem recoversPaths_edit_plainName : (edit plainName).RecoversPaths := by
  have noSpace : ' ' ∉ plainName.text := by decide
  have readable : (edit plainName).Readable := .inr noSpace
  exact (recoversPaths_iff_readable (edit plainName) ⟨rfl, rfl⟩).mpr readable

/-- The paths of a file with a space in its name come with a tab. -/
theorem not_recoversPaths_edit_spacedName : ¬(edit spacedName).RecoversPaths := by
  intro recovers
  have space : ' ' ∈ spacedName.text := by decide
  rcases recovers.readable ⟨rfl, rfl⟩ with differ | noSpace
  · exact differ rfl
  · exact noSpace space

end GitEntry

end Kenjutsu.Diff
