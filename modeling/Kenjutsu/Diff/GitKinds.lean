import Kenjutsu.Diff.GitEntries
import Mathlib.Data.List.Forall2

/-!
# Added and deleted files

Whether a file is new or deleted is told by the `/dev/null` of its `---` and `+++` lines,
and git prints these only above hunks. So an added or deleted file is recognised when it
has hunks; one that is empty or binary counts as modified (`recognises_iff`).

The omission of deletions keeps the additions of every file that is not deleted, whatever
the text was (`forall₂_keepsAdditions`).
-/

set_option autoImplicit false

namespace Kenjutsu.Diff

open Foundations Foundations.Text

/-! ## The omission of deletions -/

def HunkLine.isAddition (line : HunkLine) : Bool := line.changeType = .add

/-- The added lines of a file with their numbers. -/
def PatchFile.addedLines (file : PatchFile) : List HunkLine :=
  file.hunks.flatMap fun hunk => hunk.lines.filter HunkLine.isAddition

/-- A file as it was, apart from the hunks without an addition. -/
structure KeepsAdditions (original kept : PatchFile) : Prop where
  paths : kept.oldPath = original.oldPath ∧ kept.newPath = original.newPath
  isBinary : kept.isBinary = original.isBinary
  addedLines : kept.addedLines = original.addedLines
  hunks : kept.hunks.Sublist original.hunks
  additions : ∀ hunk ∈ kept.hunks, ∃ line ∈ hunk.lines, line.isAddition

theorem Hunk.isDeletionOnly_eq_false_iff {hunk : Hunk} :
    hunk.isDeletionOnly = false ↔ ∃ line ∈ hunk.lines, line.isAddition := by
  simp [isDeletionOnly, HunkLine.isAddition]

/-- A hunk without an addition adds no line. -/
theorem addedLines_filter (hunks : List Hunk) :
    (hunks.filter fun hunk => !hunk.isDeletionOnly).flatMap
        (fun hunk => hunk.lines.filter HunkLine.isAddition) =
      hunks.flatMap fun hunk => hunk.lines.filter HunkLine.isAddition := by
  induction hunks with
  | nil => rfl
  | cons hunk hunks ih =>
      cases only : hunk.isDeletionOnly with
      | false =>
          rw [List.filter_cons_of_pos (by simp [only]), List.flatMap_cons, List.flatMap_cons, ih]
      | true =>
          have none : hunk.lines.filter HunkLine.isAddition = [] := by
            rw [List.filter_eq_nil_iff]
            intro line member isAddition
            have some := Hunk.isDeletionOnly_eq_false_iff.mpr ⟨line, member, isAddition⟩
            rw [only] at some
            cases some
          rw [List.filter_cons_of_neg (by simp [only]), List.flatMap_cons, none, List.nil_append,
            ih]

/-- Of a file that is not deleted, the omission keeps the additions. -/
theorem forall₂_keepsAdditions (patches : List PatchFile) :
    List.Forall₂ KeepsAdditions (patches.filter fun patch => !patch.isDeletedFile)
      (applyDeletionOmission patches) := by
  rw [applyDeletionOmission, List.forall₂_map_right_iff, List.forall₂_same]
  intro patch _
  refine ⟨⟨rfl, rfl⟩, rfl, addedLines_filter patch.hunks, List.filter_sublist, ?_⟩
  intro hunk member
  have notOnly := (List.mem_filter.mp member).2
  exact Hunk.isDeletionOnly_eq_false_iff.mp (by simpa using notOnly)

/-- A second omission changes nothing. -/
theorem applyDeletionOmission_idem (patches : List PatchFile) :
    applyDeletionOmission (applyDeletionOmission patches) = applyDeletionOmission patches := by
  have noneDeleted : ∀ patch ∈ applyDeletionOmission patches, (!patch.isDeletedFile) = true := by
    rw [applyDeletionOmission, List.forall_mem_map]
    intro patch member
    exact (List.mem_filter.mp member).2
  rw [applyDeletionOmission, List.filter_eq_self.mpr noneDeleted, applyDeletionOmission,
    List.map_map]
  refine List.map_congr_left fun patch _ => ?_
  simp only [Function.comp_apply, List.filter_filter, Bool.and_self]

/-! ## One entry -/

namespace GitEntry

instance (entry : GitEntry) (keyword : ExtendedKeyword) : Decidable (entry.Announces keyword) :=
  inferInstanceAs (Decidable (∃ header ∈ _, _))

/-- Only the change announces a new or a deleted file. -/
theorem announces_iff (entry : GitEntry) {keyword : ExtendedKeyword}
    (announcing : keyword = .newFileMode ∨ keyword = .deletedFileMode) :
    entry.Announces keyword ↔ entry.change.announcement = some keyword := by
  constructor
  · rintro ⟨header, member, rfl⟩
    rw [List.mem_append, List.mem_append] at member
    have notFree : header ∉ entry.before ++ entry.after := fun free => by
      have other := entry.unannounced header free
      rcases announcing with isNew | isDeleted
      · exact other.1 isNew
      · exact other.2 isDeleted
    rw [List.mem_append, not_or] at notFree
    obtain (early | announced) | late := member
    · exact absurd early notFree.1
    · obtain ⟨keyword, isAnnounced, rfl⟩ := List.mem_map.mp announced
      exact Option.mem_toList.mp isAnnounced
    · exact absurd late notFree.2
  · intro announced
    refine ⟨⟨keyword, entry.mode.val, entry.mode.property⟩, ?_, rfl⟩
    rw [List.mem_append, List.mem_append]
    exact .inl (.inr (List.mem_map.mpr ⟨keyword, Option.mem_toList.mpr announced, rfl⟩))

/-- The file is new or deleted exactly when the entry is announced as one. -/
structure Recognises (entry : GitEntry) (file : PatchFile) : Prop where
  isDeletedFile : file.isDeletedFile ↔ entry.Announces .deletedFileMode
  isNewFile : file.isNewFile ↔ entry.Announces .newFileMode

/-- The entry has hunks if it is announced as new or deleted. -/
def HasText (entry : GitEntry) : Prop :=
  entry.Announces .newFileMode ∨ entry.Announces .deletedFileMode → entry.content.isText

/-- A side has a path unless it is the `/dev/null` of a `---` or `+++` line. -/
theorem isSome_paths_header (entry : GitEntry) :
    entry.header.oldPath.isSome = (!entry.content.isText || entry.change.oldFile.isSome) ∧
      entry.header.newPath.isSome = (!entry.content.isText || entry.change.newFile.isSome) := by
  have found := entry.isSome_matchGitHeader
  unfold header
  cases entry.content <;> simp [named, Content.isText, found]

/-- An added or deleted file is recognised exactly when it has hunks, any other always. -/
theorem recognises_iff (entry : GitEntry) (hunkLines : List Text) :
    entry.Recognises (entry.header.entry hunkLines) ↔ entry.HasText := by
  obtain ⟨oldPath, newPath⟩ := entry.isSome_paths_header
  have isNew := entry.announces_iff (.inl rfl)
  have isDeleted := entry.announces_iff (.inr rfl)
  have flags : entry.Recognises (entry.header.entry hunkLines) ↔
      ((entry.header.entry hunkLines).isDeletedFile ↔
          entry.change.announcement = some .deletedFileMode) ∧
        ((entry.header.entry hunkLines).isNewFile ↔
          entry.change.announcement = some .newFileMode) := by
    rw [← isNew, ← isDeleted]
    exact ⟨fun recognised => ⟨recognised.1, recognised.2⟩, fun flags => ⟨flags.1, flags.2⟩⟩
  rw [flags, HasText, isNew, isDeleted, PatchFile.isDeletedFile, PatchFile.isNewFile,
    FileHeader.oldPath_entry, FileHeader.newPath_entry, renameFrom_header, renameTo_header]
  simp only [Option.isSome_or, Option.isSome_map, ← Option.not_isSome, oldPath,
    newPath]
  cases entry.change <;> cases entry.content.isText <;>
    simp [Change.oldFile, Change.newFile, Change.renameFrom, Change.renameTo, Change.announcement]

/-- The entry has hunks if it is announced as new or deleted, and no line the parser sees
in its hunks starts a block. -/
structure Recognisable (entry : GitEntry) : Prop where
  hasText : entry.HasText
  plain : ∀ line ∈ entry.seen, startsBlock line = false

end GitEntry

/-! ## All entries -/

/-- Each item gives one result and perhaps more; if the results belong to the items one by
one, there are no more. -/
theorem forall₂_flatMap_iff {Item Result : Type} {belongs : Item → Result → Prop}
    {first : Item → Result} {more : Item → List Result} {items : List Item} :
    List.Forall₂ belongs items (items.flatMap fun item => first item :: more item) ↔
      ∀ item ∈ items, belongs item (first item) ∧ more item = [] := by
  have atLeast : ∀ items : List Item,
      items.length ≤ (items.flatMap fun item => first item :: more item).length := by
    intro items
    induction items with
    | nil => simp
    | cons item items ih =>
        simp only [List.flatMap_cons, List.length_append, List.length_cons]
        omega
  induction items with
  | nil => simp
  | cons item items ih =>
      rw [List.flatMap_cons, List.cons_append, List.forall₂_cons, List.forall_mem_cons]
      constructor
      · rintro ⟨ofFirst, others⟩
        have none : more item = [] := by
          have lengths := others.length_eq
          have rest := atLeast items
          rw [List.length_append] at lengths
          exact List.length_eq_zero_iff.mp (by omega)
        rw [none, List.nil_append] at others
        exact ⟨⟨ofFirst, none⟩, ih.mp others⟩
      · rintro ⟨⟨ofFirst, none⟩, others⟩
        rw [none, List.nil_append]
        exact ⟨ofFirst, ih.mpr others⟩

/-- What is announced in a diff is recognised: there is one file for each entry, new or
deleted if it is announced as such; without deletions there is one for each entry that is
not announced as deleted, with the added lines of the file; and a second omission of
deletions changes nothing. -/
structure RecognisesKinds (entries : List GitEntry) : Prop where
  recognises : List.Forall₂ GitEntry.Recognises entries (parseDiff (renderEntries entries))
  omits : List.Forall₂ GitEntry.Recognises
    (entries.filter fun entry => ¬entry.Announces .deletedFileMode)
    (parseDiff (renderEntries entries) false)
  keeps : List.Forall₂ KeepsAdditions
    ((parseDiff (renderEntries entries)).filter fun patch => !patch.isDeletedFile)
    (parseDiff (renderEntries entries) false)
  again : applyDeletionOmission (parseDiff (renderEntries entries) false) =
    parseDiff (renderEntries entries) false

/-- The files belong to the entries exactly when each entry is recognisable. -/
theorem forall₂_recognises_iff (entries : List GitEntry) :
    List.Forall₂ GitEntry.Recognises entries (parseDiff (renderEntries entries)) ↔
      ∀ entry ∈ entries, entry.Recognisable := by
  rw [parseDiff_renderEntries]
  simp only [GitEntry.parseDiff_entry]
  rw [forall₂_flatMap_iff]
  refine forall₂_congr fun entry _ => ?_
  rw [entry.recognises_iff, List.map_eq_nil_iff, fileBlocks_eq_nil_iff]
  exact ⟨fun both => ⟨both.1, both.2⟩, fun recognisable => ⟨recognisable.1, recognisable.2⟩⟩

/-- If the files belong to the entries, those that the omission keeps belong to the entries
that are not announced as deleted. -/
theorem forall₂_recognises_omission {entries : List GitEntry} {patches : List PatchFile}
    (recognises : List.Forall₂ GitEntry.Recognises entries patches) :
    List.Forall₂ GitEntry.Recognises
      (entries.filter fun entry => ¬entry.Announces .deletedFileMode)
      (applyDeletionOmission patches) := by
  rw [applyDeletionOmission, List.forall₂_map_right_iff]
  refine (List.rel_filter ?_ recognises).imp fun entry patch belongs => ?_
  · intro entry patch belongs
    simp [← belongs.isDeletedFile]
  · -- whether a file is new or deleted does not depend on its hunks
    exact ⟨belongs.isDeletedFile, belongs.isNewFile⟩

/-- **Added and deleted files are recognised** exactly when they have hunks and no line the
parser sees in the hunks of any file starts a block. -/
theorem recognisesKinds_iff (entries : List GitEntry) :
    RecognisesKinds entries ↔ ∀ entry ∈ entries, entry.Recognisable := by
  rw [← forall₂_recognises_iff]
  constructor
  · exact fun kinds => kinds.recognises
  · intro recognises
    refine ⟨recognises, ?_, ?_, ?_⟩
    · rw [parseDiff_false]
      exact forall₂_recognises_omission recognises
    · rw [parseDiff_false]
      exact forall₂_keepsAdditions _
    · rw [parseDiff_false]
      exact applyDeletionOmission_idem _

/-- The deletion of an empty file. -/
def deletedEmptyFile : GitEntry where
  change := .deleted ⟨"empty.txt".toList, by decide, List.all_eq_true.mp (by decide), by decide⟩
  content := .unchanged
  mode := ⟨"100644".toList, by decide⟩
  after := [⟨.index, "e69de29..0000000".toList, by decide⟩]

/-- The deletion of an empty file counts as a modification. -/
theorem not_recognisesKinds_deletedEmptyFile : ¬RecognisesKinds [deletedEmptyFile] := by
  intro kinds
  have recognisable := (forall₂_recognises_iff _).mp kinds.recognises deletedEmptyFile
    (List.mem_singleton_self _)
  have announced : deletedEmptyFile.Announces .deletedFileMode := by decide
  have isText := recognisable.hasText (.inr announced)
  cases isText

end Kenjutsu.Diff
