import Kenjutsu.Foundations.Records

/-!
# The log of a mirror

`git_log` reads what `git log` prints: a line for each commit, its four fields with a NUL
between each and the next. The reader strips the whole output and breaks it with
`splitlines`, which also breaks at characters that git prints as they are, and at which it
does not end a line. So it reads the commits back exactly if no field has such a character
and the output neither begins nor ends with white space of a field (`decodes_iff`).
-/

set_option autoImplicit false

namespace Kenjutsu.Mirror

open Foundations Foundations.Text

/-- Lightweight representation of a single git commit. -/
structure CommitInfo where
  sha : Text
  author : Text
  date : Text
  message : Text
deriving DecidableEq

/-- What `subprocess.run` returns, the output as git wrote it. -/
structure CompletedProcess where
  returncode : Int
  stdout : Text
  stderr : Text

/-- The exceptions of a read. -/
inductive ReadRaised where
  | mirrorReadError (message : Text)
  | valueError
deriving DecidableEq

/-- The command of `git_log`. -/
def logCommand (path : Option Text) (n : Int) : List Text :=
  ["git".toList, "log".toList, ("--max-count=" ++ toString n).toList,
    "--format=%H%x00%an%x00%ai%x00%s".toList] ++
    match path with
    | none => []
    | some path => ["--".toList, path]

/-- A line is split into the four fields of a commit. -/
def parseCommit (line : Text) : Except ReadRaised CommitInfo :=
  match splitAtMost '\x00' 3 line with
  | [sha, author, date, message] => .ok ⟨sha, author, date, message⟩
  | _ => .error .valueError

/-- The loop over the lines. -/
def parseCommits : List Text → Except ReadRaised (List CommitInfo)
  | [] => .ok []
  | line :: lines =>
      if strip line ≠ [] then do
        let commit ← parseCommit line
        let commits ← parseCommits lines
        .ok (commit :: commits)
      else parseCommits lines

/-- `MirrorHandle.git_log`, in a repository where git is the function. -/
def gitLog (git : List Text → CompletedProcess) (path : Option Text) (n : Int) :
    Except ReadRaised (List CommitInfo) :=
  let result := git (logCommand path n)
  if result.returncode ≠ 0 then
    .error (.mirrorReadError ("git log failed: ".toList ++ strip (translateNewlines result.stderr)))
  else parseCommits (splitlines (strip (translateNewlines result.stdout)))

/-! ## What git prints -/

/-- The line of a commit. -/
def CommitInfo.line (commit : CommitInfo) : Text :=
  commit.sha ++ '\x00' :: (commit.author ++ '\x00' :: (commit.date ++ '\x00' :: commit.message))

/-- The fields of a commit. -/
def CommitInfo.fields (commit : CommitInfo) : List Text :=
  [commit.sha, commit.author, commit.date, commit.message]

/-- What git prints for the commits. -/
def printed (commits : List CommitInfo) : Text := unlines (commits.map CommitInfo.line)

/-- The fields have neither newlines nor NULs in them, and the hash is not empty. -/
structure CommitInfo.Printable (commit : CommitInfo) : Prop where
  newline : ∀ field ∈ commit.fields, '\n' ∉ field
  nul : ∀ field ∈ commit.fields, '\x00' ∉ field
  sha : commit.sha ≠ []

/-- Wherever git prints the commits, `git_log` returns them if git succeeded, and raises
nothing but `MirrorReadError`. -/
def Decodes (commits : List CommitInfo) : Prop :=
  ∀ (git : List Text → CompletedProcess) (path : Option Text) (n : Int),
    (git (logCommand path n)).stdout = printed commits →
      ((git (logCommand path n)).returncode = 0 → gitLog git path n = .ok commits) ∧
        ∀ raised, gitLog git path n = .error raised →
          ∃ message, raised = .mirrorReadError message

/-- No field has a character at which `splitlines` breaks, the first hash does not begin
with white space, and the last message does not end with it. -/
structure Readable (commits : List CommitInfo) : Prop where
  unbroken : ∀ commit ∈ commits, ∀ field ∈ commit.fields, Unbroken field
  starts : ∀ commit ∈ commits.head?, ∀ character ∈ commit.sha.head?, isSpace character = false
  ends : ∀ commit ∈ commits.getLast?, ∀ character ∈ commit.message.getLast?,
    isSpace character = false

instance (commit : CommitInfo) : Decidable commit.Printable :=
  decidable_of_iff ((∀ field ∈ commit.fields, '\n' ∉ field) ∧
      (∀ field ∈ commit.fields, '\x00' ∉ field) ∧ commit.sha ≠ [])
    ⟨fun ⟨newline, nul, sha⟩ => ⟨newline, nul, sha⟩, fun ⟨newline, nul, sha⟩ => ⟨newline, nul, sha⟩⟩

theorem readable_iff {commits : List CommitInfo} :
    Readable commits ↔ (∀ commit ∈ commits, ∀ field ∈ commit.fields, Unbroken field) ∧
      (∀ commit ∈ commits.head?, commit.sha.head?.all (!isSpace ·)) ∧
      ∀ commit ∈ commits.getLast?, commit.message.getLast?.all (!isSpace ·) := by
  simp only [Option.all_eq_true, Bool.not_eq_true']
  exact ⟨fun ⟨unbroken, starts, ends⟩ => ⟨unbroken, starts, ends⟩,
    fun ⟨unbroken, starts, ends⟩ => ⟨unbroken, starts, ends⟩⟩

instance (commits : List CommitInfo) : Decidable (Readable commits) :=
  decidable_of_iff' _ readable_iff

/-! ## The lines of commits -/

variable {commit : CommitInfo} {commits : List CommitInfo}

theorem CommitInfo.line_eq (commit : CommitInfo) :
    commit.line = List.intercalate ['\x00'] commit.fields := by
  simp [line, fields, List.intercalate_cons_cons]

theorem isSpace_nul : isSpace '\x00' = false := by decide

theorem nul_mem_line (commit : CommitInfo) : '\x00' ∈ commit.line := by simp [CommitInfo.line]

/-- The line of a commit is not blank. -/
theorem strip_line_ne_nil (commit : CommitInfo) : strip commit.line ≠ [] := by
  intro blank
  have space := strip_eq_nil_iff.mp blank '\x00' (nul_mem_line commit)
  rw [isSpace_nul] at space
  cases space

theorem unbroken_line_iff : Unbroken commit.line ↔ ∀ field ∈ commit.fields, Unbroken field := by
  have nul : isLineEnd '\x00' = false := by decide
  simp [Unbroken, CommitInfo.line, CommitInfo.fields, or_imp, forall_and, nul]

/-- A printable commit is read from its line, -/
theorem parseCommit_line (printable : commit.Printable) : parseCommit commit.line = .ok commit := by
  have plain := printable.nul
  simp only [CommitInfo.fields, List.forall_mem_cons] at plain
  obtain ⟨sha, author, date, -⟩ := plain
  rw [parseCommit, CommitInfo.line, splitAtMost_append_cons sha, splitAtMost_append_cons author,
    splitAtMost_append_cons date]
  rfl

/-- and from no other. -/
theorem line_of_parseCommit {line : Text} (parsed : parseCommit line = .ok commit) :
    commit.line = line := by
  unfold parseCommit at parsed
  split at parsed
  · rename_i sha author date message parts
    obtain rfl := Except.ok.inj parsed
    rw [CommitInfo.line_eq, CommitInfo.fields, ← parts, intercalate_splitAtMost]
  · cases parsed

/-- The loop reads commits from their lines, whatever blank lines are between them. -/
theorem parseCommits_eq_ok_iff (printable : ∀ commit ∈ commits, commit.Printable)
    (lines : List Text) :
    parseCommits lines = .ok commits ↔
      lines.filter (strip · ≠ []) = commits.map CommitInfo.line := by
  induction lines generalizing commits with
  | nil => cases commits <;> simp [parseCommits]
  | cons line lines ih =>
      by_cases blank : strip line = []
      · rw [parseCommits, if_neg (not_not_intro blank), List.filter_cons_of_neg (by simpa using blank)]
        exact ih printable
      · rw [parseCommits, if_pos blank, List.filter_cons_of_pos (by simpa using blank)]
        constructor
        · intro read
          cases parsed : parseCommit line with
          | error raised =>
              rw [parsed] at read
              cases read
          | ok first =>
              rw [parsed] at read
              cases others : parseCommits lines with
              | error raised =>
                  rw [others] at read
                  cases read
              | ok rest =>
                  rw [others] at read
                  obtain rfl : first :: rest = commits := Except.ok.inj read
                  have ofRest := (List.forall_mem_cons.mp printable).2
                  rw [List.map_cons, line_of_parseCommit parsed, (ih ofRest).mp others]
        · intro written
          cases commits with
          | nil => cases written
          | cons first rest =>
              obtain ⟨ofFirst, ofRest⟩ := List.forall_mem_cons.mp printable
              obtain ⟨rfl, others⟩ := List.cons.inj written
              rw [parseCommit_line ofFirst, (ih ofRest).mpr others]
              rfl

/-! ## The output -/

/-- **The commits are read back** exactly if the lines are. -/
theorem decodes_iff_nonblankLines (printable : ∀ commit ∈ commits, commit.Printable) :
    Decodes commits ↔
      nonblankLines (translateNewlines (printed commits)) = commits.map CommitInfo.line := by
  constructor
  · intro decodes
    have read := (decodes (fun _ => ⟨0, printed commits, []⟩) none 50 rfl).1 rfl
    exact (parseCommits_eq_ok_iff printable _).mp read
  · intro lines git path n prints
    by_cases succeeded : (git (logCommand path n)).returncode = 0
    · have read : gitLog git path n = .ok commits := by
        rw [gitLog, if_neg (not_not_intro succeeded), prints]
        exact (parseCommits_eq_ok_iff printable _).mpr lines
      refine ⟨fun _ => read, fun raised failed => ?_⟩
      rw [read] at failed
      cases failed
    · refine ⟨fun same => absurd same succeeded, fun raised failed => ?_⟩
      rw [gitLog, if_pos succeeded] at failed
      exact ⟨_, (Except.error.inj failed).symm⟩

/-- Without other line ends there is nothing to translate. -/
theorem translateNewlines_printed
    (unbroken : ∀ commit ∈ commits, ∀ field ∈ commit.fields, Unbroken field) :
    translateNewlines (printed commits) = printed commits := by
  refine translateNewlines_of_notMem fun member => ?_
  obtain ⟨line, listed, inLine⟩ := List.mem_flatMap.mp member
  obtain ⟨commit, isCommit, rfl⟩ := List.mem_map.mp listed
  rcases List.mem_append.mp inLine with inCommit | ends
  · have plain := unbroken_line_iff.mpr (unbroken commit isCommit) '\r' inCommit
    revert plain
    decide
  · revert ends
    decide

/-- Nothing is stripped from the start of a line whose hash starts with none. -/
theorem dropWhile_line_eq_self_iff (nonempty : commit.sha ≠ []) :
    commit.line.dropWhile isSpace = commit.line ↔
      ∀ character ∈ commit.sha.head?, isSpace character = false := by
  obtain ⟨first, rest, sha⟩ := List.exists_cons_of_ne_nil nonempty
  rw [List.dropWhile_eq_self_iff]
  simp [CommitInfo.line, sha]

/-- Nothing is stripped from the end of a line whose message ends with none. -/
theorem rstrip_line_eq_self_iff :
    rstrip commit.line = commit.line ↔
      ∀ character ∈ commit.message.getLast?, isSpace character = false := by
  rw [rstrip, List.rdropWhile_eq_self_iff]
  rcases List.eq_nil_or_concat commit.message with empty | ⟨before, last, message⟩
  · simp [CommitInfo.line, empty, isSpace_nul]
  · simp [CommitInfo.line, message]

/-- **The log is decoded** exactly if the commits are readable. -/
theorem decodes_iff (printable : ∀ commit ∈ commits, commit.Printable) :
    Decodes commits ↔ Readable commits := by
  rw [decodes_iff_nonblankLines printable]
  by_cases unbroken : ∀ commit ∈ commits, ∀ field ∈ commit.fields, Unbroken field
  · have unbrokenLines : ∀ line ∈ commits.map CommitInfo.line, Unbroken line :=
      List.forall_mem_map.mpr fun commit member => unbroken_line_iff.mpr (unbroken commit member)
    have nonblank : ∀ line ∈ commits.map CommitInfo.line, strip line ≠ [] :=
      List.forall_mem_map.mpr fun commit _ => strip_line_ne_nil commit
    rw [translateNewlines_printed unbroken, printed]
    cases commits with
    | nil => exact iff_of_true rfl ⟨unbroken, nofun, nofun⟩
    | cons first rest =>
        rw [List.map_cons] at unbrokenLines nonblank ⊢
        rw [nonblankLines_unlines_iff unbrokenLines nonblank,
          dropWhile_line_eq_self_iff (printable first List.mem_cons_self).sha]
        constructor
        · rintro ⟨starts, ends⟩
          refine ⟨unbroken, ?_, ?_⟩
          · rintro commit ⟨⟩
            exact starts
          · intro commit isLast
            refine rstrip_line_eq_self_iff.mp (ends commit.line ?_)
            rw [← List.map_cons, List.getLast?_map, Option.mem_def.mp isLast]
            rfl
        · intro readable
          refine ⟨readable.starts first rfl, fun line mapped => ?_⟩
          rw [← List.map_cons, List.getLast?_map] at mapped
          obtain ⟨commit, isLast, rfl⟩ := Option.map_eq_some_iff.mp mapped
          exact rstrip_line_eq_self_iff.mpr (readable.ends commit isLast)
  · refine iff_of_false (fun lines => unbroken fun commit member => ?_) fun readable =>
      unbroken readable.unbroken
    have listed : commit.line ∈ nonblankLines (translateNewlines (printed commits)) := by
      rw [lines]
      exact List.mem_map_of_mem member
    exact unbroken_line_iff.mp (unbroken_of_mem_nonblankLines listed)

/-! ## Samples -/

/-- Two commits as a log has them. -/
def sampleLog : List CommitInfo :=
  [⟨"abc123".toList, "Alice".toList, "2026-01-15 10:00:00 +0000".toList, "Fix the bug".toList⟩,
    ⟨"def456".toList, "Bob".toList, "2026-01-14 09:00:00 +0000".toList, "Add feature".toList⟩]

/-- They are decoded. -/
theorem decodes_sampleLog : Decodes sampleLog :=
  (decodes_iff (by decide +kernel)).mpr (by decide +kernel)

/-- A commit whose message has a form feed in it. -/
def formFeedCommit : CommitInfo :=
  ⟨"abc123".toList, "Alice".toList, "2026-01-15 10:00:00 +0000".toList, "Fix\x0cthe bug".toList⟩

/-- It is not decoded: the output is broken in the message, and what follows is no commit. -/
theorem not_decodes_formFeedCommit :
    formFeedCommit.Printable ∧ ¬ Decodes [formFeedCommit] := by
  refine ⟨by decide +kernel, fun decodes => ?_⟩
  have raised : gitLog (fun _ => ⟨0, printed [formFeedCommit], []⟩) none 50 = .error .valueError := by
    decide +kernel
  have read := (decodes (fun _ => ⟨0, printed [formFeedCommit], []⟩) none 50 rfl).1 rfl
  rw [raised] at read
  cases read

end Kenjutsu.Mirror
