import Kenjutsu.Foundations.Backtracking

/-!
# Slash commands

`parse_command` looks for `/kenjutsu` at the start of a line of a comment and reads the
rest of that line. Its regular expression stays in one line, so the command is that of the
first command line (`search_commandRe`), and what is around it does not matter.
-/

set_option autoImplicit false

namespace Kenjutsu.Server

open Foundations Foundations.Text

inductive CommandKind where
  | review
  | ignore
deriving DecidableEq, Repr

structure ParsedCommand where
  kind : CommandKind
  filePath : Option Text := none
deriving DecidableEq, Repr

/-- A `/kenjutsu` command is present but cannot be parsed. -/
structure ParseError where
  message : Text
deriving DecidableEq, Repr

namespace Commands

/-- A space or a tab. -/
def isBlank (character : Char) : Bool := character = ' ' || character = '\t'

def kenjutsu : Text := "/kenjutsu".toList

/-- `([ \t]+\S.*|[ \t]*$)`. -/
def restRe : Regex :=
  .alt (.seq (.plus isBlank) (.seq (.one fun character => !isSpace character)
      (.many (· ≠ '\n'))))
    (.seq (.many isBlank) .lineEnd)

/-- `_COMMAND_RE`. -/
def commandRe : Regex :=
  .seq .lineStart (.seq (.many isBlank) (.seq (.literal kenjutsu) (.group restRe)))

/-- What `parse_command` makes of the tokens after the prefix. -/
def interpret : List Text → Except ParseError ParsedCommand
  | [] => .error ⟨("missing subcommand — expected one of: review, ignore\n" ++
      "Usage: /kenjutsu review [<file>] | /kenjutsu ignore").toList⟩
  | subcommand :: args =>
      if subcommand = "review".toList then
        if args.length > 1 then
          .error ⟨"too many arguments for 'review' — expected at most one file path, got ".toList ++
            str args.length⟩
        else .ok ⟨.review, args.head?⟩
      else if subcommand = "ignore".toList then
        if args ≠ [] then
          .error ⟨"too many arguments for 'ignore' — expected no arguments, got ".toList ++
            str args.length⟩
        else .ok ⟨.ignore, none⟩
      else .error ⟨"unknown command '".toList ++ subcommand ++
        "' — supported commands: review, ignore".toList⟩

/-- `parse_command`. -/
def parseCommand (commentBody : Text) : Except ParseError (Option ParsedCommand) :=
  match commandRe.search commentBody with
  | none => .ok none
  | some found =>
      let rest := strip (found.groups.headD [])
      let tokens := if rest = [] then [] else words rest
      (interpret tokens).map some

/-! ## Command lines -/

/-- A line with a command, and what follows `/kenjutsu` in it: blanks, or blanks and then
something else than white space. -/
structure CommandLine (line after : Text) : Prop where
  begins : ∃ blanks, (∀ character ∈ blanks, isBlank character) ∧ line = blanks ++ kenjutsu ++ after
  follows : (∀ character ∈ after, isBlank character) ∨ ∃ gap character more,
    after = gap ++ character :: more ∧ gap ≠ [] ∧ (∀ blank ∈ gap, isBlank blank) ∧
      isSpace character = false

/-- What may follow `/kenjutsu` on its line. -/
def isRest (after : Text) : Bool :=
  match after.dropWhile isBlank with
  | [] => true
  | character :: _ => after.head?.any isBlank && !isSpace character

/-- What follows `/kenjutsu` on a command line. -/
def restOf (line : Text) : Option Text :=
  let text := line.dropWhile isBlank
  if kenjutsu.isPrefixOf text && isRest (text.drop kenjutsu.length) then
    some (text.drop kenjutsu.length)
  else none

theorem isSpace_of_isBlank {character : Char} (blank : isBlank character) : isSpace character := by
  simp only [isBlank, Bool.or_eq_true, decide_eq_true_eq] at blank
  rcases blank with rfl | rfl <;> decide

theorem isRest_eq (after : Text) : isRest after =
    ((after.dropWhile isBlank).isEmpty || after.head?.any isBlank &&
      (after.dropWhile isBlank).head?.any fun character => !isSpace character) := by
  rw [isRest]
  cases after.dropWhile isBlank with
  | nil => rfl
  | cons character more => rfl

theorem isRest_iff {after : Text} : isRest after ↔
    (∀ character ∈ after, isBlank character) ∨ ∃ gap character more,
      after = gap ++ character :: more ∧ gap ≠ [] ∧ (∀ blank ∈ gap, isBlank blank) ∧
        isSpace character = false := by
  constructor
  · intro follows
    have split := List.takeWhile_append_dropWhile (p := isBlank) (l := after)
    rw [isRest] at follows
    cases stop : after.dropWhile isBlank with
    | nil => exact .inl (List.dropWhile_eq_nil_iff.mp stop)
    | cons character more =>
        rw [stop] at follows split
        obtain ⟨head, plain⟩ := Bool.and_eq_true_iff.mp follows
        have notSpace : isSpace character = false := by simpa using plain
        refine .inr ⟨_, character, more, split.symm, fun nothing => ?_,
          fun blank member => List.mem_takeWhile_imp member, notSpace⟩
        rw [nothing, List.nil_append] at split
        rw [← split] at head
        rw [isSpace_of_isBlank head] at notSpace
        cases notSpace
  · rintro (blank | ⟨gap, character, more, rfl, nonempty, blank, plain⟩)
    · rw [isRest, List.dropWhile_eq_nil_iff.mpr blank]
    · have notBlank : isBlank character = false := by
        by_contra isBlank
        rw [isSpace_of_isBlank (by simpa using isBlank)] at plain
        cases plain
      rw [isRest, dropWhile_append_stop blank (by simpa using notBlank)]
      cases gap with
      | nil => exact absurd rfl nonempty
      | cons first gap => simp [plain, blank first List.mem_cons_self]

theorem kenjutsu_eq : kenjutsu = ['/', 'k', 'e', 'n', 'j', 'u', 't', 's', 'u'] := rfl

theorem restOf_eq_some_iff {line after : Text} :
    restOf line = some after ↔ CommandLine line after := by
  constructor
  · intro found
    rw [restOf] at found
    split at found
    · rename_i both
      obtain ⟨isPrefix, follows⟩ := Bool.and_eq_true_iff.mp both
      obtain ⟨more, text⟩ := List.isPrefixOf_iff_prefix.mp isPrefix
      obtain rfl := Option.some.inj found
      refine ⟨⟨line.takeWhile isBlank, fun _ member => List.mem_takeWhile_imp member, ?_⟩,
        isRest_iff.mp follows⟩
      rw [← text, List.drop_left, List.append_assoc, text]
      exact List.takeWhile_append_dropWhile.symm
    · cases found
  · rintro ⟨⟨blanks, blank, rfl⟩, follows⟩
    have text : (blanks ++ kenjutsu ++ after).dropWhile isBlank = kenjutsu ++ after := by
      rw [List.append_assoc]
      refine dropWhile_append_stop blank fun character isFirst => ?_
      obtain rfl := Option.some.inj isFirst
      rfl
    have isPrefix : kenjutsu.isPrefixOf (kenjutsu ++ after) = true :=
      List.isPrefixOf_iff_prefix.mpr (List.prefix_append _ _)
    simp only [restOf, text, isPrefix, List.drop_left, isRest_iff.mpr follows]
    rfl

/-! ## The expression on a line -/

section InLine

variable {behind text more : Text} {groups : List Text}

/-- The end of a line begins with nothing that the expression reads on. -/
theorem head_of_atLineEnd {p : Char → Bool} (newline : p '\n' = false)
    (ends : Regex.AtLineEnd more) : ∀ character, more.head? = some character →
      p character = false := by
  intro character isFirst
  rcases ends with rfl | isNewline
  · cases isFirst
  · obtain rfl := Option.some.inj (isNewline.symm.trans isFirst)
    exact newline

/-- `\S.*`. -/
theorem attempts_word (plain : '\n' ∉ text) (ends : Regex.AtLineEnd more) :
    ((Regex.seq (.one fun character => !isSpace character) (.many (· ≠ '\n'))).attempts
        ⟨behind, text ++ more, groups⟩).head?.map (fun found => (found.ahead, found.groups)) =
      if text.head?.any fun character => !isSpace character then some (more, groups) else none := by
  cases text with
  | nil =>
      cases more with
      | nil => rfl
      | cons character more =>
          have space := head_of_atLineEnd (p := fun character => !isSpace character) rfl ends
            character rfl
          rw [List.nil_append, Regex.attempts_one_seq_cons, space]
          rfl
  | cons character text =>
      rw [List.cons_append, Regex.attempts_one_seq_cons]
      cases plainSpace : !isSpace character with
      | false => simp [plainSpace]
      | true =>
          have rest : (text ++ more).dropWhile (fun character => decide (character ≠ '\n')) =
              more := by
            refine dropWhile_append_stop (fun other member => decide_eq_true ?_)
              (head_of_atLineEnd rfl ends)
            rintro rfl
            exact plain (List.mem_cons_of_mem _ member)
          rw [if_pos rfl, Regex.attempts, Regex.readMany_head?, rest]
          simp [plainSpace]

/-- `[ \t]*$`. -/
theorem attempts_blanks (plain : '\n' ∉ text) (ends : Regex.AtLineEnd more) :
    ((Regex.seq (.many isBlank) .lineEnd).attempts
        ⟨behind, text ++ more, groups⟩).head?.map (fun found => (found.ahead, found.groups)) =
      if (text.dropWhile isBlank).isEmpty then some (more, groups) else none := by
  have stuck : ∀ behind character rest, isBlank character →
      Regex.lineEnd.attempts ⟨behind, character :: rest, groups⟩ = [] := by
    intro behind character rest blank
    refine if_neg ?_
    rintro (empty | newline)
    · cases empty
    · obtain rfl := Option.some.inj newline
      exact absurd blank (by decide)
  rw [Regex.attempts_many_seq _ stuck, dropWhile_append_of_head (head_of_atLineEnd rfl ends),
    Regex.attempts]
  cases stop : text.dropWhile isBlank with
  | nil => simp [ends]
  | cons character rest =>
      have notNewline : character ≠ '\n' := by
        rintro rfl
        refine plain ((List.dropWhile_sublist isBlank).subset ?_)
        rw [stop]
        exact List.mem_cons_self
      have notEnd : ¬Regex.AtLineEnd (character :: (rest ++ more)) := by
        rintro (empty | newline)
        · cases empty
        · exact notNewline (Option.some.inj newline)
      simp [notEnd]

/-- **The rest of a line** is matched as a whole, or not at all. -/
theorem attempts_restRe (plain : '\n' ∉ text) (ends : Regex.AtLineEnd more) :
    (restRe.attempts ⟨behind, text ++ more, groups⟩).head?.map
        (fun found => (found.ahead, found.groups)) =
      if isRest text then some (more, groups) else none := by
  have stuck : ∀ behind character rest, isBlank character →
      (Regex.seq (.one fun character => !isSpace character) (.many (· ≠ '\n'))).attempts
        ⟨behind, character :: rest, groups⟩ = [] := by
    intro behind character rest blank
    rw [Regex.attempts_one_seq_cons, isSpace_of_isBlank blank]
    rfl
  have second := @attempts_blanks behind text more groups plain ends
  rw [restRe, Regex.attempts, List.head?_append, Option.map_or, second, Regex.plus,
    Regex.attempts_seq_assoc]
  cases text with
  | nil =>
      cases more with
      | nil => rfl
      | cons character more =>
          have notBlank := head_of_atLineEnd (p := isBlank) rfl ends character rfl
          rw [List.nil_append, Regex.attempts_one_seq_cons, notBlank]
          rfl
  | cons character text =>
      rw [List.cons_append, Regex.attempts_one_seq_cons]
      by_cases blank : isBlank character
      · have plainRest : '\n' ∉ text.dropWhile isBlank := fun member =>
          plain (List.mem_cons_of_mem _ ((List.dropWhile_sublist isBlank).subset member))
        rw [if_pos blank, Regex.attempts_many_seq _ stuck,
          dropWhile_append_of_head (head_of_atLineEnd rfl ends),
          attempts_word plainRest ends, isRest_eq, List.dropWhile_cons_of_pos blank]
        cases text.dropWhile isBlank with
        | nil => rfl
        | cons other rest => cases plainOther : isSpace other <;> simp [blank, plainOther]
      · rw [if_neg blank, isRest_eq, List.dropWhile_cons_of_neg blank]
        simp [blank]

theorem attempts_commandRe (start : Regex.AtLineStart behind) (plain : '\n' ∉ text)
    (ends : Regex.AtLineEnd more) :
    (commandRe.attempts ⟨behind, text ++ more, []⟩).head?.map Regex.Attempt.groups =
      (restOf text).map fun after => [after] := by
  have stuck : ∀ behind character rest, isBlank character →
      (Regex.seq (.literal kenjutsu) (.group restRe)).attempts
        ⟨behind, character :: rest, []⟩ = [] := by
    intro behind character rest blank
    have apart : ¬ '/' = character := by
      rintro rfl
      exact absurd blank (by decide)
    rw [Regex.attempts_literal_seq, if_neg]
    simp [kenjutsu_eq, List.isPrefixOf, apart]
  have atStart : Regex.lineStart.attempts ⟨behind, text ++ more, []⟩ =
    [⟨behind, text ++ more, []⟩] := if_pos start
  have apartWord : ∀ character, more.head? = some character → character ∉ kenjutsu := by
    intro character isFirst member
    have plainWord : kenjutsu.all (· ≠ '\n') := by decide
    have newline := head_of_atLineEnd (p := (· ≠ '\n')) rfl ends character isFirst
    rw [List.all_eq_true.mp plainWord character member] at newline
    cases newline
  rw [commandRe, Regex.attempts_seq, atStart, List.flatMap_singleton,
    Regex.attempts_many_seq _ stuck, dropWhile_append_of_head (head_of_atLineEnd rfl ends),
    Regex.attempts_literal_seq, isPrefixOf_append_of_head apartWord, restOf]
  cases isPrefix : kenjutsu.isPrefixOf (text.dropWhile isBlank) with
  | false => rfl
  | true =>
      obtain ⟨after, split⟩ := List.isPrefixOf_iff_prefix.mp isPrefix
      have plainAfter : '\n' ∉ after := fun member => by
        refine plain ((List.dropWhile_sublist isBlank).subset ?_)
        rw [← split]
        exact List.mem_append_right _ member
      have advanced : ∀ behind, Regex.Attempt.advance ⟨behind, kenjutsu ++ (after ++ more), []⟩
          kenjutsu = ⟨kenjutsu.reverse ++ behind, after ++ more, []⟩ := by
        intro behind
        rw [Regex.Attempt.advance, List.drop_left]
      rw [← split, List.append_assoc, if_pos rfl, advanced, Regex.attempts, List.head?_map]
      simp only [List.drop_left, Bool.true_and]
      have found := @attempts_restRe (kenjutsu.reverse ++
        (((text ++ more).takeWhile isBlank).reverse ++ behind)) after more [] plainAfter ends
      cases first : (restRe.attempts ⟨kenjutsu.reverse ++
          (((text ++ more).takeWhile isBlank).reverse ++ behind), after ++ more, []⟩).head? with
      | none =>
          rw [first] at found
          cases follows : isRest after with
          | false => rfl
          | true =>
              rw [follows] at found
              cases found
      | some final =>
          rw [first] at found
          cases follows : isRest after with
          | false =>
              rw [follows] at found
              cases found
          | true =>
              rw [follows, if_pos rfl] at found
              obtain ⟨isMore, noGroups⟩ := Prod.mk.inj (Option.some.inj found)
              simp [isMore, noGroups]

end InLine

theorem anchored_commandRe : Regex.Anchored commandRe := Regex.anchored_lineStart _

/-- **The search finds the first command line.** -/
theorem search_commandRe (commentBody : Text) :
    (commandRe.search commentBody).map Regex.Attempt.groups =
      (commentBody.splitOn '\n').findSome? fun line => (restOf line).map fun after => [after] :=
  Regex.search_lines anchored_commandRe
    (fun _ _ _ start plain ends => attempts_commandRe start plain ends) commentBody

/-- The rest of the first command line. -/
def firstCommand (lines : List Text) : Option Text := lines.findSome? restOf

/-- What follows from the rest of the first command line. -/
def outcomeOf : Option Text → Except ParseError (Option ParsedCommand)
  | none => .ok none
  | some after => (interpret (words after)).map some

/-- Stripping the rest of the line first does not change its tokens. -/
theorem tokens_eq (after : Text) :
    (if strip after = [] then [] else words (strip after)) = words after := by
  split
  · rename_i blank
    rw [← words_strip, blank]
    rfl
  · exact words_strip after

/-- **A comment is parsed by its first command line.** -/
theorem parseCommand_eq (commentBody : Text) :
    parseCommand commentBody = outcomeOf (firstCommand (commentBody.splitOn '\n')) := by
  have found : (commandRe.search commentBody).map Regex.Attempt.groups =
      (firstCommand (commentBody.splitOn '\n')).map fun after => [after] := by
    rw [search_commandRe, firstCommand, List.map_findSome?]
    rfl
  rw [parseCommand]
  cases first : firstCommand (commentBody.splitOn '\n') with
  | none =>
      rw [first] at found
      rw [Option.map_eq_none_iff.mp found]
      rfl
  | some after =>
      rw [first] at found
      obtain ⟨final, isFound, isGroup⟩ := Option.map_eq_some_iff.mp found
      rw [isFound]
      simp only [isGroup, List.headD_cons, tokens_eq]
      rfl

/-! ## What a command line means -/

/-- What the tokens of a command line mean: `review` with at most one argument, or
`ignore` alone. -/
structure Obeys (tokens : List Text) (outcome : Except ParseError ParsedCommand) : Prop where
  review : tokens = ["review".toList] → outcome = .ok ⟨.review, none⟩
  reviewFile : ∀ path, tokens = ["review".toList, path] → outcome = .ok ⟨.review, some path⟩
  ignore : tokens = ["ignore".toList] → outcome = .ok ⟨.ignore, none⟩
  missing : tokens = [] → ∃ error, outcome = .error error
  unknown : ∀ subcommand args, tokens = subcommand :: args → subcommand ≠ "review".toList →
    subcommand ≠ "ignore".toList → ∃ error, outcome = .error error
  tooManyFiles : ∀ args, tokens = "review".toList :: args → 1 < args.length →
    ∃ error, outcome = .error error
  ignoreArgs : ∀ args, tokens = "ignore".toList :: args → args ≠ [] →
    ∃ error, outcome = .error error

theorem ignore_ne_review : "ignore".toList ≠ "review".toList := by decide

theorem interpret_obeys (tokens : List Text) : Obeys tokens (interpret tokens) where
  review := by
    rintro rfl
    rfl
  reviewFile := by
    rintro path rfl
    rfl
  ignore := by
    rintro rfl
    rfl
  missing := by
    rintro rfl
    exact ⟨_, rfl⟩
  unknown := by
    rintro subcommand args rfl notReview notIgnore
    rw [interpret, if_neg notReview, if_neg notIgnore]
    exact ⟨_, rfl⟩
  tooManyFiles := by
    rintro args rfl many
    rw [interpret, if_pos rfl, if_pos many]
    exact ⟨_, rfl⟩
  ignoreArgs := by
    rintro args rfl some
    rw [interpret, if_neg ignore_ne_review, if_pos rfl, if_pos some]
    exact ⟨_, rfl⟩

theorem restOf_eq_none_iff {line : Text} :
    restOf line = none ↔ ∀ after, ¬CommandLine line after := by
  simp only [Option.eq_none_iff_forall_ne_some, ne_eq, restOf_eq_some_iff]

theorem firstCommand_eq_none_iff {lines : List Text} :
    firstCommand lines = none ↔ ∀ line ∈ lines, ∀ after, ¬CommandLine line after := by
  simp only [firstCommand, List.findSome?_eq_none_iff, restOf_eq_none_iff]

theorem firstCommand_append {before rest : List Text} {line after : Text}
    (none : firstCommand before = none) (command : CommandLine line after) :
    firstCommand (before ++ line :: rest) = some after := by
  rw [firstCommand] at none
  rw [firstCommand, List.findSome?_append, none, List.findSome?_cons,
    restOf_eq_some_iff.mpr command]
  rfl

/-- **Commands are recognized by lines, and the first one wins.** -/
theorem parseCommand_lines (commentBody : Text) :
    (parseCommand commentBody = .ok none ↔
      ∀ line ∈ commentBody.splitOn '\n', ∀ after, ¬CommandLine line after) ∧
    ∀ before line rest after, commentBody.splitOn '\n' = before ++ line :: rest →
      (∀ other ∈ before, ∀ after, ¬CommandLine other after) → CommandLine line after →
      parseCommand commentBody = parseCommand line ∧
        parseCommand commentBody = (interpret (words after)).map some ∧
        Obeys (words after) (interpret (words after)) := by
  constructor
  · rw [parseCommand_eq, ← firstCommand_eq_none_iff]
    cases firstCommand (commentBody.splitOn '\n') with
    | none => simp [outcomeOf]
    | some after =>
        cases parsed : interpret (words after) <;> simp [outcomeOf, parsed, Except.map]
  · intro before line rest after split others command
    have none := firstCommand_eq_none_iff.mpr others
    have plain : '\n' ∉ line := by
      refine not_mem_of_mem_splitOn '\n' commentBody line ?_
      rw [split]
      simp
    have ofBody : parseCommand commentBody = (interpret (words after)).map some := by
      rw [parseCommand_eq, split, firstCommand_append none command]
      rfl
    have ofLine : parseCommand line = (interpret (words after)).map some := by
      rw [parseCommand_eq, List.splitOn_eq_singleton plain]
      rw [show [line] = [] ++ line :: [] from rfl, firstCommand_append rfl command]
      rfl
    exact ⟨ofBody.trans ofLine.symm, ofBody, interpret_obeys _⟩

/-- A comment with two commands: the second one is malformed. -/
theorem parseCommand_lines_review :
    parseCommand "please\n /kenjutsu review a.py\n/kenjutsu foo".toList =
      parseCommand " /kenjutsu review a.py".toList := by
  have command : CommandLine " /kenjutsu review a.py".toList " review a.py".toList :=
    restOf_eq_some_iff.mp (by decide +kernel)
  have others : ∀ other ∈ ["please".toList], ∀ after, ¬CommandLine other after :=
    firstCommand_eq_none_iff.mp (by decide +kernel)
  exact ((parseCommand_lines "please\n /kenjutsu review a.py\n/kenjutsu foo".toList).2
    ["please".toList] _ ["/kenjutsu foo".toList] _ (by decide +kernel) others command).1

end Commands

end Kenjutsu.Server
