import Kenjutsu.Server.Commands

/-!
# Commands and line ends

Web forms send comments with a carriage return before every newline. The return belongs to
the line for the regular expression: after other text it is stripped off, but after
`/kenjutsu` alone it keeps the line from being a command line. So such a line is
overlooked, and the next command line decides instead.
-/

set_option autoImplicit false

namespace Kenjutsu.Server.Commands

open Foundations Foundations.Text

/-- The text with a carriage return before every newline. -/
def withReturns (text : Text) : Text :=
  text.flatMap fun character => if character = '\n' then ['\r', '\n'] else [character]

/-- Both nothing, both the same command, or both errors. -/
def SameOutcome (first second : Except ParseError (Option ParsedCommand)) : Prop :=
  first.toOption = second.toOption

/-- A command line with `/kenjutsu` alone. -/
def isBare (line : Text) : Bool := (restOf line).any fun after => after.all isBlank

/-- The lines without the bare ones that a newline ends. -/
def visible : List Text → List Text
  | [] => []
  | [line] => [line]
  | line :: next :: rest =>
      if isBare line then visible (next :: rest) else line :: visible (next :: rest)

/-- The first command line is bare, and ends with a newline. -/
def BareFirst (lines : List Text) : Prop :=
  ∃ before line rest, lines = before ++ line :: rest ∧ rest ≠ [] ∧
    (∀ other ∈ before, ∀ after, ¬CommandLine other after) ∧
    ∃ after, CommandLine line after ∧ ∀ character ∈ after, isBlank character

/-- Tokens that mean nothing. -/
def Malformed (tokens : List Text) : Prop :=
  tokens ≠ ["review".toList] ∧ (∀ path, tokens ≠ ["review".toList, path]) ∧
    tokens ≠ ["ignore".toList]

/-! ## Lines with carriage returns -/

/-- Every line but the last one with a carriage return. -/
def returned : List Text → List Text
  | [] => []
  | [line] => [line]
  | line :: next :: rest => (line ++ ['\r']) :: returned (next :: rest)

theorem splitOn_withReturns (text : Text) :
    (withReturns text).splitOn '\n' = returned (text.splitOn '\n') := by
  induction text with
  | nil => rfl
  | cons character text ih =>
      cases lines : text.splitOn '\n' with
      | nil => exact absurd lines (List.splitOn_ne_nil '\n' text)
      | cons line rest =>
          rw [lines] at ih
          by_cases newline : character = '\n'
          · subst newline
            have split : withReturns ('\n' :: text) = ['\r'] ++ '\n' :: withReturns text := rfl
            have ended : ('\n' :: text).splitOn '\n' = [] :: text.splitOn '\n' :=
              List.splitOn_append_cons_self_of_not_mem List.not_mem_nil text
            rw [split, List.splitOn_append_cons_self, ih, ended, lines]
            rfl
          · have split : withReturns (character :: text) = character :: withReturns text := by
              simp [withReturns, newline]
            have differs : ¬(character == '\n') = true := by simpa using newline
            rw [split, List.splitOn_cons_eq_if_modifyHead, if_neg differs, ih,
              List.splitOn_cons_eq_if_modifyHead, if_neg differs, lines]
            cases rest <;> rfl

/-- A carriage return is white space, and no blank. -/
theorem head_of_return {p : Char → Bool} (stops : p '\r' = false) :
    ∀ character, ['\r'].head? = some character → p character = false := by
  intro character isFirst
  obtain rfl := Option.some.inj isFirst
  exact stops

/-- A carriage return keeps a rest that is blank from following a command. -/
theorem isRest_append_return (after : Text) :
    isRest (after ++ ['\r']) = (isRest after && !after.all isBlank) := by
  rw [isRest_eq, isRest_eq, dropWhile_append_of_head (head_of_return rfl)]
  cases stop : after.dropWhile isBlank with
  | nil =>
      have blank : after.all isBlank = true :=
        List.all_eq_true.mpr (List.dropWhile_eq_nil_iff.mp stop)
      have space : isSpace '\r' = true := by decide
      simp [blank, space]
  | cons character more =>
      have notBlank : after.all isBlank = false := by
        rw [Bool.eq_false_iff]
        intro blank
        rw [List.dropWhile_eq_nil_iff.mpr (List.all_eq_true.mp blank)] at stop
        cases stop
      cases after with
      | nil => cases stop
      | cons first after => simp [notBlank]

theorem restOf_append_return (line : Text) :
    restOf (line ++ ['\r']) =
      if isBare line then none else (restOf line).map fun after => after ++ ['\r'] := by
  have apart : ∀ character, ['\r'].head? = some character → character ∉ kenjutsu := by
    intro character isFirst
    obtain rfl := Option.some.inj isFirst
    decide
  rw [isBare, restOf, restOf, dropWhile_append_of_head (head_of_return rfl),
    isPrefixOf_append_of_head apart]
  cases isPrefix : kenjutsu.isPrefixOf (line.dropWhile isBlank) with
  | false => simp
  | true =>
      obtain ⟨after, split⟩ := List.isPrefixOf_iff_prefix.mp isPrefix
      rw [← split, List.append_assoc]
      simp only [List.drop_left, isRest_append_return]
      cases follows : isRest after <;> cases blank : after.all isBlank <;> simp [blank]

theorem firstCommand_cons (line : Text) (rest : List Text) :
    firstCommand (line :: rest) = (restOf line).or (firstCommand rest) := by
  rw [firstCommand, List.findSome?_cons]
  cases restOf line <;> rfl

/-- The tokens of the first command line are those of the first one that is visible. -/
theorem firstCommand_returned (lines : List Text) :
    (firstCommand (returned lines)).map words = (firstCommand (visible lines)).map words := by
  induction lines using visible.induct with
  | case1 => rfl
  | case2 line => rfl
  | case3 line next rest bare ih =>
      rw [returned, firstCommand_cons, restOf_append_return, if_pos bare, Option.none_or, ih,
        visible, if_pos bare]
  | case4 line next rest notBare ih =>
      rw [returned, firstCommand_cons, restOf_append_return, if_neg notBare, visible,
        if_neg notBare, firstCommand_cons]
      cases restOf line with
      | none => exact ih
      | some after =>
          have space : ∀ character ∈ ['\r'], isSpace character :=
            List.forall_mem_singleton.mpr rfl
          exact congrArg some (words_append_of_blank after space)

/-- Only the tokens of a command line matter. -/
theorem outcomeOf_congr {first second : Option Text} (same : first.map words = second.map words) :
    outcomeOf first = outcomeOf second := by
  cases first with
  | none =>
      cases second with
      | none => rfl
      | some after => cases same
  | some after =>
      cases second with
      | none => cases same
      | some other => rw [outcomeOf, outcomeOf, Option.some.inj same]

theorem parseCommand_withReturns (commentBody : Text) :
    parseCommand (withReturns commentBody) =
      outcomeOf (firstCommand (visible (commentBody.splitOn '\n'))) := by
  rw [parseCommand_eq, splitOn_withReturns]
  exact outcomeOf_congr (firstCommand_returned _)

/-! ## The first command line -/

theorem isBare_iff {line : Text} :
    isBare line ↔ ∃ after, CommandLine line after ∧ ∀ character ∈ after, isBlank character := by
  simp only [isBare, Option.any_eq_true, restOf_eq_some_iff, List.all_eq_true]

/-- If the first command line is bare, its comment is malformed. -/
theorem outcomeOf_bareFirst {lines : List Text} (bareFirst : BareFirst lines) :
    (outcomeOf (firstCommand lines)).toOption = none := by
  obtain ⟨before, line, rest, rfl, -, others, after, command, blank⟩ := bareFirst
  rw [firstCommand_append (firstCommand_eq_none_iff.mpr others) command, outcomeOf,
    words_of_blank fun character member => isSpace_of_isBlank (blank character member)]
  rfl

/-- Otherwise the first command line is visible. -/
theorem firstCommand_visible {lines : List Text} (notBareFirst : ¬BareFirst lines) :
    firstCommand (visible lines) = firstCommand lines := by
  induction lines using visible.induct with
  | case1 => rfl
  | case2 line => rfl
  | case3 line next rest bare ih =>
      exact absurd ⟨[], line, next :: rest, rfl, List.cons_ne_nil _ _, by simp,
        isBare_iff.mp bare⟩ notBareFirst
  | case4 line next rest notBare ih =>
      rw [visible, if_neg notBare, firstCommand_cons, firstCommand_cons]
      cases isRest : restOf line with
      | some after => rfl
      | none =>
          refine ih ?_
          rintro ⟨before, bareLine, others, split, nonempty, noneBefore, bare⟩
          refine notBareFirst ⟨line :: before, bareLine, others, ?_, nonempty, ?_, bare⟩
          · rw [split, List.cons_append]
          · exact List.forall_mem_cons.mpr ⟨restOf_eq_none_iff.mp isRest, noneBefore⟩

/-- Malformed tokens are the ones that raise. -/
theorem interpret_toOption {tokens : List Text} :
    (interpret tokens).toOption = none ↔ Malformed tokens := by
  have obeys := interpret_obeys tokens
  constructor
  · intro raised
    refine ⟨fun isReview => ?_, fun path isFile => ?_, fun isIgnore => ?_⟩
    · rw [obeys.review isReview] at raised
      cases raised
    · rw [obeys.reviewFile path isFile] at raised
      cases raised
    · rw [obeys.ignore isIgnore] at raised
      cases raised
  · rintro ⟨notReview, notFile, notIgnore⟩
    have raises : ∃ error, interpret tokens = .error error := by
      rcases tokens with _ | ⟨subcommand, args⟩
      · exact obeys.missing rfl
      · by_cases isReview : subcommand = "review".toList
        · subst isReview
          rcases args with _ | ⟨path, _ | ⟨other, rest⟩⟩
          · exact absurd rfl notReview
          · exact absurd rfl (notFile path)
          · exact obeys.tooManyFiles _ rfl (by simp)
        · by_cases isIgnore : subcommand = "ignore".toList
          · subst isIgnore
            cases args with
            | nil => exact absurd rfl notIgnore
            | cons first rest => exact obeys.ignoreArgs _ rfl (List.cons_ne_nil _ _)
          · exact obeys.unknown _ _ rfl isReview isIgnore
    obtain ⟨error, isError⟩ := raises
    rw [isError]
    rfl

/-- **Line ends do not matter** exactly when the first command line is not a bare one that
a newline ends, or what is parsed instead is malformed as well. -/
theorem parseCommand_withReturns_iff (commentBody : Text) :
    SameOutcome (parseCommand commentBody) (parseCommand (withReturns commentBody)) ↔
      ¬BareFirst (commentBody.splitOn '\n') ∨
        ∃ after, firstCommand (visible (commentBody.splitOn '\n')) = some after ∧
          Malformed (words after) := by
  rw [SameOutcome, parseCommand_eq, parseCommand_withReturns]
  by_cases bareFirst : BareFirst (commentBody.splitOn '\n')
  · rw [outcomeOf_bareFirst bareFirst]
    cases firstCommand (visible (commentBody.splitOn '\n')) with
    | none => simp [outcomeOf, bareFirst, Except.toOption]
    | some after =>
        have malformed := @interpret_toOption (words after)
        cases parsed : interpret (words after) with
        | error error =>
            rw [parsed] at malformed
            exact iff_of_true (by rw [outcomeOf, parsed]; rfl)
              (.inr ⟨after, rfl, malformed.mp rfl⟩)
        | ok command =>
            rw [parsed] at malformed
            refine iff_of_false (fun same => ?_) ?_
            · rw [outcomeOf, parsed] at same
              cases same
            · rintro (notBareFirst | ⟨other, isOther, raises⟩)
              · exact notBareFirst bareFirst
              · obtain rfl := Option.some.inj isOther
                cases malformed.mpr raises
  · rw [firstCommand_visible bareFirst]
    exact iff_of_true rfl (.inl bareFirst)

/-- A bare command with a newline after it. -/
theorem not_sameOutcome_bare :
    ¬∀ commentBody : Text, '\r' ∉ commentBody →
      SameOutcome (parseCommand commentBody) (parseCommand (withReturns commentBody)) := by
  intro same
  have bare := same "/kenjutsu\n".toList (by decide)
  exact absurd bare (by unfold SameOutcome; decide +kernel)

end Kenjutsu.Server.Commands
