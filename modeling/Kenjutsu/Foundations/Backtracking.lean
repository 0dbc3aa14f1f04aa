import Kenjutsu.Foundations.Text

/-!
# Regular expressions that backtrack

An expression is tried at a place of a text in all its ways, in the order in which a
backtracking matcher tries them: the first branch of an alternative before the second,
and repetitions from the longest to the shortest. A search takes the first way at the
first place that has one. Anchors are those of the multi-line mode, where a newline is
the only line end.

An expression that begins with the start of a line and never leaves it is searched line
by line (`search_lines`). A repetition has one way only in front of something that does
not begin with what is repeated (`attempts_many_seq`).
-/

set_option autoImplicit false

namespace Foundations

/-- Repetition is of single characters. -/
inductive Regex where
  | empty
  | lineStart
  | lineEnd
  | one (allowed : Char → Bool)
  | many (allowed : Char → Bool)
  | seq (first second : Regex)
  | alt (first second : Regex)
  | group (body : Regex)

namespace Regex

/-- Where a matcher is: what it has read, from the last character to the first, what it
has not, and the text of the groups that are complete. -/
structure Attempt where
  behind : Text
  ahead : Text
  groups : List Text := []
deriving DecidableEq, Repr

/-- A text is read. -/
def Attempt.advance (attempt : Attempt) (taken : Text) : Attempt where
  behind := taken.reverse ++ attempt.behind
  ahead := attempt.ahead.drop taken.length
  groups := attempt.groups

/-- At the start of the text or after a newline. -/
def AtLineStart (behind : Text) : Prop := behind = [] ∨ behind.head? = some '\n'

instance (behind : Text) : Decidable (AtLineStart behind) := inferInstanceAs (Decidable (_ ∨ _))

/-- At the end of the text or before a newline. -/
def AtLineEnd (ahead : Text) : Prop := ahead = [] ∨ ahead.head? = some '\n'

instance (ahead : Text) : Decidable (AtLineEnd ahead) := inferInstanceAs (Decidable (_ ∨ _))

/-- The ways of a repetition. -/
def readMany (allowed : Char → Bool) (groups : List Text) : Text → Text → List Attempt
  | behind, [] => [⟨behind, [], groups⟩]
  | behind, character :: rest =>
      if allowed character then
        readMany allowed groups (character :: behind) rest ++ [⟨behind, character :: rest, groups⟩]
      else [⟨behind, character :: rest, groups⟩]

/-- Where an expression can lead, in the order of the matcher. -/
def attempts : Regex → Attempt → List Attempt
  | empty, attempt => [attempt]
  | lineStart, attempt => if AtLineStart attempt.behind then [attempt] else []
  | lineEnd, attempt => if AtLineEnd attempt.ahead then [attempt] else []
  | one allowed, ⟨behind, ahead, groups⟩ =>
      match ahead with
      | [] => []
      | character :: rest =>
          if allowed character then [⟨character :: behind, rest, groups⟩] else []
  | many allowed, attempt => readMany allowed attempt.groups attempt.behind attempt.ahead
  | seq first second, attempt => (first.attempts attempt).flatMap second.attempts
  | alt first second, attempt => first.attempts attempt ++ second.attempts attempt
  | group body, attempt => (body.attempts attempt).map fun after =>
      { after with groups := after.groups ++
          [attempt.ahead.take (attempt.ahead.length - after.ahead.length)] }

/-- `search`: the first way at the first place. -/
def searchFrom (regex : Regex) : Text → Text → Option Attempt
  | behind, [] => (regex.attempts ⟨behind, [], []⟩).head?
  | behind, character :: rest =>
      (regex.attempts ⟨behind, character :: rest, []⟩).head?.or
        (searchFrom regex (character :: behind) rest)

def search (regex : Regex) (text : Text) : Option Attempt := regex.searchFrom [] text

/-- A word. -/
def literal : Text → Regex
  | [] => empty
  | character :: word => seq (one (· = character)) (literal word)

/-- `+`. -/
def plus (allowed : Char → Bool) : Regex := seq (one allowed) (many allowed)

/-! ## Repetitions and words -/

section Parts

variable {allowed : Char → Bool} {next : Regex}

theorem attempts_seq (first second : Regex) (attempt : Attempt) :
    (seq first second).attempts attempt = (first.attempts attempt).flatMap second.attempts := rfl

theorem attempts_one_seq_cons (behind : Text) (character : Char) (rest : Text)
    (groups : List Text) :
    (seq (one allowed) next).attempts ⟨behind, character :: rest, groups⟩ =
      if allowed character then next.attempts ⟨character :: behind, rest, groups⟩ else [] := by
  rw [attempts_seq, attempts]
  split
  · exact List.flatMap_singleton _ _
  · rfl

theorem attempts_seq_assoc (first second third : Regex) (attempt : Attempt) :
    (seq (seq first second) third).attempts attempt =
      (seq first (seq second third)).attempts attempt :=
  List.flatMap_assoc

theorem readMany_head? (groups : List Text) (behind ahead : Text) :
    (readMany allowed groups behind ahead).head? = some
      ⟨(ahead.takeWhile allowed).reverse ++ behind, ahead.dropWhile allowed, groups⟩ := by
  induction ahead generalizing behind with
  | nil => rfl
  | cons character rest ih =>
      rw [readMany]
      split
      · rename_i may
        rw [List.head?_append, ih, List.takeWhile_cons_of_pos may, List.dropWhile_cons_of_pos may]
        simp
      · rename_i mayNot
        rw [List.takeWhile_cons_of_neg mayNot, List.dropWhile_cons_of_neg mayNot]
        rfl

theorem flatMap_readMany (groups : List Text) (behind ahead : Text)
    (stuck : ∀ behind character rest, allowed character →
      next.attempts ⟨behind, character :: rest, groups⟩ = []) :
    (readMany allowed groups behind ahead).flatMap next.attempts = next.attempts
      ⟨(ahead.takeWhile allowed).reverse ++ behind, ahead.dropWhile allowed, groups⟩ := by
  induction ahead generalizing behind with
  | nil => exact List.flatMap_singleton _ _
  | cons character rest ih =>
      rw [readMany]
      split
      · rename_i may
        rw [List.flatMap_append, List.flatMap_singleton, stuck _ _ _ may, List.append_nil, ih,
          List.takeWhile_cons_of_pos may, List.dropWhile_cons_of_pos may]
        simp
      · rename_i mayNot
        rw [List.takeWhile_cons_of_neg mayNot, List.dropWhile_cons_of_neg mayNot,
          List.flatMap_singleton]
        rfl

/-- **A repetition has one way** in front of what cannot begin with another of its
characters. -/
theorem attempts_many_seq (attempt : Attempt)
    (stuck : ∀ behind character rest, allowed character →
      next.attempts ⟨behind, character :: rest, attempt.groups⟩ = []) :
    (seq (many allowed) next).attempts attempt = next.attempts
      ⟨(attempt.ahead.takeWhile allowed).reverse ++ attempt.behind,
        attempt.ahead.dropWhile allowed, attempt.groups⟩ :=
  flatMap_readMany attempt.groups attempt.behind attempt.ahead stuck

theorem attempts_literal (word : Text) (attempt : Attempt) :
    (literal word).attempts attempt =
      if word.isPrefixOf attempt.ahead then [attempt.advance word] else [] := by
  induction word generalizing attempt with
  | nil => simp [literal, attempts, Attempt.advance]
  | cons character word ih =>
      rw [literal, attempts_seq]
      obtain ⟨behind, ahead, groups⟩ := attempt
      cases ahead with
      | nil => rfl
      | cons other ahead =>
          by_cases same : other = character
          · subst same
            simp only [attempts, decide_true, if_true, List.flatMap_singleton, ih]
            simp [Attempt.advance, List.isPrefixOf]
          · have apart : ¬character = other := fun equal => same equal.symm
            simp [attempts, same, List.isPrefixOf, apart]

theorem attempts_literal_seq (word : Text) (attempt : Attempt) :
    (seq (literal word) next).attempts attempt =
      if word.isPrefixOf attempt.ahead then next.attempts (attempt.advance word) else [] := by
  rw [attempts_seq, attempts_literal]
  split
  · exact List.flatMap_singleton _ _
  · rfl

end Parts

/-! ## Lines -/

/-- The expression matches at starts of lines only. -/
def Anchored (regex : Regex) : Prop :=
  ∀ attempt, ¬AtLineStart attempt.behind → regex.attempts attempt = []

theorem anchored_lineStart (next : Regex) : Anchored (seq lineStart next) := by
  intro attempt inside
  rw [attempts_seq, attempts, if_neg inside]
  rfl

variable {regex : Regex} {line behind rest : Text}

/-- Nothing is found before the next line. -/
theorem searchFrom_inside (anchored : Anchored regex) (plain : '\n' ∉ line)
    (inside : ¬AtLineStart behind) :
    regex.searchFrom behind line = none ∧
      regex.searchFrom behind (line ++ '\n' :: rest) =
        regex.searchFrom ('\n' :: (line.reverse ++ behind)) rest := by
  induction line generalizing behind with
  | nil =>
      have nothing := fun ahead => anchored ⟨behind, ahead, []⟩ inside
      constructor
      · rw [searchFrom, nothing]
        rfl
      · rw [List.nil_append, searchFrom, nothing]
        rfl
  | cons character line ih =>
      obtain ⟨apart, plain⟩ := not_or.mp (mt List.mem_cons.mpr plain)
      have insideNext : ¬AtLineStart (character :: behind) := by
        rintro (empty | newline)
        · cases empty
        · exact apart (Option.some.inj newline).symm
      have nothing := fun ahead => anchored ⟨behind, ahead, []⟩ inside
      obtain ⟨ends, goesOn⟩ := ih plain insideNext
      constructor
      · rw [searchFrom, nothing, ends]
        rfl
      · rw [List.cons_append, searchFrom, nothing, goesOn, List.reverse_cons, List.append_assoc]
        rfl

theorem searchFrom_line (anchored : Anchored regex) (plain : '\n' ∉ line) :
    regex.searchFrom behind line = (regex.attempts ⟨behind, line, []⟩).head? ∧
      regex.searchFrom behind (line ++ '\n' :: rest) =
        (regex.attempts ⟨behind, line ++ '\n' :: rest, []⟩).head?.or
          (regex.searchFrom ('\n' :: (line.reverse ++ behind)) rest) := by
  cases line with
  | nil => exact ⟨rfl, rfl⟩
  | cons character line =>
      obtain ⟨apart, plain⟩ := not_or.mp (mt List.mem_cons.mpr plain)
      have inside : ¬AtLineStart (character :: behind) := by
        rintro (empty | newline)
        · cases empty
        · exact apart (Option.some.inj newline).symm
      have next := @searchFrom_inside regex line (character :: behind) rest anchored plain inside
      constructor
      · rw [searchFrom, next.1, Option.or_none]
      · rw [List.cons_append, searchFrom, next.2, List.reverse_cons, List.append_assoc]
        rfl

/-- **An expression that stays in its line** is searched line by line. -/
theorem search_lines {inLine : Text → Option (List Text)} (anchored : Anchored regex)
    (stays : ∀ behind line more, AtLineStart behind → '\n' ∉ line → AtLineEnd more →
      (regex.attempts ⟨behind, line ++ more, []⟩).head?.map Attempt.groups = inLine line)
    (text : Text) :
    (regex.search text).map Attempt.groups = (text.splitOn '\n').findSome? inLine := by
  have fromStart : ∀ length, ∀ text : Text, text.length ≤ length → ∀ behind, AtLineStart behind →
      (regex.searchFrom behind text).map Attempt.groups =
        (text.splitOn '\n').findSome? inLine := by
    intro length
    induction length with
    | zero =>
        intro text short behind start
        obtain rfl := List.length_eq_zero_iff.mp (Nat.le_zero.mp short)
        have own := stays behind [] [] start (by simp) (.inl rfl)
        rw [List.splitOn_nil, List.findSome?_singleton, searchFrom, ← own]
        rfl
    | succ length ih =>
        intro text short behind start
        by_cases broken : '\n' ∈ text
        · obtain ⟨line, rest, rfl, plain⟩ := List.eq_append_cons_of_mem broken
          have own := stays behind line ('\n' :: rest) start plain (.inr rfl)
          rw [List.length_append, List.length_cons] at short
          have later := ih rest (by omega) ('\n' :: (line.reverse ++ behind)) (.inr rfl)
          rw [List.splitOn_append_cons_self_of_not_mem plain, List.findSome?_cons,
            (@searchFrom_line regex line behind rest anchored plain).2, ← own, ← later]
          cases (regex.attempts ⟨behind, line ++ '\n' :: rest, []⟩).head? <;> rfl
        · have own := stays behind text [] start broken (.inl rfl)
          rw [List.append_nil] at own
          rw [List.splitOn_eq_singleton broken, List.findSome?_singleton,
            (@searchFrom_line regex text behind [] anchored broken).1, own]
  exact fromStart text.length text le_rfl [] (.inl rfl)

end Regex

end Foundations
