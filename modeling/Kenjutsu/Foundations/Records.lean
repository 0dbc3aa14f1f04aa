import Kenjutsu.Foundations.Text

/-!
# Records written as lines

Records are written one on a line, with a separator between their fields. A reader strips
the text, breaks it with `splitlines`, drops the lines that are blank and splits each at the
first separators.

The lines are read back as they were written exactly if none has another line end in it and
nothing is stripped from the first and the last (`nonblankLines_unlines_iff`).
-/

set_option autoImplicit false

namespace Foundations.Text

/-! ## Fields -/

/-- `split(separator, count)`. -/
def splitAtMost (separator : Char) : Nat → Text → List Text
  | 0, text => [text]
  | count + 1, text =>
      match text.dropWhile (· ≠ separator) with
      | [] => [text]
      | _ :: rest => text.takeWhile (· ≠ separator) :: splitAtMost separator count rest

theorem splitAtMost_ne_nil (separator : Char) (count : Nat) (text : Text) :
    splitAtMost separator count text ≠ [] := by
  cases count with
  | zero => simp [splitAtMost]
  | succ count =>
      unfold splitAtMost
      split <;> simp

/-- The parts of a text make it up. -/
theorem intercalate_splitAtMost (separator : Char) (count : Nat) (text : Text) :
    List.intercalate [separator] (splitAtMost separator count text) = text := by
  induction count generalizing text with
  | zero => exact List.intercalate_singleton
  | succ count ih =>
      unfold splitAtMost
      split
      · exact List.intercalate_singleton
      · rename_i element rest dropped
        have isSeparator : element = separator := by
          have stops := List.head?_dropWhile_not (· ≠ separator) text
          rw [dropped] at stops
          simpa using stops
        obtain ⟨first, others, parts⟩ := List.exists_cons_of_ne_nil
          (splitAtMost_ne_nil separator count rest)
        rw [parts, List.intercalate_cons_cons, ← parts, ih, ← isSeparator, List.append_assoc,
          List.singleton_append, ← dropped, isSeparator]
        exact List.takeWhile_append_dropWhile

/-- A first part without the separator is split off. -/
theorem splitAtMost_append_cons {separator : Char} {part : Text} (plain : separator ∉ part)
    (count : Nat) (rest : Text) :
    splitAtMost separator (count + 1) (part ++ separator :: rest) =
      part :: splitAtMost separator count rest := by
  have all : ∀ element ∈ part, decide (element ≠ separator) = true := by
    intro element member
    exact decide_eq_true fun same => plain (same ▸ member)
  have stops : ∀ element, (separator :: rest).head? = some element →
      decide (element ≠ separator) = false := by
    intro element first
    obtain rfl := Option.some.inj first
    simp
  rw [splitAtMost, dropWhile_append_stop all stops, takeWhile_append_stop all stops]

/-! ## Newlines -/

/-- The translation of line ends of a text stream: carriage returns, and those followed by a
newline, become newlines. -/
def translateNewlines : Text → Text
  | [] => []
  | '\r' :: '\n' :: rest => '\n' :: translateNewlines rest
  | '\r' :: rest => '\n' :: translateNewlines rest
  | character :: rest => character :: translateNewlines rest

theorem translateNewlines_of_notMem {text : Text} (plain : '\r' ∉ text) :
    translateNewlines text = text := by
  induction text with
  | nil => rfl
  | cons character rest ih =>
      have differs : character ≠ '\r' := fun same => plain (same ▸ List.mem_cons_self)
      rw [translateNewlines, ih fun member => plain (List.mem_cons_of_mem _ member)]
      · rintro _ rfl
        exact absurd rfl differs
      · rintro rfl
        exact absurd rfl differs

/-! ## Lines -/

/-- The lines of a stripped text that are not blank. -/
def nonblankLines (text : Text) : List Text :=
  (splitlines (strip text)).filter (strip · ≠ [])

theorem unbroken_of_mem_nonblankLines {text line : Text} (member : line ∈ nonblankLines text) :
    Unbroken line :=
  unbroken_of_mem_splitFrom false _ line (List.mem_of_mem_filter member)

/-- A text without line ends is one line. -/
theorem splitlines_of_unbroken {line : Text} (unbroken : Unbroken line) (nonempty : line ≠ []) :
    splitlines line = [line] := by
  unfold splitlines
  induction line with
  | nil => exact absurd rfl nonempty
  | cons character line ih =>
      obtain ⟨plain, unbroken⟩ := List.forall_mem_cons.mp unbroken
      simp only [splitFrom, Bool.false_and, Bool.false_eq_true, if_false, plain]
      by_cases last : line = []
      · subst last
        rfl
      · rw [ih unbroken last]
        rfl

theorem splitlines_unlines_append {lines : List Text} {last : Text}
    (unbroken : ∀ line ∈ lines, Unbroken line) (unbrokenLast : Unbroken last)
    (nonempty : last ≠ []) : splitlines (unlines lines ++ last) = lines ++ [last] := by
  induction lines with
  | nil => exact splitlines_of_unbroken unbrokenLast nonempty
  | cons line lines ih =>
      obtain ⟨first, others⟩ := List.forall_mem_cons.mp unbroken
      have written : unlines (line :: lines) ++ last = line ++ '\n' :: (unlines lines ++ last) := by
        simp [unlines]
      rw [written, splitlines_append, pieces_of_unbroken first, ih others]
      rfl

theorem strip_dropWhile (text : Text) : strip (text.dropWhile isSpace) = strip text := by
  rw [strip, List.dropWhile_idempotent, strip]

theorem rstrip_rstrip (text : Text) : rstrip (rstrip text) = rstrip text :=
  List.rdropWhile_idempotent isSpace text

section Written

variable {first : Text} {rest : List Text}
  (unbroken : ∀ line ∈ first :: rest, Unbroken line)
  (nonblank : ∀ line ∈ first :: rest, strip line ≠ [])

include unbroken nonblank

/-- The lines of a stripped text are the lines as written, but for white space before the
first and after the last. -/
theorem exists_nonblankLines_unlines :
    ∃ before last, first.dropWhile isSpace :: rest = before ++ [last] ∧
      nonblankLines (unlines (first :: rest)) = before ++ [rstrip last] := by
  obtain ⟨before, last, split⟩ : ∃ before last,
      first.dropWhile isSpace :: rest = before ++ [last] :=
    ⟨_, _, (List.dropLast_append_getLast (List.cons_ne_nil _ _)).symm⟩
  obtain ⟨unbrokenFirst, unbrokenRest⟩ := List.forall_mem_cons.mp unbroken
  obtain ⟨nonblankFirst, nonblankRest⟩ := List.forall_mem_cons.mp nonblank
  have trimmed : ∀ line ∈ before ++ [last], Unbroken line ∧ strip line ≠ [] := by
    rw [← split]
    refine List.forall_mem_cons.mpr ⟨⟨fun character member => ?_, ?_⟩, fun line member =>
      ⟨unbrokenRest line member, nonblankRest line member⟩⟩
    · exact unbrokenFirst character ((List.dropWhile_sublist isSpace).subset member)
    · rw [strip_dropWhile]
      exact nonblankFirst
  obtain ⟨ofBefore, ofLast⟩ := List.forall_mem_append.mp trimmed
  obtain ⟨unbrokenLast, nonblankLast⟩ := ofLast last (List.mem_singleton_self last)
  have atStart : (unlines (first :: rest)).dropWhile isSpace =
      unlines (first.dropWhile isSpace :: rest) := by
    obtain ⟨character, member, plain⟩ := exists_of_strip_ne_nil nonblankFirst
    simp only [unlines, List.flatMap_cons, List.append_assoc]
    exact dropWhile_append_of_mem member plain
  have atEnd : strip (unlines (first :: rest)) = unlines before ++ rstrip last := by
    obtain ⟨character, member, plain⟩ := exists_of_strip_ne_nil nonblankLast
    have blank : ∀ character ∈ ['\n'], isSpace character :=
      List.forall_mem_singleton.mpr (by decide)
    have written : unlines (before ++ [last]) = unlines before ++ last ++ ['\n'] := by
      simp [unlines]
    rw [strip, atStart, split, written, rdropWhile_append_of_forall blank,
      rdropWhile_append_of_mem member plain]
    rfl
  have nonblankTrimmed : strip (rstrip last) ≠ [] := by
    rw [strip_rstrip]
    exact nonblankLast
  have nonempty : rstrip last ≠ [] := by
    intro empty
    rw [empty] at nonblankTrimmed
    exact nonblankTrimmed rfl
  have unbrokenTrimmed : Unbroken (rstrip last) := fun character member =>
    unbrokenLast character ((List.rdropWhile_prefix isSpace last).subset member)
  refine ⟨before, last, split, ?_⟩
  rw [nonblankLines, atEnd, splitlines_unlines_append (fun line member => (ofBefore line member).1)
    unbrokenTrimmed nonempty]
  refine List.filter_eq_self.mpr fun line member => decide_eq_true ?_
  rcases List.mem_append.mp member with early | late
  · exact (ofBefore line early).2
  · rw [List.mem_singleton.mp late]
    exact nonblankTrimmed

/-- **The lines are read back** exactly if nothing is stripped from the first and the last. -/
theorem nonblankLines_unlines_iff :
    nonblankLines (unlines (first :: rest)) = first :: rest ↔
      first.dropWhile isSpace = first ∧
        ∀ last, (first :: rest).getLast? = some last → rstrip last = last := by
  obtain ⟨before, last, split, read⟩ := exists_nonblankLines_unlines unbroken nonblank
  rw [read]
  constructor
  · intro same
    refine ⟨?_, fun other isLast => ?_⟩
    · cases before with
      | nil =>
          obtain ⟨rfl, -⟩ := List.cons.inj split
          obtain ⟨stripped, -⟩ := List.cons.inj same
          refine (List.dropWhile_sublist isSpace).eq_of_length_le ?_
          have shorter := (List.rdropWhile_prefix isSpace (first.dropWhile isSpace)).length_le
          change (rstrip (first.dropWhile isSpace)).length ≤ _ at shorter
          rwa [stripped] at shorter
      | cons line before =>
          obtain ⟨trimmed, -⟩ := List.cons.inj split
          obtain ⟨kept, -⟩ := List.cons.inj same
          exact trimmed.trans kept
    · rw [← same, List.getLast?_concat] at isLast
      obtain rfl := Option.some.inj isLast
      exact rstrip_rstrip last
  · rintro ⟨starts, ends⟩
    rw [starts] at split
    rw [split, List.getLast?_concat] at ends
    rw [ends last rfl, split]

end Written

end Foundations.Text
