import Mathlib.Data.List.DropRight
import Mathlib.Data.Nat.Digits.Defs

/-!
# Text and its lines

A text is a list of characters. `splitlines` breaks it at more characters than the
newline, so a line written with a newline at its end may be read as several: its
`pieces`. The main fact is that a newline always ends the last piece, so that the
lines of a text written line by line are the pieces of each line in turn
(`splitlines_unlines`), and these are the lines as written when none has another
line end in it (`splitlines_unlines_of_unbroken`).
-/

set_option autoImplicit false

namespace Foundations

section Stops

variable {α : Type} {p : α → Bool} {inside more : List α}

/-- A run of elements ends where the next one is different. -/
theorem takeWhile_append_stop (all : ∀ element ∈ inside, p element)
    (stops : ∀ element, more.head? = some element → p element = false) :
    (inside ++ more).takeWhile p = inside := by
  rw [List.takeWhile_append_of_pos all]
  cases more with
  | nil => exact List.append_nil _
  | cons element more =>
      rw [List.takeWhile_cons_of_neg (by simp [stops element rfl]), List.append_nil]

theorem dropWhile_append_stop (all : ∀ element ∈ inside, p element)
    (stops : ∀ element, more.head? = some element → p element = false) :
    (inside ++ more).dropWhile p = more := by
  rw [List.dropWhile_append_of_pos all]
  cases more with
  | nil => rfl
  | cons element more => exact List.dropWhile_cons_of_neg (by simp [stops element rfl])

theorem dropWhile_append_of_head
    (stops : ∀ element, more.head? = some element → p element = false) :
    (inside ++ more).dropWhile p = inside.dropWhile p ++ more := by
  rw [List.dropWhile_append]
  split
  · rename_i nothing
    have none : ∀ element ∈ ([] : List α), p element := by simp
    rw [List.isEmpty_iff.mp nothing]
    exact dropWhile_append_stop none stops
  · rfl

/-- A word is in the first part, or it has the first element after it. -/
theorem isPrefixOf_append_of_head [BEq α] [LawfulBEq α] {word : List α}
    (apart : ∀ element, more.head? = some element → element ∉ word) :
    word.isPrefixOf (inside ++ more) = word.isPrefixOf inside := by
  rw [Bool.eq_iff_iff, List.isPrefixOf_iff_prefix, List.isPrefixOf_iff_prefix]
  refine ⟨fun isPrefix => ?_, fun isPrefix => isPrefix.trans (List.prefix_append _ _)⟩
  rcases List.prefix_or_prefix_of_prefix isPrefix (List.prefix_append inside more) with
    within | ⟨rest, rfl⟩
  · exact within
  · have isRest := (List.prefix_append_right_inj inside).mp isPrefix
    cases rest with
    | nil => simp
    | cons element rest =>
        obtain ⟨others, rfl⟩ := isRest
        exact absurd (by simp) (apart element rfl)

theorem dropWhile_append_of_mem {element : α} (member : element ∈ inside)
    (stops : p element = false) : (inside ++ more).dropWhile p = inside.dropWhile p ++ more := by
  have nonempty : inside.dropWhile p ≠ [] := fun nothing => by
    have all := List.dropWhile_eq_nil_iff.mp nothing element member
    rw [stops] at all
    cases all
  rw [List.dropWhile_append, if_neg (by simpa using nonempty)]

theorem rdropWhile_append_of_forall (all : ∀ element ∈ more, p element) :
    (inside ++ more).rdropWhile p = inside.rdropWhile p := by
  rw [List.rdropWhile, List.reverse_append,
    List.dropWhile_append_of_pos fun element member => all element (List.mem_reverse.mp member)]
  rfl

theorem rdropWhile_append_of_mem {element : α} (member : element ∈ more)
    (stops : p element = false) : (inside ++ more).rdropWhile p = inside ++ more.rdropWhile p := by
  rw [List.rdropWhile, List.reverse_append,
    dropWhile_append_of_mem (List.mem_reverse.mpr member) stops, List.reverse_append,
    List.reverse_reverse]
  rfl

end Stops

abbrev Text := List Char

instance : LawfulBEq Text := inferInstance

namespace Text

/-- `startswith`. -/
def startsWith (text : Text) (start : String) : Bool := start.toList.isPrefixOf text

/-! ## Lines -/

/-- The characters at which `splitlines` breaks a text. -/
def lineEnds : List Char :=
  ['\n', '\r', '\x0b', '\x0c', '\x1c', '\x1d', '\x1e', '\u0085', '\u2028', '\u2029']

def isLineEnd (character : Char) : Bool := lineEnds.contains character

/-- Put a character in front of the first line. -/
def extendFirst (character : Char) : List Text → List Text
  | [] => [[character]]
  | line :: lines => (character :: line) :: lines

/-- The lines of a text that follows a carriage return or not: a newline right
after one belongs to it. -/
def splitFrom : Bool → Text → List Text
  | _, [] => []
  | afterReturn, character :: rest =>
      if afterReturn && character = '\n' then splitFrom false rest
      else if isLineEnd character then [] :: splitFrom (character = '\r') rest
      else extendFirst character (splitFrom false rest)

/-- `splitlines`. -/
def splitlines (text : Text) : List Text := splitFrom false text

/-- Every line with a newline after it. -/
def unlines (lines : List Text) : Text := lines.flatMap fun line => line ++ ['\n']

/-- The parts between separators have none in them. -/
theorem not_mem_of_mem_splitOn (separator : Char) (text : Text) :
    ∀ part ∈ text.splitOn separator, separator ∉ part := by
  induction text with
  | nil => simp
  | cons character text ih =>
      rw [List.splitOn_cons_eq_if_modifyHead]
      split
      · exact List.forall_mem_cons.mpr ⟨List.not_mem_nil, ih⟩
      · rename_i differs
        have apart : separator ≠ character := fun same => differs (beq_iff_eq.mpr same.symm)
        cases parts : text.splitOn separator with
        | nil => simp
        | cons first others =>
            rw [parts] at ih
            obtain ⟨ofFirst, ofOthers⟩ := List.forall_mem_cons.mp ih
            exact List.forall_mem_cons.mpr ⟨fun member =>
              (List.mem_cons.mp member).elim apart ofFirst, ofOthers⟩

/-- What `splitlines` makes of one line with a newline after it. -/
def pieces (line : Text) : List Text := splitlines (line ++ ['\n'])

/-- The pieces after the first. -/
def spill (line : Text) : List Text := (pieces line).tail

/-- A line without a line end in it. -/
def Unbroken (line : Text) : Prop := ∀ character ∈ line, isLineEnd character = false

instance (line : Text) : Decidable (Unbroken line) := List.decidableBAll _ line

theorem unbroken_nil : Unbroken [] := List.forall_mem_nil _

theorem extendFirst_append {character : Char} {first : List Text} (nonempty : first ≠ [])
    (second : List Text) :
    extendFirst character (first ++ second) = extendFirst character first ++ second := by
  cases first with
  | nil => exact absurd rfl nonempty
  | cons line lines => rfl

theorem splitFrom_false_ne_nil {text : Text} (nonempty : text ≠ []) :
    splitFrom false text ≠ [] := by
  cases text with
  | nil => exact absurd rfl nonempty
  | cons character rest =>
      simp only [splitFrom, Bool.false_and, Bool.false_eq_true, if_false]
      split
      · simp
      · cases splitFrom false rest <;> simp [extendFirst]

/-- **A newline always ends a line.** -/
theorem splitFrom_append_newline (afterReturn : Bool) (line rest : Text) :
    splitFrom afterReturn (line ++ '\n' :: rest) =
      splitFrom afterReturn (line ++ ['\n']) ++ splitFrom false rest := by
  induction line generalizing afterReturn with
  | nil => cases afterReturn <;> simp [splitFrom, isLineEnd, lineEnds]
  | cons character line ih =>
      simp only [List.cons_append, splitFrom]
      split
      · exact ih false
      · split
        · rw [ih, List.cons_append]
        · rw [ih, extendFirst_append (splitFrom_false_ne_nil (by simp))]

theorem splitlines_append (line rest : Text) :
    splitlines (line ++ '\n' :: rest) = pieces line ++ splitlines rest :=
  splitFrom_append_newline false line rest

/-- **The lines of a text written line by line** are the pieces of each line. -/
theorem splitlines_unlines (lines : List Text) :
    splitlines (unlines lines) = lines.flatMap pieces := by
  induction lines with
  | nil => rfl
  | cons line lines ih =>
      calc splitlines (unlines (line :: lines))
          = splitlines (line ++ '\n' :: unlines lines) := by simp [unlines]
        _ = pieces line ++ lines.flatMap pieces := by rw [splitlines_append, ih]
        _ = (line :: lines).flatMap pieces := List.flatMap_cons.symm

/-- The first piece is what stands before the first line end. -/
theorem pieces_eq (line : Text) :
    pieces line = (line.takeWhile fun character => !isLineEnd character) :: spill line := by
  unfold spill pieces splitlines
  induction line with
  | nil => rfl
  | cons character line ih =>
      simp only [List.cons_append, splitFrom, Bool.false_and, Bool.false_eq_true, if_false]
      cases breaks : isLineEnd character with
      | true => simp [breaks]
      | false =>
          rw [if_neg (by simp), ih, List.takeWhile_cons, breaks]
          rfl

/-- No piece has a line end in it. -/
theorem unbroken_of_mem_splitFrom (afterReturn : Bool) (text : Text) :
    ∀ line ∈ splitFrom afterReturn text, Unbroken line := by
  induction text generalizing afterReturn with
  | nil => simp [splitFrom]
  | cons character rest ih =>
      unfold splitFrom
      split
      · exact ih false
      · split
        · simpa [Unbroken] using ih _
        · rename_i isNoEnd
          have plain : isLineEnd character = false := by simpa using isNoEnd
          intro line member
          cases lines : splitFrom false rest with
          | nil =>
              rw [lines] at member
              obtain rfl := List.mem_singleton.mp member
              simpa [Unbroken] using plain
          | cons first others =>
              have kept := ih false
              rw [lines] at member kept
              rcases List.mem_cons.mp member with rfl | later
              · exact List.forall_mem_cons.mpr ⟨plain, kept first List.mem_cons_self⟩
              · exact kept line (List.mem_cons_of_mem _ later)

theorem unbroken_of_mem_pieces {line piece : Text} (member : piece ∈ pieces line) :
    Unbroken piece :=
  unbroken_of_mem_splitFrom false _ piece member

theorem unbroken_of_mem_spill {line piece : Text} (member : piece ∈ spill line) :
    Unbroken piece :=
  unbroken_of_mem_pieces (List.mem_of_mem_tail member)

/-- The lines have only characters of the text in them. -/
theorem mem_of_mem_splitFrom (afterReturn : Bool) (text : Text) :
    ∀ line ∈ splitFrom afterReturn text, ∀ character ∈ line, character ∈ text := by
  induction text generalizing afterReturn with
  | nil => simp [splitFrom]
  | cons first rest ih =>
      intro line member character inLine
      unfold splitFrom at member
      split at member
      · exact List.mem_cons_of_mem _ (ih false line member character inLine)
      · split at member
        · rcases List.mem_cons.mp member with rfl | later
          · cases inLine
          · exact List.mem_cons_of_mem _ (ih _ line later character inLine)
        · cases lines : splitFrom false rest with
          | nil =>
              rw [lines] at member
              obtain rfl := List.mem_singleton.mp member
              exact List.mem_cons.mpr (.inl (List.mem_singleton.mp inLine))
          | cons head others =>
              have kept := ih false
              rw [lines] at member kept
              rcases List.mem_cons.mp member with rfl | later
              · rcases List.mem_cons.mp inLine with rfl | inHead
                · exact List.mem_cons_self
                · exact List.mem_cons_of_mem _ (kept head List.mem_cons_self character inHead)
              · exact List.mem_cons_of_mem _
                  (kept line (List.mem_cons_of_mem _ later) character inLine)

/-- A word without a line end begins the first line. -/
theorem exists_splitlines_append {word : Text} (unbroken : Unbroken word) (nonempty : word ≠ [])
    (rest : Text) : ∃ line lines, splitlines (word ++ rest) = (word ++ line) :: lines := by
  unfold splitlines
  induction word with
  | nil => exact absurd rfl nonempty
  | cons character word ih =>
      obtain ⟨plain, unbroken⟩ := List.forall_mem_cons.mp unbroken
      simp only [List.cons_append, splitFrom, Bool.false_and, Bool.false_eq_true, if_false, plain]
      by_cases last : word = []
      · subst last
        cases splitFrom false ([] ++ rest) with
        | nil => exact ⟨[], [], rfl⟩
        | cons line lines => exact ⟨line, lines, rfl⟩
      · obtain ⟨line, lines, split⟩ := ih unbroken last
        exact ⟨line, lines, by rw [split]; rfl⟩

/-- A first part without a line end does not matter to the spill. -/
theorem spill_append {first : Text} (unbroken : Unbroken first) (second : Text) :
    spill (first ++ second) = spill second := by
  induction first with
  | nil => rfl
  | cons character first ih =>
      obtain ⟨plain, unbroken⟩ := List.forall_mem_cons.mp unbroken
      rw [← ih unbroken]
      unfold spill pieces splitlines
      simp only [List.cons_append, splitFrom, Bool.false_and, Bool.false_eq_true, if_false, plain]
      cases splitFrom false (first ++ second ++ ['\n']) <;> rfl

theorem spill_of_unbroken {line : Text} (unbroken : Unbroken line) : spill line = [] := by
  have none := spill_append unbroken []
  rw [List.append_nil] at none
  exact none

theorem pieces_of_unbroken {line : Text} (unbroken : Unbroken line) : pieces line = [line] := by
  rw [pieces_eq, spill_of_unbroken unbroken]
  have plain : ∀ character ∈ line, (!isLineEnd character) = true := by
    simpa [Unbroken] using unbroken
  rw [List.takeWhile_eq_self_iff.mpr plain]

theorem flatMap_pieces_of_unbroken {lines : List Text} (unbroken : ∀ line ∈ lines, Unbroken line) :
    lines.flatMap pieces = lines := by
  induction lines with
  | nil => rfl
  | cons line lines ih =>
      obtain ⟨first, others⟩ := List.forall_mem_cons.mp unbroken
      rw [List.flatMap_cons, pieces_of_unbroken first, ih others]
      rfl

/-- **Lines without another line end are read back.** -/
theorem splitlines_unlines_of_unbroken {lines : List Text}
    (unbroken : ∀ line ∈ lines, Unbroken line) : splitlines (unlines lines) = lines := by
  rw [splitlines_unlines, flatMap_pieces_of_unbroken unbroken]

theorem Unbroken.append {first second : Text} (one : Unbroken first) (two : Unbroken second) :
    Unbroken (first ++ second) := by
  intro character member
  rcases List.mem_append.mp member with early | late
  · exact one character early
  · exact two character late

theorem Unbroken.drop {line : Text} (unbroken : Unbroken line) (count : Nat) :
    Unbroken (line.drop count) := fun character member =>
  unbroken character (List.mem_of_mem_drop member)

theorem Unbroken.sublist {line part : Text} (unbroken : Unbroken line)
    (isPart : part.Sublist line) : Unbroken part := fun character member =>
  unbroken character (isPart.subset member)

/-! ## White space -/

/-- The code points of white space. -/
def spaces : List Nat :=
  [0x09, 0x0a, 0x0b, 0x0c, 0x0d, 0x1c, 0x1d, 0x1e, 0x1f, 0x20, 0x85, 0xa0, 0x1680, 0x2000, 0x2001,
    0x2002, 0x2003, 0x2004, 0x2005, 0x2006, 0x2007, 0x2008, 0x2009, 0x200a, 0x2028, 0x2029, 0x202f,
    0x205f, 0x3000]

/-- `isspace` of a character. -/
def isSpace (character : Char) : Bool := spaces.contains character.toNat

/-- `strip`. -/
def strip (text : Text) : Text := (text.dropWhile isSpace).rdropWhile isSpace

theorem isSpace_of_isLineEnd {character : Char} (breaks : isLineEnd character) :
    isSpace character := by
  have all : lineEnds.all isSpace := by decide
  exact List.all_eq_true.mp all character (List.contains_iff_mem.mp breaks)

theorem unbroken_of_no_space {text : Text} (plain : ∀ character ∈ text, isSpace character = false) :
    Unbroken text := by
  intro character member
  cases breaks : isLineEnd character with
  | false => rfl
  | true =>
      have space := isSpace_of_isLineEnd breaks
      rw [plain character member] at space
      cases space

theorem strip_space_cons (text : Text) : strip (' ' :: text) = strip text := rfl

/-- A text that is stripped of everything is white space. -/
theorem isSpace_of_strip_eq_nil {text : Text} (blank : strip text = []) :
    ∀ character ∈ text, isSpace character := by
  intro character member
  rw [← List.takeWhile_append_dropWhile (p := isSpace) (l := text), List.mem_append] at member
  rcases member with early | late
  · exact List.mem_takeWhile_imp early
  · exact List.rdropWhile_eq_nil_iff.mp blank character late

theorem strip_eq_nil_iff {text : Text} :
    strip text = [] ↔ ∀ character ∈ text, isSpace character := by
  refine ⟨isSpace_of_strip_eq_nil, fun all => ?_⟩
  rw [strip, List.dropWhile_eq_nil_iff.mpr all]
  rfl

/-- A text that is not blank has a character that is not white space. -/
theorem exists_of_strip_ne_nil {text : Text} (nonblank : strip text ≠ []) :
    ∃ character ∈ text, isSpace character = false := by
  by_contra all
  push Not at all
  exact nonblank (strip_eq_nil_iff.mpr fun character member => by simpa using all character member)

/-- `rstrip`. -/
def rstrip (text : Text) : Text := text.rdropWhile isSpace

theorem strip_append_of_blank {text more : Text} (blank : ∀ character ∈ more, isSpace character) :
    strip (text ++ more) = strip text := by
  by_cases all : ∀ character ∈ text, isSpace character
  · rw [strip_eq_nil_iff.mpr all, strip_eq_nil_iff]
    intro character member
    exact (List.mem_append.mp member).elim (all character) (blank character)
  · push Not at all
    obtain ⟨character, member, plain⟩ := all
    rw [strip, dropWhile_append_of_mem member (by simpa using plain),
      rdropWhile_append_of_forall blank]
    rfl

theorem exists_rstrip_append (text : Text) :
    ∃ more, (∀ character ∈ more, isSpace character) ∧ rstrip text ++ more = text :=
  ⟨text.rtakeWhile isSpace, fun _ member => List.mem_rtakeWhile_imp member,
    List.rdropWhile_append_rtakeWhile⟩

theorem strip_rstrip (text : Text) : strip (rstrip text) = strip text := by
  obtain ⟨more, blank, split⟩ := exists_rstrip_append text
  calc strip (rstrip text) = strip (rstrip text ++ more) := (strip_append_of_blank blank).symm
    _ = strip text := by rw [split]

/-- It does not matter which end is stripped first. -/
theorem dropWhile_rstrip (text : Text) : (rstrip text).dropWhile isSpace = strip text := by
  rw [← strip_rstrip, strip, eq_comm, List.rdropWhile_eq_self_iff]
  intro nonempty
  have suffix := List.dropWhile_suffix (l := rstrip text) isSpace
  rw [suffix.getLast nonempty]
  exact List.rdropWhile_last_not isSpace text _

/-- What is stripped from a text is at its two ends. -/
theorem strip_append_append {first last : Text} (middle : Text) (nonblankFirst : strip first ≠ [])
    (nonblankLast : strip last ≠ []) :
    strip (first ++ (middle ++ last)) = first.dropWhile isSpace ++ (middle ++ rstrip last) := by
  obtain ⟨character, inFirst, plainFirst⟩ := exists_of_strip_ne_nil nonblankFirst
  obtain ⟨other, inLast, plainLast⟩ := exists_of_strip_ne_nil nonblankLast
  rw [strip, dropWhile_append_of_mem inFirst plainFirst, ← List.append_assoc,
    rdropWhile_append_of_mem inLast plainLast, List.append_assoc]
  rfl

/-- A text begins, once stripped, with the stripped text of any beginning that is not
blank. -/
theorem strip_isPrefix {first : Text} (nonblank : strip first ≠ []) (rest : Text) :
    strip first <+: strip (first ++ rest) := by
  obtain ⟨character, inFirst, plain⟩ := exists_of_strip_ne_nil nonblank
  by_cases blank : ∀ character ∈ rest, isSpace character
  · exact (strip_append_of_blank blank).symm ▸ List.prefix_rfl
  · push Not at blank
    obtain ⟨other, inRest, plainRest⟩ := blank
    rw [strip, strip, dropWhile_append_of_mem inFirst plain,
      rdropWhile_append_of_mem inRest (by simpa using plainRest)]
    exact (List.rdropWhile_prefix isSpace _).trans (List.prefix_append _ _)

theorem strip_sublist (text : Text) : (strip text).Sublist text :=
  (List.rdropWhile_prefix isSpace _).sublist.trans (List.dropWhile_sublist isSpace)

/-- A stripped text is stripped. -/
theorem strip_strip (text : Text) : strip (strip text) = strip text := by
  have kept : (strip text).dropWhile isSpace = strip text := by
    cases stripped : strip text with
    | nil => rfl
    | cons character others =>
        have isPrefix : character :: others <+: text.dropWhile isSpace :=
          stripped ▸ List.rdropWhile_prefix isSpace _
        obtain ⟨more, same⟩ := isPrefix
        have plain := List.head_dropWhile_not isSpace (l := text) (by simp [← same])
        simp only [← same, List.cons_append, List.head_cons] at plain
        rw [List.dropWhile_cons, plain]
        rfl
  rw [strip, kept]
  exact List.rdropWhile_idempotent _ _

/-- `split()`: the words between white space. -/
def words (text : Text) : List Text := (text.splitOnP isSpace).filter (· ≠ [])

theorem words_append_cons (text more : Text) {character : Char} (space : isSpace character) :
    words (text ++ character :: more) = words text ++ words more := by
  rw [words, List.splitOnP_append_cons text more space, List.filter_append]
  rfl

theorem words_append_of_blank (text : Text) {more : Text}
    (blank : ∀ character ∈ more, isSpace character) : words (text ++ more) = words text := by
  cases more with
  | nil => rw [List.append_nil]
  | cons character more =>
      obtain ⟨space, others⟩ := List.forall_mem_cons.mp blank
      have nothing : words more = [] := by
        induction more with
        | nil => rfl
        | cons other more ih =>
            obtain ⟨otherSpace, rest⟩ := List.forall_mem_cons.mp others
            have split := words_append_cons [] more otherSpace
            rw [List.nil_append] at split
            rw [split, ih (List.forall_mem_cons.mpr ⟨space, rest⟩) rest]
            rfl
      rw [words_append_cons text more space, nothing, List.append_nil]

theorem words_of_blank {text : Text} (blank : ∀ character ∈ text, isSpace character) :
    words text = [] :=
  words_append_of_blank [] blank

/-- Nothing but white space is stripped. -/
theorem words_strip (text : Text) : words (strip text) = words text := by
  have atEnd : words (strip text) = words (text.dropWhile isSpace) := by
    obtain ⟨more, blank, split⟩ := exists_rstrip_append (text.dropWhile isSpace)
    calc words (strip text) = words (strip text ++ more) := (words_append_of_blank _ blank).symm
      _ = words (text.dropWhile isSpace) := congrArg words split
  have atStart : ∀ text : Text, words (text.dropWhile isSpace) = words text := by
    intro text
    induction text with
    | nil => rfl
    | cons character text ih =>
        rw [List.dropWhile_cons]
        split
        · rename_i space
          have split := words_append_cons [] text space
          exact ih.trans split.symm
        · rfl
  rw [atEnd, atStart]

/-- A word has no white space in it, and is not empty. -/
def IsWord (word : Text) : Prop := word ≠ [] ∧ ∀ character ∈ word, isSpace character = false

/-- A word is read as itself, -/
theorem words_of_isWord {word : Text} (isWord : IsWord word) : words word = [word] := by
  rw [words, List.splitOnP_eq_singleton isWord.2]
  simpa using isWord.1

/-- and the words of a text are words. -/
theorem isWord_of_mem_words (text : Text) : ∀ word ∈ words text, IsWord word := by
  have plain : ∀ part ∈ text.splitOnP isSpace, ∀ character ∈ part, isSpace character = false := by
    induction text with
    | nil => simp
    | cons character text ih =>
        rw [List.splitOnP_cons_eq_if_modifyHead]
        split
        · exact List.forall_mem_cons.mpr ⟨nofun, ih⟩
        · rename_i visible
          obtain ⟨first, others, parts⟩ := List.exists_cons_of_ne_nil
            (List.splitOnP_ne_nil isSpace text)
          rw [parts] at ih ⊢
          obtain ⟨ofFirst, ofOthers⟩ := List.forall_mem_cons.mp ih
          exact List.forall_mem_cons.mpr
            ⟨List.forall_mem_cons.mpr ⟨by simpa using visible, ofFirst⟩, ofOthers⟩
  intro word member
  obtain ⟨part, nonempty⟩ := List.mem_filter.mp member
  exact ⟨by simpa using nonempty, plain word part⟩

/-- `" ".join(words)`. -/
def unwords (words : List Text) : Text := List.intercalate [' '] words

/-- **Words joined by blanks are read back.** -/
theorem words_unwords {texts : List Text} (all : ∀ text ∈ texts, IsWord text) :
    words (unwords texts) = texts := by
  induction texts with
  | nil => rfl
  | cons first others ih =>
      obtain ⟨isWord, rest⟩ := List.forall_mem_cons.mp all
      cases others with
      | nil =>
          rw [unwords, List.intercalate_singleton]
          exact words_of_isWord isWord
      | cons second others =>
          have joined : unwords (first :: second :: others) =
              first ++ ' ' :: unwords (second :: others) := by
            rw [unwords, List.intercalate_cons_cons, List.append_assoc]
            rfl
          rw [joined, words_append_cons first _ (by decide), words_of_isWord isWord, ih rest]
          rfl

/-- Joining the words of two texts tells them apart as their words do. -/
theorem unwords_words_inj {first second : Text} :
    unwords (words first) = unwords (words second) ↔ words first = words second := by
  refine ⟨fun same => ?_, congrArg unwords⟩
  calc words first = words (unwords (words first)) :=
        (words_unwords (isWord_of_mem_words first)).symm
    _ = words second := by rw [same, words_unwords (isWord_of_mem_words second)]

/-- A text that starts with anything but white space is not blank. -/
theorem strip_ne_nil {character : Char} {rest : Text} (plain : isSpace character = false) :
    strip (character :: rest) ≠ [] := by
  intro blank
  rw [strip, List.dropWhile_cons_of_neg (by simp [plain]), List.rdropWhile_eq_nil_iff] at blank
  have space := blank character List.mem_cons_self
  rw [plain] at space
  cases space

/-! ## Decimal numbers -/

/-- The code points of the decimal digits zero, one for each script. -/
def zeroDigits : List Nat :=
  [0x30, 0x660, 0x6f0, 0x7c0, 0x966, 0x9e6, 0xa66, 0xae6, 0xb66, 0xbe6, 0xc66, 0xce6, 0xd66, 0xde6,
    0xe50, 0xed0, 0xf20, 0x1040, 0x1090, 0x17e0, 0x1810, 0x1946, 0x19d0, 0x1a80, 0x1a90, 0x1b50,
    0x1bb0, 0x1c40, 0x1c50, 0xa620, 0xa8d0, 0xa900, 0xa9d0, 0xa9f0, 0xaa50, 0xabf0, 0xff10, 0x104a0,
    0x10d30, 0x11066, 0x110f0, 0x11136, 0x111d0, 0x112f0, 0x11450, 0x114d0, 0x11650, 0x116c0,
    0x11730, 0x118e0, 0x11950, 0x11c50, 0x11d50, 0x11da0, 0x11f50, 0x16a60, 0x16ac0, 0x16b50,
    0x1d7ce, 0x1d7d8, 0x1d7e2, 0x1d7ec, 0x1d7f6, 0x1e140, 0x1e2f0, 0x1e4f0, 0x1e950, 0x1fbf0]

/-- The value of a decimal digit of any script. -/
def decimalValue (character : Char) : Option Nat :=
  (zeroDigits.find? fun start => start ≤ character.toNat && character.toNat < start + 10).map
    fun start => character.toNat - start

def isDecimal (character : Char) : Bool := (decimalValue character).isSome

/-- `int` of a text of decimal digits; the integers are unbounded. -/
def int (digits : Text) : Nat :=
  digits.foldl (fun value digit => 10 * value + (decimalValue digit).getD 0) 0

/-- The number in a text of digits, with single underscores between them allowed. -/
def unsignedInt (text : Text) : Option Nat :=
  if (text.splitOn '_').all fun group => group ≠ [] && group.all isDecimal then
    some (int (text.splitOn '_').flatten)
  else none

/-- `int` of any text: white space around the number and a sign are allowed. -/
def parseInt (text : Text) : Option Int :=
  match strip text with
  | '-' :: rest => (unsignedInt rest).map fun number => -(number : Int)
  | '+' :: rest => (unsignedInt rest).map Int.ofNat
  | rest => (unsignedInt rest).map Int.ofNat

/-- `str` of a number. -/
def str (number : Nat) : Text := Nat.toDigits 10 number

theorem decimalValue_of_isDigit {character : Char} (digit : character.isDigit) :
    decimalValue character = some (character.toNat - '0'.toNat) := by
  obtain ⟨low, high⟩ := Bool.and_eq_true_iff.mp digit
  have atLeast : 0x30 ≤ character.toNat := of_decide_eq_true low
  have atMost : character.toNat ≤ 0x39 := of_decide_eq_true high
  have within :
      (decide (0x30 ≤ character.toNat) && decide (character.toNat < 0x30 + 10)) = true := by
    simp only [Bool.and_eq_true, decide_eq_true_eq]
    omega
  have first : (zeroDigits.find? fun start =>
      start ≤ character.toNat && character.toNat < start + 10) = some 0x30 :=
    List.find?_cons_of_pos within
  rw [decimalValue, first]
  rfl

theorem isDigit_of_mem_str {number : Nat} {character : Char} (member : character ∈ str number) :
    character.isDigit :=
  Nat.isDigit_of_mem_toDigits (by omega) (Nat.le_refl 10) member

theorem isDecimal_of_mem_str {number : Nat} {character : Char} (member : character ∈ str number) :
    isDecimal character := by
  rw [isDecimal, decimalValue_of_isDigit (isDigit_of_mem_str member)]
  rfl

theorem str_ne_nil (number : Nat) : str number ≠ [] := Nat.toDigits_ne_nil

/-- **A number is read back.** -/
theorem int_str (number : Nat) : int (str number) = number := by
  have same : ∀ digits : Text, (∀ digit ∈ digits, digit.isDigit) → ∀ start,
      digits.foldl (fun value digit => 10 * value + (decimalValue digit).getD 0) start =
        Nat.ofDigitChars 10 digits start := by
    intro digits
    induction digits with
    | nil => simp
    | cons digit digits ih =>
        intro all start
        obtain ⟨first, others⟩ := List.forall_mem_cons.mp all
        rw [List.foldl_cons, Nat.ofDigitChars_cons, ih others, decimalValue_of_isDigit first]
        rfl
  rw [int, same _ (fun _ => isDigit_of_mem_str), str, Nat.ofDigitChars_ten_toDigits]

end Text

end Foundations
