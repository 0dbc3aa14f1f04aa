import Kenjutsu.Foundations.Text

/-!
# Parts of regular expressions

A pattern that never has to take back what a part of it has matched is a sequence
of functions, each taking its part from the front of a text and leaving the rest.
The one part here that has to be taken back is a pair of greedy groups with a word
between them.
-/

set_option autoImplicit false

namespace Foundations.Text

/-- The word itself. -/
def literal (word : String) (text : Text) : Option Text :=
  if startsWith text word then some (text.drop word.toList.length) else none

/-- `(\d+)`. -/
def digits (text : Text) : Option (Text × Text) :=
  if text.takeWhile isDecimal = [] then none
  else some (text.takeWhile isDecimal, text.dropWhile isDecimal)

/-- `(.*)$`: everything up to the end, or up to a newline at the end. -/
def restOfLine (text : Text) : Option Text :=
  if text.dropWhile (· ≠ '\n') ∈ [[], ['\n']] then some (text.takeWhile (· ≠ '\n')) else none

/-- `(.+)` and `(.+)` with a word between them, in a text without newlines: the first
group is as long as possible. -/
def greedyGroups (word : String) : Text → Option (Text × Text)
  | [] => none
  | character :: rest =>
      match greedyGroups word rest with
      | some (first, second) => some (character :: first, second)
      | none =>
          match literal word rest with
          | some (next :: second) => some ([character], next :: second)
          | _ => none

theorem startsWith_append (word : String) (rest : Text) :
    startsWith (word.toList ++ rest) word = true := by
  simp [startsWith]

@[simp] theorem literal_append (word : String) (rest : Text) :
    literal word (word.toList ++ rest) = some rest := by
  simp [literal, startsWith_append]

/-- Digits are taken up to something else. -/
theorem digits_append {group rest : Text} (nonempty : group ≠ [])
    (decimal : ∀ digit ∈ group, isDecimal digit)
    (stops : ∀ character, rest.head? = some character → isDecimal character = false) :
    digits (group ++ rest) = some (group, rest) := by
  unfold digits
  rw [takeWhile_append_stop decimal stops, dropWhile_append_stop decimal stops, if_neg nonempty]

theorem restOfLine_of_not_mem {text : Text} (oneLine : '\n' ∉ text) :
    restOfLine text = some text := by
  have all : ∀ character ∈ text, decide (character ≠ '\n') = true := by
    intro character member
    apply decide_eq_true
    rintro rfl
    exact oneLine member
  unfold restOfLine
  rw [List.takeWhile_eq_self_iff.mpr all, List.dropWhile_eq_nil_iff.mpr all]
  simp

/-- The word is matched where it stands. -/
theorem literal_eq_some_iff {word : String} {text rest : Text} :
    literal word text = some rest ↔ text = word.toList ++ rest := by
  constructor
  · intro found
    unfold literal at found
    split at found
    · rename_i starts
      obtain ⟨more, rfl⟩ := List.isPrefixOf_iff_prefix.mp starts
      rw [List.drop_left] at found
      rw [Option.some.inj found]
    · cases found
  · rintro rfl
    exact literal_append word rest

/-! ## Groups around a word -/

variable {word : String} {text first second longest rest : Text}

/-- The groups are parts of the text, with the word between them. -/
theorem eq_of_greedyGroups (found : greedyGroups word text = some (first, second)) :
    text = first ++ (word.toList ++ second) ∧ first ≠ [] ∧ second ≠ [] := by
  induction text generalizing first with
  | nil => cases found
  | cons character text ih =>
      rw [greedyGroups] at found
      split at found
      · rename_i later others foundLater
        obtain ⟨rfl, rfl⟩ := Prod.mk.inj (Option.some.inj found)
        obtain ⟨rfl, -, nonempty⟩ := ih foundLater
        exact ⟨rfl, by simp, nonempty⟩
      · split at found
        · rename_i next others matched
          obtain ⟨rfl, rfl⟩ := Prod.mk.inj (Option.some.inj found)
          rw [literal_eq_some_iff.mp matched]
          exact ⟨rfl, by simp, by simp⟩
        · cases found

/-- **The first group is the longest.** Wherever the word stands between two texts that
are not empty, groups are found, the first at least that long. -/
theorem greedyGroups_longest (firstNonempty : first ≠ []) (secondNonempty : second ≠ []) :
    ∃ longest rest, greedyGroups word (first ++ (word.toList ++ second)) = some (longest, rest) ∧
      first.length ≤ longest.length := by
  induction first with
  | nil => exact absurd rfl firstNonempty
  | cons character first ih =>
      rw [List.cons_append, greedyGroups]
      cases found : greedyGroups word (first ++ (word.toList ++ second)) with
      | some groups =>
          refine ⟨character :: groups.1, groups.2, rfl, ?_⟩
          by_cases last : first = []
          · simp [last]
          · obtain ⟨longest, rest, foundLater, longer⟩ := ih last
            rw [foundLater] at found
            obtain rfl := Option.some.inj found
            simpa using longer
      | none =>
          have last : first = [] := by
            by_contra more
            obtain ⟨longest, rest, foundLater, -⟩ := ih more
            rw [foundLater] at found
            cases found
          obtain ⟨next, others, rfl⟩ := List.exists_cons_of_ne_nil secondNonempty
          simp only [last, List.nil_append, literal_append]
          exact ⟨[character], next :: others, rfl, le_refl 1⟩

theorem not_infix_of_not_mem {start : Char} {others : List Char}
    (spelled : word.toList = start :: others) (absent : start ∉ text) :
    ¬word.toList <:+: text := fun inside =>
  absent (inside.subset (by simp [spelled]))

/-- A word whose first character does not come again in it does not overlap itself: two
occurrences are the same, or one stands behind the other. -/
theorem infix_of_append_eq {start : Char} {others : List Char}
    (spelled : word.toList = start :: others) (once : start ∉ others) {between : Text}
    (nonempty : between ≠ []) (same : word.toList ++ second = between ++ (word.toList ++ rest)) :
    word.toList <:+: second := by
  rcases List.append_eq_append_iff.mp same with ⟨later, rfl, isSecond⟩ | ⟨overlap, isWord, isLater⟩
  · exact ⟨later, rest, by rw [isSecond, List.append_assoc]⟩
  · cases overlap with
    | nil =>
        rw [List.nil_append] at isLater
        exact ⟨[], rest, isLater⟩
    | cons character overlap =>
        obtain ⟨first, between, rfl⟩ := List.exists_cons_of_ne_nil nonempty
        rw [spelled, List.cons_append] at isWord isLater
        obtain rfl := (List.cons.inj isLater).1
        have again : start ∈ others := by
          rw [(List.cons.inj isWord).2]
          exact List.mem_append_right _ List.mem_cons_self
        exact absurd again once

/-- **Groups around the last occurrence of the word** are read back, and around no
other: if the word stands in the second text again, the first group reaches there. -/
theorem greedyGroups_append_iff {start : Char} {others : List Char}
    (spelled : word.toList = start :: others) (once : start ∉ others)
    (firstNonempty : first ≠ []) (secondNonempty : second ≠ [])
    (notLast : ¬word.toList <:+ second) :
    greedyGroups word (first ++ (word.toList ++ second)) = some (first, second) ↔
      ¬word.toList <:+: second := by
  constructor
  · rintro found ⟨before, after, rfl⟩
    have afterNonempty : after ≠ [] := by
      rintro rfl
      exact notLast ⟨before, by simp⟩
    have longerNonempty : first ++ (word.toList ++ before) ≠ [] := by simp [firstNonempty]
    obtain ⟨longest, rest, foundLonger, longer⟩ :=
      @greedyGroups_longest word _ _ longerNonempty afterNonempty
    simp only [List.append_assoc] at found foundLonger
    rw [found] at foundLonger
    obtain ⟨rfl, -⟩ := Prod.mk.inj (Option.some.inj foundLonger)
    simp [spelled] at longer
  · intro absent
    obtain ⟨longest, rest, found, longer⟩ :=
      @greedyGroups_longest word _ _ firstNonempty secondNonempty
    obtain ⟨same, -, -⟩ := eq_of_greedyGroups found
    rcases List.append_eq_append_iff.mp same with ⟨between, rfl, isRest⟩ | ⟨between, isFirst, isRest⟩
    · by_cases none : between = []
      · rw [none, List.nil_append] at isRest
        rw [found, none, List.append_nil, List.append_cancel_left isRest]
      · exact absurd (infix_of_append_eq spelled once none isRest) absent
    · have none : between = [] := by
        have lengths := congrArg List.length isFirst
        rw [List.length_append] at lengths
        exact List.length_eq_zero_iff.mp (by omega)
      rw [none, List.nil_append] at isRest
      rw [none, List.append_nil] at isFirst
      rw [found, isFirst, List.append_cancel_left isRest.symm]

/-- Where the second text may end with the word: groups are read back exactly if the word
does not stand before another character there. -/
theorem greedyGroups_eq_iff {start : Char} {others : List Char}
    (spelled : word.toList = start :: others) (once : start ∉ others)
    (firstNonempty : first ≠ []) (secondNonempty : second ≠ []) :
    greedyGroups word (first ++ (word.toList ++ second)) = some (first, second) ↔
      ¬word.toList <:+: second.dropLast := by
  obtain ⟨init, last, rfl⟩ : ∃ init last, second = init ++ [last] :=
    ⟨_, _, (List.dropLast_append_getLast secondNonempty).symm⟩
  rw [List.dropLast_concat]
  constructor
  · rintro found ⟨before, after, rfl⟩
    have longerNonempty : first ++ (word.toList ++ before) ≠ [] := by simp [firstNonempty]
    obtain ⟨longest, rest, foundLonger, longer⟩ :=
      @greedyGroups_longest word _ _ longerNonempty (List.concat_ne_nil last after)
    simp only [List.append_assoc] at found foundLonger
    rw [found] at foundLonger
    obtain ⟨rfl, -⟩ := Prod.mk.inj (Option.some.inj foundLonger)
    simp [spelled] at longer
  · intro absent
    obtain ⟨longest, rest, found, longer⟩ :=
      @greedyGroups_longest word _ _ firstNonempty secondNonempty
    obtain ⟨same, -, restNonempty⟩ := eq_of_greedyGroups found
    obtain ⟨restInit, restLast, rfl⟩ : ∃ init last, rest = init ++ [last] :=
      ⟨_, _, (List.dropLast_append_getLast restNonempty).symm⟩
    rcases List.append_eq_append_iff.mp same with ⟨between, rfl, isRest⟩ |
        ⟨between, isFirst, isRest⟩
    · by_cases none : between = []
      · rw [none, List.nil_append] at isRest
        rw [found, none, List.append_nil, List.append_cancel_left isRest]
      · have inits : word.toList ++ init = between ++ (word.toList ++ restInit) := by
          simp only [← List.append_assoc] at isRest ⊢
          exact (List.append_inj' isRest rfl).1
        exact absurd (infix_of_append_eq spelled once none inits) absent
    · have none : between = [] := by
        have lengths := congrArg List.length isFirst
        rw [List.length_append] at lengths
        exact List.length_eq_zero_iff.mp (by omega)
      rw [none, List.nil_append] at isRest
      rw [none, List.append_nil] at isFirst
      rw [found, isFirst, List.append_cancel_left isRest.symm]

/-! ## What is matched is part of the text -/

theorem literal_suffix (found : literal word text = some rest) : rest <:+ text :=
  ⟨word.toList, (literal_eq_some_iff.mp found).symm⟩

theorem digits_suffix {group : Text} (found : digits text = some (group, rest)) :
    rest <:+ text := by
  unfold digits at found
  split at found
  · cases found
  · obtain ⟨-, rfl⟩ := Prod.mk.inj (Option.some.inj found)
    exact List.dropWhile_suffix _

theorem isPrefix_of_restOfLine {group : Text} (found : restOfLine text = some group) :
    group <+: text := by
  unfold restOfLine at found
  split at found
  · obtain rfl := Option.some.inj found
    exact List.takeWhile_prefix _
  · cases found

end Foundations.Text
