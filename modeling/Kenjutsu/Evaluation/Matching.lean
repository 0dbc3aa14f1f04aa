import Kenjutsu.Evaluation.Runner
import Kenjutsu.Foundations.Matchings

/-!
# What the matching of findings achieves

`match_findings` is the greedy matching of what was produced with what was expected
(`matchFindings_eq_greedy`). Equal findings and equal annotations are told apart by their
positions, so what it returns is described by a set of pairs of positions.

The matching is maximal but need not be a largest one: a finding that fits two
annotations takes the first, even if that is the only one another finding fits. Then the
order of the findings decides how many are matched (`orderIndependent_iff`).
-/

set_option autoImplicit false

namespace Kenjutsu.Evaluation

open Foundations Kenjutsu.Models

/-! ## The rule -/

/-- A finding matches an annotation of the same file and category whose lines, with five
more on each side, overlap its own. -/
structure Fits (finding : Finding) (ann : AnnotatedFinding) : Prop where
  filePath : finding.filePath = ann.filePath
  category : finding.category = ann.category
  starts : finding.lineStart ≤ ann.lineRange.2 + 5
  ends : ann.lineRange.1 - 5 ≤ finding.lineEnd

theorem isMatch_iff (finding : Finding) (ann : AnnotatedFinding) :
    isMatch finding ann ↔ Fits finding ann := by
  constructor
  · intro isMatch
    simp only [Evaluation.isMatch, lineRangesOverlap, Bool.and_eq_true, decide_eq_true_eq]
      at isMatch
    obtain ⟨⟨filePath, category⟩, starts, ends⟩ := isMatch
    exact ⟨filePath, category, starts, ends⟩
  · rintro ⟨filePath, category, starts, ends⟩
    simp [Evaluation.isMatch, lineRangesOverlap, filePath, category, starts, ends]

variable (produced : List Finding) (expected : List AnnotatedFinding)

/-- The rule for positions. -/
def FitsAt (finding : Fin produced.length) (ann : Fin expected.length) : Prop :=
  Fits (produced.get finding) (expected.get ann)

/-! ## The greedy matching -/

theorem popMatch_eq_takeFirst (finding : Finding) :
    popMatch finding expected = (takeFirst (isMatch finding) expected).map Prod.snd := by
  induction expected with
  | nil => rfl
  | cons ann expected ih =>
      rw [popMatch, takeFirst]
      split
      · rfl
      · rw [ih, Option.map_map, Option.map_map]
        rfl

/-- **The two loops match greedily.** -/
theorem matchFindings_eq_greedy :
    matchFindings produced expected =
      ⟨(greedy isMatch produced expected).pairs.map Prod.fst,
        (greedy isMatch produced expected).unpaired,
        (greedy isMatch produced expected).left⟩ := by
  induction produced generalizing expected with
  | nil => rfl
  | cons finding produced ih =>
      rw [matchFindings, popMatch_eq_takeFirst, greedy]
      cases takeFirst (isMatch finding) expected with
      | none => simp only [Option.map_none, ih]
      | some taken => simp only [Option.map_some, ih, List.map_cons]

/-- Every finding that was produced is a true or a false positive. -/
theorem length_produced :
    (matchFindings produced expected).truePositives.length +
      (matchFindings produced expected).falsePositives.length = produced.length := by
  rw [matchFindings_eq_greedy, ← List.length_append]
  exact (perm_firsts isMatch produced expected).length_eq

/-- Every finding that was expected is matched by a true positive or missed. -/
theorem length_expected :
    (matchFindings produced expected).truePositives.length +
      (matchFindings produced expected).missed.length = expected.length := by
  have split := (perm_seconds isMatch produced expected).length_eq
  rw [List.length_append, List.length_map] at split
  rw [matchFindings_eq_greedy, List.length_map]
  exact split

/-- The greedy matching of positions, in some orders. -/
def matchPositions (findings : List (Fin produced.length)) (anns : List (Fin expected.length)) :
    Greedy (Fin produced.length) (Fin expected.length) :=
  greedy (fun finding ann => isMatch (produced.get finding) (expected.get ann)) findings anns

/-- What is matched in some orders is what stands at the matched positions. -/
theorem matchFindings_map (findings : List (Fin produced.length))
    (anns : List (Fin expected.length)) :
    matchFindings (findings.map produced.get) (anns.map expected.get) =
      let matched := matchPositions produced expected findings anns
      ⟨(matched.pairs.map Prod.fst).map produced.get, matched.unpaired.map produced.get,
        matched.left.map expected.get⟩ := by
  rw [matchFindings_eq_greedy, greedy_map]
  simp only [List.map_map, matchPositions]
  rfl

/-- The positions in their own order. -/
abbrev matchedPositions : Greedy (Fin produced.length) (Fin expected.length) :=
  matchPositions produced expected (List.finRange _) (List.finRange _)

theorem matchFindings_eq :
    matchFindings produced expected =
      ⟨((matchedPositions produced expected).pairs.map Prod.fst).map produced.get,
        (matchedPositions produced expected).unpaired.map produced.get,
        (matchedPositions produced expected).left.map expected.get⟩ := by
  have own := matchFindings_map produced expected (List.finRange _) (List.finRange _)
  rwa [List.map_get_finRange, List.map_get_finRange] at own

variable {produced expected}

/-- In any orders, the matching is maximal. -/
theorem isMaximal_matchPositions {findings : List (Fin produced.length)}
    {anns : List (Fin expected.length)} (findingsPerm : findings.Perm (List.finRange _))
    (annsPerm : anns.Perm (List.finRange _)) :
    IsMaximal (FitsAt produced expected)
      (matchPositions produced expected findings anns).pairs.toFinset := by
  have rule : (FitsAt produced expected) = fun finding ann =>
      isMatch (produced.get finding) (expected.get ann) = true := by
    ext finding ann
    exact (isMatch_iff _ _).symm
  rw [rule]
  exact isMaximal_greedy (findingsPerm.nodup_iff.mpr (List.nodup_finRange _))
    (annsPerm.nodup_iff.mpr (List.nodup_finRange _))
    (fun finding => findingsPerm.mem_iff.mpr (List.mem_finRange finding))
    (fun ann => annsPerm.mem_iff.mpr (List.mem_finRange ann))

/-! ## Every finding is accounted for -/

/-- A set of pairs of positions that describes what was matched: the findings at its
positions are the true positives, the others false positives, and the annotations at
other positions missed, all in the order they had. -/
structure AccountsFor (matched : Matched)
    (pairs : Finset (Fin produced.length × Fin expected.length)) :
    Prop where
  isMatching : IsMatching (FitsAt produced expected) pairs
  truePositives : matched.truePositives = entriesAt produced (pairs.image Prod.fst)
  falsePositives : matched.falsePositives = entriesAt produced (pairs.image Prod.fst)ᶜ
  missed : matched.missed = entriesAt expected (pairs.image Prod.snd)ᶜ

variable (produced expected)

/-- **Every finding and every annotation is accounted for** by one set of pairs. -/
theorem matchFindings_accounts :
    (∃ pairs, @AccountsFor produced expected (matchFindings produced expected) pairs) ∧
      (matchFindings produced expected).truePositives.length +
        (matchFindings produced expected).falsePositives.length = produced.length ∧
      (matchFindings produced expected).truePositives.length +
        (matchFindings produced expected).missed.length = expected.length := by
  refine ⟨⟨(matchedPositions produced expected).pairs.toFinset, ?_⟩,
    length_produced produced expected, length_expected produced expected⟩
  have findingsOnce := List.nodup_finRange produced.length
  have annsOnce := List.nodup_finRange expected.length
  refine ⟨(isMaximal_matchPositions (.refl _) (.refl _)).toIsMatching, ?_, ?_, ?_⟩
  · rw [matchFindings_eq]
    exact congrArg (List.map produced.get) (filter_paired findingsOnce).symm
  · rw [matchFindings_eq, entriesAt]
    simp only [Finset.mem_compl]
    exact congrArg (List.map produced.get) (filter_unpaired findingsOnce).symm
  · rw [matchFindings_eq, entriesAt]
    simp only [Finset.mem_compl]
    exact congrArg (List.map expected.get) (filter_left annsOnce).symm

/-! ## The matching is maximal -/

/-- The number of true positives, in any orders, is the size of a maximal matching. -/
theorem exists_isMaximal {findings : List (Fin produced.length)}
    {anns : List (Fin expected.length)} (findingsPerm : findings.Perm (List.finRange _))
    (annsPerm : anns.Perm (List.finRange _)) :
    ∃ pairs, IsMaximal (FitsAt produced expected) pairs ∧
      (matchFindings (findings.map produced.get) (anns.map expected.get)).truePositives.length =
        pairs.card := by
  refine ⟨_, isMaximal_matchPositions findingsPerm annsPerm, ?_⟩
  rw [matchFindings_map, List.length_map, List.length_map]
  exact (card_greedy (findingsPerm.nodup_iff.mpr (List.nodup_finRange _))).symm

/-- **The matching is maximal, and at least half as large as any other.** -/
theorem matchFindings_maximal :
    (∀ finding ∈ (matchFindings produced expected).falsePositives,
      ∀ ann ∈ (matchFindings produced expected).missed, ¬Fits finding ann) ∧
    ∀ pairs, IsMatching (FitsAt produced expected) pairs →
      pairs.card ≤ 2 * (matchFindings produced expected).truePositives.length := by
  constructor
  · rw [matchFindings_eq_greedy]
    intro finding isFalse ann isMissed fits
    exact not_rule_of_mem_unpaired isMatch produced expected finding isFalse ann isMissed
      ((isMatch_iff finding ann).mpr fits)
  · intro pairs matching
    obtain ⟨greedyPairs, maximal, size⟩ :=
      exists_isMaximal produced expected (.refl _) (.refl _)
    rw [List.map_get_finRange, List.map_get_finRange] at size
    rw [size]
    exact maximal.card_le matching

/-! ## The order of the lists -/

/-- The numbers of true positives, false positives and missed findings. -/
def Matched.counts (matched : Matched) : Nat × Nat × Nat :=
  (matched.truePositives.length, matched.falsePositives.length, matched.missed.length)

/-- The counts are the same in every order of the two lists. -/
def OrderIndependent : Prop :=
  ∀ findings anns, findings.Perm produced → anns.Perm expected →
    (matchFindings findings anns).counts = (matchFindings produced expected).counts

variable {produced expected}

/-- In another order, the number of true positives is the size of a maximal matching. -/
theorem exists_isMaximal_of_perm {findings : List Finding} {anns : List AnnotatedFinding}
    (findingsPerm : findings.Perm produced) (annsPerm : anns.Perm expected) :
    ∃ pairs, IsMaximal (FitsAt produced expected) pairs ∧
      (matchFindings findings anns).truePositives.length = pairs.card := by
  obtain ⟨findingPositions, rfl, allFindings⟩ := exists_positions findingsPerm
  obtain ⟨annPositions, rfl, allAnns⟩ := exists_positions annsPerm
  exact exists_isMaximal produced expected allFindings allAnns

/-- The number of true positives decides the other counts. -/
theorem counts_of_perm {findings : List Finding} {anns : List AnnotatedFinding}
    (findingsPerm : findings.Perm produced) (annsPerm : anns.Perm expected)
    (same : (matchFindings findings anns).truePositives.length =
      (matchFindings produced expected).truePositives.length) :
    (matchFindings findings anns).counts = (matchFindings produced expected).counts := by
  have allProduced := length_produced findings anns
  have allExpected := length_expected findings anns
  rw [findingsPerm.length_eq, ← length_produced produced expected, same] at allProduced
  rw [annsPerm.length_eq, ← length_expected produced expected, same] at allExpected
  simp only [Matched.counts, same, Nat.add_left_cancel allProduced,
    Nat.add_left_cancel allExpected]

/-- Every maximal matching is found in some orders. -/
theorem OrderIndependent.card_eq (independent : OrderIndependent produced expected)
    {pairs : Finset (Fin produced.length × Fin expected.length)}
    (maximal : IsMaximal (FitsAt produced expected) pairs) :
    pairs.card = (matchFindings produced expected).truePositives.length := by
  have rule : FitsAt produced expected = fun finding ann =>
      isMatch (produced.get finding) (expected.get ann) = true := by
    ext finding ann
    exact (isMatch_iff _ _).symm
  rw [rule] at maximal
  obtain ⟨findings, anns, findingsPerm, annsPerm, size⟩ := exists_greedy_eq
    (List.nodup_finRange _) (List.nodup_finRange _) List.mem_finRange List.mem_finRange maximal
  have findingsReordered := findingsPerm.map produced.get
  have annsReordered := annsPerm.map expected.get
  rw [List.map_get_finRange] at findingsReordered annsReordered
  have same := congrArg Prod.fst (independent _ _ findingsReordered annsReordered)
  simp only [Matched.counts, matchFindings_map, List.length_map] at same
  rw [← size, ← same]
  rfl

variable (produced expected)

/-- The order does not matter exactly when all maximal matchings have one size. -/
theorem orderIndependent_iff :
    OrderIndependent produced expected ↔
      ∀ pairs others, IsMaximal (FitsAt produced expected) pairs →
        IsMaximal (FitsAt produced expected) others → pairs.card = others.card := by
  constructor
  · intro independent pairs others maximal otherMaximal
    rw [independent.card_eq maximal, independent.card_eq otherMaximal]
  · intro oneSize findings anns findingsPerm annsPerm
    obtain ⟨own, ownMaximal, ownSize⟩ :=
      @exists_isMaximal_of_perm produced expected _ _ (.refl _) (.refl _)
    obtain ⟨pairs, maximal, size⟩ := exists_isMaximal_of_perm findingsPerm annsPerm
    exact counts_of_perm findingsPerm annsPerm
      (size.trans ((oneSize pairs own maximal ownMaximal).trans ownSize.symm))

/-- The order does not matter if no finding fits two annotations. -/
theorem orderIndependent_of_unique
    (unique : ∀ finding ann other, FitsAt produced expected finding ann →
      FitsAt produced expected finding other → ann = other) :
    OrderIndependent produced expected :=
  (orderIndependent_iff produced expected).mpr fun _ _ maximal otherMaximal =>
    maximal.card_eq_of_unique unique otherMaximal

/-- **What the order of the lists can change.** The counts are the same in every order
exactly when all maximal matchings have one size; in every order the totals are the same,
and the number of true positives is at most twice that in any other. -/
theorem matchFindings_reordered :
    (OrderIndependent produced expected ↔
      ∀ pairs others, IsMaximal (FitsAt produced expected) pairs →
        IsMaximal (FitsAt produced expected) others → pairs.card = others.card) ∧
    ∀ findings anns, findings.Perm produced → anns.Perm expected →
      (matchFindings findings anns).truePositives.length +
          (matchFindings findings anns).falsePositives.length =
        (matchFindings produced expected).truePositives.length +
          (matchFindings produced expected).falsePositives.length ∧
      (matchFindings findings anns).truePositives.length +
          (matchFindings findings anns).missed.length =
        (matchFindings produced expected).truePositives.length +
          (matchFindings produced expected).missed.length ∧
      (matchFindings findings anns).truePositives.length ≤
        2 * (matchFindings produced expected).truePositives.length := by
  refine ⟨orderIndependent_iff produced expected,
    fun findings anns findingsPerm annsPerm => ⟨?_, ?_, ?_⟩⟩
  · rw [length_produced, length_produced, findingsPerm.length_eq]
  · rw [length_expected, length_expected, annsPerm.length_eq]
  · obtain ⟨own, ownMaximal, ownSize⟩ :=
      @exists_isMaximal_of_perm produced expected _ _ (.refl _) (.refl _)
    obtain ⟨pairs, maximal, size⟩ := exists_isMaximal_of_perm findingsPerm annsPerm
    rw [size, ownSize]
    exact ownMaximal.card_le maximal.toIsMatching

/-- A bug somewhere in a file. -/
def bugAt (lineStart lineEnd : Int) : Finding where
  filePath := "src/auth.py"
  lineStart := lineStart
  lineEnd := lineEnd
  origin := .llm
  confidence := .high
  severity := .warning
  category := .bug
  description := "Missing input validation"

/-- The first finding takes the annotation that the second one needs. -/
theorem not_orderIndependent_starved :
    ¬OrderIndependent [bugAt 8 16, bugAt 5 5]
      [⟨"src/auth.py", (5, 5), .bug⟩, ⟨"src/auth.py", (20, 20), .bug⟩] := by
  intro independent
  have reversed := independent [bugAt 5 5, bugAt 8 16] _ (.swap _ _ _) (.refl _)
  revert reversed
  decide

end Kenjutsu.Evaluation
