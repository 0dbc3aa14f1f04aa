import Kenjutsu.Foundations.Sorting
import Mathlib.Algebra.BigOperators.Group.List.Basic
import Mathlib.Algebra.Order.Field.Rat
import Mathlib.Data.Rat.Floor
import Mathlib.Tactic.Linarith
import Mathlib.Tactic.Positivity
import Mathlib.Tactic.Ring

/-!
# Means and medians

The functions of a statistics module over exact numbers. None of them depends on the
order of the values, and a median is at most every value that stands in the upper half
of the sorted values (`median_le`). The value at a rank is the least one that as many
values do not exceed (`isPercentile_iff`).
-/

set_option autoImplicit false

namespace Foundations

/-- `int` of a number: the part before the decimal point. -/
def truncate (number : ℚ) : Int := number.num.tdiv number.den

/-- `sorted`. -/
def sorted (values : List ℚ) : List ℚ := sortBy id values

/-- `statistics.mean`; there is none of no values. -/
def mean (values : List ℚ) : Option ℚ :=
  if values.length = 0 then none else some (values.sum / values.length)

/-- `statistics.median`: the middle value, or the mean of the two in the middle. -/
def median (values : List ℚ) : Option ℚ :=
  let data := sorted values
  let count := data.length
  if count = 0 then none
  else if count % 2 = 1 then data[count / 2]?
  else do
    let lower ← data[count / 2 - 1]?
    let upper ← data[count / 2]?
    return (lower + upper) / 2

theorem truncate_of_nonneg {number : ℚ} (nonneg : 0 ≤ number) : truncate number = ⌊number⌋ := by
  rw [truncate, Rat.floor_def', Int.tdiv_eq_ediv_of_nonneg (Rat.num_nonneg.mpr nonneg)]

/-- A part of a whole, truncated, is a quotient of natural numbers. -/
theorem truncate_mul_div (count part : Nat) {whole : Nat} (positive : 0 < whole) :
    truncate ((count : ℚ) * (part / whole)) = (count * part / whole : Nat) := by
  have nonneg : (0 : ℚ) ≤ (count : ℚ) * (part / whole) := by positivity
  have isQuotient : (count : ℚ) * (part / whole) = ((count * part : Nat) : ℚ) / (whole : Nat) := by
    push_cast
    ring
  rw [truncate_of_nonneg nonneg, isQuotient, Rat.floor_natCast_div_natCast]
  exact Int.natCast_div _ _

variable {values others : List ℚ}

@[simp] theorem length_sorted (values : List ℚ) : (sorted values).length = values.length :=
  (perm_sortBy values).length_eq

theorem sorted_perm (perm : values.Perm others) : sorted values = sorted others :=
  sortBy_congr Function.injective_id perm

theorem mean_perm (perm : values.Perm others) : mean values = mean others := by
  rw [mean, mean, perm.length_eq, perm.sum_eq]

theorem median_perm (perm : values.Perm others) : median values = median others := by
  rw [median, median, sorted_perm perm]

theorem getElem?_sorted_le {first second : Nat} {low high : ℚ} (ordered : first ≤ second)
    (isLow : (sorted values)[first]? = some low) (isHigh : (sorted values)[second]? = some high) :
    low ≤ high := by
  obtain ⟨firstWithin, rfl⟩ := List.getElem?_eq_some_iff.mp isLow
  obtain ⟨secondWithin, rfl⟩ := List.getElem?_eq_some_iff.mp isHigh
  rcases Nat.eq_or_lt_of_le ordered with rfl | before
  · exact le_refl _
  · exact List.pairwise_iff_getElem.mp (pairwise_sortBy values) _ _ firstWithin secondWithin before

/-- There is a median, and it is at most every value in the upper half. -/
theorem median_le (nonempty : values ≠ []) :
    ∃ middle, median values = some middle ∧
      ∀ position value, values.length / 2 ≤ position →
        (sorted values)[position]? = some value → middle ≤ value := by
  have positive : 0 < values.length := List.length_pos_iff.mpr nonempty
  have upperWithin : values.length / 2 < (sorted values).length := by
    rw [length_sorted]
    omega
  obtain ⟨upper, isUpper⟩ : ∃ upper, (sorted values)[values.length / 2]? = some upper :=
    ⟨_, List.getElem?_eq_getElem upperWithin⟩
  unfold median
  simp only [length_sorted, if_neg positive.ne']
  by_cases odd : values.length % 2 = 1
  · refine ⟨upper, by rw [if_pos odd, isUpper], ?_⟩
    intro position value behind isValue
    exact getElem?_sorted_le behind isUpper isValue
  · have lowerWithin : values.length / 2 - 1 < (sorted values).length := by
      rw [length_sorted]
      omega
    obtain ⟨lower, isLower⟩ : ∃ lower, (sorted values)[values.length / 2 - 1]? = some lower :=
      ⟨_, List.getElem?_eq_getElem lowerWithin⟩
    refine ⟨(lower + upper) / 2, ?_, ?_⟩
    · rw [if_neg odd, isLower, isUpper]
      rfl
    · intro position value behind isValue
      have below := getElem?_sorted_le (Nat.sub_le _ 1) isLower isUpper
      have above := getElem?_sorted_le behind isUpper isValue
      linarith

/-! ## Percentiles -/

/-- The least of the values that at least a share of them does not exceed. -/
structure IsPercentile (share : ℚ) (values : List ℚ) (value : ℚ) : Prop where
  mem : value ∈ values
  enough : share * values.length ≤ values.countP (· ≤ value)
  least : ∀ other ∈ values, share * values.length ≤ values.countP (· ≤ other) → value ≤ other

/-- The values up to a position of the sorted ones do not exceed a bound exactly when as
many values do not. -/
theorem lt_countP_iff {position : Nat} {value bound : ℚ}
    (isValue : (sorted values)[position]? = some value) :
    position < values.countP (· ≤ bound) ↔ value ≤ bound := by
  have perm : (sorted values).Perm values := perm_sortBy values
  have increasing : (sorted values).Pairwise (· ≤ ·) := pairwise_sortBy values
  obtain ⟨within, rfl⟩ := List.getElem?_eq_some_iff.mp isValue
  rw [← perm.countP_eq]
  constructor
  · intro enough
    by_contra exceeds
    have none : ((sorted values).drop position).countP (· ≤ bound) = 0 := by
      refine List.countP_eq_zero.mpr fun other member notAbove => exceeds ?_
      obtain ⟨offset, isOther⟩ := List.mem_iff_getElem?.mp member
      rw [List.getElem?_drop] at isOther
      exact (getElem?_sorted_le (Nat.le_add_right _ _) isValue isOther).trans
        (of_decide_eq_true notAbove)
    have few : ((sorted values).take position).countP (· ≤ bound) ≤ position :=
      List.countP_le_length.trans (List.length_take_le _ _)
    rw [← List.take_append_drop position (sorted values), List.countP_append, none] at enough
    omega
  · intro below
    have all : ((sorted values).take (position + 1)).countP (· ≤ bound) = position + 1 := by
      rw [List.countP_eq_length.mpr, List.length_take, Nat.min_eq_left within]
      intro other member
      obtain ⟨earlier, isEarlier, rfl⟩ := List.mem_take_iff_getElem.mp member
      have before : earlier ≤ position := by omega
      exact decide_eq_true ((getElem?_sorted_le before
        (List.getElem?_eq_getElem _) isValue).trans below)
    have atLeast : _ ≤ (sorted values).countP (· ≤ bound) :=
      (List.take_sublist (position + 1) (sorted values)).countP_le
    omega

/-- **The percentile stands at its rank.** -/
theorem isPercentile_iff {share value : ℚ} {position : Nat}
    (rank : ∀ count : Nat, share * values.length ≤ count ↔ position < count) :
    IsPercentile share values value ↔ (sorted values)[position]? = some value := by
  have perm : (sorted values).Perm values := perm_sortBy values
  have inSorted : ∀ {position value}, (sorted values)[position]? = some value → value ∈ values :=
    fun isValue => perm.mem_iff.mp (List.mem_of_getElem? isValue)
  constructor
  · rintro ⟨member, enough, least⟩
    rw [rank] at enough
    have within : position < (sorted values).length := by
      rw [length_sorted]
      exact enough.trans_le List.countP_le_length
    have isRanked := List.getElem?_eq_getElem within
    have above := (lt_countP_iff isRanked).mp enough
    have atMost := least _ (inSorted isRanked) ((rank _).mpr ((lt_countP_iff isRanked).mpr le_rfl))
    rw [isRanked, le_antisymm above atMost]
  · intro isValue
    refine ⟨inSorted isValue, (rank _).mpr ((lt_countP_iff isValue).mpr le_rfl), ?_⟩
    intro other _ enough
    exact (lt_countP_iff isValue).mp ((rank _).mp enough)

end Foundations
