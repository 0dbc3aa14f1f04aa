import Mathlib.Data.List.Sort

/-!
# Sorting by a key

Sorting is stable: it lines up the elements of each key, in the order they had, by
increasing keys (`sortBy_eq_flatMap`).
-/

set_option autoImplicit false

namespace Foundations

variable {α β : Type} [LinearOrder β] {key : α → β}

/-- `sorted` with a key. -/
def sortBy (key : α → β) (elements : List α) : List α :=
  elements.insertionSort fun first second => key first ≤ key second

theorem perm_sortBy (elements : List α) : (sortBy key elements).Perm elements :=
  List.perm_insertionSort _ _

/-- An element goes behind the elements with smaller keys. -/
theorem orderedInsert_append {element : α} {smaller : List α}
    (all : ∀ other ∈ smaller, key other < key element) (rest : List α) :
    (smaller ++ rest).orderedInsert (fun first second => key first ≤ key second) element =
      smaller ++ rest.orderedInsert (fun first second => key first ≤ key second) element := by
  induction smaller with
  | nil => rfl
  | cons other smaller ih =>
      obtain ⟨first, others⟩ := List.forall_mem_cons.mp all
      have skipped := List.orderedInsert_of_not_le
        (fun first second : α => key first ≤ key second) (smaller ++ rest) (not_le.mpr first)
      rw [List.cons_append, skipped, ih others]
      rfl

/-- An element goes in front of elements none of which has a smaller key. -/
theorem orderedInsert_of_forall {element : α} {elements : List α}
    (all : ∀ other ∈ elements, key element ≤ key other) :
    elements.orderedInsert (fun first second => key first ≤ key second) element =
      element :: elements := by
  cases elements with
  | nil => rfl
  | cons other elements => exact List.orderedInsert_cons_of_le _ _ (all other List.mem_cons_self)

/-- An element is inserted in front of the elements of its key. -/
theorem orderedInsert_flatMap {keys : List β} (increasing : keys.Pairwise (· < ·)) {element : α}
    (among : key element ∈ keys) (elements : List α) :
    (keys.flatMap fun value => elements.filter fun other => key other = value).orderedInsert
        (fun first second => key first ≤ key second) element =
      keys.flatMap fun value => (element :: elements).filter fun other => key other = value := by
  induction increasing with
  | nil => cases among
  | @cons value keys larger _ ih =>
      rw [List.flatMap_cons, List.flatMap_cons]
      by_cases own : key element = value
      · have notLater : ∀ other ∈ keys, key element ≠ other := by
          rintro other member rfl
          exact (larger _ member).ne own.symm
        have later : (keys.flatMap fun value =>
            (element :: elements).filter fun other => key other = value) =
              keys.flatMap fun value => elements.filter fun other => key other = value := by
          refine List.flatMap_congr fun other member => ?_
          exact List.filter_cons_of_neg (by simpa using notLater other member)
        rw [later, List.filter_cons_of_pos (by simpa using own), List.cons_append]
        apply orderedInsert_of_forall
        intro other member
        rcases List.mem_append.mp member with same | isLater
        · have sameKey := of_decide_eq_true (List.mem_filter.mp same).2
          exact (own.trans sameKey.symm).le
        · obtain ⟨otherValue, isValue, found⟩ := List.mem_flatMap.mp isLater
          have otherKey := of_decide_eq_true (List.mem_filter.mp found).2
          rw [own, otherKey]
          exact (larger _ isValue).le
      · have isLater : key element ∈ keys := by
          rcases List.mem_cons.mp among with same | isLater
          · exact absurd same own
          · exact isLater
        have behind : ∀ other ∈ elements.filter fun other => key other = value,
            key other < key element := by
          intro other member
          have otherKey := of_decide_eq_true (List.mem_filter.mp member).2
          rw [otherKey]
          exact larger _ isLater
        rw [orderedInsert_append behind, ih isLater, List.filter_cons_of_neg (by simpa using own)]

/-- **Sorting is stable.** -/
theorem sortBy_eq_flatMap {keys : List β} (increasing : keys.Pairwise (· < ·))
    {elements : List α} (among : ∀ element ∈ elements, key element ∈ keys) :
    sortBy key elements =
      keys.flatMap fun value => elements.filter fun element => key element = value := by
  induction elements with
  | nil => simp [sortBy]
  | cons element elements ih =>
      obtain ⟨first, others⟩ := List.forall_mem_cons.mp among
      rw [← orderedInsert_flatMap increasing first, ← ih others]
      rfl

theorem pairwise_sortBy (elements : List α) :
    (sortBy key elements).Pairwise fun first second => key first ≤ key second := by
  have : Std.Total fun first second : α => key first ≤ key second :=
    ⟨fun first second => le_total _ _⟩
  have : IsTrans α fun first second => key first ≤ key second :=
    ⟨fun _ _ _ => le_trans⟩
  exact List.pairwise_insertionSort _ _

/-- Sorting does not depend on the order if elements of one key are equal. -/
theorem sortBy_congr {first second : List α} (injective : Function.Injective key)
    (perm : first.Perm second) : sortBy key first = sortBy key second := by
  refine List.Perm.eq_of_pairwise ?_ (pairwise_sortBy first) (pairwise_sortBy second)
    ((perm_sortBy first).trans (perm.trans (perm_sortBy second).symm))
  intro one other _ _ le ge
  exact injective (le_antisymm le ge)

end Foundations
