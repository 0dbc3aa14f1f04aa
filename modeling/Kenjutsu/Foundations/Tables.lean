import Mathlib.Data.List.Nodup

/-!
# Tables with a primary key

A table is a list of rows with distinct keys, in the order a query returns them.
An update changes the row with a given key and keeps the key, so a table stays a
table; everything a proof needs of an update is what `find` returns after it.
-/

set_option autoImplicit false

namespace Foundations

universe u v

/-- Rows with distinct keys. -/
structure Table {Key : Type u} {Row : Type v} (key : Row → Key) where
  rows : List Row
  distinct : (rows.map key).Nodup

namespace Table

variable {Key : Type u} {Row : Type v} {key : Row → Key} [DecidableEq Key]

/-- The row with a key. -/
def find (table : Table key) (sought : Key) : Option Row :=
  table.rows.find? fun row => key row = sought

/-- Changing the row with a key, and nothing of its key, keeps the keys. -/
theorem map_key_update (rows : List Row) (target : Key) {change : Row → Row}
    (keeps : ∀ row, key (change row) = key row) :
    (rows.map fun row => if key row = target then change row else row).map key = rows.map key := by
  rw [List.map_map]
  refine List.map_congr_left fun row _ => ?_
  simp only [Function.comp_apply]
  split
  · exact keeps row
  · rfl

/-- Change the row with a key, if there is one, and nothing of its key. -/
def update (table : Table key) (target : Key) (change : Row → Row)
    (keeps : ∀ row, key (change row) = key row) : Table key where
  rows := table.rows.map fun row => if key row = target then change row else row
  distinct := by
    rw [map_key_update table.rows target keeps]
    exact table.distinct

/-- Add a row with a new key. -/
def insert (table : Table key) (row : Row) (fresh : key row ∉ table.rows.map key) : Table key where
  rows := table.rows ++ [row]
  distinct := by
    rw [List.map_append]
    refine List.nodup_append'.mpr ⟨table.distinct, List.nodup_singleton _, ?_⟩
    exact List.disjoint_singleton.mpr fresh

/-- Keep only some of the rows. -/
def filter (table : Table key) (keep : Row → Bool) : Table key where
  rows := table.rows.filter keep
  distinct := (table.rows.filter_sublist.map key).nodup table.distinct

theorem find_eq_some_iff (table : Table key) (sought : Key) (row : Row) :
    table.find sought = some row ↔ row ∈ table.rows ∧ key row = sought := by
  constructor
  · intro found
    exact ⟨List.mem_of_find?_eq_some found, by simpa using List.find?_some found⟩
  · rintro ⟨member, rfl⟩
    cases found : table.find (key row) with
    | none => exact absurd (List.find?_eq_none.mp found row member) (by simp)
    | some other =>
        have same : key other = key row := by simpa using List.find?_some found
        have member' : other ∈ table.rows := List.mem_of_find?_eq_some found
        rw [List.inj_on_of_nodup_map table.distinct member' member same]

/-- A lookup after an update. -/
theorem find_update (table : Table key) (target sought : Key) (change : Row → Row)
    (keeps : ∀ row, key (change row) = key row) :
    (table.update target change keeps).find sought =
      if sought = target then (table.find target).map change else table.find sought := by
  have test : ∀ row, decide (key (if key row = target then change row else row) = sought) =
      decide (key row = sought) := by
    intro row
    split <;> simp [keeps]
  unfold find update
  rw [List.find?_map, Function.comp_def]
  simp only [test]
  split
  case isTrue same =>
    subst same
    cases found : table.rows.find? fun row => key row = sought with
    | none => rfl
    | some row =>
        have hit : key row = sought := by simpa using List.find?_some found
        simp [hit]
  case isFalse differs =>
    cases found : table.rows.find? fun row => key row = sought with
    | none => rfl
    | some row =>
        have hit : key row = sought := by simpa using List.find?_some found
        simp [hit, differs]

/-! ## Updates and selections -/

/-- An update that does not change what is selected changes the selected rows. -/
theorem filter_update (table : Table key) (target : Key) (change : Row → Row)
    (keeps : ∀ row, key (change row) = key row) {selects : Row → Bool}
    (unchanged : ∀ row, selects (change row) = selects row) :
    (table.update target change keeps).rows.filter selects =
      (table.rows.filter selects).map fun row =>
        if key row = target then change row else row := by
  rw [update, List.filter_map]
  congr 1
  refine List.filter_congr fun row _ => ?_
  simp only [Function.comp_apply]
  split
  · exact unchanged row
  · rfl

/-- An update of a row that is not selected changes no selected row. -/
theorem filter_update_of_not (table : Table key) (target : Key) (change : Row → Row)
    (keeps : ∀ row, key (change row) = key row) {selects : Row → Bool}
    (unchanged : ∀ row, selects (change row) = selects row)
    (outside : ∀ row ∈ table.rows, key row = target → selects row = false) :
    (table.update target change keeps).rows.filter selects = table.rows.filter selects := by
  rw [filter_update table target change keeps unchanged]
  refine (List.map_congr_left fun row member => ?_).trans (List.map_id _)
  obtain ⟨listed, selected⟩ := List.mem_filter.mp member
  refine if_neg fun same => ?_
  rw [outside row listed same] at selected
  cases selected

/-- A property of the rows with a key that an update does not change. -/
theorem forall_mem_update (table : Table key) (target : Key) (change : Row → Row)
    (keeps : ∀ row, key (change row) = key row) {holds : Row → Prop}
    (unchanged : ∀ row, holds row → holds (change row))
    (before : ∀ row ∈ table.rows, holds row) :
    ∀ row ∈ (table.update target change keeps).rows, holds row := by
  intro row member
  obtain ⟨old, listed, rfl⟩ := List.mem_map.mp member
  split
  · exact unchanged old (before old listed)
  · exact before old listed

end Table

end Foundations
