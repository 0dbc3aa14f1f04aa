import Mathlib.Data.Finmap
import Mathlib.Data.Fintype.EquivFin

/-!
# Dictionaries

A dictionary whose order is never observed is a finite map. Lookups after an
update are stated with a case distinction on the key, so that a simplification
with these lemmas leaves only the comparison of keys.
-/

set_option autoImplicit false

namespace Foundations

universe u v

/-- A dictionary without order. -/
structure Dict (Key : Type u) (Value : Type v) where
  entries : Finmap fun _ : Key => Value

namespace Dict

variable {Key : Type u} {Value : Type v}

instance : EmptyCollection (Dict Key Value) := ⟨⟨∅⟩⟩

variable [DecidableEq Key]

/-- The value stored under a key. -/
def get (dict : Dict Key Value) (key : Key) : Option Value :=
  dict.entries.lookup key

/-- Store a value under a key. -/
def set (dict : Dict Key Value) (key : Key) (value : Value) : Dict Key Value :=
  ⟨dict.entries.insert key value⟩

/-- Remove a key. -/
def erase (dict : Dict Key Value) (key : Key) : Dict Key Value := ⟨dict.entries.erase key⟩

/-- Change the value stored under a key, if there is one. -/
def modify (dict : Dict Key Value) (key : Key) (change : Value → Value) : Dict Key Value :=
  match dict.get key with
  | none => dict
  | some value => dict.set key (change value)

/-- The keys under which a value is stored. -/
def keys (dict : Dict Key Value) : Finset Key := dict.entries.keys

@[simp] theorem mem_keys (dict : Dict Key Value) (key : Key) :
    key ∈ dict.keys ↔ (dict.get key).isSome := by
  rw [keys, get, Finmap.mem_keys, Finmap.lookup_isSome]

@[simp] theorem get_empty (key : Key) : (∅ : Dict Key Value).get key = none :=
  Finmap.lookup_empty key

@[simp, grind =] theorem get_set (dict : Dict Key Value) (key other : Key) (value : Value) :
    (dict.set key value).get other = if other = key then some value else dict.get other := by
  unfold get set
  by_cases same : other = key
  · subst same
    simp [Finmap.lookup_insert]
  · rw [if_neg same, Finmap.lookup_insert_of_ne _ same]

@[simp, grind =] theorem get_erase (dict : Dict Key Value) (key other : Key) :
    (dict.erase key).get other = if other = key then none else dict.get other := by
  unfold get erase
  by_cases same : other = key
  · subst same
    simp [Finmap.lookup_erase]
  · rw [if_neg same, Finmap.lookup_erase_ne same]

@[simp, grind =] theorem get_modify (dict : Dict Key Value) (key other : Key)
    (change : Value → Value) :
    (dict.modify key change).get other =
      if other = key then (dict.get key).map change else dict.get other := by
  unfold modify
  cases found : dict.get key with
  | none =>
      by_cases same : other = key
      · subst same
        simp [found]
      · simp [same]
  | some value => simp

/-- A dictionary of pairs; of several pairs with a key the last one counts. -/
def ofList (pairs : List (Key × Value)) : Dict Key Value :=
  pairs.foldl (fun dict pair => dict.set pair.1 pair.2) ∅

theorem get_foldl_set (dict : Dict Key Value) (pairs : List (Key × Value)) (key : Key) :
    (pairs.foldl (fun dict pair => dict.set pair.1 pair.2) dict).get key =
      (pairs.reverse.lookup key).or (dict.get key) := by
  induction pairs generalizing dict with
  | nil => rfl
  | cons pair pairs ih =>
      rw [List.foldl_cons, ih, List.reverse_cons, List.lookup_append, Option.or_assoc, get_set,
        List.lookup_cons]
      by_cases same : key = pair.1
      · simp [same]
      · simp [same, beq_false_of_ne same]

theorem get_ofList (pairs : List (Key × Value)) (key : Key) :
    (ofList pairs).get key = pairs.reverse.lookup key := by
  rw [ofList, get_foldl_set, get_empty, Option.or_none]

/-- If the value of a pair is determined by its key, the dictionary has what the pairs have. -/
theorem get_ofList_eq_some_iff {pairs : List (Key × Value)}
    (determined : ∀ first ∈ pairs, ∀ second ∈ pairs, first.1 = second.1 → first.2 = second.2)
    {key : Key} {value : Value} : (ofList pairs).get key = some value ↔ (key, value) ∈ pairs := by
  have found : ∀ value, (ofList pairs).get key = some value → (key, value) ∈ pairs := by
    intro value isValue
    rw [get_ofList] at isValue
    obtain ⟨before, after, split, -⟩ := List.lookup_eq_some_iff.mp isValue
    rw [← List.mem_reverse, split]
    exact List.mem_append_right _ List.mem_cons_self
  refine ⟨found value, fun member => ?_⟩
  cases isValue : (ofList pairs).get key with
  | some other => exact congrArg some (determined _ (found other isValue) _ member rfl)
  | none =>
      rw [get_ofList, List.lookup_eq_none_iff] at isValue
      have differs := isValue _ (List.mem_reverse.mpr member)
      rw [bne_self_eq_false] at differs
      cases differs

/-- Storing a value that a filter drops, under a key where it finds nothing, is
not seen through the filter. -/
theorem filter_get_set_of_dropped (dict : Dict Key Value) {keep : Value → Bool} {key : Key}
    {value : Value} (absent : (dict.get key).filter keep = none) (dropped : keep value = false)
    (other : Key) : ((dict.set key value).get other).filter keep = (dict.get other).filter keep := by
  rw [get_set]
  by_cases same : other = key
  · subst same
    rw [if_pos rfl, absent, Option.filter_some, dropped]
    rfl
  · rw [if_neg same]

/-- Replacing a value that a filter drops by another one is not seen through the
filter. -/
theorem filter_get_set_of_replaced (dict : Dict Key Value) {keep : Value → Bool} {key : Key}
    {old value : Value} (known : dict.get key = some old) (outside : keep old = false)
    (dropped : keep value = false) (other : Key) :
    ((dict.set key value).get other).filter keep = (dict.get other).filter keep := by
  have absent : (dict.get key).filter keep = none := by
    rw [known, Option.filter_some, outside]
    rfl
  exact filter_get_set_of_dropped dict absent dropped other

/-- Storing a value that a filter keeps is seen through the filter. -/
theorem filter_get_set_of_kept (dict : Dict Key Value) {keep : Value → Bool} {key : Key}
    {value : Value} (kept : keep value = true) (other : Key) :
    ((dict.set key value).get other).filter keep =
      if other = key then some value else (dict.get other).filter keep := by
  rw [get_set]
  by_cases same : other = key
  · rw [if_pos same, if_pos same, Option.filter_some, if_pos kept]
  · rw [if_neg same, if_neg same]

/-- A dictionary that holds what a filter keeps of another one still does when
both store a value that the filter keeps. -/
theorem get_set_of_filtered {dict kept : Dict Key Value} {keep : Value → Bool}
    (filtered : ∀ key, kept.get key = (dict.get key).filter keep) {key : Key} {value : Value}
    (keeps : keep value = true) (other : Key) :
    (kept.set key value).get other = ((dict.set key value).get other).filter keep := by
  rw [filter_get_set_of_kept dict keeps, get_set, filtered]

/-- A dictionary leaves infinitely many keys free. -/
theorem exists_get_eq_none [Infinite Key] (dict : Dict Key Value) : ∃ key, dict.get key = none := by
  obtain ⟨key, absent⟩ := Infinite.exists_notMem_finset dict.entries.keys
  exact ⟨key, Finmap.lookup_eq_none.mpr (by simpa [Finmap.mem_keys] using absent)⟩

end Dict

end Foundations
