import Mathlib.Data.List.Basic

/-!
# Three fields with a separator between them

A text is made of three fields with a separator between each and the next. The middle field
has no separator in it, the others are free. Then the text does not determine its fields:
the first field of another reading may go on over the middle one and into the last. That is
the only way (`joined_eq_iff`), so a text has one reading if the first fields have no
separator (`joined_inj_of_notMem`).
-/

set_option autoImplicit false

namespace Foundations.Fields

variable {α : Type}

/-- Three fields with a separator between each and the next. -/
def joined (separator : α) (first middle last : List α) : List α :=
  first ++ separator :: (middle ++ separator :: last)

/-- The reading of one text as three fields is shifted to another: the first field of the
second goes on over the middle field of the first, and perhaps into its last field. -/
inductive Shifted (separator : α) (first middle last : List α) :
    List α → List α → List α → Prop
  | past (middle' last' : List α) (absorbed : last = middle' ++ separator :: last') :
      Shifted separator first middle last (first ++ separator :: middle) middle' last'
  | into (between middle' last' : List α)
      (absorbed : last = joined separator between middle' last') :
      Shifted separator first middle last (joined separator first middle between) middle' last'

variable {separator : α} {first middle last first' middle' last' : List α}

/-- A shifted reading is a reading of the same text, -/
theorem Shifted.joined_eq
    (shifted : Shifted separator first middle last first' middle' last') :
    joined separator first middle last = joined separator first' middle' last' := by
  cases shifted with
  | past _ _ absorbed => simp [joined, absorbed]
  | into between _ _ absorbed => simp [joined, absorbed]

/-- and its first field is longer. -/
theorem Shifted.length_lt (shifted : Shifted separator first middle last first' middle' last') :
    first.length < first'.length := by
  cases shifted with
  | past => simp
  | into => simp [joined]

/-- A reading whose first field goes on is shifted. -/
theorem shifted_of_cons {element : α} {more : List α} (apart : separator ∉ middle)
    (same : separator :: (middle ++ separator :: last) =
      element :: more ++ separator :: (middle' ++ separator :: last')) :
    Shifted separator first middle last (first ++ element :: more) middle' last' := by
  obtain ⟨rfl, tails⟩ := List.cons.inj same
  rcases List.append_eq_append_iff.mp tails with ⟨rest, rfl, lasts⟩ | ⟨rest, rfl, lasts⟩
  · rcases List.cons_eq_append_iff.mp lasts with ⟨rfl, absorbed⟩ | ⟨between, rfl, absorbed⟩
    · rw [List.append_nil]
      exact .past middle' last' (List.cons.inj absorbed).2.symm
    · exact .into between middle' last' absorbed
  · rcases List.cons_eq_append_iff.mp lasts with ⟨rfl, absorbed⟩ | ⟨others, rfl, -⟩
    · rw [List.append_nil]
      exact .past middle' last' (List.cons.inj absorbed).2
    · exact absurd (List.mem_append_right _ List.mem_cons_self) apart

/-- A field without separators ends at the first one. -/
theorem split_inj_of_notMem (apart : separator ∉ middle) (apart' : separator ∉ middle')
    (same : middle ++ separator :: last = middle' ++ separator :: last') :
    middle = middle' ∧ last = last' := by
  rcases List.append_eq_append_iff.mp same with ⟨rest, rfl, lasts⟩ | ⟨rest, rfl, lasts⟩
  · cases rest with
    | nil => exact ⟨(List.append_nil middle).symm, (List.cons.inj lasts).2⟩
    | cons element more =>
        obtain ⟨rfl, -⟩ := List.cons.inj lasts
        exact absurd (List.mem_append_right _ List.mem_cons_self) apart'
  · cases rest with
    | nil => exact ⟨List.append_nil middle', (List.cons.inj lasts).2.symm⟩
    | cons element more =>
        obtain ⟨rfl, -⟩ := List.cons.inj lasts
        exact absurd (List.mem_append_right _ List.mem_cons_self) apart

/-- **Two readings of a text** are equal, or one is shifted to the other. -/
theorem joined_eq_iff (apart : separator ∉ middle) (apart' : separator ∉ middle') :
    joined separator first middle last = joined separator first' middle' last' ↔
      (first = first' ∧ middle = middle' ∧ last = last') ∨
        Shifted separator first middle last first' middle' last' ∨
        Shifted separator first' middle' last' first middle last := by
  constructor
  · intro same
    rcases List.append_eq_append_iff.mp same with ⟨rest, rfl, rests⟩ | ⟨rest, rfl, rests⟩
    · cases rest with
      | nil =>
          obtain ⟨middles, lasts⟩ := split_inj_of_notMem apart apart' (List.cons.inj rests).2
          exact .inl ⟨(List.append_nil first).symm, middles, lasts⟩
      | cons element more => exact .inr (.inl (shifted_of_cons apart rests))
    · cases rest with
      | nil =>
          obtain ⟨middles, lasts⟩ := split_inj_of_notMem apart' apart (List.cons.inj rests).2
          exact .inl ⟨List.append_nil first', middles.symm, lasts.symm⟩
      | cons element more => exact .inr (.inr (shifted_of_cons apart' rests))
  · rintro (⟨rfl, rfl, rfl⟩ | shifted | shifted)
    · rfl
    · exact shifted.joined_eq
    · exact shifted.joined_eq.symm

/-- A first field with the separator in it is needed to shift a reading. -/
theorem Shifted.mem (shifted : Shifted separator first middle last first' middle' last') :
    separator ∈ first' := by
  cases shifted with
  | past => simp
  | into => simp [joined]

/-- **A text has one reading** if no first field has the separator in it. -/
theorem joined_inj_of_notMem (apart : separator ∉ middle) (apart' : separator ∉ middle')
    (plain : separator ∉ first) (plain' : separator ∉ first') :
    joined separator first middle last = joined separator first' middle' last' ↔
      first = first' ∧ middle = middle' ∧ last = last' := by
  rw [joined_eq_iff apart apart']
  refine or_iff_left ?_
  rintro (shifted | shifted)
  · exact plain' shifted.mem
  · exact plain shifted.mem

end Foundations.Fields
