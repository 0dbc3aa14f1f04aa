import Mathlib.Data.List.Basic

/-!
# Fenced blocks

A list of lines is read for its fenced blocks. A block opens at a line that opens, unless one
is open, and closes at the next line that closes; one that nothing closes goes on to the end.
No line opens and closes.

Who writes a block between two fences wants it read back, whatever stands before it. That is
so exactly if no line before it opens and no line in it closes (`blocks_fenced_iff`).
-/

set_option autoImplicit false

namespace Foundations

variable {α : Type}

/-- How the lines of fences are told. -/
structure Fence (α : Type) where
  opens : α → Bool
  closes : α → Bool
  apart : ∀ line, opens line → closes line = false

namespace Fence

variable {fence : Fence α}

/-- The blocks of the lines that are left, with what has been read of an open one. -/
def blocksFrom (fence : Fence α) : Option (List α) → List α → List (List α)
  | none, [] => []
  | some inside, [] => [inside]
  | none, line :: lines =>
      if fence.opens line then fence.blocksFrom (some []) lines else fence.blocksFrom none lines
  | some inside, line :: lines =>
      if fence.closes line then inside :: fence.blocksFrom none lines
      else fence.blocksFrom (some (inside ++ [line])) lines

/-- The blocks of a list of lines. -/
def blocks (fence : Fence α) (lines : List α) : List (List α) := fence.blocksFrom none lines

/-- Lines that do not open are passed over. -/
theorem blocks_append {before : List α} (plain : ∀ line ∈ before, fence.opens line = false)
    (rest : List α) : fence.blocks (before ++ rest) = fence.blocks rest := by
  unfold blocks
  induction before with
  | nil => rfl
  | cons line before ih =>
      obtain ⟨first, others⟩ := List.forall_mem_cons.mp plain
      rw [List.cons_append, blocksFrom, first, if_neg Bool.false_ne_true, ih others]

/-- An open block takes the lines that do not close it. -/
theorem blocksFrom_append {inner : List α} (plain : ∀ line ∈ inner, fence.closes line = false)
    (inside rest : List α) :
    fence.blocksFrom (some inside) (inner ++ rest) =
      fence.blocksFrom (some (inside ++ inner)) rest := by
  induction inner generalizing inside with
  | nil => rw [List.nil_append, List.append_nil]
  | cons line inner ih =>
      obtain ⟨first, others⟩ := List.forall_mem_cons.mp plain
      rw [List.cons_append, blocksFrom, first, if_neg Bool.false_ne_true, ih others,
        List.append_assoc, List.singleton_append]

theorem blocksFrom_some_ne_nil (inside lines : List α) :
    fence.blocksFrom (some inside) lines ≠ [] := by
  induction lines generalizing inside with
  | nil => exact List.cons_ne_nil _ _
  | cons line lines ih =>
      rw [blocksFrom]
      split
      · exact List.cons_ne_nil _ _
      · exact ih _

/-- There is no block if no line opens. -/
theorem blocks_eq_nil_iff {lines : List α} :
    fence.blocks lines = [] ↔ ∀ line ∈ lines, fence.opens line = false := by
  unfold blocks
  induction lines with
  | nil => exact iff_of_true rfl nofun
  | cons line lines ih =>
      rw [blocksFrom, List.forall_mem_cons]
      cases opens : fence.opens line with
      | true =>
          rw [if_pos rfl]
          exact iff_of_false (blocksFrom_some_ne_nil [] lines) (by simp)
      | false =>
          rw [if_neg Bool.false_ne_true, ih]
          exact (and_iff_right rfl).symm

/-- No line of a block closes it. -/
theorem closes_of_mem_blocksFrom {lines : List α} :
    ∀ (inside : Option (List α)), (∀ begun ∈ inside, ∀ line ∈ begun, fence.closes line = false) →
      ∀ block ∈ fence.blocksFrom inside lines, ∀ line ∈ block, fence.closes line = false := by
  induction lines with
  | nil =>
      rintro (_ | begun) plain block member
      · cases member
      · obtain rfl := List.mem_singleton.mp member
        exact plain block rfl
  | cons line lines ih =>
      rintro (_ | begun) plain block member
      · unfold blocksFrom at member
        split at member
        · exact ih (some []) (by simp) block member
        · exact ih none nofun block member
      · unfold blocksFrom at member
        split at member
        · rcases List.mem_cons.mp member with rfl | later
          · exact plain block rfl
          · exact ih none nofun block later
        · rename_i goesOn
          refine ih (some (begun ++ [line])) ?_ block member
          rintro _ ⟨⟩
          refine List.forall_mem_append.mpr ⟨plain begun rfl, ?_⟩
          exact List.forall_mem_singleton.mpr (by simpa using goesOn)

/-- The lines of a block are lines of the text. -/
theorem mem_of_mem_blocksFrom {lines : List α} :
    ∀ (inside : Option (List α)), ∀ block ∈ fence.blocksFrom inside lines, ∀ line ∈ block,
      (∃ begun ∈ inside, line ∈ begun) ∨ line ∈ lines := by
  induction lines with
  | nil =>
      rintro (_ | begun) block member line inBlock
      · cases member
      · obtain rfl := List.mem_singleton.mp member
        exact .inl ⟨block, rfl, inBlock⟩
  | cons first lines ih =>
      rintro (_ | begun) block member line inBlock
      · unfold blocksFrom at member
        split at member
        · rcases ih (some []) block member line inBlock with ⟨_, ⟨⟩, nothing⟩ | later
          · cases nothing
          · exact .inr (List.mem_cons_of_mem _ later)
        · rcases ih none block member line inBlock with ⟨_, ⟨⟩, -⟩ | later
          exact .inr (List.mem_cons_of_mem _ later)
      · unfold blocksFrom at member
        split at member
        · rcases List.mem_cons.mp member with rfl | after
          · exact .inl ⟨block, rfl, inBlock⟩
          · rcases ih none block after line inBlock with ⟨_, ⟨⟩, -⟩ | later
            exact .inr (List.mem_cons_of_mem _ later)
        · rcases ih _ block member line inBlock with ⟨_, ⟨⟩, early⟩ | later
          · rcases List.mem_append.mp early with inBegun | isFirst
            · exact .inl ⟨begun, rfl, inBegun⟩
            · exact .inr (List.mem_cons.mpr (.inl (List.mem_singleton.mp isFirst)))
          · exact .inr (List.mem_cons_of_mem _ later)

theorem mem_of_mem_blocks {lines block : List α} (member : block ∈ fence.blocks lines) :
    ∀ line ∈ block, line ∈ lines := by
  intro line inBlock
  rcases mem_of_mem_blocksFrom none block member line inBlock with ⟨_, ⟨⟩, -⟩ | listed
  exact listed

section Fenced

variable {opener closer : α} {before inner : List α} (opens : fence.opens opener)
  (closes : fence.closes closer)

include opens closes

/-- A block between its fences is not read back inside another block, -/
theorem blocksFrom_some_fenced_ne (plain : ∀ line ∈ inner, fence.closes line = false)
    (inside : List α) :
    fence.blocksFrom (some inside) (before ++ opener :: (inner ++ [closer])) ≠ [inner] := by
  induction before generalizing inside with
  | nil =>
      rw [List.nil_append, blocksFrom, fence.apart opener opens, if_neg Bool.false_ne_true,
        blocksFrom_append plain, blocksFrom, if_pos closes]
      intro same
      have lengths := congrArg List.length (List.cons.inj same).1
      simp only [List.length_append, List.length_singleton] at lengths
      omega
  | cons line before ih =>
      rw [List.cons_append, blocksFrom]
      split
      · intro same
        have nothing := blocks_eq_nil_iff.mp (List.cons.inj same).2 opener (by simp)
        rw [opens] at nothing
        cases nothing
      · exact ih _

/-- so no line before a block that is read back opens. -/
theorem opens_of_blocks_fenced (plain : ∀ line ∈ inner, fence.closes line = false)
    (read : fence.blocks (before ++ opener :: (inner ++ [closer])) = [inner]) :
    ∀ line ∈ before, fence.opens line = false := by
  induction before with
  | nil => nofun
  | cons line before ih =>
      rw [List.cons_append, blocks, blocksFrom] at read
      cases first : fence.opens line with
      | true =>
          rw [first, if_pos rfl] at read
          exact absurd read (blocksFrom_some_fenced_ne opens closes plain [])
      | false =>
          rw [first, if_neg Bool.false_ne_true] at read
          exact List.forall_mem_cons.mpr ⟨first, ih read⟩

/-- **A block between its fences is read back**, and no other, exactly if no line before it
opens and no line in it closes. -/
theorem blocks_fenced_iff :
    fence.blocks (before ++ opener :: (inner ++ [closer])) = [inner] ↔
      (∀ line ∈ before, fence.opens line = false) ∧ ∀ line ∈ inner, fence.closes line = false := by
  constructor
  · intro read
    have isBlock : inner ∈ fence.blocks (before ++ opener :: (inner ++ [closer])) := by
      rw [read]
      exact List.mem_singleton_self inner
    have plain : ∀ line ∈ inner, fence.closes line = false :=
      closes_of_mem_blocksFrom none nofun inner isBlock
    exact ⟨opens_of_blocks_fenced opens closes plain read, plain⟩
  · rintro ⟨plainBefore, plain⟩
    rw [blocks_append plainBefore, blocks, blocksFrom, if_pos opens, blocksFrom_append plain,
      blocksFrom, if_pos closes]
    rfl

end Fenced

end Fence

end Foundations
