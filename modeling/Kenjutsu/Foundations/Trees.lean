import Mathlib.Data.List.MinMax

/-!
# Trees and first minima

Trees with labels and any number of children at each node. The subtrees are listed in
post-order: those of the children, from left to right, and then the tree itself.

A search that keeps the first best of several candidates finds the first minimum of all of
them, part by part (`argmin_append`).
-/

set_option autoImplicit false

namespace Foundations

/-! ## Trees -/

inductive RoseTree (α : Type) where
  | node (label : α) (children : List (RoseTree α))

namespace RoseTree

variable {α : Type}

def label : RoseTree α → α
  | node label _ => label

def children : RoseTree α → List (RoseTree α)
  | node _ children => children

/-- What holds of a node if it holds of its children holds of every tree. -/
@[elab_as_elim]
theorem induct {motive : RoseTree α → Prop}
    (node : ∀ label children, (∀ child ∈ children, motive child) → motive (.node label children)) :
    ∀ tree, motive tree
  | .node label children => node label children fun child _ => induct node child

mutual
/-- The subtrees, in post-order. -/
def subtrees : RoseTree α → List (RoseTree α)
  | node label children => subtreesOf children ++ [node label children]

def subtreesOf : List (RoseTree α) → List (RoseTree α)
  | [] => []
  | child :: rest => child.subtrees ++ subtreesOf rest
end

theorem subtreesOf_eq (children : List (RoseTree α)) :
    subtreesOf children = children.flatMap subtrees := by
  induction children with
  | nil => rfl
  | cons child rest ih => rw [subtreesOf, ih, List.flatMap_cons]

/-- The subtrees but the tree itself. -/
def descendants (tree : RoseTree α) : List (RoseTree α) := tree.children.flatMap subtrees

theorem subtrees_eq (tree : RoseTree α) : tree.subtrees = tree.descendants ++ [tree] := by
  cases tree
  rw [subtrees, subtreesOf_eq]
  rfl

theorem mem_subtrees_self (tree : RoseTree α) : tree ∈ tree.subtrees := by
  rw [subtrees_eq]
  exact List.mem_append_right _ (List.mem_singleton_self tree)

theorem mem_descendants {tree other : RoseTree α} :
    other ∈ tree.descendants ↔ ∃ child ∈ tree.children, other ∈ child.subtrees :=
  List.mem_flatMap

theorem mem_subtrees {tree other : RoseTree α} :
    other ∈ tree.subtrees ↔ other ∈ tree.descendants ∨ other = tree := by
  rw [subtrees_eq, List.mem_append, List.mem_singleton]

theorem mem_subtrees_of_mem_children {tree child other : RoseTree α}
    (isChild : child ∈ tree.children) (member : other ∈ child.subtrees) : other ∈ tree.subtrees :=
  mem_subtrees.mpr (.inl (mem_descendants.mpr ⟨child, isChild, member⟩))

theorem mem_subtrees_trans {tree middle other : RoseTree α} (inTree : middle ∈ tree.subtrees)
    (inMiddle : other ∈ middle.subtrees) : other ∈ tree.subtrees := by
  induction tree using induct with
  | node label children ih =>
      rcases mem_subtrees.mp inTree with below | rfl
      · obtain ⟨child, isChild, inChild⟩ := mem_descendants.mp below
        exact mem_subtrees_of_mem_children isChild (ih child isChild inChild)
      · exact inMiddle

theorem mem_subtrees_of_child {tree parent child : RoseTree α} (inTree : parent ∈ tree.subtrees)
    (isChild : child ∈ parent.children) : child ∈ tree.subtrees :=
  mem_subtrees_trans inTree (mem_subtrees_of_mem_children isChild (mem_subtrees_self child))

/-- The children of a node bear a relation to it, everywhere in the tree. -/
def Everywhere (related : α → α → Prop) (tree : RoseTree α) : Prop :=
  ∀ parent ∈ tree.subtrees, ∀ child ∈ parent.children, related parent.label child.label

instance (related : α → α → Prop) [DecidableRel related] (tree : RoseTree α) :
    Decidable (tree.Everywhere related) :=
  inferInstanceAs (Decidable (∀ parent ∈ tree.subtrees, ∀ child ∈ parent.children, _))

theorem Everywhere.of_child {related : α → α → Prop} {tree child : RoseTree α}
    (everywhere : tree.Everywhere related) (isChild : child ∈ tree.children) :
    child.Everywhere related :=
  fun parent member => everywhere parent (mem_subtrees_of_mem_children isChild member)

/-- A reflexive and transitive relation of the children to their parents relates all
subtrees to the tree. -/
theorem Everywhere.related {related : α → α → Prop} (reflexive : ∀ label, related label label)
    (transitive : ∀ {first second third}, related first second → related second third →
      related first third) {tree : RoseTree α} (everywhere : tree.Everywhere related) :
    ∀ other ∈ tree.subtrees, related tree.label other.label := by
  induction tree using induct with
  | node label children ih =>
      intro other member
      rcases mem_subtrees.mp member with below | rfl
      · obtain ⟨child, isChild, member⟩ := mem_descendants.mp below
        exact transitive (everywhere _ (mem_subtrees_self _) child isChild)
          (ih child isChild (everywhere.of_child isChild) other member)
      · exact reflexive _

end RoseTree

/-! ## First minima -/

section Minima

variable {α β : Type} [LinearOrder β]

/-- The candidate, if it is smaller than the best one so far. -/
def better (size : α → β) : Option α → Option α → Option α
  | best, none => best
  | none, some candidate => some candidate
  | some best, some candidate =>
      if size candidate < size best then some candidate else some best

@[simp] theorem better_none (size : α → β) (best : Option α) : better size best none = best := by
  cases best <;> rfl

@[simp] theorem none_better (size : α → β) (candidate : Option α) :
    better size none candidate = candidate := by
  cases candidate <;> rfl

theorem better_eq_or (size : α → β) (best candidate : Option α) :
    better size best candidate = best ∨ better size best candidate = candidate := by
  cases best with
  | none => exact .inr (none_better size candidate)
  | some best =>
      cases candidate with
      | none => exact .inl rfl
      | some candidate =>
          rw [better]
          split
          · exact .inr rfl
          · exact .inl rfl

theorem better_assoc (size : α → β) (first second third : Option α) :
    better size (better size first second) third =
      better size first (better size second third) := by
  cases first with
  | none => simp
  | some first =>
      cases second with
      | none => simp
      | some second =>
          cases third with
          | none => simp
          | some third =>
              simp only [better]
              by_cases second_lt : size second < size first
              · by_cases third_lt : size third < size second
                · simp [second_lt, third_lt, third_lt.trans second_lt]
                · simp [second_lt, third_lt]
              · by_cases third_lt : size third < size second
                · simp [second_lt, third_lt]
                · have notFirst : ¬size third < size first := fun smaller =>
                    third_lt (smaller.trans_le (not_lt.mp second_lt))
                  simp [second_lt, third_lt, notFirst]

/-- **The first minimum of two lists** is the better one of their first minima. -/
theorem argmin_append (size : α → β) (first second : List α) :
    (first ++ second).argmin size = better size (first.argmin size) (second.argmin size) := by
  induction second using List.reverseRecOn with
  | nil => rw [List.append_nil, List.argmin_nil, better_none]
  | append_singleton second candidate ih =>
      have last : ∀ others : List α, (others ++ [candidate]).argmin size =
          better size (others.argmin size) (some candidate) := by
        intro others
        rw [List.argmin_concat]
        cases others.argmin size <;> rfl
      rw [← List.append_assoc, last, last, ih, better_assoc]

end Minima

end Foundations
