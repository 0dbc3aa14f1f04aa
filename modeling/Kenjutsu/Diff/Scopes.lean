import Mathlib.Data.Int.ConditionallyCompleteOrder
import Kenjutsu.Diff.AstContext

/-!
# The innermost scope

In a tree in which the rows of each node contain those of its children, the search finds
the first smallest of all scopes that contain the rows, in post-order
(`findInnermostScope_eq`): a node that is cut off has no such scope below it, and a scope
below a node is never larger than the node. So nothing below the scope that is found
contains the rows, and nothing in the tree that contains them is smaller.
-/

set_option autoImplicit false

namespace Kenjutsu.Diff

open Foundations

/-- The rows of a child lie within those of its parent. -/
structure Within (parent child : NodeInfo) : Prop where
  starts : parent.startPoint.row ≤ child.startPoint.row
  ends : child.endPoint.row ≤ parent.endPoint.row

instance (parent child : NodeInfo) : Decidable (Within parent child) :=
  decidable_of_iff (parent.startPoint.row ≤ child.startPoint.row ∧
    child.endPoint.row ≤ parent.endPoint.row) ⟨fun ⟨starts, ends⟩ => ⟨starts, ends⟩,
      fun within => ⟨within.starts, within.ends⟩⟩

/-- A tree in which the rows of every child lie within its parent's. -/
abbrev Nested (tree : Node) : Prop := tree.Everywhere Within

theorem Nested.within {tree : Node} (nested : Nested tree) :
    ∀ other ∈ tree.subtrees, Within tree.label other.label :=
  nested.related (fun _ => ⟨le_rfl, le_rfl⟩) fun first second =>
    ⟨first.starts.trans second.starts, second.ends.trans first.ends⟩

variable {targetStart targetEnd : Int} {scopeKinds : List String}

/-- The scopes around the rows, in post-order. -/
def scopesAround (targetStart targetEnd : Int) (scopeKinds : List String) (tree : Node) :
    List Node :=
  tree.subtrees.filter (encloses scopeKinds targetStart targetEnd)

theorem mem_scopesAround {tree node : Node} :
    node ∈ scopesAround targetStart targetEnd scopeKinds tree ↔
      node ∈ tree.subtrees ∧ encloses scopeKinds targetStart targetEnd node :=
  List.mem_filter

theorem encloses_iff {node : Node} :
    encloses scopeKinds targetStart targetEnd node ↔
      node.label.type ∈ scopeKinds ∧ (node.label.startPoint.row : Int) ≤ targetStart ∧
        targetEnd ≤ node.label.endPoint.row := by
  simp [encloses, and_assoc]

/-- What lies outside the rows has no scope around them in it. -/
theorem scopesAround_of_outside {tree : Node} (nested : Nested tree)
    (ordered : targetStart ≤ targetEnd)
    (outside : (tree.label.startPoint.row : Int) > targetEnd ∨
      (tree.label.endPoint.row : Int) < targetStart) :
    scopesAround targetStart targetEnd scopeKinds tree = [] := by
  refine List.filter_eq_nil_iff.mpr fun node member around => ?_
  obtain ⟨-, starts, ends⟩ := encloses_iff.mp around
  have within := nested.within node member
  have early := within.starts
  have late := within.ends
  omega

/-- The loop over the children finds the first minimum, if the search does for each. -/
theorem bestCandidate_eq (best : Option Node) {children : List Node}
    (found : ∀ child ∈ children, findInnermostScope targetStart targetEnd scopeKinds child =
      (scopesAround targetStart targetEnd scopeKinds child).argmin rowSpan) :
    bestCandidate targetStart targetEnd scopeKinds best children =
      better rowSpan best ((children.flatMap
        (scopesAround targetStart targetEnd scopeKinds)).argmin rowSpan) := by
  induction children generalizing best with
  | nil => rw [bestCandidate, List.flatMap_nil, List.argmin_nil, better_none]
  | cons child rest ih =>
      obtain ⟨own, others⟩ := List.forall_mem_cons.mp found
      rw [bestCandidate, ih _ others, own, List.flatMap_cons, argmin_append, better_assoc]

/-- **The search finds the first smallest scope around the rows.** -/
theorem findInnermostScope_eq {tree : Node} (nested : Nested tree)
    (ordered : targetStart ≤ targetEnd) :
    findInnermostScope targetStart targetEnd scopeKinds tree =
      (scopesAround targetStart targetEnd scopeKinds tree).argmin rowSpan := by
  induction tree using RoseTree.induct with
  | node info children ih =>
      have below := @bestCandidate_eq targetStart targetEnd scopeKinds none children
        fun child isChild => ih child isChild (nested.of_child isChild)
      rw [none_better] at below
      rw [findInnermostScope, below]
      split
      · rename_i outside
        have outsideRows : (info.startPoint.row : Int) > targetEnd ∨
            (info.endPoint.row : Int) < targetStart := by
          simpa using outside
        rw [scopesAround_of_outside nested ordered outsideRows, List.argmin_nil]
      · have split : scopesAround targetStart targetEnd scopeKinds (.node info children) =
            children.flatMap (scopesAround targetStart targetEnd scopeKinds) ++
              [RoseTree.node info children].filter
                (encloses scopeKinds targetStart targetEnd) := by
          rw [scopesAround, RoseTree.subtrees_eq, List.filter_append, RoseTree.descendants,
            List.filter_flatMap]
          rfl
        rw [split, argmin_append]
        cases least : (children.flatMap
            (scopesAround targetStart targetEnd scopeKinds)).argmin rowSpan with
        | none =>
            rw [none_better]
            by_cases around : encloses scopeKinds targetStart targetEnd (.node info children)
            · rw [List.filter_cons_of_pos around]
              exact if_pos around
            · rw [List.filter_cons_of_neg around]
              exact if_neg around
        | some best =>
            by_cases around : encloses scopeKinds targetStart targetEnd (.node info children)
            · -- a scope below the node is not larger than the node
              obtain ⟨child, isChild, member⟩ := List.mem_flatMap.mp (List.argmin_mem least)
              have within := nested.within best (RoseTree.mem_subtrees_of_mem_children isChild
                (mem_scopesAround.mp member).1)
              have notSmaller : ¬rowSpan (.node info children) < rowSpan best := by
                have starts := within.starts
                have ends := within.ends
                simp only [rowSpan]
                omega
              rw [List.filter_cons_of_pos around]
              simp [better, notSmaller]
            · rw [List.filter_cons_of_neg around]
              rfl

/-- The candidate of a loop is the one it began with, or that of a child. -/
theorem exists_of_bestCandidate {best : Option Node} {children : List Node} {scope : Node}
    (found : bestCandidate targetStart targetEnd scopeKinds best children = some scope) :
    best = some scope ∨ ∃ child ∈ children,
      findInnermostScope targetStart targetEnd scopeKinds child = some scope := by
  induction children generalizing best with
  | nil => exact .inl found
  | cons child rest ih =>
      rw [bestCandidate] at found
      rcases ih found with now | ⟨later, member, foundLater⟩
      · rcases better_eq_or rowSpan best
          (findInnermostScope targetStart targetEnd scopeKinds child) with isBest | isOwn
        · exact .inl (isBest.symm.trans now)
        · exact .inr ⟨child, List.mem_cons_self, isOwn.symm.trans now⟩
      · exact .inr ⟨later, List.mem_cons_of_mem _ member, foundLater⟩

/-- What is found in a tree is found below it, or it is the tree if nothing is. -/
theorem found_cases {info : NodeInfo} {children : List Node} {scope : Node}
    (found : findInnermostScope targetStart targetEnd scopeKinds (.node info children) =
      some scope) :
    (∃ child ∈ children, findInnermostScope targetStart targetEnd scopeKinds child = some scope) ∨
      bestCandidate targetStart targetEnd scopeKinds none children = none ∧
        encloses scopeKinds targetStart targetEnd (.node info children) ∧
        scope = .node info children := by
  rw [findInnermostScope] at found
  split at found
  · cases found
  · cases best : bestCandidate targetStart targetEnd scopeKinds none children with
    | some candidate =>
        rw [best] at found
        obtain rfl := Option.some.inj found
        rcases exists_of_bestCandidate best with none | below
        · cases none
        · exact .inl below
    | none =>
        simp only [best] at found
        split at found
        · rename_i around
          exact .inr ⟨rfl, around, (Option.some.inj found).symm⟩
        · cases found

/-- What is found is a scope of the tree around the rows, in any tree. -/
theorem mem_scopesAround_of_found {tree scope : Node}
    (found : findInnermostScope targetStart targetEnd scopeKinds tree = some scope) :
    scope ∈ scopesAround targetStart targetEnd scopeKinds tree := by
  induction tree using RoseTree.induct with
  | node info children ih =>
      rcases found_cases found with ⟨child, isChild, foundBelow⟩ | ⟨-, around, rfl⟩
      · obtain ⟨member, around⟩ := mem_scopesAround.mp (ih child isChild foundBelow)
        exact mem_scopesAround.mpr
          ⟨RoseTree.mem_subtrees_of_mem_children isChild member, around⟩
      · exact mem_scopesAround.mpr ⟨RoseTree.mem_subtrees_self _, around⟩

/-- Nothing below the scope that is found contains the rows. -/
theorem not_encloses_descendants {tree scope : Node} (nested : Nested tree)
    (ordered : targetStart ≤ targetEnd)
    (found : findInnermostScope targetStart targetEnd scopeKinds tree = some scope) :
    ∀ other ∈ scope.descendants, ¬encloses scopeKinds targetStart targetEnd other := by
  induction tree using RoseTree.induct with
  | node info children ih =>
      rcases found_cases found with ⟨child, isChild, foundBelow⟩ | ⟨best, -, rfl⟩
      · exact ih child isChild (nested.of_child isChild) foundBelow
      · have below := @bestCandidate_eq targetStart targetEnd scopeKinds none children
          fun child isChild => findInnermostScope_eq (nested.of_child isChild) ordered
        rw [none_better, best] at below
        have nothing := List.argmin_eq_none.mp below.symm
        intro other member around
        obtain ⟨child, isChild, isBelow⟩ := RoseTree.mem_descendants.mp member
        have isAround : other ∈ children.flatMap
            (scopesAround targetStart targetEnd scopeKinds) :=
          List.mem_flatMap.mpr ⟨child, isChild, mem_scopesAround.mpr ⟨isBelow, around⟩⟩
        rw [nothing] at isAround
        cases isAround

/-- The tightest scope of a tree around some rows. -/
structure IsTightest (targetStart targetEnd : Int) (scopeKinds : List String)
    (tree scope : Node) : Prop where
  mem : scope ∈ tree.subtrees
  isScope : scope.label.type ∈ scopeKinds
  contains : (scope.label.startPoint.row : Int) ≤ targetStart ∧
    targetEnd ≤ scope.label.endPoint.row
  smallest : ∀ other ∈ tree.subtrees, encloses scopeKinds targetStart targetEnd other →
    rowSpan scope ≤ rowSpan other
  innermost : ∀ other ∈ scope.descendants, ¬encloses scopeKinds targetStart targetEnd other

/-- Nothing is found only where there is no scope, -/
theorem findInnermostScope_eq_none_iff {tree : Node} (nested : Nested tree)
    (ordered : targetStart ≤ targetEnd) :
    findInnermostScope targetStart targetEnd scopeKinds tree = none ↔
      ∀ node ∈ tree.subtrees, ¬encloses scopeKinds targetStart targetEnd node := by
  rw [findInnermostScope_eq nested ordered, List.argmin_eq_none, scopesAround,
    List.filter_eq_nil_iff]

/-- and what is found is the tightest scope. -/
theorem isTightest_of_found {tree scope : Node} (nested : Nested tree)
    (ordered : targetStart ≤ targetEnd)
    (isFound : findInnermostScope targetStart targetEnd scopeKinds tree = some scope) :
    IsTightest targetStart targetEnd scopeKinds tree scope := by
  have least := (findInnermostScope_eq nested ordered).symm.trans isFound
  obtain ⟨member, around⟩ := mem_scopesAround.mp (List.argmin_mem least)
  obtain ⟨isScope, contains⟩ := encloses_iff.mp around
  refine ⟨member, isScope, contains, ?_, not_encloses_descendants nested ordered isFound⟩
  intro other isOther otherAround
  exact List.le_of_mem_argmin (mem_scopesAround.mpr ⟨isOther, otherAround⟩) least

/-- **The search returns the tightest scope**, and nothing only if there is no scope. -/
theorem findInnermostScope_tightest {tree : Node} (nested : Nested tree)
    (ordered : targetStart ≤ targetEnd) :
    (findInnermostScope targetStart targetEnd scopeKinds tree = none ↔
      ∀ node ∈ tree.subtrees, ¬encloses scopeKinds targetStart targetEnd node) ∧
    ∀ scope, findInnermostScope targetStart targetEnd scopeKinds tree = some scope →
      IsTightest targetStart targetEnd scopeKinds tree scope :=
  ⟨findInnermostScope_eq_none_iff nested ordered,
    fun _ isFound => isTightest_of_found nested ordered isFound⟩

/-- A method in a class, of which the last two rows are looked for. -/
theorem findInnermostScope_tightest_method :
    let method : Node := .node ⟨"function_definition", ⟨1, 2⟩, ⟨3, 8⟩, none, []⟩ []
    let tree : Node := .node ⟨"class_definition", ⟨0, 0⟩, ⟨3, 8⟩, none, []⟩ [method]
    findInnermostScope 2 3 (scopeKindsOf "python") tree = some method ∧
      IsTightest 2 3 (scopeKindsOf "python") tree method := by
  intro method tree
  have nested : Nested tree := by decide
  have found : findInnermostScope 2 3 (scopeKindsOf "python") tree = some method := by rfl
  exact ⟨found, (findInnermostScope_tightest nested (by decide)).2 method found⟩

end Kenjutsu.Diff
