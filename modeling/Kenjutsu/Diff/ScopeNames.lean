import Mathlib.Data.List.Find
import Kenjutsu.Diff.Scopes

/-!
# Kinds and names of Python scopes

The name of a decorated definition is that of the definition it wraps, but its kind is
looked up under its own type, for which the table says "function". So a context describes
a definition unless the scope is a decorated class: that is the scope around rows that
touch the decorators.
-/

set_option autoImplicit false

namespace Kenjutsu.Diff

open Foundations

/-- A function or a class. -/
def isDefinition (node : Node) : Bool := definitionTypes.contains node.label.type

/-- The name that the grammar gives a definition. -/
def nameText (definition : Node) : Option Bytes :=
  (childByFieldName definition "name").bind fun name => name.label.text

/-- A syntax tree of Python: definitions have names, and the child of a decorated
definition with the field `definition` is the definition among its children. -/
structure PythonTree where
  root : Node
  nested : Nested root
  named : ∀ node ∈ root.subtrees, isDefinition node → (nameText node).isSome
  wraps : ∀ node ∈ root.subtrees, node.label.type = "decorated_definition" →
    node.children.any isDefinition ∧ ∀ child ∈ node.children,
      child.label.fieldNames.contains "definition" = isDefinition child

/-- The definition that a scope stands for: a decorated one stands for the one it wraps. -/
def definitionOf (scope : Node) : Option Node :=
  if scope.label.type = "decorated_definition" then childByFieldName scope "definition"
  else some scope

/-- The kind and the name of a context are those of a definition. -/
structure Describes (context : ScopeContext) (definition : Node) : Prop where
  kind : context.kind = "class".toList ↔ definition.label.type = "class_definition"
  name : (nameText definition).map Bytes.decode = some context.name

/-- A decorated definition that wraps a class. -/
def DecoratesClass (scope : Node) : Prop :=
  scope.label.type = "decorated_definition" ∧
    ∃ definition, definitionOf scope = some definition ∧
      definition.label.type = "class_definition"

/-! ## Names -/

theorem extractName_definition {definition : Node} (isDef : isDefinition definition) :
    extractName definition = ownName definition := by
  cases definition with
  | node info children =>
      have undecorated : info.type ≠ "decorated_definition" := by
        rintro decorated
        simp [isDefinition, RoseTree.label, decorated, definitionTypes] at isDef
      rw [extractName]
      exact if_neg undecorated

/-- The loop over the children stops at the first definition. -/
theorem wrappedName_eq (children : List Node) :
    wrappedName children = (children.find? isDefinition).map extractName := by
  induction children with
  | nil =>
      rw [wrappedName]
      rfl
  | cons child rest ih =>
      rw [wrappedName, ih]
      by_cases isDef : isDefinition child
      · rw [List.find?_cons_of_pos isDef]
        exact if_pos isDef
      · rw [List.find?_cons_of_neg isDef]
        exact if_neg isDef

theorem ownName_eq {definition : Node} (named : (nameText definition).isSome) :
    (nameText definition).map Bytes.decode = some (ownName definition) := by
  obtain ⟨text, isText⟩ := Option.isSome_iff_exists.mp named
  have unfolded : (childByFieldName definition "name").bind (fun name => name.label.text) =
    some text := isText
  rw [isText, ownName, unfolded]
  rfl

namespace PythonTree

variable (tree : PythonTree) {scope definition : Node}

/-- A decorated definition stands for the first definition among its children. -/
theorem childByFieldName_definition (member : scope ∈ tree.root.subtrees)
    (decorated : scope.label.type = "decorated_definition") :
    childByFieldName scope "definition" = scope.children.find? isDefinition :=
  List.find?_congr (tree.wraps scope member decorated).2

/-- Every scope stands for a definition of the tree, and takes its name from it. -/
theorem exists_definitionOf (member : scope ∈ tree.root.subtrees)
    (isScope : scope.label.type ∈ scopeKindsOf "python") :
    ∃ definition ∈ tree.root.subtrees, definitionOf scope = some definition ∧
      isDefinition definition ∧ extractName scope = ownName definition := by
  by_cases decorated : scope.label.type = "decorated_definition"
  · obtain ⟨child, isChild, isDef⟩ := List.any_eq_true.mp (tree.wraps scope member decorated).1
    obtain ⟨definition, found⟩ := Option.isSome_iff_exists.mp
      (List.find?_isSome.mpr ⟨child, isChild, isDef⟩)
    have isFirst := List.find?_some found
    refine ⟨definition, RoseTree.mem_subtrees_of_child member (List.mem_of_find?_eq_some found),
      ?_, isFirst, ?_⟩
    · rw [definitionOf, if_pos decorated, tree.childByFieldName_definition member decorated, found]
    · rw [← extractName_definition isFirst]
      cases scope with
      | node info children =>
          have wrapped : wrappedName children = some (extractName definition) := by
            rw [wrappedName_eq]
            exact congrArg (Option.map extractName) found
          rw [extractName, wrapped]
          exact if_pos decorated
  · have isDef : isDefinition scope := by
      simp [scopeKindsOf, languageConfigs] at isScope
      simp [isDefinition, definitionTypes]
      tauto
    exact ⟨scope, member, if_neg decorated, isDef, extractName_definition isDef⟩

/-- **The name of a scope** is that of the definition it stands for. -/
theorem map_decode_nameText (member : scope ∈ tree.root.subtrees)
    (isScope : scope.label.type ∈ scopeKindsOf "python")
    (stands : definitionOf scope = some definition) :
    (nameText definition).map Bytes.decode = some (extractName scope) := by
  obtain ⟨found, inTree, standsFor, isDef, name⟩ := tree.exists_definitionOf member isScope
  obtain rfl := Option.some.inj (standsFor.symm.trans stands)
  rw [name, ownName_eq (tree.named found inTree isDef)]

end PythonTree

/-! ## Kinds -/

/-- **The kind of a scope** is that of the definition it stands for, but for decorated
classes. -/
theorem kind_iff {scope definition : Node} (isScope : scope.label.type ∈ scopeKindsOf "python")
    (stands : definitionOf scope = some definition) (sourceLines : List Bytes) :
    ((buildScopeContext scope sourceLines "python").kind = "class".toList ↔
      definition.label.type = "class_definition") ↔ ¬DecoratesClass scope := by
  by_cases decorated : scope.label.type = "decorated_definition"
  · have kind : (buildScopeContext scope sourceLines "python").kind = "function".toList := by
      rw [buildScopeContext, decorated]
      rfl
    have apart : "function".toList ≠ "class".toList := by decide
    rw [kind, iff_false_left apart, DecoratesClass, stands]
    simp [decorated]
  · obtain rfl := Option.some.inj ((if_neg decorated).symm.trans stands)
    have notClass : ¬DecoratesClass scope := fun decorates => decorated decorates.1
    simp only [notClass, not_false_eq_true, iff_true]
    have either : scope.label.type = "function_definition" ∨
        scope.label.type = "class_definition" := by
      simp [scopeKindsOf, languageConfigs] at isScope
      tauto
    rcases either with isFunction | isClass
    · have kind : (buildScopeContext scope sourceLines "python").kind = "function".toList := by
        rw [buildScopeContext, isFunction]
        rfl
      rw [kind, isFunction]
      decide
    · have kind : (buildScopeContext scope sourceLines "python").kind = "class".toList := by
        rw [buildScopeContext, isClass]
        rfl
      rw [kind, isClass]
      decide

/-- **The context of a scope describes its definition** exactly when the first smallest of
the scopes around the rows of the hunk is not a decorated class. -/
theorem buildScopeContext_describes_iff (tree : PythonTree) (hunk : Hunk)
    (sourceLines : List Bytes) :
    (∀ scope definition, findInnermostScope (hunkRows hunk).1 (hunkRows hunk).2
        (scopeKindsOf "python") tree.root = some scope → definitionOf scope = some definition →
        Describes (buildScopeContext scope sourceLines "python") definition) ↔
      ∀ scope ∈ (scopesAround (hunkRows hunk).1 (hunkRows hunk).2 (scopeKindsOf "python")
        tree.root).argmin rowSpan, ¬DecoratesClass scope := by
  rw [findInnermostScope_eq tree.nested (hunkRows_le hunk)]
  refine forall_congr' fun scope => ⟨fun describes least => ?_, fun describes definition => ?_⟩
  · obtain ⟨member, around⟩ := mem_scopesAround.mp (List.argmin_mem least)
    have isScope := (encloses_iff.mp around).1
    obtain ⟨definition, -, stands, -⟩ := tree.exists_definitionOf member isScope
    exact (kind_iff isScope stands sourceLines).mp (describes definition least stands).kind
  · intro least stands
    obtain ⟨member, around⟩ := mem_scopesAround.mp (List.argmin_mem least)
    have isScope := (encloses_iff.mp around).1
    exact ⟨(kind_iff isScope stands sourceLines).mpr (describes least),
      tree.map_decode_nameText member isScope stands⟩

namespace DecoratedClass

/-- A node of one row. -/
def onRow (row start stop : Nat) (type text : String) (fieldNames : List String)
    (children : List Node) : Node :=
  .node ⟨type, ⟨row, start⟩, ⟨row, stop⟩, some (Bytes.encode text.toList), fieldNames⟩ children

def decorator : Node :=
  onRow 0 0 2 "decorator" "@d" [] [onRow 0 0 1 "@" "@" [] [], onRow 0 1 2 "identifier" "d" [] []]

/-- The class `A`, whose body is `pass`. -/
def wrapped : Node :=
  .node ⟨"class_definition", ⟨1, 0⟩, ⟨2, 8⟩, none, ["definition"]⟩
    [onRow 1 0 5 "class" "class" [] [], onRow 1 6 7 "identifier" "A" ["name"] [],
      onRow 1 7 8 ":" ":" [] [],
      onRow 2 4 8 "block" "pass" ["body"] [onRow 2 4 8 "pass_statement" "pass" [] []]]

def decorated : Node :=
  .node ⟨"decorated_definition", ⟨0, 0⟩, ⟨2, 8⟩, none, []⟩ [decorator, wrapped]

def tree : PythonTree where
  root := .node ⟨"module", ⟨0, 0⟩, ⟨2, 8⟩, none, []⟩ [decorated]
  nested := by decide
  named := by decide
  wraps := by decide

/-- One line put in the place of the decorator. -/
def hunk : Hunk where
  oldStart := 1
  oldCount := 1
  newStart := 1
  newCount := 1
  lines := [⟨.delete, "@c".toList, some 1, none⟩, ⟨.add, "@d".toList, none, some 1⟩]

end DecoratedClass

/-- A hunk on the row of the decorator has a function as its scope, with the name of the
class. -/
theorem not_describes_decoratedClass :
    ¬∀ (tree : PythonTree) (hunk : Hunk) (sourceLines : List Bytes) (scope definition : Node),
      findInnermostScope (hunkRows hunk).1 (hunkRows hunk).2 (scopeKindsOf "python") tree.root =
        some scope → definitionOf scope = some definition →
      Describes (buildScopeContext scope sourceLines "python") definition := by
  intro describes
  have kind := (describes DecoratedClass.tree DecoratedClass.hunk [] DecoratedClass.decorated
    DecoratedClass.wrapped rfl rfl).kind
  exact absurd (kind.mpr rfl) (by decide)

end Kenjutsu.Diff
