import Kenjutsu.Diff.Models
import Kenjutsu.Foundations.Bytes
import Kenjutsu.Foundations.FileSystems
import Kenjutsu.Foundations.Trees

/-!
# The enclosing scopes of hunks

For each hunk, the innermost function or class of the syntax tree around its rows is
recorded with its kind, name and signature. The trees are made by tree-sitter, which is a
parameter here: it may have no grammar for a language, fail on a source, or give any tree
whose scopes begin on a row with something on it.
-/

set_option autoImplicit false

namespace Kenjutsu.Diff

open Foundations Foundations.Text

/-! ## Syntax trees -/

/-- A place in a source, counted from zero; the column counts bytes. -/
structure Point where
  row : Nat
  column : Nat
deriving DecidableEq, Repr

/-- What a node tells besides its children, with the fields under which its parent has
it. -/
structure NodeInfo where
  type : String
  startPoint : Point
  endPoint : Point
  text : Option Bytes := none
  fieldNames : List String := []
deriving DecidableEq, Repr

abbrev Node := RoseTree NodeInfo

/-- `child_by_field_name`. -/
def childByFieldName (node : Node) (field : String) : Option Node :=
  node.children.find? fun child => child.label.fieldNames.contains field

/-! ## Languages -/

/-- The grammar package of a language, the types of its scopes, and the fields of their
bodies. -/
structure LanguageConfig where
  moduleName : String
  scopeKinds : List String
  bodyFields : List String

/-- `_LANGUAGE_CONFIGS`. -/
def languageConfigs : List (String × LanguageConfig) :=
  [("python", ⟨"tree_sitter_python",
      ["function_definition", "class_definition", "decorated_definition"], ["body"]⟩),
    ("javascript", ⟨"tree_sitter_javascript",
      ["function_declaration", "function_expression", "arrow_function", "class_declaration",
        "class_expression", "method_definition"], ["body"]⟩),
    ("typescript", ⟨"tree_sitter_typescript",
      ["function_declaration", "function_expression", "arrow_function", "class_declaration",
        "class_expression", "method_definition", "abstract_method_signature"], ["body"]⟩),
    ("tsx", ⟨"tree_sitter_typescript",
      ["function_declaration", "function_expression", "arrow_function", "class_declaration",
        "class_expression", "method_definition"], ["body"]⟩),
    ("go", ⟨"tree_sitter_go", ["function_declaration", "method_declaration"], ["body"]⟩),
    ("java", ⟨"tree_sitter_java",
      ["method_declaration", "class_declaration", "interface_declaration",
        "constructor_declaration"], ["body"]⟩),
    ("rust", ⟨"tree_sitter_rust",
      ["function_item", "impl_item", "struct_item", "trait_item"], ["body"]⟩)]

/-- `_EXT_TO_LANGUAGE`. -/
def extToLanguage : List (String × String) :=
  [(".py", "python"), (".pyi", "python"), (".js", "javascript"), (".mjs", "javascript"),
    (".cjs", "javascript"), (".jsx", "javascript"), (".ts", "typescript"), (".mts", "typescript"),
    (".cts", "typescript"), (".tsx", "tsx"), (".go", "go"), (".java", "java"), (".rs", "rust")]

/-- `_KIND_MAP`. -/
def kindMap : List (String × String) :=
  [("function_definition", "function"), ("function_declaration", "function"),
    ("function_expression", "function"), ("arrow_function", "function"),
    ("function_item", "function"), ("class_definition", "class"), ("class_declaration", "class"),
    ("class_expression", "class"), ("decorated_definition", "function"),
    ("method_definition", "method"), ("method_declaration", "method"),
    ("abstract_method_signature", "method"), ("constructor_declaration", "constructor"),
    ("interface_declaration", "interface"), ("struct_item", "struct"), ("impl_item", "impl"),
    ("trait_item", "trait")]

/-- The extension of the last component of a path. -/
def suffix (path : Path) : Text :=
  let name := (path.steps.getLast?.map PathStep.text).getD []
  let upToDot := name.rdropWhile (· ≠ '.')
  if 1 < upToDot.length ∧ upToDot.length < name.length then '.' :: name.drop upToDot.length
  else []

/-- `_detect_language`. No letter outside ASCII becomes one of the extensions in lower
case. -/
def detectLanguage (filePath : Text) : Option String :=
  extToLanguage.lookup (String.ofList ((suffix (Path.parse filePath)).map Char.toLower))

/-! ## Scopes -/

/-- The number of rows between the first and the last. -/
def rowSpan (node : Node) : Int :=
  (node.label.endPoint.row : Int) - node.label.startPoint.row

/-- The node is a scope that contains the rows. -/
def encloses (scopeKinds : List String) (targetStart targetEnd : Int) (node : Node) : Bool :=
  scopeKinds.contains node.label.type && (node.label.startPoint.row : Int) ≤ targetStart &&
    (node.label.endPoint.row : Int) ≥ targetEnd

mutual
/-- `_find_innermost_scope`. -/
def findInnermostScope (targetStart targetEnd : Int) (scopeKinds : List String) :
    Node → Option Node
  | .node info children =>
      if (info.startPoint.row : Int) > targetEnd || (info.endPoint.row : Int) < targetStart then
        none
      else match bestCandidate targetStart targetEnd scopeKinds none children with
        | some best => some best
        | none =>
            if encloses scopeKinds targetStart targetEnd (.node info children) then
              some (.node info children)
            else none

/-- The loop over the children: the best candidate so far gives way to smaller ones. -/
def bestCandidate (targetStart targetEnd : Int) (scopeKinds : List String) :
    Option Node → List Node → Option Node
  | best, [] => best
  | best, child :: rest =>
      bestCandidate targetStart targetEnd scopeKinds
        (better rowSpan best (findInnermostScope targetStart targetEnd scopeKinds child)) rest
end

/-! ## Contexts -/

/-- `lines[start:stop]`. -/
def slice (lines : List Bytes) (start stop : Nat) : List Bytes := (lines.take stop).drop start

/-- The text of some lines: each decoded and stripped at its end, and the whole stripped. -/
def textOf (lines : List Bytes) : Text :=
  strip (List.intercalate ['\n'] (lines.map fun line => rstrip (Bytes.decode line)))

/-- The first body of a node, in the order of the fields. -/
def bodyChild (node : Node) (langName : String) : Option Node :=
  let bodyFields := match languageConfigs.lookup langName with
    | some config => config.bodyFields
    | none => ["body"]
  bodyFields.findSome? (childByFieldName node)

/-- `_extract_signature`. -/
def extractSignature (node : Node) (sourceLines : List Bytes) (langName : String) : Text :=
  let startRow := node.label.startPoint.row
  match bodyChild node langName with
  | some body => textOf (slice sourceLines startRow body.label.startPoint.row)
  | none => match sourceLines[startRow]? with
      | some line => textOf [line]
      | none => textOf []

/-- The types of the definitions that a decorated definition may wrap. -/
def definitionTypes : List String :=
  ["function_definition", "class_definition", "async_function_definition"]

/-- The name of a node itself: its field, or its first identifier. -/
def ownName (node : Node) : Text :=
  match (childByFieldName node "name").bind fun name => name.label.text with
  | some text => Bytes.decode text
  | none =>
      match node.children.findSome? fun child =>
        if child.label.type = "identifier" then child.label.text else none with
      | some text => Bytes.decode text
      | none => "<anonymous>".toList

mutual
/-- `_extract_name`. -/
def extractName : Node → Text
  | .node info children =>
      if info.type = "decorated_definition" then
        (wrappedName children).getD (ownName (.node info children))
      else ownName (.node info children)

/-- The loop over the children of a decorated definition. -/
def wrappedName : List Node → Option Text
  | [] => none
  | child :: rest =>
      if definitionTypes.contains child.label.type then some (extractName child)
      else wrappedName rest
end

/-- `_build_scope_context`. -/
def buildScopeContext (node : Node) (sourceLines : List Bytes) (langName : String) :
    ScopeContext where
  kind := ((kindMap.lookup node.label.type).getD node.label.type).toList
  name := extractName node
  signature := extractSignature node sourceLines langName
  startLine := node.label.startPoint.row + 1
  endLine := node.label.endPoint.row + 1
  language := langName.toList

/-! ## Hunks -/

/-- The rows of a hunk in the new file, counted from zero. -/
def hunkRows (hunk : Hunk) : Int × Int :=
  let hunkStart := (hunk.newStart : Int) - 1
  let hunkEnd := (hunk.newStart : Int) + max ((hunk.newCount : Int) - 1) 0 - 1
  (hunkStart, max hunkStart hunkEnd)

theorem hunkRows_le (hunk : Hunk) : (hunkRows hunk).1 ≤ (hunkRows hunk).2 := le_max_left _ _

/-- The types of the scopes of a language. -/
def scopeKindsOf (langName : String) : List String :=
  ((languageConfigs.lookup langName).map LanguageConfig.scopeKinds).getD []

/-- The bytes of a row; there are none after the last. -/
def rowAt (source : Bytes) (row : Nat) : Bytes := ((Bytes.rows source)[row]?).getD []

/-- A syntax tree of a source: a scope begins with a token, so not on a blank row. -/
structure SyntaxTree (langName : String) (source : Bytes) where
  root : Node
  begins : ∀ node ∈ root.subtrees, node.label.type ∈ scopeKindsOf langName →
    strip (Bytes.decode (rowAt source node.label.startPoint.row)) ≠ []

/-- Which grammar packages can be loaded, and what the parser makes of a source, if it
does not raise. -/
structure TreeSitter where
  loads : String → Bool
  parse : (langName : String) → (source : Bytes) → Option (SyntaxTree langName source)

/-- The content of a file. -/
inductive Source where
  | str (text : Text)
  | bytes (content : Bytes)

def Source.toBytes : Source → Bytes
  | .str text => Bytes.encode text
  | .bytes content => content

variable (treeSitter : TreeSitter)

/-- `_load_language`: whether there is one. -/
def loadLanguage (langName : String) : Bool :=
  match languageConfigs.lookup langName with
  | none => false
  | some config => treeSitter.loads config.moduleName

/-- A source with its language and its tree. -/
structure Parsed where
  langName : String
  source : Bytes
  tree : SyntaxTree langName source

/-- The scope around a hunk. -/
def Parsed.scopeOf (parsed : Parsed) (hunk : Hunk) : Option Node :=
  findInnermostScope (hunkRows hunk).1 (hunkRows hunk).2 (scopeKindsOf parsed.langName)
    parsed.tree.root

def Parsed.contextOf (parsed : Parsed) (hunk : Hunk) : Option ScopeContext :=
  (parsed.scopeOf hunk).map fun scope =>
    buildScopeContext scope (Bytes.splitlines parsed.source) parsed.langName

/-- `find_enclosing_scope`; `none` if the parser raises. -/
def findEnclosingScope (source : Source) (hunk : Hunk) (langName : String) :
    Option (Option ScopeContext) :=
  if loadLanguage treeSitter langName then
    (treeSitter.parse langName source.toBytes).map fun tree =>
      Parsed.contextOf ⟨langName, source.toBytes, tree⟩ hunk
  else some none

/-- What is parsed for the hunks of a file, if anything is. -/
def parsePatch (fileContentGetter : Text → Option Source) (patch : PatchFile) : Option Parsed :=
  if patch.isBinary || patch.isDeletedFile || patch.hunks = [] then none
  else do
    let langName ← detectLanguage patch.path
    if loadLanguage treeSitter langName then
      let source ← fileContentGetter patch.path
      let tree ← treeSitter.parse langName source.toBytes
      return ⟨langName, source.toBytes, tree⟩
    else none

/-- The scope of a hunk is set if there is one. -/
def Parsed.extendHunk (parsed : Parsed) (hunk : Hunk) : Hunk :=
  match parsed.contextOf hunk with
  | some context => { hunk with enclosingScope := some context }
  | none => hunk

/-- The body of the loop over the files. -/
def extendPatch (fileContentGetter : Text → Option Source) (patch : PatchFile) : PatchFile :=
  match parsePatch treeSitter fileContentGetter patch with
  | some parsed => { patch with hunks := patch.hunks.map parsed.extendHunk }
  | none => patch

/-- `extend_hunks_with_ast`. -/
def extendHunksWithAst (patches : List PatchFile) (fileContentGetter : Text → Option Source) :
    List PatchFile :=
  patches.map (extendPatch treeSitter fileContentGetter)

end Kenjutsu.Diff
