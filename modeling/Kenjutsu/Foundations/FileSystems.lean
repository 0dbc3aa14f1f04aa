import Kenjutsu.Foundations.Text
import Mathlib.Data.List.Dedup

/-!
# Paths and file systems

A path is a list of steps, up or down; joining an absolute path forgets what it is joined
to. A location is where a path leads: the names from the innermost outwards. Walking a
path takes each step in a directory that exists, so a path may lead nowhere.

A file system remembers the entries at its locations; a directory may carry a mark.
Making the directories of a path only adds unmarked directories (`makeDirs_extends`), after
which the path leads somewhere (`exists_walk_of_makeDirs`). Removing a tree takes away what
is at a location and below it, and nothing else (`get_removeTree`).
-/

set_option autoImplicit false

namespace Foundations

/-! ## Paths -/

/-- A text that names an entry of a directory. -/
def IsName (text : Text) : Prop :=
  text ≠ [] ∧ '/' ∉ text ∧ text ≠ ['.'] ∧ text ≠ ['.', '.']

instance (text : Text) : Decidable (IsName text) :=
  inferInstanceAs (Decidable (text ≠ [] ∧ '/' ∉ text ∧ text ≠ ['.'] ∧ text ≠ ['.', '.']))

/-- A name in a directory. -/
structure Name where
  text : Text
  isName : IsName text
deriving DecidableEq

theorem Name.eq_of_text {first second : Name} (same : first.text = second.text) :
    first = second := by
  cases first
  cases second
  congr

inductive PathStep where
  | up
  | down (name : Name)
deriving DecidableEq

/-- A path is absolute if its root is not empty. -/
structure Path where
  root : Text
  steps : List PathStep
deriving DecidableEq

/-- The step of a component; empty components and single dots are none. -/
def PathStep.ofComponent (component : Text) : Option PathStep :=
  if isName : IsName component then some (.down ⟨component, isName⟩)
  else if component = ['.', '.'] then some .up
  else none

def PathStep.text : PathStep → Text
  | .up => ['.', '.']
  | .down name => name.text

namespace Path

/-- The components of a text between its slashes. -/
def components : Text → List Text
  | [] => [[]]
  | character :: rest =>
      if character = '/' then [] :: components rest
      else match components rest with
        | [] => [[character]]
        | first :: others => (character :: first) :: others

/-- The root at the start of a text; two slashes are another root than one. -/
def rootOf : Text → Text
  | '/' :: '/' :: '/' :: _ => ['/']
  | '/' :: '/' :: _ => ['/', '/']
  | '/' :: _ => ['/']
  | _ => []

/-- `Path` of a text. -/
def parse (text : Text) : Path where
  root := rootOf text
  steps := (components text).filterMap PathStep.ofComponent

/-- `base / other`. -/
def join (base other : Path) : Path :=
  if other.root ≠ [] then other else ⟨base.root, base.steps ++ other.steps⟩

/-- `str` of a path. -/
def str (path : Path) : Text :=
  let text := path.root ++ ['/'].intercalate (path.steps.map PathStep.text)
  if text = [] then ['.'] else text

theorem components_of_not_mem {text : Text} (noSlash : '/' ∉ text) : components text = [text] := by
  induction text with
  | nil => rfl
  | cons character rest ih =>
      rw [List.mem_cons, not_or] at noSlash
      rw [components, if_neg (Ne.symm noSlash.1), ih noSlash.2]

theorem rootOf_of_not_mem {text : Text} (noSlash : '/' ∉ text) : rootOf text = [] := by
  unfold rootOf
  split <;> simp_all

/-- A name is the path of one step down. -/
theorem parse_of_isName {text : Text} (isName : IsName text) :
    parse text = ⟨[], [.down ⟨text, isName⟩]⟩ := by
  have step : PathStep.ofComponent text = some (.down ⟨text, isName⟩) := dif_pos isName
  rw [parse, rootOf_of_not_mem isName.2.1, components_of_not_mem isName.2.1,
    List.filterMap_cons_some step, List.filterMap_nil]

/-- Joining a name adds one step down. -/
theorem join_parse_of_isName (base : Path) {text : Text} (isName : IsName text) :
    base.join (parse text) = ⟨base.root, base.steps ++ [.down ⟨text, isName⟩]⟩ := by
  rw [parse_of_isName isName]
  exact if_neg (not_not_intro rfl)

end Path

/-! ## File systems -/

/-- Where a path leads: the names from the innermost outwards. -/
abbrev Location := List Name

/-- A file with its size, or a directory that may be marked. -/
inductive Node (Mark : Type) where
  | file (size : Nat)
  | directory (mark : Option Mark)

namespace Node

variable {Mark : Type}

def size : Node Mark → Nat
  | .file size => size
  | .directory _ => 0

def isDirectory : Node Mark → Bool
  | .file _ => false
  | .directory _ => true

def mark : Node Mark → Option Mark
  | .file _ => none
  | .directory mark => mark

/-- A file of a size, or an unmarked directory. -/
def plain : Option Nat → Node Mark
  | some size => .file size
  | none => .directory none

@[simp] theorem mark_plain (size : Option Nat) : (plain size : Node Mark).mark = none := by
  cases size <;> rfl

end Node

/-- The entries of a file system, and the working directory. Of several entries for a
location the first one counts. -/
structure FileSystem (Mark : Type) where
  cwd : Location
  entries : List (Location × Node Mark)

namespace FileSystem

variable {Mark : Type}

/-- What is at a location. -/
def get (files : FileSystem Mark) (location : Location) : Option (Node Mark) :=
  files.entries.lookup location

def isDir (files : FileSystem Mark) (location : Location) : Bool :=
  (files.get location).any Node.isDirectory

/-- The mark of the directory at a location. -/
def markAt (files : FileSystem Mark) (location : Location) : Option Mark :=
  (files.get location).bind Node.mark

/-- Where some steps lead. -/
def walk (files : FileSystem Mark) : Location → List PathStep → Option Location
  | location, [] => some location
  | location, .up :: steps => if files.isDir location then files.walk location.tail steps else none
  | location, .down name :: steps =>
      if files.isDir location then files.walk (name :: location) steps else none

/-- Where a path starts. -/
def start (files : FileSystem Mark) (path : Path) : Location :=
  if path.root = [] then files.cwd else []

def resolve (files : FileSystem Mark) (path : Path) : Option Location :=
  files.walk (files.start path) path.steps

/-- Where some steps lead if all directories on the way are there. -/
def follow : Location → List PathStep → Location
  | location, [] => location
  | location, .up :: steps => follow location.tail steps
  | location, .down name :: steps => follow (name :: location) steps

/-- Where a path leads if all directories on the way are there. -/
def target (files : FileSystem Mark) (path : Path) : Location :=
  follow (files.start path) path.steps

/-- `exists`. -/
def exists? (files : FileSystem Mark) (path : Path) : Bool :=
  (files.resolve path).any fun location => (files.get location).isSome

/-- Put an entry at a location. -/
def put (files : FileSystem Mark) (location : Location) (node : Node Mark) : FileSystem Mark :=
  { files with entries := (location, node) :: files.entries }

/-- Put files with their sizes, and directories, below a location where there is nothing
yet. -/
def putBelow (files : FileSystem Mark) (location : Location)
    (contents : List (Location × Option Nat)) : FileSystem Mark :=
  { files with
    entries := files.entries ++
      contents.map fun entry => (entry.1 ++ location, .plain entry.2) }

/-- Make the directories along some steps that do not exist. -/
def makeDirs (files : FileSystem Mark) : Location → List PathStep → Option (FileSystem Mark)
  | location, [] => if files.isDir location then some files else none
  | location, .up :: steps =>
      if files.isDir location then files.makeDirs location.tail steps else none
  | location, .down name :: steps =>
      if files.isDir location then
        match files.get (name :: location) with
        | some _ => files.makeDirs (name :: location) steps
        | none => (files.put (name :: location) (.directory none)).makeDirs (name :: location) steps
      else none

/-- Make a marked directory at a path, with contents below it. -/
def create (files : FileSystem Mark) (path : Path) (mark : Mark)
    (contents : List (Location × Option Nat)) : Option (FileSystem Mark) := do
  let made ← files.makeDirs (files.start path) path.steps
  let location ← made.resolve path
  return (made.putBelow location contents).put location (.directory (some mark))

/-- Remove what is at a location and below it. -/
def removeTree (files : FileSystem Mark) (location : Location) : FileSystem Mark :=
  { files with entries := files.entries.filter fun entry => ¬location <:+ entry.1 }

/-- Change the mark of the directory at a location, if it is marked. -/
def modifyMark (files : FileSystem Mark) (location : Location) (change : Mark → Mark) :
    FileSystem Mark :=
  match files.markAt location with
  | none => files
  | some mark => files.put location (.directory (some (change mark)))

/-- The locations of the entries. -/
def locations (files : FileSystem Mark) : List Location := (files.entries.map Prod.fst).dedup

/-- The names in a directory. -/
def names (files : FileSystem Mark) (location : Location) : List Name :=
  files.locations.filterMap fun
    | [] => none
    | name :: parent => if parent = location then some name else none

/-- The sizes of the files below a location, added up. -/
def sizeBelow (files : FileSystem Mark) (location : Location) : Nat :=
  ((files.locations.filter fun below => location <:+ below ∧ below ≠ location).map
    fun below => ((files.get below).map Node.size).getD 0).sum

/-! ## What is where -/

variable (files : FileSystem Mark) (location other : Location)

@[simp] theorem get_put (node : Node Mark) :
    (files.put location node).get other = if other = location then some node else files.get other := by
  unfold get put
  rw [List.lookup_cons]
  by_cases same : other = location
  · simp [same]
  · simp [same, beq_false_of_ne same]

/-- What is not below the location stays as it is. -/
theorem get_putBelow (contents : List (Location × Option Nat)) (outside : ¬location <:+ other) :
    (files.putBelow location contents).get other = files.get other := by
  unfold get putBelow
  have noContent : (contents.map fun entry : Location × Option Nat =>
      (entry.1 ++ location, (Node.plain entry.2 : Node Mark))).lookup other = none := by
    rw [List.lookup_eq_none_iff]
    intro entry member
    obtain ⟨content, -, rfl⟩ := List.mem_map.mp member
    rw [bne_iff_ne]
    rintro rfl
    exact outside (List.suffix_append content.1 location)
  rw [List.lookup_append, noContent, Option.or_none]

theorem get_putBelow_of_isSome (contents : List (Location × Option Nat))
    (present : (files.get other).isSome) :
    (files.putBelow location contents).get other = files.get other := by
  obtain ⟨node, found⟩ := Option.isSome_iff_exists.mp present
  unfold get putBelow at *
  rw [List.lookup_append, found, Option.some_or]

/-- What is put below a location is not marked. -/
@[simp] theorem markAt_putBelow (contents : List (Location × Option Nat)) :
    (files.putBelow location contents).markAt other = files.markAt other := by
  unfold markAt get putBelow
  rw [List.lookup_append]
  cases files.entries.lookup other with
  | some node => rfl
  | none =>
      rw [Option.none_or, Option.bind_none, Option.bind_eq_none_iff]
      intro node found
      obtain ⟨before, after, entries, -⟩ := List.lookup_eq_some_iff.mp found
      have member : (other, node) ∈ contents.map fun entry : Location × Option Nat =>
          (entry.1 ++ location, (Node.plain entry.2 : Node Mark)) := by
        rw [entries]
        exact List.mem_append_right _ List.mem_cons_self
      obtain ⟨content, -, same⟩ := List.mem_map.mp member
      obtain ⟨-, rfl⟩ := Prod.mk.inj same
      exact Node.mark_plain content.2

@[simp] theorem get_removeTree :
    (files.removeTree location).get other =
      if location <:+ other then none else files.get other := by
  unfold get removeTree
  by_cases below : location <:+ other
  · rw [if_pos below, List.lookup_eq_none_iff]
    intro entry member
    have kept := of_decide_eq_true (List.mem_filter.mp member).2
    rw [bne_iff_ne]
    rintro rfl
    exact kept below
  · rw [if_neg below]
    dsimp only
    induction files.entries with
    | nil => rfl
    | cons entry entries ih =>
        by_cases here : other = entry.1
        · have kept : decide (¬location <:+ entry.1) = true := decide_eq_true (here ▸ below)
          rw [List.filter_cons, if_pos kept, List.lookup_cons, List.lookup_cons, ih]
        · have differs := beq_false_of_ne here
          rw [List.filter_cons]
          split
          · rw [List.lookup_cons, List.lookup_cons, differs, ih]
          · rw [List.lookup_cons, differs, ih]

theorem get_removeTree_of_not_suffix {files : FileSystem Mark} {location other : Location}
    (outside : ¬location <:+ other) : (files.removeTree location).get other = files.get other := by
  rw [get_removeTree, if_neg outside]

@[simp] theorem markAt_put (mark : Option Mark) :
    (files.put location (.directory mark)).markAt other =
      if other = location then mark else files.markAt other := by
  rw [markAt, get_put]
  split <;> rfl

theorem markAt_removeTree :
    (files.removeTree location).markAt other =
      if location <:+ other then none else files.markAt other := by
  rw [markAt, get_removeTree]
  split <;> rfl

@[simp] theorem markAt_modifyMark (change : Mark → Mark) :
    (files.modifyMark location change).markAt other =
      if other = location then (files.markAt location).map change else files.markAt other := by
  unfold modifyMark
  cases found : files.markAt location with
  | none =>
      by_cases same : other = location
      · rw [same, if_pos rfl, found]
        rfl
      · rw [if_neg same]
  | some mark => rw [markAt_put]; rfl

theorem get_modifyMark_of_ne (change : Mark → Mark) (differ : other ≠ location) :
    (files.modifyMark location change).get other = files.get other := by
  unfold modifyMark
  split
  · rfl
  · rw [get_put, if_neg differ]

@[simp] theorem cwd_modifyMark (change : Mark → Mark) :
    (files.modifyMark location change).cwd = files.cwd := by
  unfold modifyMark
  split <;> rfl

variable {files location other}

theorem get_of_markAt {mark : Mark} (marked : files.markAt location = some mark) :
    files.get location = some (.directory (some mark)) := by
  obtain ⟨node, found, isMark⟩ := Option.bind_eq_some_iff.mp marked
  cases node with
  | file size => cases isMark
  | directory other =>
      rw [found]
      exact congrArg (some ∘ Node.directory) isMark

/-! ## Walking -/

theorem walk_append (first second : List PathStep) :
    files.walk location (first ++ second) =
      (files.walk location first).bind fun middle => files.walk middle second := by
  induction first generalizing location with
  | nil => rfl
  | cons step first ih =>
      cases step with
      | up =>
          rw [List.cons_append, walk, walk]
          split
          · exact ih
          · rfl
      | down name =>
          rw [List.cons_append, walk, walk]
          split
          · exact ih
          · rfl

/-- Steps that lead somewhere lead where they would lead anyway. -/
theorem follow_of_walk {steps : List PathStep}
    (leads : files.walk location steps = some other) : follow location steps = other := by
  induction steps generalizing location with
  | nil => exact Option.some.inj leads
  | cons step steps ih =>
      cases step with
      | up =>
          rw [walk] at leads
          split at leads
          · exact ih leads
          · cases leads
      | down name =>
          rw [walk] at leads
          split at leads
          · exact ih leads
          · cases leads

theorem target_of_resolve {path : Path} (leads : files.resolve path = some location) :
    files.target path = location :=
  follow_of_walk leads

/-- Only the working directory counts. -/
theorem target_congr {later : FileSystem Mark} (cwd : later.cwd = files.cwd) (path : Path) :
    later.target path = files.target path := by
  rw [target, target, start, start, cwd]

/-- Where the same directories are, the same steps lead to the same place. -/
theorem walk_mono {later : FileSystem Mark}
    (kept : ∀ location, files.isDir location → later.isDir location) {steps : List PathStep}
    (leads : files.walk location steps = some other) : later.walk location steps = some other := by
  induction steps generalizing location with
  | nil => exact leads
  | cons step steps ih =>
      cases step with
      | up =>
          rw [walk] at leads ⊢
          split at leads
          · rename_i isDir
            rw [if_pos (kept _ isDir)]
            exact ih leads
          · cases leads
      | down name =>
          rw [walk] at leads ⊢
          split at leads
          · rename_i isDir
            rw [if_pos (kept _ isDir)]
            exact ih leads
          · cases leads

/-- A path leads to the same place where the same directories are. -/
theorem resolve_mono {later : FileSystem Mark} (cwd : later.cwd = files.cwd)
    (kept : ∀ location, files.isDir location → later.isDir location) {path : Path}
    (leads : files.resolve path = some location) : later.resolve path = some location := by
  unfold resolve start at *
  rw [cwd]
  exact walk_mono kept leads

/-- A path with one step down more leads there. -/
theorem resolve_down {root : Text} {steps : List PathStep}
    (leads : files.resolve ⟨root, steps⟩ = some location) (isDir : files.isDir location)
    (name : Name) : files.resolve ⟨root, steps ++ [.down name]⟩ = some (name :: location) := by
  have walks : files.walk (files.start ⟨root, steps ++ [.down name]⟩) steps = some location :=
    leads
  rw [resolve, walk_append, walks, Option.bind_some, walk, if_pos isDir, walk]

/-- What leads there leads to the directory first. -/
theorem exists_resolve_of_down {root : Text} {steps : List PathStep} {name : Name}
    (leads : files.resolve ⟨root, steps ++ [.down name]⟩ = some location) :
    ∃ parent, files.resolve ⟨root, steps⟩ = some parent ∧ location = name :: parent := by
  rw [resolve, walk_append] at leads
  obtain ⟨parent, walks, leads⟩ := Option.bind_eq_some_iff.mp leads
  rw [walk] at leads
  split at leads
  · exact ⟨parent, walks, (Option.some.inj leads).symm⟩
  · cases leads

/-- Entries of a directory have nothing below them in common. -/
theorem not_suffix_of_ne {first second : Name} (differ : first ≠ second)
    (below : first :: location <:+ other) : ¬second :: location <:+ other := by
  intro alsoBelow
  have suffix := List.suffix_of_suffix_length_le below alsoBelow (by simp)
  exact differ (List.cons.inj (suffix.eq_of_length (by simp))).1

/-! ## Making directories -/

/-- The other file system has more directories, none of them marked. -/
structure Extends (files made : FileSystem Mark) : Prop where
  cwd : made.cwd = files.cwd
  get : ∀ location, made.get location = files.get location ∨
    files.get location = none ∧ made.get location = some (.directory none)

theorem Extends.isDir {made : FileSystem Mark} (extended : files.Extends made)
    (isDir : files.isDir location) : made.isDir location := by
  rcases extended.get location with same | ⟨absent, -⟩
  · rwa [FileSystem.isDir, same]
  · rw [FileSystem.isDir, absent] at isDir
    cases isDir

theorem Extends.markAt {made : FileSystem Mark} (extended : files.Extends made) :
    made.markAt location = files.markAt location := by
  rcases extended.get location with same | ⟨absent, present⟩
  · rw [FileSystem.markAt, same, FileSystem.markAt]
  · rw [FileSystem.markAt, present, FileSystem.markAt, absent]
    rfl

theorem extends_put (absent : files.get location = none) :
    files.Extends (files.put location (.directory none)) := by
  refine ⟨rfl, fun other => ?_⟩
  rw [get_put]
  by_cases same : other = location
  · exact .inr ⟨same ▸ absent, if_pos same⟩
  · exact .inl (if_neg same)

theorem Extends.trans {made later : FileSystem Mark} (first : files.Extends made)
    (second : made.Extends later) : files.Extends later := by
  refine ⟨second.cwd.trans first.cwd, fun location => ?_⟩
  rcases second.get location with same | ⟨absent, present⟩
  · rw [same]
    exact first.get location
  · rcases first.get location with same | ⟨-, already⟩
    · exact .inr ⟨same ▸ absent, present⟩
    · rw [already] at absent
      cases absent

variable {made : FileSystem Mark} {steps : List PathStep}

theorem Extends.get_eq_none (extended : files.Extends made)
    (absent : made.get location = none) : files.get location = none := by
  rcases extended.get location with same | ⟨missing, -⟩
  · rwa [← same]
  · exact missing

theorem makeDirs_extends (makes : files.makeDirs location steps = some made) :
    files.Extends made := by
  fun_induction makeDirs files location steps with
  | case1 files location isDir =>
      obtain rfl := Option.some.inj makes
      exact ⟨rfl, fun _ => .inl rfl⟩
  | case2 => cases makes
  | case3 files location steps isDir ih => exact ih makes
  | case4 => cases makes
  | case5 files location name steps isDir node found ih => exact ih makes
  | case6 files location name steps isDir absent ih => exact (extends_put absent).trans (ih makes)
  | case7 => cases makes

/-- Where the directories are made, the steps lead to one of them. -/
theorem exists_walk_of_makeDirs (makes : files.makeDirs location steps = some made) :
    ∃ last, made.walk location steps = some last ∧ made.isDir last := by
  fun_induction makeDirs files location steps with
  | case1 files location isDir =>
      obtain rfl := Option.some.inj makes
      exact ⟨location, rfl, isDir⟩
  | case2 => cases makes
  | case3 files location steps isDir ih =>
      rw [walk, if_pos ((makeDirs_extends makes).isDir isDir)]
      exact ih makes
  | case4 => cases makes
  | case5 files location name steps isDir node found ih =>
      rw [walk, if_pos ((makeDirs_extends makes).isDir isDir)]
      exact ih makes
  | case6 files location name steps isDir absent ih =>
      have extended := (extends_put absent).trans (makeDirs_extends makes)
      rw [walk, if_pos (extended.isDir isDir)]
      exact ih makes
  | case7 => cases makes

theorem isSome_get_of_walk {last : Location} (leads : files.walk location steps = some last)
    (present : (files.get last).isSome) : (files.get location).isSome := by
  have ofDir : files.isDir location → (files.get location).isSome := fun isDir =>
    Option.isSome_of_any isDir
  cases steps with
  | nil =>
      obtain rfl := Option.some.inj leads
      exact present
  | cons step steps =>
      cases step with
      | up =>
          rw [walk] at leads
          split at leads
          · exact ofDir ‹_›
          · cases leads
      | down name =>
          rw [walk] at leads
          split at leads
          · exact ofDir ‹_›
          · cases leads

/-- Nothing is made along steps that lead somewhere. -/
theorem makeDirs_of_walk {last : Location} (leads : files.walk location steps = some last)
    (present : (files.get last).isSome) :
    files.makeDirs location steps = if files.isDir last then some files else none := by
  induction steps generalizing location with
  | nil =>
      obtain rfl := Option.some.inj leads
      rw [makeDirs]
  | cons step steps ih =>
      cases step with
      | up =>
          rw [walk] at leads
          rw [makeDirs]
          split at leads
          · rename_i isDir
            rw [if_pos isDir, ih leads]
          · cases leads
      | down name =>
          rw [walk] at leads
          rw [makeDirs]
          split at leads
          · rename_i isDir
            obtain ⟨node, found⟩ := Option.isSome_iff_exists.mp (isSome_get_of_walk leads present)
            rw [if_pos isDir, found, ih leads]
          · cases leads

/-- The directories of some steps and one step more. -/
theorem makeDirs_down {last : Location} {name : Name}
    (makes : files.makeDirs location steps = some made)
    (leads : made.walk location steps = some last) (absent : made.get (name :: last) = none) :
    files.makeDirs location (steps ++ [.down name]) =
      some (made.put (name :: last) (.directory none)) := by
  fun_induction makeDirs files location steps with
  | case1 files location isDir =>
      obtain rfl := Option.some.inj makes
      obtain rfl := Option.some.inj leads
      have isMade : (files.put (name :: location) (.directory none)).isDir (name :: location) := by
        simp [FileSystem.isDir, Node.isDirectory]
      simp only [List.nil_append, makeDirs, isDir, if_true, absent, isMade]
  | case2 => cases makes
  | case3 files location steps isDir ih =>
      rw [walk, if_pos ((makeDirs_extends makes).isDir isDir)] at leads
      rw [List.cons_append, makeDirs, if_pos isDir, ih makes leads]
  | case4 => cases makes
  | case5 files location other steps isDir node found ih =>
      rw [walk, if_pos ((makeDirs_extends makes).isDir isDir)] at leads
      rw [List.cons_append, makeDirs, if_pos isDir, found]
      exact ih makes leads
  | case6 files location other steps isDir absentThere ih =>
      have extended := (extends_put absentThere).trans (makeDirs_extends makes)
      rw [walk, if_pos (extended.isDir isDir)] at leads
      rw [List.cons_append, makeDirs, if_pos isDir, absentThere]
      exact ih makes leads
  | case7 => cases makes

/-! ## What is made -/

/-- The marked directory with its contents keeps the directories that there are. -/
theorem isDir_put_putBelow (contents : List (Location × Option Nat)) (mark : Option Mark)
    (isDir : files.isDir other) :
    ((files.putBelow location contents).put location (.directory mark)).isDir other := by
  unfold FileSystem.isDir at *
  rw [get_put]
  split
  · rfl
  · rwa [get_putBelow_of_isSome _ _ _ _ (Option.isSome_of_any isDir)]

theorem resolve_put_putBelow (contents : List (Location × Option Nat)) (mark : Option Mark)
    {path : Path} (leads : files.resolve path = some other) :
    ((files.putBelow location contents).put location (.directory mark)).resolve path =
      some other :=
  walk_mono (fun _ isDir => isDir_put_putBelow contents mark isDir) leads

/-- A created directory is where the path leads, with its mark; no other mark changes. -/
theorem create_spec {path : Path} {mark : Mark} {contents : List (Location × Option Nat)}
    (creates : files.create path mark contents = some made) :
    ∃ location, made.resolve path = some location ∧
      ∀ other, made.markAt other = if other = location then some mark else files.markAt other := by
  obtain ⟨extended, makes, creates⟩ := Option.bind_eq_some_iff.mp creates
  obtain ⟨location, leads, creates⟩ := Option.bind_eq_some_iff.mp creates
  obtain rfl := Option.some.inj creates
  have more := makeDirs_extends makes
  refine ⟨location, ?_, fun other => ?_⟩
  · exact resolve_put_putBelow contents (some mark) leads
  · rw [markAt_put, markAt_putBelow, more.markAt]

/-- A directory created below one that is there, or is made, changes nothing elsewhere. -/
theorem exists_create_down {root : Text} {steps : List PathStep} {name : Name}
    (makes : files.makeDirs (files.start ⟨root, steps⟩) steps = some made)
    (leads : made.resolve ⟨root, steps⟩ = some location) (isDir : made.isDir location)
    (absent : made.get (name :: location) = none) (mark : Mark)
    (contents : List (Location × Option Nat)) :
    ∃ created, files.create ⟨root, steps ++ [.down name]⟩ mark contents = some created ∧
      created.cwd = made.cwd ∧
      created.resolve ⟨root, steps ++ [.down name]⟩ = some (name :: location) ∧
      created.markAt (name :: location) = some mark ∧
      ∀ other, ¬name :: location <:+ other → created.get other = made.get other := by
  have cwd := (makeDirs_extends makes).cwd
  have walks : made.walk (files.start ⟨root, steps⟩) steps = some location := by
    rw [← leads, resolve, start, start, cwd]
  have extended := extends_put absent
  have leadsThere := resolve_down (resolve_mono extended.cwd (fun _ => extended.isDir) leads)
    (extended.isDir isDir) name
  refine ⟨((made.put (name :: location) (.directory none)).putBelow (name :: location) contents).put
    (name :: location) (.directory (some mark)), ?_, rfl, ?_, ?_, fun other outside => ?_⟩
  · have makesThere := makeDirs_down makes walks absent
    unfold create
    simp only [start] at makesThere ⊢
    rw [makesThere, Option.bind_eq_bind, Option.bind_some, leadsThere]
    rfl
  · exact resolve_put_putBelow contents (some mark) leadsThere
  · rw [markAt_put, if_pos rfl]
  · have differ : other ≠ name :: location := by
      rintro rfl
      exact outside (List.suffix_refl _)
    rw [get_put, if_neg differ, get_putBelow _ _ _ _ outside, get_put, if_neg differ]

theorem mem_locations_iff : location ∈ files.locations ↔ (files.get location).isSome := by
  unfold locations get
  rw [List.mem_dedup, List.mem_map, List.lookup_isSome_iff]
  simp only [beq_iff_eq, @eq_comm _ location]

theorem mem_names_iff {name : Name} :
    name ∈ files.names location ↔ (files.get (name :: location)).isSome := by
  rw [← mem_locations_iff, names, List.mem_filterMap]
  constructor
  · rintro ⟨entry, member, isName⟩
    cases entry with
    | nil => cases isName
    | cons first parent =>
        dsimp only at isName
        split at isName
        · rename_i isParent
          rw [← Option.some.inj isName, ← isParent]
          exact member
        · cases isName
  · intro member
    exact ⟨name :: location, member, if_pos rfl⟩

end FileSystem

end Foundations
