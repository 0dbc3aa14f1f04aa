import Kenjutsu.Diff.Scopes

/-!
# Signatures

The signature of a scope is cut by rows: the lines from the first row of the scope up to
the row of its body, without that row. So it carries the declaration only if the body begins
on a later row with nothing before it there. That is enough where the lines are the rows, as
long as no carriage return stands inside a row before the body. One that does is seen, unless
white space or a repeated row hides it (`hidden_of_isPrefix`).
-/

set_option autoImplicit false

namespace Kenjutsu.Diff

open Foundations Foundations.Text

/-! ## The text of lines -/

/-- A line as it goes into the text. -/
def trimmed (line : Bytes) : Text := rstrip (Bytes.decode line)

theorem intercalate_concat (lines : List Text) (last : Text) :
    List.intercalate ['\n'] (lines ++ [last]) = unlines lines ++ last := by
  induction lines with
  | nil => simp [unlines]
  | cons line lines ih =>
      cases lines with
      | nil => simp [unlines, List.intercalate]
      | cons next lines =>
          rw [List.cons_append, List.cons_append, List.intercalate_cons_cons, ← List.cons_append,
            ih]
          simp [unlines]

theorem textOf_concat (lines : List Bytes) (last : Bytes) :
    textOf (lines ++ [last]) = strip (unlines (lines.map trimmed) ++ trimmed last) := by
  rw [textOf, List.map_append, ← intercalate_concat]
  rfl

theorem textOf_singleton (line : Bytes) : textOf [line] = strip (Bytes.decode line) := by
  rw [← List.nil_append [line], textOf_concat]
  exact strip_rstrip _

/-- A blank last line adds nothing. -/
theorem textOf_concat_of_blank (lines : List Bytes) {last : Bytes}
    (blank : strip (Bytes.decode last) = []) : textOf (lines ++ [last]) = textOf lines := by
  have nothing : trimmed last = [] :=
    List.rdropWhile_eq_nil_iff.mpr (isSpace_of_strip_eq_nil blank)
  rw [textOf_concat, nothing, List.append_nil]
  induction lines using List.reverseRecOn with
  | nil => rfl
  | append_singleton lines line _ =>
      rw [textOf_concat, List.map_append, List.map_singleton]
      have split : unlines (lines.map trimmed ++ [trimmed line]) =
          unlines (lines.map trimmed) ++ trimmed line ++ ['\n'] := by
        simp [unlines]
      rw [split, strip_append_of_blank (List.forall_mem_singleton.mpr rfl)]

/-- Nothing, or a new line. -/
def IsTail (text : Text) : Prop := text = [] ∨ ∃ rest, text = '\n' :: rest

theorem textOf_append_cons (before : List Bytes) (line : Bytes) (after : List Bytes) :
    ∃ more, IsTail more ∧ textOf (before ++ line :: after) =
      strip (unlines (before.map trimmed) ++ trimmed line ++ more) := by
  cases after with
  | nil =>
      refine ⟨[], .inl rfl, ?_⟩
      rw [textOf_concat, List.append_nil]
  | cons next after =>
      obtain ⟨lines, last, split⟩ :=
        (List.eq_nil_or_concat' (next :: after)).resolve_left (List.cons_ne_nil _ _)
      refine ⟨'\n' :: (unlines (lines.map trimmed) ++ trimmed last), .inr ⟨_, rfl⟩, ?_⟩
      have whole : before ++ line :: next :: after = before ++ line :: lines ++ [last] := by
        rw [split]
        simp
      rw [whole, textOf_concat]
      simp [unlines]

/-- The text of lines begins with the first one, if it is not blank. -/
theorem strip_isPrefix_textOf {line : Bytes} (nonblank : strip (Bytes.decode line) ≠ [])
    (lines : List Bytes) : strip (Bytes.decode line) <+: textOf (line :: lines) := by
  have same := strip_rstrip (Bytes.decode line)
  have nonblankTrimmed : strip (trimmed line) ≠ [] := by
    rw [trimmed, same]
    exact nonblank
  obtain ⟨more, -, split⟩ := textOf_append_cons [] line lines
  have isPrefix := strip_isPrefix nonblankTrimmed more
  rw [List.nil_append] at split
  rw [split, ← same]
  exact isPrefix

/-! ## Counting newlines -/

/-- No newline is left inside a line, or a row. -/
theorem newline_not_mem_trimmed {ends : UInt8 → Bytes → Bool} (always : ∀ rest, ends 10 rest)
    {source line : Bytes} (isLine : line ∈ Bytes.cut ends source) : '\n' ∉ trimmed line := by
  intro member
  by_cases ends : 10 ∈ line
  · obtain ⟨before, after, split, plain⟩ := List.eq_append_cons_of_mem ends
    have last := Bytes.eq_nil_of_mem_cut always source line isLine before after split
    have decoded : Bytes.decode line = Bytes.decode before ++ ['\n'] := by
      rw [split, last, Bytes.decode_append_cons before (by decide)]
      rfl
    rw [trimmed, rstrip, decoded, List.rdropWhile_concat_pos _ _ _ (by decide)] at member
    exact plain (Bytes.newline_mem_decode ((List.rdropWhile_prefix isSpace _).subset member))
  · exact ends (Bytes.newline_mem_decode ((List.rdropWhile_prefix isSpace _).subset member))

theorem le_count_unlines (lines : List Text) : lines.length ≤ (unlines lines).count '\n' := by
  induction lines with
  | nil => exact Nat.zero_le _
  | cons line lines ih =>
      rw [unlines, List.flatMap_cons, List.count_append, List.count_append, List.length_cons]
      have own : ['\n'].count '\n' = 1 := by decide
      rw [unlines] at ih
      omega

theorem count_unlines {lines : List Text} (plain : ∀ line ∈ lines, '\n' ∉ line) :
    (unlines lines).count '\n' = lines.length := by
  induction lines with
  | nil => rfl
  | cons line lines ih =>
      obtain ⟨own, others⟩ := List.forall_mem_cons.mp plain
      have rest := ih others
      have one : ['\n'].count '\n' = 1 := by decide
      rw [unlines] at rest
      rw [unlines, List.flatMap_cons, List.count_append, List.count_append, rest, one,
        List.count_eq_zero.mpr own, List.length_cons]
      omega

/-- The text of some lines has fewer newlines in it than there are lines. -/
theorem count_textOf_lt {lines : List Bytes} (nonempty : lines ≠ [])
    (plain : ∀ line ∈ lines, '\n' ∉ trimmed line) :
    (textOf lines).count '\n' < lines.length := by
  induction lines using List.reverseRecOn with
  | nil => exact absurd rfl nonempty
  | append_singleton lines last _ =>
      have others : ∀ line ∈ lines.map trimmed, '\n' ∉ line := by
        intro line member
        obtain ⟨original, isLine, rfl⟩ := List.mem_map.mp member
        exact plain original (List.mem_append_left _ isLine)
      have ofLast := List.count_eq_zero.mpr (plain last (by simp))
      have fewer := (strip_sublist (unlines (lines.map trimmed) ++ trimmed last)).count_le '\n'
      rw [List.count_append, count_unlines others, ofLast, List.length_map] at fewer
      rw [textOf_concat, List.length_append, List.length_singleton]
      omega

/-- Between two lines that are not blank, every line end is kept. -/
theorem le_count_textOf {line last : Bytes} (nonblank : strip (Bytes.decode line) ≠ [])
    (nonblankLast : strip (Bytes.decode last) ≠ []) (lines : List Bytes) :
    lines.length < (textOf (line :: lines ++ [last])).count '\n' := by
  have ofLine : strip (trimmed line) ≠ [] := by rwa [trimmed, strip_rstrip]
  have ofLast : strip (trimmed last) ≠ [] := by rwa [trimmed, strip_rstrip]
  have split : unlines ((line :: lines).map trimmed) ++ trimmed last =
      trimmed line ++ ('\n' :: unlines (lines.map trimmed) ++ trimmed last) := by
    simp [unlines]
  have atLeast := le_count_unlines (lines.map trimmed)
  rw [textOf_concat, split, strip_append_append _ ofLine ofLast, List.count_append,
    List.count_append, List.count_cons_self]
  rw [List.length_map] at atLeast
  omega

/-! ## A carriage return inside a row -/

/-- Texts that begin alike go on alike: what goes on within the line begins no text that ends
there or goes on with the next line. -/
theorem blank_of_strip_isPrefix {shared rest more : Text} (nonblank : strip shared ≠ [])
    (within : rest.head? ≠ some '\n') (tail : IsTail more)
    (isPrefix : strip (shared ++ rest) <+: strip (shared ++ more)) : strip rest = [] := by
  by_contra nonblankRest
  have nonempty : rstrip rest ≠ [] := by
    intro nothing
    rw [← strip_rstrip, nothing] at nonblankRest
    exact nonblankRest rfl
  have left : strip (shared ++ rest) = shared.dropWhile isSpace ++ rstrip rest :=
    strip_append_append [] nonblank nonblankRest
  rw [left] at isPrefix
  by_cases blank : strip more = []
  · rw [strip_append_of_blank (isSpace_of_strip_eq_nil blank)] at isPrefix
    have short := (isPrefix.trans (List.rdropWhile_prefix isSpace _)).length_le
    rw [List.length_append] at short
    exact nonempty (List.length_eq_zero_iff.mp (by omega))
  · have right : strip (shared ++ more) = shared.dropWhile isSpace ++ rstrip more :=
      strip_append_append [] nonblank blank
    rw [right, List.prefix_append_right_inj] at isPrefix
    obtain ⟨later, rfl⟩ := tail.resolve_left (by rintro rfl; exact blank rfl)
    have begins := isPrefix.trans (List.rdropWhile_prefix isSpace _)
    cases first : rstrip rest with
    | nil => exact nonempty first
    | cons character others =>
        have same : rest.head? = some character := by
          obtain ⟨_, split⟩ := List.rdropWhile_prefix isSpace rest
          rw [← split, ← rstrip, first]
          rfl
        rw [first, List.cons_prefix_cons] at begins
        exact within (same.trans (congrArg some begins.1))

/-- **The signature stops at a carriage return**: it begins with the whole row only if there is
nothing but white space after the return. -/
theorem blank_of_return {above below other : List Bytes} {before after : Bytes}
    (noNewline : 10 ∉ before)
    (nonblank : strip (unlines (above.map trimmed) ++ trimmed before) ≠ [])
    (isPrefix : textOf (above ++ (before ++ 13 :: after) :: below) <+:
      textOf (above ++ (before ++ [13]) :: other)) : strip (Bytes.decode after) = [] := by
  by_contra nonblankAfter
  have decoded : ∀ rest, Bytes.decode (before ++ 13 :: rest) =
      Bytes.decode before ++ '\r' :: Bytes.decode rest :=
    Bytes.decode_append_cons before (by decide)
  have cutThere : trimmed (before ++ [13]) = trimmed before := by
    rw [trimmed, decoded, rstrip]
    exact List.rdropWhile_concat_pos _ _ _ (by decide)
  rw [← strip_rstrip] at nonblankAfter
  obtain ⟨character, member, plain⟩ := exists_of_strip_ne_nil nonblankAfter
  have goesOn : trimmed (before ++ 13 :: after) =
      Bytes.decode before ++ '\r' :: rstrip (Bytes.decode after) := by
    have inside := (List.rdropWhile_prefix isSpace _).subset member
    rw [trimmed, decoded, List.append_cons, rstrip, rdropWhile_append_of_mem inside plain]
    simp [rstrip]
  obtain ⟨spaces, blankSpaces, split⟩ := exists_rstrip_append (Bytes.decode before)
  obtain ⟨more, -, whole⟩ := textOf_append_cons above (before ++ 13 :: after) below
  obtain ⟨tail, isTail, part⟩ := textOf_append_cons above (before ++ [13]) other
  have shared : unlines (above.map trimmed) ++ trimmed (before ++ 13 :: after) ++ more =
      unlines (above.map trimmed) ++ trimmed before ++
        (spaces ++ '\r' :: rstrip (Bytes.decode after) ++ more) := by
    rw [goesOn, ← split, trimmed]
    simp
  rw [whole, part, shared, cutThere] at isPrefix
  have blank := blank_of_strip_isPrefix nonblank ?_ isTail isPrefix
  · have space := isSpace_of_strip_eq_nil blank character (by simp [member])
    rw [plain] at space
    cases space
  · cases spaces with
    | nil => simp
    | cons space spaces =>
        intro newline
        obtain rfl := Option.some.inj newline
        exact noNewline (Bytes.newline_mem_decode (split ▸ List.mem_append_right _
          List.mem_cons_self))

/-! ## The signature of a scope -/

section Rows

variable {source : Bytes} {row start stop : Nat}

theorem lt_length_of_not_blank {part : Bytes → Bytes} (ofNothing : part [] = [])
    (nonblank : strip (Bytes.decode (part (rowAt source row))) ≠ []) :
    row < (Bytes.rows source).length := by
  by_contra beyond
  have none := List.getElem?_eq_none_iff.mpr (not_lt.mp beyond)
  rw [rowAt, none, Option.getD_none, ofNothing] at nonblank
  exact nonblank rfl

theorem length_slice (lines : List Bytes) :
    (slice lines start stop).length = min stop lines.length - start := by
  rw [slice, List.length_drop, List.length_take]

theorem slice_eq_nil (lines : List Bytes) (above : stop ≤ start) : slice lines start stop = [] :=
  List.drop_eq_nil_of_le ((List.length_take_le _ _).trans above)

/-- Lines before one of them, it, and those after it. -/
theorem slice_split {lines : List Bytes} {row : Nat} {line : Bytes} (within : start ≤ row)
    (below : row < stop) (isLine : lines[row]? = some line) :
    slice lines start stop = slice lines start row ++ line :: slice lines (row + 1) stop := by
  obtain ⟨here, rfl⟩ := List.getElem?_eq_some_iff.mp isLine
  have inTaken : row < (lines.take stop).length := by
    rw [List.length_take]
    omega
  have upTo : (lines.take stop).take row = lines.take row := by
    rw [List.take_take, min_eq_left below.le]
  have atRow : (lines.take stop)[row] = lines[row] := List.getElem_take
  have split : (lines.take stop).drop start =
      ((lines.take stop).take row).drop start ++ (lines.take stop).drop row := by
    rw [← List.drop_append_of_le_length (by rw [List.length_take]; omega), List.take_append_drop]
  rw [slice, split, upTo, List.drop_eq_getElem_cons inTaken, atRow]
  rfl

/-- The rows from one that is not blank. -/
theorem slice_rows (below : start < stop)
    (nonblank : strip (Bytes.decode (rowAt source start)) ≠ []) :
    slice (Bytes.rows source) start stop =
      rowAt source start :: slice (Bytes.rows source) (start + 1) stop := by
  have within := @lt_length_of_not_blank source _ id rfl nonblank
  have isRow : (Bytes.rows source)[start]? = some (rowAt source start) := by
    rw [rowAt, List.getElem?_eq_getElem within]
    rfl
  rw [slice_split le_rfl below isRow, slice_eq_nil _ le_rfl]
  rfl

/-- Lines that have the text of the rows up to some text in a later row are more than
those up to it, so there is none. -/
theorem blank_of_isPrefix {column : Nat} (below : start < stop)
    (nonblank : strip (Bytes.decode (rowAt source start)) ≠ [])
    (covers : textOf (slice (Bytes.rows source) start stop ++ [(rowAt source stop).take column]) <+:
      textOf (slice (Bytes.splitlines source) start stop)) :
    strip (Bytes.decode ((rowAt source stop).take column)) = [] := by
  by_contra nonblankLast
  have within := lt_length_of_not_blank List.take_nil nonblankLast
  rw [slice_rows below nonblank] at covers
  have atLeast := (le_count_textOf nonblank nonblankLast _).trans_le (covers.sublist.count_le '\n')
  have plain : ∀ line ∈ slice (Bytes.splitlines source) start stop, '\n' ∉ trimmed line :=
    fun line member =>
      newline_not_mem_trimmed (fun _ => rfl) (List.mem_of_mem_take (List.mem_of_mem_drop member))
  have nonempty : slice (Bytes.splitlines source) start stop ≠ [] := by
    intro nothing
    rw [nothing] at atLeast
    exact absurd atLeast (Nat.not_lt_zero _)
  have atMost := count_textOf_lt nonempty plain
  rw [length_slice] at atLeast atMost
  omega

/-- No carriage return stands inside a row above another one. -/
def RowsUnbroken (source : Bytes) (stop : Nat) : Prop :=
  ∀ row ∈ (Bytes.rows source).take stop, Bytes.ReturnsAtEnd row

/-- The line with the number of a row, as `splitlines` counts. -/
def sourceLineAt (source : Bytes) (row : Nat) : Bytes := ((Bytes.splitlines source)[row]?).getD []

/-- A carriage return inside a row need not show: there is only white space after it in its row,
or before it on the first row, or it stands above the first row, where the line of the same
number is blank or begins as this row does. -/
def ReturnHidden (source : Bytes) (start stop : Nat) : Prop :=
  ∃ row < stop, ∃ before after, Bytes.FirstReturn source row before after ∧
    (start ≤ row ∧ strip (Bytes.decode after) = [] ∨
      row = start ∧ strip (Bytes.decode before) = [] ∨
      row < start ∧ (strip (Bytes.decode (sourceLineAt source start)) = [] ∨
        strip (Bytes.decode (rowAt source start)) <+:
          strip (Bytes.decode (sourceLineAt source start))))

theorem newline_not_mem_rowAt : '\n' ∉ strip (Bytes.decode (rowAt source row)) := by
  intro member
  rw [← strip_rstrip] at member
  have inside : '\n' ∈ trimmed (rowAt source row) := (strip_sublist _).subset member
  cases isRow : (Bytes.rows source)[row]? with
  | none =>
      rw [rowAt, isRow] at inside
      cases inside
  | some line =>
      rw [rowAt, isRow] at inside
      exact newline_not_mem_trimmed (fun _ => rfl) (List.mem_of_getElem? isRow) inside

/-- Where the text of the lines begins with the first row, the line of the same number is blank or
begins with it. -/
theorem sourceLineAt_of_isPrefix (below : start < stop)
    (begins : strip (Bytes.decode (rowAt source start)) <+:
      textOf (slice (Bytes.splitlines source) start stop)) :
    strip (Bytes.decode (sourceLineAt source start)) = [] ∨
      strip (Bytes.decode (rowAt source start)) <+:
        strip (Bytes.decode (sourceLineAt source start)) := by
  by_cases blank : strip (Bytes.decode (sourceLineAt source start)) = []
  · exact .inl blank
  refine .inr ?_
  have isLine : (Bytes.splitlines source)[start]? = some (sourceLineAt source start) := by
    cases found : (Bytes.splitlines source)[start]? with
    | none =>
        rw [sourceLineAt, found] at blank
        exact absurd rfl blank
    | some line => rw [sourceLineAt, found, Option.getD_some]
  rw [slice_split le_rfl below isLine, slice_eq_nil _ le_rfl] at begins
  obtain ⟨more, tail, split⟩ := textOf_append_cons [] (sourceLineAt source start)
    (slice (Bytes.splitlines source) (start + 1) stop)
  rw [split] at begins
  change _ <+: strip (trimmed (sourceLineAt source start) ++ more) at begins
  have nonblankLine : strip (trimmed (sourceLineAt source start)) ≠ [] := by
    rwa [trimmed, strip_rstrip]
  by_cases blankMore : strip more = []
  · rw [strip_append_of_blank (isSpace_of_strip_eq_nil blankMore)] at begins
    rwa [← strip_rstrip (Bytes.decode (sourceLineAt source start))]
  · have goesOn : strip (trimmed (sourceLineAt source start) ++ more) =
        strip (Bytes.decode (sourceLineAt source start)) ++ rstrip more := by
      rw [← dropWhile_rstrip (Bytes.decode (sourceLineAt source start))]
      exact strip_append_append [] nonblankLine blankMore
    obtain ⟨later, rfl⟩ := tail.resolve_left (by rintro rfl; exact blankMore rfl)
    obtain ⟨rest, ends⟩ : ∃ rest, rstrip ('\n' :: later) = '\n' :: rest := by
      obtain ⟨character, member, plain⟩ := exists_of_strip_ne_nil blankMore
      have inLater : character ∈ later := by
        refine (List.mem_cons.mp member).resolve_left ?_
        rintro rfl
        cases plain
      have kept : rstrip (['\n'] ++ later) = ['\n'] ++ rstrip later :=
        rdropWhile_append_of_mem inLater plain
      exact ⟨_, kept⟩
    rw [goesOn, ends, ← List.isPrefixOf_iff_prefix, isPrefixOf_append_of_head] at begins
    · exact List.isPrefixOf_iff_prefix.mp begins
    · rintro _ ⟨⟩
      exact newline_not_mem_rowAt

/-- **Where lines have the text of the rows, no carriage return shows**: none stands inside a row,
or the first that does is hidden. -/
theorem hidden_of_isPrefix (below : start < stop)
    (nonblank : strip (Bytes.decode (rowAt source start)) ≠ [])
    (agree : textOf (slice (Bytes.rows source) start stop) <+:
      textOf (slice (Bytes.splitlines source) start stop))
    (broken : ¬RowsUnbroken source stop) : ReturnHidden source start stop := by
  obtain ⟨row, isAbove, before, after, first⟩ := Bytes.exists_firstReturn broken
  refine ⟨row, isAbove, before, after, first, ?_⟩
  by_cases above : row < start
  · rw [slice_rows below nonblank] at agree
    have begins := (strip_isPrefix_textOf nonblank _).trans agree
    exact .inr (.inr ⟨above, sourceLineAt_of_isPrefix below begins⟩)
  have within : start ≤ row := not_lt.mp above
  have same : slice (Bytes.splitlines source) start row = slice (Bytes.rows source) start row := by
    rw [slice, Bytes.take_splitlines _ _ first.earlier, slice]
  rw [slice_split within isAbove first.isRow,
    slice_split within isAbove first.getElem?_splitlines, same] at agree
  by_cases onFirst : row = start ∧ strip (Bytes.decode before) = []
  · exact .inr (.inl onFirst)
  refine .inl ⟨within, blank_of_return first.noNewline ?_ agree⟩
  rcases within.eq_or_lt with rfl | later
  · rw [slice_eq_nil _ le_rfl]
    intro blank
    exact onFirst ⟨rfl, (strip_rstrip _).symm.trans blank⟩
  · rw [slice_rows later nonblank]
    intro blank
    rw [← strip_rstrip] at nonblank
    obtain ⟨character, member, plain⟩ := exists_of_strip_ne_nil nonblank
    have space := isSpace_of_strip_eq_nil blank character (by simp [unlines, trimmed, member])
    rw [plain] at space
    cases space

end Rows

/-- The row before which the signature stops. -/
def stopRow (scope : Node) (langName : String) : Nat :=
  match bodyChild scope langName with
  | some body => body.label.startPoint.row
  | none => scope.label.startPoint.row + 1

theorem extractSignature_eq (scope : Node) (sourceLines : List Bytes) (langName : String) :
    extractSignature scope sourceLines langName =
      textOf (slice sourceLines scope.label.startPoint.row (stopRow scope langName)) := by
  rw [extractSignature, stopRow]
  cases bodyChild scope langName with
  | some body => rfl
  | none =>
      simp only [slice, List.drop_take, Nat.add_sub_cancel_left]
      cases isLine : sourceLines[scope.label.startPoint.row]? with
      | none =>
          rw [List.drop_eq_nil_of_le (List.getElem?_eq_none_iff.mp isLine)]
          rfl
      | some line =>
          obtain ⟨within, rfl⟩ := List.getElem?_eq_some_iff.mp isLine
          rw [List.drop_eq_getElem_cons within]
          rfl

/-- What stands before the body on its row. -/
def beforeBody (source : Bytes) (body : Node) : Bytes :=
  (rowAt source body.label.startPoint.row).take body.label.startPoint.column

/-- A signature has the text of the first row, and that of the declaration up to the
body. -/
structure CarriesDeclaration (source : Bytes) (scope : Node) (langName : String)
    (signature : Text) : Prop where
  nonempty : signature ≠ []
  begins : strip (Bytes.decode (rowAt source scope.label.startPoint.row)) <+: signature
  covers : ∀ body, bodyChild scope langName = some body →
    textOf (slice (Bytes.rows source) scope.label.startPoint.row body.label.startPoint.row ++
      [beforeBody source body]) <+: signature

/-- The body begins on a later row, with nothing before it there. -/
def BodyBelow (source : Bytes) (scope : Node) (langName : String) : Prop :=
  ∀ body, bodyChild scope langName = some body →
    scope.label.startPoint.row < body.label.startPoint.row ∧
      strip (Bytes.decode (beforeBody source body)) = []

/-- The lines from the first row up to the body begin with the text of the rows. -/
def LinesAgree (source : Bytes) (scope : Node) (langName : String) : Prop :=
  textOf (slice (Bytes.rows source) scope.label.startPoint.row (stopRow scope langName)) <+:
    textOf (slice (Bytes.splitlines source) scope.label.startPoint.row (stopRow scope langName))

variable {source : Bytes} {scope : Node} {langName : String}

theorem BodyBelow.lt_stopRow (below : BodyBelow source scope langName) :
    scope.label.startPoint.row < stopRow scope langName := by
  unfold stopRow
  split
  · rename_i body isBody
    exact (below body isBody).1
  · exact Nat.lt_succ_self _

/-- Lines and rows agree if no carriage return stands inside a row. -/
theorem RowsUnbroken.linesAgree (unbroken : RowsUnbroken source (stopRow scope langName)) :
    LinesAgree source scope langName := by
  unfold LinesAgree slice
  exact Bytes.take_splitlines _ _ unbroken ▸ List.prefix_rfl

/-- Without a body, the first row has to be the first line. -/
theorem carriesDeclaration_iff_of_none (hasNone : bodyChild scope langName = none)
    (nonblank : strip (Bytes.decode (rowAt source scope.label.startPoint.row)) ≠ []) :
    CarriesDeclaration source scope langName
        (extractSignature scope (Bytes.splitlines source) langName) ↔
      LinesAgree source scope langName := by
  have stop : stopRow scope langName = scope.label.startPoint.row + 1 := by
    rw [stopRow, hasNone]
  have oneRow : textOf (slice (Bytes.rows source) scope.label.startPoint.row
      (stopRow scope langName)) =
        strip (Bytes.decode (rowAt source scope.label.startPoint.row)) := by
    rw [stop, slice_rows (Nat.lt_succ_self _) nonblank, slice_eq_nil _ le_rfl, textOf_singleton]
  rw [LinesAgree, oneRow, ← extractSignature_eq]
  refine ⟨CarriesDeclaration.begins, fun begins => ⟨fun nothing => ?_, begins, ?_⟩⟩
  · rw [nothing] at begins
    exact nonblank (List.prefix_nil.mp begins)
  · intro body isBody
    rw [hasNone] at isBody
    cases isBody

/-- With a body, the rows before it have to be the lines, and all of the declaration. -/
theorem carriesDeclaration_iff_of_some {body : Node}
    (hasBody : bodyChild scope langName = some body)
    (nonblank : strip (Bytes.decode (rowAt source scope.label.startPoint.row)) ≠ []) :
    CarriesDeclaration source scope langName
        (extractSignature scope (Bytes.splitlines source) langName) ↔
      (scope.label.startPoint.row < body.label.startPoint.row ∧
        strip (Bytes.decode (beforeBody source body)) = []) ∧ LinesAgree source scope langName := by
  have stop : stopRow scope langName = body.label.startPoint.row := by
    rw [stopRow, hasBody]
  rw [LinesAgree, extractSignature_eq, stop]
  constructor
  · intro carries
    have below : scope.label.startPoint.row < body.label.startPoint.row := by
      by_contra above
      have nonempty := carries.nonempty
      rw [slice_eq_nil _ (not_lt.mp above)] at nonempty
      exact nonempty rfl
    have covers := carries.covers body hasBody
    have blank : strip (Bytes.decode (beforeBody source body)) = [] :=
      blank_of_isPrefix below nonblank covers
    rw [textOf_concat_of_blank _ blank] at covers
    exact ⟨⟨below, blank⟩, covers⟩
  · rintro ⟨⟨below, blank⟩, agree⟩
    have begins : strip (Bytes.decode (rowAt source scope.label.startPoint.row)) <+:
        textOf (slice (Bytes.splitlines source) scope.label.startPoint.row
          body.label.startPoint.row) := by
      refine List.IsPrefix.trans ?_ agree
      rw [slice_rows below nonblank]
      exact strip_isPrefix_textOf nonblank _
    refine ⟨fun nothing => ?_, begins, fun other isBody => ?_⟩
    · rw [nothing] at begins
      exact nonblank (List.prefix_nil.mp begins)
    · obtain rfl := Option.some.inj (hasBody.symm.trans isBody)
      rw [textOf_concat_of_blank _ blank]
      exact agree

/-- **A signature carries the declaration** exactly when the body begins below it, and the
lines agree with the rows. -/
theorem carriesDeclaration_iff
    (nonblank : strip (Bytes.decode (rowAt source scope.label.startPoint.row)) ≠ []) :
    CarriesDeclaration source scope langName
        (extractSignature scope (Bytes.splitlines source) langName) ↔
      BodyBelow source scope langName ∧ LinesAgree source scope langName := by
  cases hasBody : bodyChild scope langName with
  | none => simp [carriesDeclaration_iff_of_none hasBody nonblank, BodyBelow, hasBody]
  | some body => simp [carriesDeclaration_iff_of_some hasBody nonblank, BodyBelow, hasBody]

/-! ## Hunks and their scopes -/

/-- A text file that was changed is parsed in the language of its extension. -/
theorem parsePatch_eq {treeSitter : TreeSitter} {fileContentGetter : Text → Option Source}
    {patch : PatchFile} {langName : String} {content : Source}
    {tree : SyntaxTree langName content.toBytes}
    (isText : (patch.isBinary || patch.isDeletedFile || patch.hunks = []) = false)
    (isLanguage : detectLanguage patch.path = some langName)
    (loads : loadLanguage treeSitter langName)
    (isContent : fileContentGetter patch.path = some content)
    (parses : treeSitter.parse langName content.toBytes = some tree) :
    parsePatch treeSitter fileContentGetter patch = some ⟨langName, content.toBytes, tree⟩ := by
  rw [parsePatch, if_neg (by rw [isText]; exact Bool.false_ne_true), isLanguage]
  simp [loads, isContent, parses]

/-- What is parsed is the content of the file, in a language that can be loaded. -/
theorem exists_of_parsePatch {treeSitter : TreeSitter}
    {fileContentGetter : Text → Option Source} {patch : PatchFile} {parsed : Parsed}
    (isParsed : parsePatch treeSitter fileContentGetter patch = some parsed) :
    ∃ langName content tree, loadLanguage treeSitter langName ∧
      fileContentGetter patch.path = some content ∧
        treeSitter.parse langName content.toBytes = some tree ∧
          parsed = ⟨langName, content.toBytes, tree⟩ := by
  rw [parsePatch] at isParsed
  split at isParsed
  · cases isParsed
  · obtain ⟨langName, -, loaded⟩ := Option.bind_eq_some_iff.mp isParsed
    split at loaded
    · rename_i loads
      obtain ⟨content, isContent, rest⟩ := Option.bind_eq_some_iff.mp loaded
      obtain ⟨tree, parses, same⟩ := Option.bind_eq_some_iff.mp rest
      exact ⟨langName, content, tree, loads, isContent, parses, (Option.some.inj same).symm⟩
    · cases loaded

/-- `find_enclosing_scope` has the contexts that are attached to the hunks of a file. -/
theorem findEnclosingScope_eq {treeSitter : TreeSitter}
    {fileContentGetter : Text → Option Source} {patch : PatchFile} {parsed : Parsed}
    (isParsed : parsePatch treeSitter fileContentGetter patch = some parsed) :
    ∃ content, fileContentGetter patch.path = some content ∧
      ∀ hunk, findEnclosingScope treeSitter content hunk parsed.langName =
        some (parsed.contextOf hunk) := by
  obtain ⟨langName, content, tree, loads, isContent, parses, rfl⟩ := exists_of_parsePatch isParsed
  refine ⟨content, isContent, fun hunk => ?_⟩
  rw [findEnclosingScope, if_pos loads, parses]
  rfl

section Attached

variable {treeSitter : TreeSitter} {patches : List PatchFile}
  {fileContentGetter : Text → Option Source} {index position : Nat} {patch : PatchFile}
  {hunk : Hunk} {parsed : Parsed} {scope : Node}

/-- A hunk with a scope around it gets the context of that scope. -/
theorem getElem?_extendHunksWithAst (isPatch : patches[index]? = some patch)
    (isParsed : parsePatch treeSitter fileContentGetter patch = some parsed)
    (isHunk : patch.hunks[position]? = some hunk) (found : parsed.scopeOf hunk = some scope) :
    ((extendHunksWithAst treeSitter patches fileContentGetter)[index]?.bind
        fun file => file.hunks[position]?) =
      some { hunk with enclosingScope := some (buildScopeContext scope
        (Bytes.splitlines parsed.source) parsed.langName) } := by
  have extendedPatch : extendPatch treeSitter fileContentGetter patch =
      { patch with hunks := patch.hunks.map parsed.extendHunk } := by
    rw [extendPatch, isParsed]
  have extendedHunk : parsed.extendHunk hunk = { hunk with
      enclosingScope := some (buildScopeContext scope (Bytes.splitlines parsed.source)
        parsed.langName) } := by
    rw [Parsed.extendHunk, Parsed.contextOf, found]
    rfl
  rw [extendHunksWithAst, List.getElem?_map, isPatch, Option.map_some, Option.bind_some,
    extendedPatch, List.getElem?_map, isHunk, Option.map_some, extendedHunk]

/-- **Every context that is attached** carries the declaration of its scope if the body begins
below it and no carriage return stands inside a row before the body; and only if the body begins
below it, and the first such carriage return, if there is one, is hidden. -/
theorem extendHunksWithAst_carries (isPatch : patches[index]? = some patch)
    (isParsed : parsePatch treeSitter fileContentGetter patch = some parsed)
    (isHunk : patch.hunks[position]? = some hunk) (found : parsed.scopeOf hunk = some scope) :
    ∃ extended context, ((extendHunksWithAst treeSitter patches fileContentGetter)[index]?.bind
        fun file => file.hunks[position]?) = some extended ∧
      extended.enclosingScope = some context ∧
      (BodyBelow parsed.source scope parsed.langName ∧
          RowsUnbroken parsed.source (stopRow scope parsed.langName) →
        CarriesDeclaration parsed.source scope parsed.langName context.signature) ∧
      (CarriesDeclaration parsed.source scope parsed.langName context.signature →
        BodyBelow parsed.source scope parsed.langName ∧
          (RowsUnbroken parsed.source (stopRow scope parsed.langName) ∨
            ReturnHidden parsed.source scope.label.startPoint.row
              (stopRow scope parsed.langName))) := by
  obtain ⟨member, around⟩ := mem_scopesAround.mp (mem_scopesAround_of_found found)
  have nonblank := parsed.tree.begins scope member (encloses_iff.mp around).1
  have exact := @carriesDeclaration_iff parsed.source scope parsed.langName nonblank
  refine ⟨_, _, getElem?_extendHunksWithAst isPatch isParsed isHunk found, rfl, ?_, ?_⟩
  · rintro ⟨below, unbroken⟩
    exact exact.mpr ⟨below, unbroken.linesAgree⟩
  · intro carries
    obtain ⟨below, agree⟩ := exact.mp carries
    refine ⟨below, or_iff_not_imp_left.mpr fun broken => ?_⟩
    exact hidden_of_isPrefix below.lt_stopRow nonblank agree broken

end Attached

/-! ## Two layouts -/

namespace Layout

/-- A parser that gives one tree for the sources it can be the tree of. -/
def parserOf (root : Node) : TreeSitter where
  loads _ := true
  parse langName source :=
    if begins : ∀ node ∈ root.subtrees, node.label.type ∈ scopeKindsOf langName →
        strip (Bytes.decode (rowAt source node.label.startPoint.row)) ≠ [] then
      some ⟨root, begins⟩
    else none

theorem parse_parserOf {root : Node} {langName : String} {source : Bytes}
    (begins : ∀ node ∈ root.subtrees, node.label.type ∈ scopeKindsOf langName →
      strip (Bytes.decode (rowAt source node.label.startPoint.row)) ≠ []) :
    (parserOf root).parse langName source = some ⟨root, begins⟩ := by
  rw [parserOf]
  exact dif_pos begins

/-- A new second row of a file. -/
def patch (path content : String) : PatchFile :=
  ⟨some path.toList, some path.toList,
    [⟨1, 0, 2, 1, [⟨.add, content.toList, none, some 2⟩], [], none⟩], false⟩

/-- A function with its body on a row of its own. -/
def ownRow : Text := "def f(a,\n      b):\n    pass\n".toList

def ownRowScope : Node :=
  .node ⟨"function_definition", ⟨0, 0⟩, ⟨2, 8⟩, some (Bytes.encode ownRow.dropLast), []⟩
    [.node ⟨"def", ⟨0, 0⟩, ⟨0, 3⟩, some (Bytes.encode "def".toList), []⟩ [],
      .node ⟨"identifier", ⟨0, 4⟩, ⟨0, 5⟩, some (Bytes.encode "f".toList), ["name"]⟩ [],
      .node ⟨"parameters", ⟨0, 5⟩, ⟨1, 8⟩, some (Bytes.encode "(a,\n      b)".toList),
        ["parameters"]⟩ [],
      .node ⟨":", ⟨1, 8⟩, ⟨1, 9⟩, some (Bytes.encode ":".toList), []⟩ [],
      .node ⟨"block", ⟨2, 4⟩, ⟨2, 8⟩, some (Bytes.encode "pass".toList), ["body"]⟩ []]

def ownRowRoot : Node :=
  .node ⟨"module", ⟨0, 0⟩, ⟨3, 0⟩, some (Bytes.encode ownRow), []⟩ [ownRowScope]

theorem begins_ownRow : ∀ node ∈ ownRowRoot.subtrees, node.label.type ∈ scopeKindsOf "python" →
    strip (Bytes.decode (rowAt (Bytes.encode ownRow) node.label.startPoint.row)) ≠ [] := by
  decide +kernel

theorem parsePatch_ownRow :
    parsePatch (parserOf ownRowRoot) (fun _ => some (.str ownRow)) (patch "a.py" "      b):") =
      some ⟨"python", Bytes.encode ownRow, ownRowRoot, begins_ownRow⟩ := by
  have isLanguage : detectLanguage (patch "a.py" "      b):").path = some "python" := by
    decide +kernel
  exact @parsePatch_eq (parserOf ownRowRoot) _ _ _ (.str ownRow) ⟨ownRowRoot, begins_ownRow⟩ rfl
    isLanguage rfl rfl (parse_parserOf begins_ownRow)

/-- A function with its body on the same row. -/
def sameRow : Text := "function f() \x7b\n  return 1;\n\x7d\n".toList

def sameRowScope : Node :=
  .node ⟨"function_declaration", ⟨0, 0⟩, ⟨2, 1⟩, some (Bytes.encode sameRow.dropLast), []⟩
    [.node ⟨"function", ⟨0, 0⟩, ⟨0, 8⟩, some (Bytes.encode "function".toList), []⟩ [],
      .node ⟨"identifier", ⟨0, 9⟩, ⟨0, 10⟩, some (Bytes.encode "f".toList), ["name"]⟩ [],
      .node ⟨"formal_parameters", ⟨0, 10⟩, ⟨0, 12⟩, some (Bytes.encode "()".toList),
        ["parameters"]⟩ [],
      .node ⟨"statement_block", ⟨0, 13⟩, ⟨2, 1⟩,
        some (Bytes.encode "\x7b\n  return 1;\n\x7d".toList), ["body"]⟩ []]

def sameRowRoot : Node :=
  .node ⟨"program", ⟨0, 0⟩, ⟨3, 0⟩, some (Bytes.encode sameRow), []⟩ [sameRowScope]

theorem begins_sameRow :
    ∀ node ∈ sameRowRoot.subtrees, node.label.type ∈ scopeKindsOf "javascript" →
      strip (Bytes.decode (rowAt (Bytes.encode sameRow) node.label.startPoint.row)) ≠ [] := by
  decide +kernel

theorem parsePatch_sameRow :
    parsePatch (parserOf sameRowRoot) (fun _ => some (.str sameRow)) (patch "a.js" "  return 1;") =
      some ⟨"javascript", Bytes.encode sameRow, sameRowRoot, begins_sameRow⟩ := by
  have isLanguage : detectLanguage (patch "a.js" "  return 1;").path = some "javascript" := by
    decide +kernel
  exact @parsePatch_eq (parserOf sameRowRoot) _ _ _ (.str sameRow) ⟨sameRowRoot, begins_sameRow⟩
    rfl isLanguage rfl rfl (parse_parserOf begins_sameRow)

end Layout

/-- A Python function with its parameters on two rows carries both. -/
theorem extendHunksWithAst_carries_ownRow :
    ∃ extended context, ((extendHunksWithAst (Layout.parserOf Layout.ownRowRoot)
        [Layout.patch "a.py" "      b):"] fun _ => some (.str Layout.ownRow))[0]?.bind
          fun file => file.hunks[0]?) = some extended ∧
      extended.enclosingScope = some context ∧
      CarriesDeclaration (Bytes.encode Layout.ownRow) Layout.ownRowScope "python"
        context.signature := by
  obtain ⟨extended, context, isExtended, isContext, carries, -⟩ :=
    @extendHunksWithAst_carries (Layout.parserOf Layout.ownRowRoot)
      [Layout.patch "a.py" "      b):"] (fun _ => some (.str Layout.ownRow)) 0 0 _ _ _
      Layout.ownRowScope rfl Layout.parsePatch_ownRow rfl rfl
  refine ⟨extended, context, isExtended, isContext, carries ⟨fun body isBody => ?_, ?_⟩⟩
  · obtain rfl := Option.some.inj isBody
    decide +kernel
  · have plain : ∀ row ∈ (Bytes.rows (Bytes.encode Layout.ownRow)).take 2, 13 ∉ row := by
      decide +kernel
    exact fun row member => Bytes.returnsAtEnd_of_not_mem (plain row member)

/-- A JavaScript function whose body begins on its first row has no signature. -/
theorem not_carries_sameRow :
    ¬∀ (treeSitter : TreeSitter) (patches : List PatchFile)
      (fileContentGetter : Text → Option Source) (index position : Nat) (patch : PatchFile)
      (hunk : Hunk) (parsed : Parsed) (scope : Node), patches[index]? = some patch →
      parsePatch treeSitter fileContentGetter patch = some parsed →
      patch.hunks[position]? = some hunk → parsed.scopeOf hunk = some scope →
      ∃ extended context, ((extendHunksWithAst treeSitter patches fileContentGetter)[index]?.bind
          fun file => file.hunks[position]?) = some extended ∧
        extended.enclosingScope = some context ∧
        CarriesDeclaration parsed.source scope parsed.langName context.signature := by
  intro carries
  obtain ⟨extended, context, isExtended, isContext, carried⟩ :=
    carries (Layout.parserOf Layout.sameRowRoot) [Layout.patch "a.js" "  return 1;"]
      (fun _ => some (.str Layout.sameRow)) 0 0 _ _ _ Layout.sameRowScope rfl
      Layout.parsePatch_sameRow rfl rfl
  have attached := @getElem?_extendHunksWithAst (Layout.parserOf Layout.sameRowRoot)
    [Layout.patch "a.js" "  return 1;"] (fun _ => some (.str Layout.sameRow)) 0 0 _ _ _
    Layout.sameRowScope rfl Layout.parsePatch_sameRow rfl rfl
  obtain rfl := Option.some.inj (isExtended.symm.trans attached)
  obtain rfl := Option.some.inj isContext
  exact carried.nonempty (by decide +kernel)

end Kenjutsu.Diff
