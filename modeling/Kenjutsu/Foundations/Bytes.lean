import Kenjutsu.Foundations.Text

/-!
# Bytes and the text in them

Decoding replaces what is not UTF-8: each longest start of a character that cannot go on
gives one replacement character. A byte below 0x80 always stands for itself, whatever is
around it (`decode_append_cons`).

`splitlines` of bytes breaks at newlines, carriage returns and both together, and keeps
the line ends; the rows of a syntax tree end at newlines only. The two agree as long as no
carriage return stands inside a row (`take_splitlines`).
-/

set_option autoImplicit false

namespace Foundations

abbrev Bytes := List UInt8

namespace Bytes

/-! ## Decoding -/

/-- A character that has begun: its value so far, how many bytes it still needs, and the
bounds of the next one. -/
structure Partial where
  value : Nat
  needs : Nat
  low : Nat
  high : Nat
deriving DecidableEq, Repr

/-- What a byte between characters is: a character, the start of one, or neither. -/
def first (byte : Nat) : Text × Option Partial :=
  if byte < 0x80 then ([Char.ofNat byte], none)
  else if byte < 0xc2 then (['\ufffd'], none)
  else if byte < 0xe0 then ([], some ⟨byte - 0xc0, 1, 0x80, 0xbf⟩)
  else if byte = 0xe0 then ([], some ⟨0, 2, 0xa0, 0xbf⟩)
  else if byte = 0xed then ([], some ⟨0xd, 2, 0x80, 0x9f⟩)
  else if byte < 0xf0 then ([], some ⟨byte - 0xe0, 2, 0x80, 0xbf⟩)
  else if byte = 0xf0 then ([], some ⟨0, 3, 0x90, 0xbf⟩)
  else if byte < 0xf4 then ([], some ⟨byte - 0xf0, 3, 0x80, 0xbf⟩)
  else if byte = 0xf4 then ([], some ⟨4, 3, 0x80, 0x8f⟩)
  else (['\ufffd'], none)

/-- What a character that has begun and does not go on is replaced by. -/
def replaced : Option Partial → Text
  | none => []
  | some _ => ['\ufffd']

/-- The next byte. -/
def decodeByte (begun : Option Partial) (byte : Nat) : Text × Option Partial :=
  match begun with
  | some ⟨value, needs, low, high⟩ =>
      if low ≤ byte ∧ byte ≤ high then
        if needs = 1 then ([Char.ofNat (value * 64 + (byte - 0x80))], none)
        else ([], some ⟨value * 64 + (byte - 0x80), needs - 1, 0x80, 0xbf⟩)
      else (replaced begun ++ (first byte).1, (first byte).2)
  | none => first byte

def decodeFrom : Option Partial → Bytes → Text
  | begun, [] => replaced begun
  | begun, byte :: rest =>
      (decodeByte begun byte.toNat).1 ++ decodeFrom (decodeByte begun byte.toNat).2 rest

/-- `decode("utf-8", errors="replace")`. -/
def decode (bytes : Bytes) : Text := decodeFrom none bytes

/-- `encode("utf-8")`. -/
def encode (text : Text) : Bytes := text.flatMap String.utf8EncodeChar

/-- A character that has begun goes on with a byte from 0x80 up, and will not be one of
the characters below 0x80. -/
def Wide : Option Partial → Prop
  | none => True
  | some begun => 0x80 ≤ begun.low ∧
      (2 ≤ begun.value ∨ 2 ≤ begun.needs ∧ (1 ≤ begun.value ∨ 0x90 ≤ begun.low))

theorem decodeByte_ascii {begun : Option Partial} (wide : Wide begun) {byte : Nat}
    (ascii : byte < 0x80) :
    decodeByte begun byte = (replaced begun ++ [Char.ofNat byte], none) := by
  have alone : first byte = ([Char.ofNat byte], none) := by rw [first, if_pos ascii]
  cases begun with
  | none => exact alone
  | some begun =>
      have outside : ¬(begun.low ≤ byte ∧ byte ≤ begun.high) := by
        have low := wide.1
        omega
      simp [decodeByte, outside, alone]

/-- A byte between characters stands for itself, is replaced, or begins a character. -/
theorem first_cases (byte : Nat) :
    first byte = ([Char.ofNat byte], none) ∨ first byte = (['\ufffd'], none) ∨
      ∃ begun, Wide (some begun) ∧ first byte = ([], some begun) := by
  have begins : ∀ begun, Wide (some begun) →
      ∃ other, Wide (some other) ∧ (([], some begun) : Text × Option Partial) = ([], some other) :=
    fun begun wide => ⟨begun, wide, rfl⟩
  generalize read : first byte = outcome
  unfold first at read
  split at read
  · exact .inl read.symm
  split at read
  · exact .inr (.inl read.symm)
  iterate 7
    split at read
    · subst read
      refine .inr (.inr (begins _ ?_))
      simp only [Wide]
      omega
  exact .inr (.inl read.symm)

theorem wide_first (byte : Nat) : Wide (first byte).2 := by
  rcases first_cases byte with itself | replaced | ⟨begun, wide, begins⟩
  · rw [itself]
    trivial
  · rw [replaced]
    trivial
  · rw [begins]
    exact wide

theorem wide_decodeByte {begun : Option Partial} (wide : Wide begun) (byte : Nat) :
    Wide (decodeByte begun byte).2 := by
  cases begun with
  | none => exact wide_first byte
  | some begun =>
      obtain ⟨low, more⟩ := wide
      simp only [decodeByte]
      split_ifs
      · trivial
      · simp only [Wide]
        omega
      · exact wide_first byte

/-- **A byte below 0x80 stands for itself.** -/
theorem decodeFrom_append_cons {begun : Option Partial} (wide : Wide begun) (before : Bytes)
    {byte : UInt8} (ascii : byte.toNat < 0x80) (rest : Bytes) :
    decodeFrom begun (before ++ byte :: rest) =
      decodeFrom begun before ++ Char.ofNat byte.toNat :: decodeFrom none rest := by
  induction before generalizing begun with
  | nil =>
      rw [List.nil_append, decodeFrom.eq_def begun (byte :: rest)]
      simp only [decodeByte_ascii wide ascii, decodeFrom, List.append_assoc]
      rfl
  | cons other before ih =>
      rw [List.cons_append, decodeFrom, ih (wide_decodeByte wide _), decodeFrom, List.append_assoc]

theorem decode_append_cons (before : Bytes) {byte : UInt8} (ascii : byte.toNat < 0x80)
    (rest : Bytes) :
    decode (before ++ byte :: rest) = decode before ++ Char.ofNat byte.toNat :: decode rest :=
  @decodeFrom_append_cons none trivial before _ ascii rest

theorem eq_ten_of_ofNat_eq {number : Nat} (same : Char.ofNat number = '\n') : number = 10 := by
  by_cases valid : number.isValidChar
  · have isNumber : Char.ofNat number = Char.ofNatAux number valid := dif_pos valid
    exact congrArg Char.toNat (isNumber.symm.trans same)
  · have isNul : Char.ofNat number = '\x00' := dif_neg valid
    cases isNul.symm.trans same

/-- Only the byte of a newline gives one. -/
theorem newline_mem_decodeByte {begun : Option Partial} (wide : Wide begun) {byte : Nat}
    (member : '\n' ∈ (decodeByte begun byte).1) : byte = 10 := by
  have notReplaced : ∀ begun, '\n' ∉ replaced begun := by
    intro begun
    cases begun <;> simp [replaced]
  have ofFirst : '\n' ∈ (first byte).1 → byte = 10 := by
    intro member
    rcases first_cases byte with itself | isReplaced | ⟨begun, -, begins⟩
    · rw [itself] at member
      exact eq_ten_of_ofNat_eq (List.mem_singleton.mp member).symm
    · rw [isReplaced] at member
      exact absurd (List.mem_singleton.mp member) (by decide)
    · rw [begins] at member
      cases member
  cases begun with
  | none => exact ofFirst member
  | some begun =>
      obtain ⟨low, more⟩ := wide
      simp only [decodeByte] at member
      split_ifs at member with within last
      · have isNewline := eq_ten_of_ofNat_eq (List.mem_singleton.mp member).symm
        omega
      · cases member
      · exact ofFirst ((List.mem_append.mp member).resolve_left (notReplaced _))

theorem newline_mem_decodeFrom {begun : Option Partial} (wide : Wide begun) {bytes : Bytes}
    (member : '\n' ∈ decodeFrom begun bytes) : 10 ∈ bytes := by
  induction bytes generalizing begun with
  | nil =>
      rw [decodeFrom] at member
      cases begun <;> simp [replaced] at member
  | cons byte bytes ih =>
      rw [decodeFrom, List.mem_append] at member
      rcases member with own | later
      · have isNewline : byte = 10 := UInt8.toNat_inj.mp (newline_mem_decodeByte wide own)
        exact List.mem_cons.mpr (.inl isNewline.symm)
      · exact List.mem_cons_of_mem _ (ih (wide_decodeByte wide _) later)

theorem newline_mem_decode {bytes : Bytes} (member : '\n' ∈ decode bytes) : 10 ∈ bytes :=
  @newline_mem_decodeFrom none trivial _ member

/-! ## Lines -/

/-- Put a byte in front of the first line. -/
def prepend (byte : UInt8) : List Bytes → List Bytes
  | [] => [[byte]]
  | line :: lines => (byte :: line) :: lines

/-- The lines, each with the byte that ends it. -/
def cut (ends : UInt8 → Bytes → Bool) : Bytes → List Bytes
  | [] => []
  | byte :: rest =>
      if ends byte rest then [byte] :: cut ends rest else prepend byte (cut ends rest)

/-- A newline, or a carriage return without one after it. -/
def endsLine (byte : UInt8) (rest : Bytes) : Bool :=
  byte = 10 || byte = 13 && rest.head? ≠ some 10

/-- `splitlines(keepends=True)`. -/
def splitlines : Bytes → List Bytes := cut endsLine

/-- The rows of a syntax tree. -/
def rows : Bytes → List Bytes := cut fun byte _ => byte = 10

variable {ends : UInt8 → Bytes → Bool}

theorem cut_ne_nil {bytes : Bytes} (nonempty : bytes ≠ []) : cut ends bytes ≠ [] := by
  cases bytes with
  | nil => exact absurd rfl nonempty
  | cons byte rest =>
      rw [cut]
      split
      · simp
      · cases cut ends rest <;> simp [prepend]

theorem prepend_append {byte : UInt8} {first : List Bytes} (nonempty : first ≠ [])
    (second : List Bytes) : prepend byte (first ++ second) = prepend byte first ++ second := by
  cases first with
  | nil => exact absurd rfl nonempty
  | cons line lines => rfl

/-- Bytes that end at most at their end are one line. -/
theorem cut_eq_singleton {line : Bytes} (nonempty : line ≠ [])
    (inside : ∀ before byte after, line = before ++ byte :: after → ends byte after → after = []) :
    cut ends line = [line] := by
  induction line with
  | nil => exact absurd rfl nonempty
  | cons first line ih =>
      rw [cut]
      split
      · rename_i isEnd
        rw [inside [] first line rfl isEnd]
        rfl
      · by_cases last : line = []
        · rw [last]
          rfl
        · rw [ih last fun before byte after split =>
            inside (first :: before) byte after (by rw [split]; rfl)]
          rfl

/-- A byte that always ends a line is the last one of its line. -/
theorem eq_nil_of_mem_cut {last : UInt8} (always : ∀ rest, ends last rest) (bytes : Bytes) :
    ∀ line ∈ cut ends bytes, ∀ before after, line = before ++ last :: after → after = [] := by
  induction bytes with
  | nil => simp [cut]
  | cons byte rest ih =>
      intro line member before after split
      rw [cut] at member
      split at member
      · rcases List.mem_cons.mp member with rfl | later
        · cases before with
          | nil => exact (List.cons.inj split).2.symm
          | cons other before => simp at split
        · exact ih line later before after split
      · rename_i notEnd
        cases lines : cut ends rest with
        | nil =>
            rw [lines] at member
            obtain rfl := List.mem_singleton.mp member
            cases before with
            | nil => exact (List.cons.inj split).2.symm
            | cons other before => simp at split
        | cons first others =>
            rw [lines] at member ih
            rcases List.mem_cons.mp member with rfl | later
            · cases before with
              | nil =>
                  obtain rfl := (List.cons.inj split).1
                  exact absurd (always rest) notEnd
              | cons other before =>
                  exact ih first List.mem_cons_self before after (List.cons.inj split).2
            · exact ih line (List.mem_cons_of_mem _ later) before after split

/-- **A newline ends a line**, whatever stands before it in the line. -/
theorem splitlines_append (line rest : Bytes) :
    splitlines (line ++ 10 :: rest) = splitlines (line ++ [10]) ++ splitlines rest := by
  unfold splitlines
  induction line with
  | nil => simp [cut, endsLine]
  | cons byte line ih =>
      have same : endsLine byte (line ++ 10 :: rest) = endsLine byte (line ++ [10]) := by
        unfold endsLine
        cases line <;> rfl
      rw [List.cons_append, List.cons_append, cut, cut, same, ih]
      split
      · rfl
      · exact prepend_append (cut_ne_nil (by simp)) _

theorem rows_append {line : Bytes} (plain : 10 ∉ line) (rest : Bytes) :
    rows (line ++ 10 :: rest) = (line ++ [10]) :: rows rest := by
  unfold rows
  induction line with
  | nil => simp [cut]
  | cons byte line ih =>
      obtain ⟨apart, plain⟩ := not_or.mp (mt List.mem_cons.mpr plain)
      rw [List.cons_append, cut, if_neg (by simpa using Ne.symm apart), ih plain]
      rfl

theorem rows_of_not_mem {line : Bytes} (nonempty : line ≠ []) (plain : 10 ∉ line) :
    rows line = [line] := by
  refine cut_eq_singleton nonempty fun before byte after split isNewline => ?_
  obtain rfl : byte = 10 := of_decide_eq_true isNewline
  exact absurd (by rw [split]; simp) plain

/-- Bytes are one row, or a row and what follows it. -/
theorem row_cases (bytes : Bytes) :
    10 ∉ bytes ∨ ∃ line rest, 10 ∉ line ∧ bytes = line ++ 10 :: rest := by
  by_cases member : 10 ∈ bytes
  · obtain ⟨line, rest, split, plain⟩ := List.eq_append_cons_of_mem member
    exact .inr ⟨line, rest, plain, split⟩
  · exact .inl member

/-- A newline is the last byte of its row. -/
theorem eq_nil_of_mem_rows {bytes row : Bytes} (isRow : row ∈ rows bytes) :
    ∀ before after, row = before ++ 10 :: after → after = [] :=
  eq_nil_of_mem_cut (fun _ => rfl) bytes row isRow

/-- Before another byte of a row there is none. -/
theorem not_mem_of_mem_rows {bytes before after : Bytes} {byte : UInt8}
    (isRow : before ++ byte :: after ∈ rows bytes) : 10 ∉ before := by
  intro member
  obtain ⟨first, second, rfl⟩ := List.append_of_mem member
  have last := eq_nil_of_mem_rows isRow first (second ++ byte :: after) (by simp)
  simp at last

/-- No carriage return stands inside the row: one at its end belongs to its line end. -/
def ReturnsAtEnd (row : Bytes) : Prop :=
  ∀ before after, row = before ++ 13 :: after → after = [] ∨ after = [10]

theorem splitlines_row {bytes row : Bytes} (isRow : row ∈ rows bytes) (nonempty : row ≠ [])
    (returns : ReturnsAtEnd row) : splitlines row = [row] := by
  refine cut_eq_singleton nonempty fun before byte after split isEnd => ?_
  simp only [endsLine, Bool.or_eq_true, Bool.and_eq_true, decide_eq_true_eq] at isEnd
  rcases isEnd with rfl | ⟨rfl, alone⟩
  · exact eq_nil_of_mem_rows isRow before after split
  · rcases returns before after split with atEnd | rfl
    · exact atEnd
    · exact absurd rfl alone

/-- **Lines and rows agree** up to a row if no carriage return stands inside one. -/
theorem take_splitlines (count : Nat) (bytes : Bytes)
    (returns : ∀ row ∈ (rows bytes).take count, ReturnsAtEnd row) :
    (splitlines bytes).take count = (rows bytes).take count := by
  induction count generalizing bytes with
  | zero => rfl
  | succ count ih =>
      rcases row_cases bytes with plain | ⟨line, rest, plain, rfl⟩
      · by_cases nonempty : bytes = []
        · rw [nonempty]
          rfl
        · have oneRow := rows_of_not_mem nonempty plain
          rw [oneRow] at returns
          rw [oneRow, @splitlines_row bytes bytes (by simp [oneRow]) nonempty
            (returns bytes (by simp))]
      · have firstRow := rows_append plain rest
        rw [firstRow, List.take_succ_cons] at returns
        obtain ⟨own, others⟩ := List.forall_mem_cons.mp returns
        rw [firstRow, splitlines_append, splitlines_row (by rw [firstRow]; simp) (by simp) own,
          List.singleton_append, List.take_succ_cons, List.take_succ_cons, ih rest others]

theorem returnsAtEnd_of_not_mem {row : Bytes} (plain : 13 ∉ row) : ReturnsAtEnd row :=
  fun before after split => absurd (by rw [split]; simp) plain

/-- The first carriage return of a row stands inside it if any does. -/
theorem exists_return_of_not_returnsAtEnd {row : Bytes} (inside : ¬ReturnsAtEnd row) :
    ∃ before after, row = before ++ 13 :: after ∧ 13 ∉ before ∧ after ≠ [] ∧ after ≠ [10] := by
  have member : 13 ∈ row := not_not.mp (mt returnsAtEnd_of_not_mem inside)
  obtain ⟨before, after, rfl, plain⟩ := List.eq_append_cons_of_mem member
  have onlyThere : 13 ∉ after → ∀ other later, before ++ 13 :: after = other ++ 13 :: later →
      after = later :=
    fun absent other later split =>
      ((List.append_cons_inj_of_notMem plain absent).mp split).2.2
  refine ⟨before, after, rfl, plain, fun nothing => inside ?_, fun newline => inside ?_⟩
  · intro other later split
    exact .inl ((onlyThere (by simp [nothing]) other later split).symm.trans nothing)
  · intro other later split
    exact .inr ((onlyThere (by simp [newline]) other later split).symm.trans newline)

/-- The first carriage return that stands inside a row, with what is before and after it. -/
structure FirstReturn (bytes : Bytes) (row : Nat) (before after : Bytes) : Prop where
  isRow : (rows bytes)[row]? = some (before ++ 13 :: after)
  noReturn : 13 ∉ before
  more : after ≠ []
  alone : after ≠ [10]
  earlier : ∀ other ∈ (rows bytes).take row, ReturnsAtEnd other

/-- Of the rows with a carriage return inside them there is a first one. -/
theorem exists_firstReturn {bytes : Bytes} {count : Nat}
    (broken : ¬∀ row ∈ (rows bytes).take count, ReturnsAtEnd row) :
    ∃ row < count, ∃ before after, FirstReturn bytes row before after := by
  induction count with
  | zero => exact absurd nofun broken
  | succ count ih =>
      by_cases earlier : ∀ row ∈ (rows bytes).take count, ReturnsAtEnd row
      · rw [List.take_add_one, List.forall_mem_append, not_and] at broken
        have last := broken earlier
        push Not at last
        obtain ⟨row, isRow, inside⟩ := last
        obtain ⟨before, after, rfl, noReturn, more, alone⟩ :=
          exists_return_of_not_returnsAtEnd inside
        exact ⟨count, Nat.lt_succ_self _, before, after, Option.mem_toList.mp isRow, noReturn, more,
          alone, earlier⟩
      · obtain ⟨row, below, found⟩ := ih earlier
        exact ⟨row, below.trans (Nat.lt_succ_self _), found⟩

/-- **A carriage return ends a line**, unless a newline follows it. -/
theorem splitlines_of_return {before after : Bytes} (noReturn : 13 ∉ before)
    (noNewline : 10 ∉ before) (alone : after.head? ≠ some 10) :
    splitlines (before ++ 13 :: after) = (before ++ [13]) :: splitlines after := by
  unfold splitlines
  induction before with
  | nil => simp [cut, endsLine, alone]
  | cons byte before ih =>
      obtain ⟨notReturn, noReturn⟩ := not_or.mp (mt List.mem_cons.mpr noReturn)
      obtain ⟨notNewline, noNewline⟩ := not_or.mp (mt List.mem_cons.mpr noNewline)
      have goesOn : endsLine byte (before ++ 13 :: after) = false := by
        simp [endsLine, Ne.symm notReturn, Ne.symm notNewline]
      rw [List.cons_append, cut, goesOn, ih noReturn noNewline]
      rfl

section First

variable {bytes before after : Bytes} {row : Nat}

theorem FirstReturn.noNewline (first : FirstReturn bytes row before after) : 10 ∉ before :=
  not_mem_of_mem_rows (List.mem_of_getElem? first.isRow)

theorem FirstReturn.head?_ne (first : FirstReturn bytes row before after) :
    after.head? ≠ some 10 := by
  intro next
  obtain ⟨rest, rfl⟩ : ∃ rest, after = 10 :: rest := List.head?_eq_some_iff.mp next
  have last := eq_nil_of_mem_rows (List.mem_of_getElem? first.isRow) (before ++ [13]) rest (by simp)
  exact first.alone (by rw [last])

/-- The row is cut there. -/
theorem FirstReturn.getElem?_splitlines (first : FirstReturn bytes row before after) :
    (splitlines bytes)[row]? = some (before ++ [13]) := by
  have noNewline := first.noNewline
  have head := first.head?_ne
  obtain ⟨isRow, noReturn, more, alone, earlier⟩ := first
  induction row generalizing bytes with
  | zero =>
      rcases row_cases bytes with plain | ⟨line, rest, plain, rfl⟩
      · by_cases nonempty : bytes = []
        · rw [nonempty] at isRow
          cases isRow
        · rw [rows_of_not_mem nonempty plain] at isRow
          rw [Option.some.inj isRow, splitlines_of_return noReturn noNewline head]
          rfl
      · rw [rows_append plain rest] at isRow
        have split : line ++ [10] = before ++ 13 :: after := Option.some.inj isRow
        obtain ⟨inner, last, rfl⟩ := (List.eq_nil_or_concat' after).resolve_left more
        have ends : line = before ++ 13 :: inner ∧ [(10 : UInt8)] = [last] :=
          List.append_inj' (split.trans (by simp)) rfl
        obtain rfl := (List.singleton_inj.mp ends.2)
        have next : (inner ++ 10 :: rest).head? ≠ some 10 := by
          cases inner with
          | nil => exact absurd rfl alone
          | cons byte inner => exact head
        rw [ends.1, List.append_assoc, List.cons_append, splitlines_of_return noReturn noNewline
          next]
        rfl
  | succ row ih =>
      rcases row_cases bytes with plain | ⟨line, rest, plain, rfl⟩
      · by_cases nonempty : bytes = []
        · rw [nonempty] at isRow
          cases isRow
        · rw [rows_of_not_mem nonempty plain] at isRow
          cases isRow
      · have firstRow := rows_append plain rest
        rw [firstRow, List.take_succ_cons] at earlier
        rw [firstRow, List.getElem?_cons_succ] at isRow
        obtain ⟨own, others⟩ := List.forall_mem_cons.mp earlier
        rw [splitlines_append, splitlines_row (by rw [firstRow]; simp) (by simp) own,
          List.singleton_append, List.getElem?_cons_succ]
        exact ih isRow others

end First

end Bytes

end Foundations
