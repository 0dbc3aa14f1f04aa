import Kenjutsu.Foundations.Bytes
import Kenjutsu.Foundations.Fields
import Kenjutsu.Models.Findings

/-!
# Fingerprints of findings

The fingerprint of a finding is the start of the digest of its path, its category and the
words of its description, with colons between them. A path and a description may have
colons, so two different findings may be one text: the path of one goes on over the category
of the other and into its description.

The digest and the lower case of a text are parameters.
-/

set_option autoImplicit false

namespace Kenjutsu.Models

open Foundations Foundations.Text Foundations.Fields

/-- What the standard library computes. -/
structure Hashing where
  /-- `description.lower()`. -/
  lower : Text → Text
  /-- `hashlib.sha256(…).hexdigest()`. -/
  hexdigest : Bytes → Text

variable (hashing : Hashing)

/-- The words of the description in lower case. -/
def descriptionWords (finding : Finding) : List Text :=
  words (hashing.lower finding.description.toList)

/-- `normalized`. -/
def normalized (finding : Finding) : Text := unwords (descriptionWords hashing finding)

/-- `raw`. -/
def raw (finding : Finding) : Text :=
  finding.filePath.toList ++ ':' :: (finding.category.value.toList ++
    ':' :: normalized hashing finding)

/-- The first 16 digits of the digest of a text. -/
def truncatedDigest (text : Text) : Text := (hashing.hexdigest (Bytes.encode text)).take 16

/-- `Finding.fingerprint`. -/
def fingerprint (finding : Finding) : Text := truncatedDigest hashing (raw hashing finding)

/-! ## What a fingerprint is to tell apart -/

/-- Two findings are of one file and one category, and say the same words. -/
structure SameFinding (one other : Finding) : Prop where
  filePath : one.filePath = other.filePath
  category : one.category = other.category
  words : descriptionWords hashing one = descriptionWords hashing other

/-- The fingerprints of two findings are equal exactly if the findings are the same. -/
def Separates (one other : Finding) : Prop :=
  fingerprint hashing one = fingerprint hashing other ↔ SameFinding hashing one other

/-- The truncated digest does not collide on two texts. -/
def NoCollision (first second : Text) : Prop :=
  truncatedDigest hashing first = truncatedDigest hashing second → first = second

/-- The path of the second finding goes on from that of the first over its category, and
perhaps into its description, which then begins with the rest of that path and goes on with the
category and the description of the second. -/
def Absorbs (one other : Finding) : Prop :=
  Shifted ':' one.filePath.toList one.category.value.toList (normalized hashing one)
    other.filePath.toList other.category.value.toList (normalized hashing other)

variable {hashing} {one other : Finding}

theorem colon_notMem_category (category : Category) : ':' ∉ category.value.toList := by
  cases category <;> decide

theorem category_value_inj {first second : Category}
    (same : first.value.toList = second.value.toList) : first = second := by
  revert same
  cases first <;> cases second <;> decide

/-- The fields of the text of a finding are those of the finding. -/
theorem sameFinding_iff :
    SameFinding hashing one other ↔ one.filePath.toList = other.filePath.toList ∧
      one.category.value.toList = other.category.value.toList ∧
        normalized hashing one = normalized hashing other := by
  constructor
  · rintro ⟨filePath, category, words⟩
    exact ⟨congrArg String.toList filePath, congrArg (·.value.toList) category,
      congrArg unwords words⟩
  · rintro ⟨filePath, category, texts⟩
    exact ⟨String.toList_inj.mp filePath, category_value_inj category,
      unwords_words_inj.mp texts⟩

/-- The findings that are one text are the same, or one absorbs the other. -/
theorem raw_eq_iff :
    raw hashing one = raw hashing other ↔ SameFinding hashing one other ∨
      Absorbs hashing one other ∨ Absorbs hashing other one := by
  rw [sameFinding_iff]
  exact joined_eq_iff (colon_notMem_category one.category) (colon_notMem_category other.category)

/-- Findings of one path do not absorb each other. -/
theorem SameFinding.not_absorbs (same : SameFinding hashing one other) :
    ¬ Absorbs hashing one other ∧ ¬ Absorbs hashing other one := by
  constructor
  · intro absorbs
    have longer := Shifted.length_lt absorbs
    rw [same.filePath] at longer
    exact Nat.lt_irrefl _ longer
  · intro absorbs
    have longer := Shifted.length_lt absorbs
    rw [same.filePath] at longer
    exact Nat.lt_irrefl _ longer

/-- Without a collision a fingerprint stands for its text. -/
theorem fingerprint_eq_iff (noCollision : NoCollision hashing (raw hashing one) (raw hashing other)) :
    fingerprint hashing one = fingerprint hashing other ↔ raw hashing one = raw hashing other :=
  ⟨noCollision, congrArg (truncatedDigest hashing)⟩

/-- Findings of files without a colon in their path are told apart. -/
theorem separates_of_no_colon
    (noCollision : NoCollision hashing (raw hashing one) (raw hashing other))
    (plain : ':' ∉ one.filePath.toList) (plainOther : ':' ∉ other.filePath.toList) :
    Separates hashing one other := by
  rw [Separates, fingerprint_eq_iff noCollision, sameFinding_iff]
  exact joined_inj_of_notMem (colon_notMem_category one.category)
    (colon_notMem_category other.category) plain plainOther

/-- **A fingerprint tells two findings apart** exactly if neither absorbs the other. -/
theorem separates_iff (noCollision : NoCollision hashing (raw hashing one) (raw hashing other)) :
    Separates hashing one other ↔ ¬ Absorbs hashing one other ∧ ¬ Absorbs hashing other one := by
  rw [Separates, fingerprint_eq_iff noCollision, raw_eq_iff]
  constructor
  · intro separates
    exact ⟨fun absorbs => (separates.mp (.inr (.inl absorbs))).not_absorbs.1 absorbs,
      fun absorbs => (separates.mp (.inr (.inr absorbs))).not_absorbs.2 absorbs⟩
  · rintro ⟨apart, apartOther⟩
    exact or_iff_left fun absorbs => absorbs.elim apart apartOther

/-! ## Samples -/

/-- A finding with the three fields of the fingerprint. -/
def findingOf (filePath : String) (category : Category) (description : String) : Finding where
  filePath
  lineStart := 1
  lineEnd := 1
  origin := .llm
  confidence := .high
  severity := .warning
  category
  description

/-- The standard library on texts that are ASCII. -/
def asciiHashing (hexdigest : Bytes → Text) : Hashing where
  lower text := text.map Char.toLower
  hexdigest

/-- The digests of `src/middleware.py:bug:null dereference` and of the same for
`src/auth.py`. -/
def sampleDigest (bytes : Bytes) : Text :=
  if bytes = Bytes.encode "src/middleware.py:bug:null dereference".toList then
    "286d6e78d5d37dc8aeb6486103fa547710e3910511025c78cbf22dfc435298dc".toList
  else "e9a51a489c2f31a15a6745e7e6cf1d61b81d134fdb2779805adacb5521a6f773".toList

/-- The same words about two files are told apart. -/
theorem separates_twoFiles :
    Separates (asciiHashing sampleDigest) (findingOf "src/auth.py" .bug "Null dereference")
      (findingOf "src/middleware.py" .bug "  null  dereference") := by
  refine (separates_iff fun same => absurd same (by decide +kernel)).mpr ⟨?_, ?_⟩
  · intro absorbs
    have colon : ':' ∉ "src/middleware.py".toList := by decide
    exact colon (Shifted.mem absorbs)
  · intro absorbs
    have colon : ':' ∉ "src/auth.py".toList := by decide
    exact colon (Shifted.mem absorbs)

/-- The digest of `a:bug:b:bug:x`. -/
def colonDigest (_ : Bytes) : Text :=
  "bd86d72b531b94d95d5750ba8ccfe8a009ff2158815b2090ce422ccdd3938da0".toList

/-- That is the text of a bug in the file `a` and of another in the file `a:bug:b`, which
are not told apart. -/
theorem not_separates_colons :
    NoCollision (asciiHashing colonDigest)
        (raw (asciiHashing colonDigest) (findingOf "a" .bug "b:bug:x"))
        (raw (asciiHashing colonDigest) (findingOf "a:bug:b" .bug "x")) ∧
      ¬ Separates (asciiHashing colonDigest) (findingOf "a" .bug "b:bug:x")
        (findingOf "a:bug:b" .bug "x") := by
  refine ⟨fun _ => by decide +kernel, fun separates => ?_⟩
  have paths : "a" = "a:bug:b" := (separates.mp rfl).filePath
  exact absurd paths (by decide)

end Kenjutsu.Models
