import Kenjutsu.Server.WebhookDeliveries

/-!
# The signature check

`verify_signature` is the only authentication of the service, and its header is whatever a
client sends. The prefix test accepts or rejects any text, but `hmac.compare_digest` compares
only ASCII, so a header with the prefix and another character after it raises.
-/

set_option autoImplicit false

namespace Kenjutsu.Server.Webhook

/-- What is assumed of HMAC-SHA256: a digest is 64 lower case hexadecimal digits. -/
def HexDigests (runtime : Runtime) : Prop :=
  ∀ secret payload, (runtime.hexdigest secret payload).length = 64 ∧
    ∀ digit ∈ runtime.hexdigest secret payload, digit ∈ "0123456789abcdef".toList

/-- The characters that `hmac.compare_digest` compares. -/
def IsAscii (text : List Char) : Prop := ∀ character ∈ text, character.val < 128

instance (text : List Char) : Decidable (IsAscii text) := List.decidableBAll _ text

/-- The check returns, and it returns whether the header is the prefix and the digest of the
payload. -/
def DecidesSignature (runtime : Runtime) (payloadBytes : List UInt8) (signatureHeader : List Char)
    (secret : String) : Prop :=
  verifySignature runtime payloadBytes signatureHeader secret =
    .ok (signatureHeader = signaturePrefix ++ runtime.hexdigest secret payloadBytes)

variable {runtime : Runtime} {payloadBytes : List UInt8} {signatureHeader : List Char}
  {secret : String}

/-- Digests are ASCII. -/
theorem HexDigests.isAscii (digests : HexDigests runtime) :
    IsAscii (runtime.hexdigest secret payloadBytes) := by
  have all : IsAscii "0123456789abcdef".toList := by decide
  exact fun digit member => all digit ((digests secret payloadBytes).2 digit member)

theorem isAscii_signaturePrefix : IsAscii signaturePrefix := by decide

theorem isAscii_append {first second : List Char} :
    IsAscii (first ++ second) ↔ IsAscii first ∧ IsAscii second := List.forall_mem_append

theorem compareDigest_of_isAscii {first second : List Char} (ascii : IsAscii first)
    (asciiSecond : IsAscii second) : compareDigest first second = .ok (first = second) := by
  refine if_pos (List.all_eq_true.mpr fun character member => decide_eq_true ?_)
  exact isAscii_append.mpr ⟨ascii, asciiSecond⟩ character member

theorem compareDigest_of_not_isAscii {first second : List Char} (beyond : ¬ IsAscii second) :
    compareDigest first second = .error .typeError := by
  refine if_neg fun all => beyond fun character member => ?_
  exact of_decide_eq_true (List.all_eq_true.mp all character (List.mem_append_right _ member))

/-- A header without the prefix is rejected, and it is no signature. -/
theorem decidesSignature_of_unprefixed (other : ¬ signaturePrefix <+: signatureHeader) :
    DecidesSignature runtime payloadBytes signatureHeader secret := by
  have differs : signatureHeader ≠ signaturePrefix ++ runtime.hexdigest secret payloadBytes := by
    rintro rfl
    exact other (List.prefix_append _ _)
  rw [DecidesSignature, verifySignature, if_pos (.inr other), decide_eq_false differs]

/-- What follows the prefix is compared with the digest. -/
theorem verifySignature_prefix_append (rest : List Char) :
    verifySignature runtime payloadBytes (signaturePrefix ++ rest) secret =
      compareDigest (runtime.hexdigest secret payloadBytes) rest := by
  have accepted : ¬ (signaturePrefix ++ rest = [] ∨
      ¬ signaturePrefix <+: signaturePrefix ++ rest) := by
    simp [signaturePrefix]
  rw [verifySignature, if_neg accepted, List.drop_left]

/-- There the check decides the signature exactly if it is ASCII. -/
theorem decidesSignature_prefix_append (digests : HexDigests runtime) (rest : List Char) :
    DecidesSignature runtime payloadBytes (signaturePrefix ++ rest) secret ↔ IsAscii rest := by
  rw [DecidesSignature, verifySignature_prefix_append]
  by_cases ascii : IsAscii rest
  · rw [compareDigest_of_isAscii digests.isAscii ascii]
    simp [ascii, eq_comm]
  · rw [compareDigest_of_not_isAscii ascii]
    simp [ascii]

/-- An ASCII header is always decided. -/
theorem decidesSignature_of_isAscii (digests : HexDigests runtime)
    (ascii : IsAscii signatureHeader) :
    DecidesSignature runtime payloadBytes signatureHeader secret := by
  by_cases starts : signaturePrefix <+: signatureHeader
  · obtain ⟨rest, rfl⟩ := starts
    exact (decidesSignature_prefix_append digests rest).mpr (isAscii_append.mp ascii).2
  · exact decidesSignature_of_unprefixed starts

/-- **The check decides the signature** exactly if the header does not start with the prefix
or is ASCII. -/
theorem decidesSignature_iff (digests : HexDigests runtime) (payloadBytes : List UInt8)
    (signatureHeader : List Char) (secret : String) :
    DecidesSignature runtime payloadBytes signatureHeader secret ↔
      (signaturePrefix <+: signatureHeader → IsAscii signatureHeader) := by
  by_cases starts : signaturePrefix <+: signatureHeader
  · obtain ⟨rest, rfl⟩ := starts
    rw [decidesSignature_prefix_append digests, isAscii_append,
      and_iff_right isAscii_signaturePrefix, forall_prop_of_true (List.prefix_append _ _)]
  · exact iff_of_true (decidesSignature_of_unprefixed starts) fun isPrefix =>
      absurd isPrefix starts

theorem hexDigests_acmeRuntime : HexDigests acmeRuntime := by
  have lowerHex : acmeDigest ⊆ "0123456789abcdef".toList := by decide
  exact fun _ _ => ⟨rfl, fun _ listed => lowerHex listed⟩

/-- The sample is signed, and the check says so. -/
theorem decidesSignature_acmeDelivery :
    DecidesSignature acmeRuntime acmeDelivery.body (signaturePrefix ++ acmeDigest)
      acmeDelivery.secret :=
  (decidesSignature_iff hexDigests_acmeRuntime acmeDelivery.body (signaturePrefix ++ acmeDigest)
    acmeDelivery.secret).mpr fun _ => by decide

/-- The header `sha256=é` makes the check raise. -/
theorem not_decidesSignature_accent :
    HexDigests acmeRuntime ∧ ¬ DecidesSignature acmeRuntime acmeDelivery.body
      (signaturePrefix ++ ['é']) acmeDelivery.secret := by
  refine ⟨hexDigests_acmeRuntime, ?_⟩
  rw [DecidesSignature, verifySignature_prefix_append, compareDigest_of_not_isAscii (by decide)]
  nofun

end Kenjutsu.Server.Webhook
