import Mathlib.Data.Rat.Defs

/-!
# Responses and exceptions

What the modules that talk to GitHub see of `httpx` and of the decoder: a
response with its status, headers and body, and the exceptions that awaiting
one, decoding one or indexing into one can raise.
-/

set_option autoImplicit false

namespace Kenjutsu.Http

/-- A decoded JSON value. The members of an object have distinct names. -/
inductive Json where
  | null
  | boolean (value : Bool)
  | integer (value : Int)
  | decimal (value : ℚ)
  | string (text : String)
  | array (items : List Json)
  | object (members : List (String × Json))

/-- The exceptions that matter to some handler. `httpx.TransportError` has the
subclasses `TimeoutException`, `NetworkError` (with `ConnectError` below it) and
the three after it, which no handler names. -/
inductive Raised where
  | timeoutException
  | connectError
  | networkError
  | protocolError
  | proxyError
  | unsupportedProtocol
  | httpStatusError (statusCode : Nat)
  | jsonDecodeError
  | keyError (key : String)
  | typeError
  | valueError (message : String)
  | cancelledError
  | other
deriving DecidableEq, Repr

@[simp] theorem ok_bind {Result Value : Type} (result : Result)
    (next : Result → Except Raised Value) :
    ((.ok result : Except Raised Result) >>= next) = next result := rfl

@[simp] theorem error_bind {Result Value : Type} (raised : Raised)
    (next : Result → Except Raised Value) :
    ((.error raised : Except Raised Result) >>= next) = .error raised := rfl

/-- An HTTP response. A body that does not decode has no content. -/
structure Response where
  statusCode : Nat
  headers : String → Option String
  content : Option Json

/-- `value == text` of a decoded value and a `str`. -/
def Json.isText (text : String) : Json → Bool
  | .string value => value = text
  | _ => false

/-- A value in the text of a message, where it is expected to be a string. -/
def Json.text : Json → String
  | .string value => value
  | _ => ""

/-- A value stored where an integer is declared. -/
def Json.asInt : Json → Except Raised Int
  | .integer value => .ok value
  | _ => .error .typeError

theorem Json.isText_iff (text : String) (value : Json) :
    value.isText text ↔ value = .string text := by
  cases value <;> simp [isText]

/-- `value[key]` with a string key: only an object has items under names. -/
def Json.item (key : String) : Json → Except Raised Json
  | .object members => match members.lookup key with
      | some value => .ok value
      | none => .error (.keyError key)
  | _ => .error .typeError

namespace Response

/-- `response.json()`. -/
def json (response : Response) : Except Raised Json :=
  match response.content with
  | some value => .ok value
  | none => .error .jsonDecodeError

/-- `response.raise_for_status()`: every status that is not a success raises. -/
def raiseForStatus (response : Response) : Except Raised Unit :=
  if 200 ≤ response.statusCode ∧ response.statusCode < 300 then .ok ()
  else .error (.httpStatusError response.statusCode)

/-- `response.json()["head"]["sha"]`. -/
def headSha (response : Response) : Except Raised Json := do
  let data ← response.json
  let head ← data.item "head"
  head.item "sha"

end Response

end Kenjutsu.Http
