import Kenjutsu.Db.Deliveries
import Kenjutsu.Foundations.Services

/-!
# The webhook endpoint

`receive_webhook` verifies the signature of a delivery, records it in
`webhook_events` and schedules `_route_event` as a background task. It has four
awaits: the body of the request, the lookup of the installation, the commit of
the event, and the rollback after a violated constraint.

What `hmac`, `json` and the database driver compute is a parameter: the digest of
a payload, the value a body decodes to, the text of a value in a message, and
the integer a value is bound as in a query.

Every integrity error of the commit is answered as a duplicate. The commit
raises one for a delivery that is already recorded, and also for an installation
that was deleted since the lookup.
-/

set_option autoImplicit false

namespace Kenjutsu.Server

open Foundations Foundations.Coroutine Kenjutsu.Db Kenjutsu.Http

namespace Webhook

/-- The exceptions of the endpoint, those of its awaits included. -/
inductive Raised where
  | httpException (statusCode : Nat) (detail : String)
  | integrityError
  | jsonDecodeError
  | unicodeDecodeError
  | attributeError
  | typeError
  | other
deriving DecidableEq, Repr

/-- What the standard library and the database driver compute. -/
structure Runtime where
  /-- `hmac.new(secret.encode(), payload, hashlib.sha256).hexdigest()`. -/
  hexdigest : String → List UInt8 → List Char
  /-- `json.loads`. -/
  loads : List UInt8 → Except Raised Json
  /-- A value in an f-string. -/
  format : Json → String
  /-- A value bound where an integer is declared. -/
  bind : Json → Except Raised Int

/-- A `POST /webhook`, with the secret the environment holds when it is handled.
The signature header is given by its characters. -/
structure WebhookRequest where
  xHubSignature256 : Option (List Char)
  xGithubEvent : Option String
  xGithubDelivery : Option String
  body : List UInt8
  secret : String

/-- The awaits of the endpoint. -/
inductive Awaited where
  | body (content : List UInt8)
  | execute (githubInstallationId : Json)
  | commit (event : WebhookEvent)
  | rollback

def Awaited.Answer : Awaited → Type
  | .body _ => List UInt8
  | .execute _ => Option Installation
  | .commit _ => Unit
  | .rollback => Unit

/-- `_route_event` with its arguments. -/
structure RouteEvent where
  eventType : String
  action : Json
  payload : Json

/-- `{"status": …}`. -/
inductive Status where
  | accepted
  | duplicate
deriving DecidableEq, Repr

/-- The answer of the endpoint, and the background tasks that run after it. -/
structure Reply where
  status : Status
  backgroundTasks : List RouteEvent

/-! ## The signature -/

/-- `"sha256="`. -/
def signaturePrefix : List Char := ['s', 'h', 'a', '2', '5', '6', '=']

/-- `hmac.compare_digest` of two strings, which must be ASCII. -/
def compareDigest (first second : List Char) : Except Raised Bool :=
  if (first ++ second).all (·.val < 128) then .ok (first = second)
  else .error .typeError

/-- `verify_signature`. -/
def verifySignature (runtime : Runtime) (payloadBytes : List UInt8)
    (signatureHeader : List Char) (secret : String) : Except Raised Bool :=
  if signatureHeader = [] ∨ ¬ signaturePrefix <+: signatureHeader then .ok false
  else compareDigest (runtime.hexdigest secret payloadBytes)
    (signatureHeader.drop signaturePrefix.length)

/-! ## The payload -/

/-- `value.get(key, default)`: only an object has the method. -/
def dictGet (key : String) (default : Json) : Json → Except Raised Json
  | .object members => .ok ((members.lookup key).getD default)
  | _ => .error .attributeError

/-- `payload.get("installation", {}).get("id")`. -/
def githubInstallationId (payload : Json) : Except Raised Json := do
  let installation ← dictGet "installation" (.object []) payload
  dictGet "id" .null installation

/-- `json.loads` in its `try`. -/
def parsePayload (runtime : Runtime) (payloadBytes : List UInt8) : Except Raised Json :=
  match runtime.loads payloadBytes with
  | .error .jsonDecodeError => .error (.httpException 400 "Invalid JSON payload")
  | outcome => outcome

/-- A header that is present and not empty. -/
def requireHeader (header : Option String) (detail : String) : Except Raised String :=
  match header with
  | none => .error (.httpException 400 detail)
  | some value => if value = "" then .error (.httpException 400 detail) else .ok value

/-- Everything between the body and the lookup: the secret, the signature, the
payload and its installation id. -/
def checkedPayload (runtime : Runtime) (request : WebhookRequest) (payloadBytes : List UInt8) :
    Except Raised (Json × Json) :=
  if request.secret = "" then .error (.httpException 500 "Webhook secret not configured")
  else do
    let verified ← verifySignature runtime payloadBytes (request.xHubSignature256.getD [])
      request.secret
    if verified then do
      let payload ← parsePayload runtime payloadBytes
      let githubId ← githubInstallationId payload
      match githubId with
      | .null => .error (.httpException 400 "Payload missing installation.id")
      | githubId => .ok (payload, githubId)
    else .error (.httpException 401 "Invalid signature")

/-! ## The endpoint -/

/-- A coroutine of the endpoint. -/
abbrev Endpoint := Coroutine Unit Awaited.Answer Raised

/-- `request.body()`. -/
def readBody (request : WebhookRequest) : Endpoint (List UInt8) := call (Awaited.body request.body)

/-- `db.execute` of the lookup, and `scalar_one_or_none`. -/
def selectInstallation (githubId : Json) : Endpoint (Option Installation) :=
  call (Awaited.execute githubId)

/-- `db.commit()` in its `try`: whether the event was committed. -/
def commitEvent (event : WebhookEvent) : Endpoint Bool :=
  tryExcept (do
      let _ ← call (Awaited.commit event)
      pure true)
    (· = .integrityError)
    fun _ => do
      let _ ← call Awaited.rollback
      pure false

/-- The end of the endpoint: the event is persisted, and dispatched if it is new. -/
def persistEvent (event : WebhookEvent) : Endpoint Reply := do
  let committed ← commitEvent event
  if committed then do
    let action ← ofExcept (dictGet "action" .null event.payloadJson)
    pure { status := .accepted, backgroundTasks := [⟨event.eventType, action, event.payloadJson⟩] }
  else pure { status := .duplicate, backgroundTasks := [] }

/-- `receive_webhook`. -/
def receiveWebhook (runtime : Runtime) (request : WebhookRequest) : Endpoint Reply := do
  let eventType ← ofExcept
    (requireHeader request.xGithubEvent "Missing X-GitHub-Event header")
  let deliveryId ← ofExcept
    (requireHeader request.xGithubDelivery "Missing X-GitHub-Delivery header")
  let payloadBytes ← readBody request
  let (payload, githubId) ← ofExcept (checkedPayload runtime request payloadBytes)
  match ← selectInstallation githubId with
  | none => raise (.httpException 400 ("Unknown installation: " ++ runtime.format githubId))
  | some installation =>
      persistEvent
        { deliveryId, installationId := installation.id, eventType, payloadJson := payload }

/-! ## The server -/

/-- How the database performs an operation: it may fail, and then nothing
happens. A commit violates a constraint or inserts its event. -/
def performs (runtime : Runtime) (fails : Bool) (deliveries : Deliveries) (request : Awaited) :
    Except Raised request.Answer × Deliveries :=
  if fails then (.error .other, deliveries)
  else match request with
    | .body content => (.ok content, deliveries)
    | .execute githubId => match runtime.bind githubId with
        | .ok id => (.ok (deliveries.selectInstallation id), deliveries)
        | .error _ => (.error .other, deliveries)
    | .commit event => match deliveries.insertEvent event with
        | some inserted => (.ok (), inserted)
        | none => (.error .integrityError, deliveries)
    | .rollback => (.ok (), deliveries)

/-- What others do to the tables. -/
inductive Change where
  | insertInstallation (installation : Installation)
  | deleteInstallation (id : UUID)

def Change.apply : Change → Deliveries → Deliveries
  | .insertInstallation installation, deliveries => deliveries.insertInstallation installation
  | .deleteInstallation id, deliveries => deliveries.deleteInstallation id

/-- The webhook server. -/
def server (runtime : Runtime) :
    Backend WebhookRequest Deliveries Bool Change Awaited.Answer Raised Reply where
  body := receiveWebhook runtime
  performs := performs runtime
  changes := Change.apply
  leavesWork := fun reply => !reply.backgroundTasks.isEmpty

/-! ## What the endpoint ensures -/

/-- The request passes every check of the endpoint, with what it has heard of the
installation, and the event is what it asks to record. -/
structure Passes (runtime : Runtime) (request : WebhookRequest)
    (heard : List (Exchange Awaited.Answer Raised)) (event : WebhookEvent) : Prop where
  named : request.xGithubEvent = some event.eventType ∧ event.eventType ≠ ""
  identified : request.xGithubDelivery = some event.deliveryId ∧ event.deliveryId ≠ ""
  configured : request.secret ≠ ""
  verified : verifySignature runtime request.body (request.xHubSignature256.getD [])
    request.secret = .ok true
  parsed : runtime.loads request.body = .ok event.payloadJson
  located : ∃ githubId installation, githubInstallationId event.payloadJson = .ok githubId ∧
    githubId ≠ .null ∧ ⟨.execute githubId, .ok (some installation)⟩ ∈ heard ∧
    installation.id = event.installationId

/-- Nothing that was heard is a commit that inserted its event. -/
def Quiet (heard : List (Exchange Awaited.Answer Raised)) : Prop :=
  ∀ event, ⟨.commit event, .ok ()⟩ ∉ heard

/-- Where the endpoint awaits. -/
def waits (runtime : Runtime) (request : WebhookRequest)
    (heard : List (Exchange Awaited.Answer Raised)) : Awaited → Prop
  | .commit event => Quiet heard ∧ Passes runtime request heard event ∧
      ∃ earlier githubId installation, installation.id = event.installationId ∧
        heard = earlier ++ [⟨.execute githubId, .ok (some installation)⟩]
  | .rollback => Quiet heard ∧ ∃ event, Passes runtime request heard event ∧
      ∃ earlier, heard = earlier ++ [⟨.commit event, .error .integrityError⟩]
  | _ => Quiet heard

theorem waits_quiet {runtime : Runtime} {request : WebhookRequest}
    {heard : List (Exchange Awaited.Answer Raised)} {awaited : Awaited}
    (waiting : waits runtime request heard awaited) : Quiet heard := by
  cases awaited with
  | commit event => exact waiting.1
  | rollback => exact waiting.1
  | body content => exact waiting
  | execute githubId => exact waiting

/-- How the endpoint ends. -/
def ends (runtime : Runtime) (request : WebhookRequest) :
    Except Raised Reply → List (Exchange Awaited.Answer Raised) → Prop
  | .ok ⟨.accepted, tasks⟩, heard => ∃ event, Passes runtime request heard event ∧
      (∀ other, ⟨.commit other, .ok ()⟩ ∈ heard ↔ other = event) ∧
      ∃ action, dictGet "action" .null event.payloadJson = .ok action ∧
        tasks = [⟨event.eventType, action, event.payloadJson⟩]
  | .ok ⟨.duplicate, tasks⟩, heard =>
      Quiet heard ∧ tasks = [] ∧ (∃ event, Passes runtime request heard event) ∧
        ∃ earlier, heard = earlier ++ [⟨.rollback, .ok ()⟩]
  | .error _, heard => Quiet heard

/-- A body is read as it was sent. -/
def admits : Exchange Awaited.Answer Raised → Prop
  | ⟨.body content, .ok bytes⟩ => bytes = content
  | _ => True

theorem admits_performs (runtime : Runtime) (fails : Bool) (deliveries : Deliveries)
    (request : Awaited) : admits ⟨request, (performs runtime fails deliveries request).1⟩ := by
  cases request with
  | body content =>
      cases fails with
      | false => rfl
      | true => trivial
  | _ => trivial

theorem requireHeader_eq_ok {header : Option String} {detail value : String}
    (required : requireHeader header detail = .ok value) : header = some value ∧ value ≠ "" := by
  unfold requireHeader at required
  split at required
  · cases required
  · split at required
    · cases required
    · obtain rfl := Except.ok.inj required
      exact ⟨rfl, by assumption⟩

/-- A step that another follows has not raised. -/
theorem exists_ok_of_bind {First Second : Type} {first : Except Raised First}
    {next : First → Except Raised Second} {result : Second}
    (done : (first >>= next) = .ok result) :
    ∃ value, first = .ok value ∧ next value = .ok result := by
  cases first with
  | error raised => cases done
  | ok value => exact ⟨value, rfl, done⟩

theorem parsePayload_eq_ok {runtime : Runtime} {payloadBytes : List UInt8} {payload : Json}
    (parsed : parsePayload runtime payloadBytes = .ok payload) :
    runtime.loads payloadBytes = .ok payload := by
  unfold parsePayload at parsed
  split at parsed
  · cases parsed
  · exact parsed

/-- A payload that passes is signed, is decoded and names an installation. -/
theorem checkedPayload_eq_ok {runtime : Runtime} {request : WebhookRequest}
    {payloadBytes : List UInt8} {payload githubId : Json}
    (checked : checkedPayload runtime request payloadBytes = .ok (payload, githubId)) :
    request.secret ≠ "" ∧
      verifySignature runtime payloadBytes (request.xHubSignature256.getD []) request.secret =
        .ok true ∧
      runtime.loads payloadBytes = .ok payload ∧ githubInstallationId payload = .ok githubId ∧
      githubId ≠ .null := by
  unfold checkedPayload at checked
  split at checked
  · cases checked
  · rename_i configured
    obtain ⟨verified, signature, checked⟩ := exists_ok_of_bind checked
    split at checked
    · rename_i holds
      obtain ⟨decoded, parsed, checked⟩ := exists_ok_of_bind checked
      obtain ⟨named, located, checked⟩ := exists_ok_of_bind checked
      split at checked
      · cases checked
      · rename_i given
        obtain ⟨rfl, rfl⟩ := Prod.mk.inj (Except.ok.inj checked)
        rw [holds] at signature
        exact ⟨configured, signature, parsePayload_eq_ok parsed, located, given⟩
    · cases checked

/-- A payload with an installation id has its members looked up without fail. -/
theorem exists_dictGet {payload githubId : Json}
    (located : githubInstallationId payload = .ok githubId) (key : String) (default : Json) :
    ∃ value, dictGet key default payload = .ok value := by
  obtain ⟨installation, found, -⟩ := exists_ok_of_bind located
  cases payload with
  | object members => exact ⟨_, rfl⟩
  | _ => cases found

theorem quiet_nil : Quiet [] := fun _ => List.not_mem_nil

/-- Being refused is quiet, -/
theorem Quiet.refused {heard : List (Exchange Awaited.Answer Raised)} (quiet : Quiet heard)
    (request : Awaited) (raised : Raised) : Quiet (heard ++ [⟨request, .error raised⟩]) := by
  intro event member
  rcases List.mem_append.mp member with old | new
  · exact quiet event old
  · cases List.mem_singleton.mp new

/-- and so is whatever is not a commit. -/
theorem Quiet.asked {heard : List (Exchange Awaited.Answer Raised)} (quiet : Quiet heard)
    {request : Awaited} (other : ∀ event, request ≠ .commit event)
    (answer : Except Raised request.Answer) : Quiet (heard ++ [⟨request, answer⟩]) := by
  intro event member
  rcases List.mem_append.mp member with old | new
  · exact quiet event old
  · exact other event (congrArg Exchange.request (List.mem_singleton.mp new)).symm

theorem Passes.concat {runtime : Runtime} {request : WebhookRequest} {event : WebhookEvent}
    {heard : List (Exchange Awaited.Answer Raised)} (passes : Passes runtime request heard event)
    (exchange : Exchange Awaited.Answer Raised) :
    Passes runtime request (heard ++ [exchange]) event := by
  obtain ⟨githubId, installation, named, given, found, same⟩ := passes.located
  exact { passes with
    located := ⟨githubId, installation, named, given, List.mem_append_left _ found, same⟩ }

section Rules

variable {waits : List (Exchange Awaited.Answer Raised) → Awaited → Prop}
  {admits : Exchange Awaited.Answer Raised → Prop}
  {heard : List (Exchange Awaited.Answer Raised)}

theorem readBody_ensures {request : WebhookRequest}
    {after : Except Raised (List UInt8) → Unit → List (Exchange Awaited.Answer Raised) → Prop} :
    (readBody request).Ensures (Service.serving waits admits) after () heard ↔
      waits heard (.body request.body) ∧
        ∀ answer : Except Raised (List UInt8), admits ⟨.body request.body, answer⟩ →
          after answer () (heard ++ [⟨.body request.body, answer⟩]) :=
  Service.ensures_call_serving

theorem selectInstallation_ensures {githubId : Json}
    {after : Except Raised (Option Installation) → Unit →
      List (Exchange Awaited.Answer Raised) → Prop} :
    (selectInstallation githubId).Ensures (Service.serving waits admits) after () heard ↔
      waits heard (.execute githubId) ∧
        ∀ answer : Except Raised (Option Installation), admits ⟨.execute githubId, answer⟩ →
          after answer () (heard ++ [⟨.execute githubId, answer⟩]) :=
  Service.ensures_call_serving

/-- A commit is awaited, and after an integrity error a rollback. -/
theorem commitEvent_ensures {event : WebhookEvent}
    {after : Except Raised Bool → Unit → List (Exchange Awaited.Answer Raised) → Prop}
    (waitsCommit : waits heard (.commit event))
    (committed : after (.ok true) () (heard ++ [⟨.commit event, .ok ()⟩]))
    (failed : ∀ raised, raised ≠ .integrityError →
      after (.error raised) () (heard ++ [⟨.commit event, .error raised⟩]))
    (waitsRollback : waits (heard ++ [⟨.commit event, .error .integrityError⟩]) .rollback)
    (rolledBack : after (.ok false) ()
      (heard ++ [⟨.commit event, .error .integrityError⟩] ++ [⟨.rollback, .ok ()⟩]))
    (stuck : ∀ raised, after (.error raised) ()
      (heard ++ [⟨.commit event, .error .integrityError⟩] ++ [⟨.rollback, .error raised⟩])) :
    (commitEvent event).Ensures (Service.serving waits admits) after () heard := by
  unfold commitEvent
  rw [ensures_tryExcept, ensures_bind]
  refine Service.ensures_call_serving.mpr ⟨waitsCommit, ?_⟩
  rintro (raised | ⟨⟩) -
  · rw [onOutcome_error, onOutcome_error]
    by_cases violated : raised = .integrityError
    · subst violated
      rw [if_pos (decide_eq_true rfl), ensures_bind]
      refine Service.ensures_call_serving.mpr ⟨waitsRollback, ?_⟩
      rintro (raised | ⟨⟩) -
      · exact stuck raised
      · exact rolledBack
    · rw [if_neg (by simpa using violated)]
      exact failed raised violated
  · exact committed

end Rules

/-- An event that passed the checks is inserted and scheduled, or it is not
inserted. -/
theorem persistEvent_ensures {runtime : Runtime} {request : WebhookRequest} {event : WebhookEvent}
    {heard : List (Exchange Awaited.Answer Raised)}
    (waiting : waits runtime request heard (.commit event)) :
    (persistEvent event).Ensures (Service.serving (waits runtime request) admits)
      (fun outcome _ later => ends runtime request outcome later) () heard := by
  obtain ⟨quiet, passes, lookup⟩ := waiting
  obtain ⟨githubId, -, found, -⟩ := passes.located
  obtain ⟨action, looked⟩ := exists_dictGet found "action" .null
  unfold persistEvent
  rw [ensures_bind]
  refine commitEvent_ensures ⟨quiet, passes, lookup⟩ ?_ ?_ ?_ ?_ ?_
  · rw [onOutcome_ok, if_pos rfl, ensures_bind, ensures_ofExcept, looked]
    refine ⟨event, passes.concat _, ?_, action, looked, rfl⟩
    intro other
    constructor
    · intro member
      rcases List.mem_append.mp member with old | new
      · exact absurd old (quiet other)
      · exact Awaited.commit.inj (congrArg Exchange.request (List.mem_singleton.mp new))
    · rintro rfl
      exact List.mem_append_right _ (List.mem_singleton_self _)
  · intro raised _
    exact quiet.refused _ raised
  · exact ⟨quiet.refused _ _, event, passes.concat _, heard, rfl⟩
  · rw [onOutcome_ok, if_neg Bool.false_ne_true]
    refine ⟨(quiet.refused _ _).asked ?_ _, rfl, ⟨event, (passes.concat _).concat _⟩, _, rfl⟩
    rintro _ ⟨⟩
  · intro raised
    exact (quiet.refused _ _).refused _ raised

/-- Whoever asks to commit has passed the checks; whoever accepts has inserted
its event and schedules it; whoever does not has inserted nothing. -/
theorem receiveWebhook_ensures (runtime : Runtime) (request : WebhookRequest) :
    (receiveWebhook runtime request).Ensures (Service.serving (waits runtime request) admits)
      (fun outcome _ heard => ends runtime request outcome heard) () [] := by
  unfold receiveWebhook
  rw [ensures_bind, ensures_ofExcept]
  cases named : requireHeader request.xGithubEvent "Missing X-GitHub-Event header" with
  | error raised => exact quiet_nil
  | ok eventType =>
      rw [onOutcome_ok, ensures_bind, ensures_ofExcept]
      cases identified :
          requireHeader request.xGithubDelivery "Missing X-GitHub-Delivery header" with
      | error raised => exact quiet_nil
      | ok deliveryId =>
          rw [onOutcome_ok, ensures_bind, readBody_ensures]
          refine ⟨quiet_nil, ?_⟩
          rintro (raised | payloadBytes) admitted
          · exact quiet_nil.refused _ raised
          · obtain rfl : payloadBytes = request.body := admitted
            have read : Quiet ([] ++ [⟨.body request.body, .ok request.body⟩]) :=
              quiet_nil.asked (by rintro _ ⟨⟩) _
            rw [onOutcome_ok, ensures_bind, ensures_ofExcept]
            cases checked : checkedPayload runtime request request.body with
            | error raised => exact read
            | ok located =>
                obtain ⟨payload, githubId⟩ := located
                obtain ⟨configured, verified, parsed, found, given⟩ := checkedPayload_eq_ok checked
                rw [onOutcome_ok, ensures_bind, selectInstallation_ensures]
                refine ⟨read, ?_⟩
                have asked := @Quiet.asked _ read (.execute githubId) (by rintro _ ⟨⟩)
                rintro (raised | ⟨⟨⟩ | installation⟩) -
                · exact asked (.error raised)
                · exact asked (.ok none)
                · refine persistEvent_ensures
                    ⟨asked (.ok (some installation)), ?_, _, githubId, installation, rfl, rfl⟩
                  exact
                    { named := requireHeader_eq_ok named
                      identified := requireHeader_eq_ok identified
                      configured
                      verified
                      parsed
                      located := ⟨githubId, installation, found, given,
                        List.mem_append_right _ (List.mem_singleton_self _), rfl⟩ }

end Webhook

end Kenjutsu.Server
