import Kenjutsu.Foundations.Transcripts
import Kenjutsu.Server.WebhookSignature

/-!
# How the webhook endpoint answers

Every request is to be answered with 400, with 401, as accepted or as a duplicate. The
endpoint applies `get` to whatever the body decodes to and to its `installation` member, so it
raises for anything that is not an object; it catches one of the exceptions of the decoder;
and what the database cannot take as an installation id, or cannot keep in a row, ends in an
exception of the driver.

The endpoint runs against a database that is reachable: every operation is performed, a
lookup finds an installation or none, a commit inserts its event or violates a constraint.
Whatever others do to the tables in between is part of how it answers.
-/

set_option autoImplicit false

namespace Kenjutsu.Server.Webhook

open Foundations Foundations.Coroutine Kenjutsu.Db Kenjutsu.Http

variable {Database : Type}
  {respond : Database → (request : Awaited) → Except Raised request.Answer × Database}
  {runtime : Runtime} {keeps : WebhookEvent → Bool} {request : WebhookRequest}
  {database : Database}

/-- What is assumed of the standard library: its digests are hexadecimal, and its decoder
raises no exception of the web framework. -/
structure Standard (runtime : Runtime) : Prop where
  digests : HexDigests runtime
  decoder : ∀ bytes statusCode detail,
    runtime.loads bytes ≠ .error (.httpException statusCode detail)

/-- How a reachable database answers. A value that cannot be bound and an event that the
columns cannot keep are refused by the driver. -/
structure Reachable (runtime : Runtime) (keeps : WebhookEvent → Bool)
    (respond : Database → (request : Awaited) → Except Raised request.Answer × Database) :
    Prop where
  body : ∀ database content, (respond database (.body content)).1 = .ok content
  execute : ∀ database githubId id, runtime.bind githubId = .ok id →
    ∃ found, (respond database (.execute githubId)).1 = .ok found
  unbound : ∀ database githubId raised, runtime.bind githubId = .error raised →
    (respond database (.execute githubId)).1 = .error .other
  commit : ∀ database event, keeps event →
    (respond database (.commit event)).1 = .ok () ∨
      (respond database (.commit event)).1 = .error .integrityError
  unkept : ∀ database event, keeps event = false →
    (respond database (.commit event)).1 = .error .other
  rollback : ∀ database, (respond database .rollback).1 = .ok ()

/-- The tables of the service, when no operation fails. -/
theorem reachable_performs (runtime : Runtime) :
    Reachable runtime (fun _ => true) (performs runtime false) where
  body _ _ := rfl
  execute deliveries githubId id bound :=
    ⟨deliveries.selectInstallation id, by simp [performs, bound]⟩
  unbound deliveries githubId raised refused := by simp [performs, refused]
  commit deliveries event _ := by
    cases inserted : deliveries.insertEvent event <;> simp [performs, inserted]
  unkept _ _ absurdly := by cases absurdly
  rollback _ := rfl

/-! ## What is promised -/

/-- How the endpoint ends. -/
def outcomeOf (respond : Database → (request : Awaited) → Except Raised request.Answer × Database)
    (runtime : Runtime) (request : WebhookRequest) (database : Database) : Except Raised Reply :=
  ((receiveWebhook runtime request).serve respond () database).1

/-- The request is answered with 400, with 401, as accepted or as a duplicate. -/
inductive Answered : Except Raised Reply → Prop
  | badRequest (detail : String) : Answered (.error (.httpException 400 detail))
  | unauthorized (detail : String) : Answered (.error (.httpException 401 detail))
  | replied (reply : Reply) : Answered (.ok reply)

/-- The request is signed. -/
def Signed (runtime : Runtime) (request : WebhookRequest) : Prop :=
  request.xHubSignature256 =
    some (signaturePrefix ++ runtime.hexdigest request.secret request.body)

/-- The payload is an object whose `installation` member is an object. -/
def HasInstallation : Json → Prop
  | .object members => ∃ installation, members.lookup "installation" = some (.object installation)
  | _ => False

/-- The body does not decode, or it decodes to anything but an object with an installation. -/
def Malformed (runtime : Runtime) (request : WebhookRequest) : Prop :=
  ∀ payload, runtime.loads request.body = .ok payload → ¬ HasInstallation payload

/-- The endpoint answers the request, and a signed one that is malformed with 400. -/
structure AnswersRequest (runtime : Runtime) (request : WebhookRequest)
    (outcome : Except Raised Reply) : Prop where
  answers : Answered outcome
  refuses : Signed runtime request → Malformed runtime request →
    ∃ detail, outcome = .error (.httpException 400 detail)

/-! ## Which requests are answered -/

/-- The payload is an object whose `installation` member, if there is one, is an object; the
id in it is null where there is none. -/
inductive NamesInstallation : Json → Json → Prop
  | missing (members : List (String × Json)) (absent : members.lookup "installation" = none) :
      NamesInstallation (.object members) .null
  | present (members installation : List (String × Json))
      (found : members.lookup "installation" = some (.object installation)) :
      NamesInstallation (.object members) ((installation.lookup "id").getD .null)

/-- The headers that are required are present and not empty. -/
def Named (request : WebhookRequest) (eventType deliveryId : String) : Prop :=
  (request.xGithubEvent = some eventType ∧ eventType ≠ "") ∧
    request.xGithubDelivery = some deliveryId ∧ deliveryId ≠ ""

/-- The database can look the id up and, where that finds an installation, keep the event. -/
structure Storable
    (respond : Database → (request : Awaited) → Except Raised request.Answer × Database)
    (runtime : Runtime) (keeps : WebhookEvent → Bool) (request : WebhookRequest)
    (database : Database) (eventType deliveryId : String) (payload githubId : Json) : Prop where
  binds : ∃ id, runtime.bind githubId = .ok id
  keeps : ∀ installation, (respond (respond database (.body request.body)).2
      (.execute githubId)).1 = .ok (some installation) →
    keeps ⟨deliveryId, installation.id, eventType, payload⟩

/-- The body is no JSON text, or the payload is an object whose installation is missing or an
object, with an id that is missing, or that the database can take with the event. -/
def Digestible
    (respond : Database → (request : Awaited) → Except Raised request.Answer × Database)
    (runtime : Runtime) (keeps : WebhookEvent → Bool) (request : WebhookRequest)
    (database : Database) (eventType deliveryId : String) : Prop :=
  runtime.loads request.body = .error .jsonDecodeError ∨
    ∃ payload githubId, runtime.loads request.body = .ok payload ∧
      NamesInstallation payload githubId ∧
      (githubId = .null ∨
        Storable respond runtime keeps request database eventType deliveryId payload githubId)

/-- A request that is named and signed has a body that the endpoint can digest. -/
def BodyDigestible
    (respond : Database → (request : Awaited) → Except Raised request.Answer × Database)
    (runtime : Runtime) (keeps : WebhookEvent → Bool) (request : WebhookRequest)
    (database : Database) : Prop :=
  ∀ eventType deliveryId, Named request eventType deliveryId → Signed runtime request →
    Digestible respond runtime keeps request database eventType deliveryId

/-! ## The checks -/

/-- A required header is there, or the request is bad. -/
theorem requireHeader_cases (header : Option String) (detail : String) :
    (∃ value, header = some value ∧ value ≠ "" ∧ requireHeader header detail = .ok value) ∨
      ((∀ value, header = some value → value = "") ∧
        requireHeader header detail = .error (.httpException 400 detail)) := by
  cases header with
  | none => exact .inr ⟨nofun, rfl⟩
  | some value =>
      by_cases empty : value = ""
      · refine .inr ⟨fun other same => ?_, if_pos empty⟩
        exact (Option.some.inj same).symm.trans empty
      · exact .inl ⟨value, rfl, empty, if_neg empty⟩

/-- An ASCII header is verified exactly if the request is signed. -/
theorem verifySignature_of_isAscii (standard : Standard runtime)
    (ascii : IsAscii (request.xHubSignature256.getD [])) :
    (Signed runtime request → verifySignature runtime request.body
        (request.xHubSignature256.getD []) request.secret = .ok true) ∧
      (¬ Signed runtime request → verifySignature runtime request.body
        (request.xHubSignature256.getD []) request.secret = .ok false) := by
  rw [decidesSignature_of_isAscii standard.digests ascii]
  unfold Signed
  cases request.xHubSignature256 with
  | none => simp [signaturePrefix]
  | some header => simp

/-- The id of an installation is found exactly where the payload names one. -/
theorem githubInstallationId_cases (payload : Json) :
    (∃ githubId, githubInstallationId payload = .ok githubId ∧
      NamesInstallation payload githubId) ∨
      (githubInstallationId payload = .error .attributeError ∧
        ∀ githubId, ¬ NamesInstallation payload githubId) := by
  cases payload with
  | object members =>
      cases found : members.lookup "installation" with
      | none =>
          refine .inl ⟨.null, ?_, .missing members found⟩
          simp only [githubInstallationId, dictGet, found]
          rfl
      | some installation =>
          cases installation with
          | object inner =>
              refine .inl ⟨(inner.lookup "id").getD .null, ?_, .present members inner found⟩
              simp only [githubInstallationId, dictGet, found]
              rfl
          | _ =>
              refine .inr ⟨by simp only [githubInstallationId, dictGet, found]; rfl, ?_⟩
              rintro githubId (⟨_, absent⟩ | ⟨_, inner, present⟩)
              · rw [found] at absent
                cases absent
              · rw [found] at present
                cases present
  | _ => exact .inr ⟨rfl, nofun⟩

theorem NamesInstallation.eq {payload first second : Json}
    (one : NamesInstallation payload first) (two : NamesInstallation payload second) :
    first = second := by
  cases one with
  | missing members absent =>
      cases two with
      | missing => rfl
      | present _ inner found => rw [absent] at found; cases found
  | present members inner found =>
      cases two with
      | missing _ absent => rw [absent] at found; cases found
      | present _ other foundOther =>
          rw [found] at foundOther
          cases foundOther
          rfl

/-- Where an id is given, the payload has an installation. -/
theorem NamesInstallation.hasInstallation {payload githubId : Json}
    (names : NamesInstallation payload githubId) (given : githubId ≠ .null) :
    HasInstallation payload := by
  cases names with
  | missing => exact absurd rfl given
  | present members inner found => exact ⟨inner, found⟩

/-! ## The awaits -/

/-- A commit that the columns keep goes through, or violates a constraint and is rolled back. -/
theorem serve_commitEvent_of_keeps (reachable : Reachable runtime keeps respond)
    {event : WebhookEvent} (kept : keeps event) (database : Database) :
    ∃ committed later, (commitEvent event).serve respond () database =
      (.ok committed, (), later) := by
  rcases reachable.commit database event kept with inserted | violated
  · exact ⟨true, _, serve_tryExcept_of_ok (serve_bind_of_ok (serve_call_of_answer inserted))⟩
  · exact ⟨false, _, (serve_tryExcept_of_caught
      (serve_bind_of_error (serve_call_of_answer violated)) rfl).trans
      (serve_bind_of_ok (serve_call_of_answer (reachable.rollback _)))⟩

/-- A commit that the columns do not keep raises. -/
theorem serve_commitEvent_of_not_keeps (reachable : Reachable runtime keeps respond)
    {event : WebhookEvent} (unkept : keeps event = false) (database : Database) :
    ∃ later, (commitEvent event).serve respond () database = (.error .other, (), later) :=
  ⟨_, serve_tryExcept_of_uncaught (serve_bind_of_error
    (serve_call_of_answer (reachable.unkept database event unkept))) rfl⟩

/-- An event that the columns keep is answered. -/
theorem serve_persistEvent_of_keeps (reachable : Reachable runtime keeps respond)
    (event : WebhookEvent) {githubId : Json}
    (located : githubInstallationId event.payloadJson = .ok githubId) (kept : keeps event)
    (database : Database) :
    ∃ reply, ((persistEvent event).serve respond () database).1 = .ok reply := by
  obtain ⟨action, looked⟩ := exists_dictGet located "action" .null
  obtain ⟨committed, later, ran⟩ := serve_commitEvent_of_keeps reachable kept database
  unfold persistEvent
  rw [serve_bind_of_ok ran, looked]
  cases committed with
  | true => exact ⟨_, rfl⟩
  | false => exact ⟨_, rfl⟩

/-- An event that the columns do not keep ends in the exception of the driver. -/
theorem serve_persistEvent_of_not_keeps (reachable : Reachable runtime keeps respond)
    {event : WebhookEvent} (unkept : keeps event = false) (database : Database) :
    ((persistEvent event).serve respond () database).1 = .error .other := by
  obtain ⟨later, ran⟩ := serve_commitEvent_of_not_keeps reachable unkept database
  unfold persistEvent
  rw [serve_bind_of_error ran]

/-! ## The endpoint -/

/-- A request without its headers is refused. -/
theorem outcomeOf_of_not_named (unnamed : ∀ eventType deliveryId,
      ¬ Named request eventType deliveryId) :
    ∃ detail, outcomeOf respond runtime request database = .error (.httpException 400 detail) := by
  unfold outcomeOf receiveWebhook
  rcases requireHeader_cases request.xGithubEvent "Missing X-GitHub-Event header" with
    ⟨eventType, given, nonempty, required⟩ | ⟨-, refused⟩
  · rcases requireHeader_cases request.xGithubDelivery "Missing X-GitHub-Delivery header" with
      ⟨deliveryId, identified, nonemptyId, -⟩ | ⟨-, refused⟩
    · exact absurd ⟨⟨given, nonempty⟩, identified, nonemptyId⟩ (unnamed eventType deliveryId)
    · rw [required, refused]
      exact ⟨_, rfl⟩
  · rw [refused]
    exact ⟨_, rfl⟩

/-- What follows the lookup of the installation. -/
def afterLookup (runtime : Runtime) (eventType deliveryId : String) (payload githubId : Json) :
    Option Installation → Endpoint Reply
  | none => raise (.httpException 400 ("Unknown installation: " ++ runtime.format githubId))
  | some installation => persistEvent ⟨deliveryId, installation.id, eventType, payload⟩

/-- With the headers given, the endpoint goes by what the checks say of the body. -/
theorem outcomeOf_of_named (reachable : Reachable runtime keeps respond)
    {eventType deliveryId : String} (named : Named request eventType deliveryId) :
    outcomeOf respond runtime request database =
      ((ofExcept (checkedPayload runtime request request.body) >>= fun located =>
        selectInstallation located.2 >>=
          afterLookup runtime eventType deliveryId located.1 located.2 : Endpoint Reply).serve
        respond () (respond database (.body request.body)).2).1 := by
  obtain ⟨⟨given, nonempty⟩, identified, nonemptyId⟩ := named
  have event : requireHeader request.xGithubEvent "Missing X-GitHub-Event header" =
      .ok eventType := by
    rw [given]
    exact if_neg nonempty
  have delivery : requireHeader request.xGithubDelivery "Missing X-GitHub-Delivery header" =
      .ok deliveryId := by
    rw [identified]
    exact if_neg nonemptyId
  have read : (readBody request).serve respond () database =
      (.ok request.body, (), (respond database (.body request.body)).2) :=
    serve_call_of_answer (reachable.body database request.body)
  unfold outcomeOf receiveWebhook
  rw [event, delivery, ofExcept_ok_bind, ofExcept_ok_bind, serve_bind_of_ok read]
  rfl

/-- What a check raises ends the endpoint. -/
theorem outcomeOf_of_checked_error (reachable : Reachable runtime keeps respond)
    {eventType deliveryId : String} (named : Named request eventType deliveryId) {raised : Raised}
    (checked : checkedPayload runtime request request.body = .error raised) :
    outcomeOf respond runtime request database = .error raised := by
  rw [outcomeOf_of_named reachable named, checked]
  rfl

/-! ## The checks of the body -/

/-- A request that is not signed is refused. -/
theorem checkedPayload_of_not_signed (standard : Standard runtime)
    (ascii : IsAscii (request.xHubSignature256.getD [])) (configured : request.secret ≠ "")
    (unsigned : ¬ Signed runtime request) :
    checkedPayload runtime request request.body =
      .error (.httpException 401 "Invalid signature") := by
  rw [checkedPayload, if_neg configured, (verifySignature_of_isAscii standard ascii).2 unsigned]
  rfl

section Signed

variable (standard : Standard runtime) (ascii : IsAscii (request.xHubSignature256.getD []))
  (configured : request.secret ≠ "") (signed : Signed runtime request)

include standard ascii configured signed

/-- What is left of the checks for a signed request. -/
theorem checkedPayload_of_signed :
    checkedPayload runtime request request.body = (do
      let payload ← parsePayload runtime request.body
      let githubId ← githubInstallationId payload
      match githubId with
      | .null => .error (.httpException 400 "Payload missing installation.id")
      | githubId => .ok (payload, githubId)) := by
  rw [checkedPayload, if_neg configured, (verifySignature_of_isAscii standard ascii).1 signed]
  rfl

/-- A text that is no JSON is refused, -/
theorem checkedPayload_of_jsonDecodeError
    (loaded : runtime.loads request.body = .error .jsonDecodeError) :
    checkedPayload runtime request request.body =
      .error (.httpException 400 "Invalid JSON payload") := by
  rw [checkedPayload_of_signed standard ascii configured signed, parsePayload, loaded]
  rfl

/-- and any other exception of the decoder is not caught. -/
theorem checkedPayload_of_loads_error {raised : Raised}
    (loaded : runtime.loads request.body = .error raised) (other : raised ≠ .jsonDecodeError) :
    checkedPayload runtime request request.body = .error raised := by
  have parsed : parsePayload runtime request.body = .error raised := by
    rw [parsePayload, loaded]
    split
    · rename_i same
      exact absurd (Except.error.inj same) other
    · rfl
  rw [checkedPayload_of_signed standard ascii configured signed, parsed]
  rfl

/-- What the payload says of its installation decides the rest. -/
theorem checkedPayload_of_payload {payload : Json}
    (loaded : runtime.loads request.body = .ok payload) :
    checkedPayload runtime request request.body = (do
      let githubId ← githubInstallationId payload
      match githubId with
      | .null => .error (.httpException 400 "Payload missing installation.id")
      | githubId => .ok (payload, githubId)) := by
  rw [checkedPayload_of_signed standard ascii configured signed, parsePayload, loaded]
  rfl

end Signed

/-! ## The lookup -/

/-- The end of a request whose payload names an installation: it is answered exactly if the
database can take what it names. -/
theorem serve_lookup_answers_iff (reachable : Reachable runtime keeps respond)
    {eventType deliveryId : String} {payload githubId : Json}
    (located : githubInstallationId payload = .ok githubId) :
    Answered ((selectInstallation githubId >>=
        afterLookup runtime eventType deliveryId payload githubId).serve respond ()
          (respond database (.body request.body)).2).1 ↔
      Storable respond runtime keeps request database eventType deliveryId payload githubId := by
  cases bound : runtime.bind githubId with
  | error raised =>
      have failed := reachable.unbound (respond database (.body request.body)).2 githubId raised
        bound
      have ran : (selectInstallation githubId).serve respond ()
          (respond database (.body request.body)).2 = (.error .other, (), _) :=
        serve_call_of_answer failed
      rw [serve_bind_of_error ran]
      refine iff_of_false nofun ?_
      rintro ⟨⟨id, binds⟩, -⟩
      rw [bound] at binds
      cases binds
  | ok id =>
      obtain ⟨found, answered⟩ := reachable.execute (respond database (.body request.body)).2
        githubId id bound
      have ran : (selectInstallation githubId).serve respond ()
          (respond database (.body request.body)).2 = (.ok found, (), _) :=
        serve_call_of_answer answered
      rw [serve_bind_of_ok ran]
      cases found with
      | none =>
          refine iff_of_true (.badRequest _) ⟨⟨id, bound⟩, fun installation other => ?_⟩
          rw [answered] at other
          cases other
      | some installation =>
          cases kept : keeps ⟨deliveryId, installation.id, eventType, payload⟩ with
          | true =>
              obtain ⟨reply, replied⟩ := serve_persistEvent_of_keeps reachable
                ⟨deliveryId, installation.id, eventType, payload⟩ located kept _
              rw [afterLookup, replied]
              refine iff_of_true (.replied reply) ⟨⟨id, bound⟩, fun other same => ?_⟩
              rw [answered] at same
              cases same
              exact kept
          | false =>
              rw [afterLookup, serve_persistEvent_of_not_keeps reachable kept]
              refine iff_of_false nofun fun storable => ?_
              have keeps := storable.keeps installation answered
              rw [kept] at keeps
              cases keeps

/-! ## The answer -/

/-- A payload that says where its installation is can be digested if the database can. -/
theorem digestible_iff_of_names {payload githubId : Json} {eventType deliveryId : String}
    (loaded : runtime.loads request.body = .ok payload)
    (names : NamesInstallation payload githubId) :
    Digestible respond runtime keeps request database eventType deliveryId ↔
      githubId = .null ∨
        Storable respond runtime keeps request database eventType deliveryId payload githubId := by
  constructor
  · rintro (failed | ⟨decoded, other, same, namesOther, takes⟩)
    · rw [loaded] at failed
      cases failed
    · obtain rfl := Except.ok.inj (loaded.symm.trans same)
      exact names.eq namesOther ▸ takes
  · exact fun takes => .inr ⟨payload, githubId, loaded, names, takes⟩

/-- **The end of a request** that is named and signed, by its body. -/
theorem answersRequest_iff_digestible (standard : Standard runtime)
    (reachable : Reachable runtime keeps respond)
    (ascii : IsAscii (request.xHubSignature256.getD [])) (configured : request.secret ≠ "")
    (signed : Signed runtime request) {eventType deliveryId : String}
    (named : Named request eventType deliveryId) :
    AnswersRequest runtime request (outcomeOf respond runtime request database) ↔
      Digestible respond runtime keeps request database eventType deliveryId := by
  cases loaded : runtime.loads request.body with
  | error raised =>
      by_cases undecodable : raised = .jsonDecodeError
      · subst undecodable
        rw [outcomeOf_of_checked_error reachable named
          (checkedPayload_of_jsonDecodeError standard ascii configured signed loaded)]
        exact iff_of_true ⟨.badRequest _, fun _ _ => ⟨_, rfl⟩⟩ (.inl loaded)
      · rw [outcomeOf_of_checked_error reachable named
          (checkedPayload_of_loads_error standard ascii configured signed loaded undecodable)]
        refine iff_of_false ?_ ?_
        · rintro ⟨⟨detail⟩ | ⟨detail⟩, -⟩ <;> exact standard.decoder _ _ _ loaded
        · rintro (same | ⟨payload, githubId, same, -⟩)
          · exact undecodable (Except.error.inj (loaded.symm.trans same))
          · cases loaded.symm.trans same
  | ok payload =>
      have checked := checkedPayload_of_payload standard ascii configured signed loaded
      rcases githubInstallationId_cases payload with ⟨githubId, located, names⟩ | ⟨refused, unnamed⟩
      · rw [digestible_iff_of_names loaded names]
        rw [located] at checked
        by_cases absent : githubId = .null
        · subst absent
          rw [outcomeOf_of_checked_error reachable named checked]
          exact iff_of_true ⟨.badRequest _, fun _ _ => ⟨_, rfl⟩⟩ (.inl rfl)
        · have passed : checkedPayload runtime request request.body = .ok (payload, githubId) := by
            rw [checked]
            cases githubId with
            | null => exact absurd rfl absent
            | _ => rfl
          rw [or_iff_right absent, ← serve_lookup_answers_iff reachable located,
            outcomeOf_of_named reachable named, passed, ofExcept_ok_bind]
          refine ⟨AnswersRequest.answers, fun answers => ⟨answers, fun _ malformed => ?_⟩⟩
          exact absurd (names.hasInstallation absent) (malformed payload loaded)
      · rw [refused] at checked
        rw [outcomeOf_of_checked_error reachable named checked]
        refine iff_of_false (by rintro ⟨⟨⟩, -⟩) ?_
        rintro (same | ⟨other, githubId, same, names, -⟩)
        · cases loaded.symm.trans same
        · obtain rfl := Except.ok.inj (loaded.symm.trans same)
          exact unnamed githubId names

/-- **The endpoint answers** a request, and refuses it where it is malformed, exactly if its
body can be digested once it is named and signed. -/
theorem receiveWebhook_answers_iff (standard : Standard runtime)
    (reachable : Reachable runtime keeps respond)
    (ascii : IsAscii (request.xHubSignature256.getD [])) (configured : request.secret ≠ "")
    (database : Database) :
    AnswersRequest runtime request (outcomeOf respond runtime request database) ↔
      BodyDigestible respond runtime keeps request database := by
  by_cases named : ∃ eventType deliveryId, Named request eventType deliveryId
  · obtain ⟨eventType, deliveryId, named⟩ := named
    by_cases signed : Signed runtime request
    · rw [answersRequest_iff_digestible standard reachable ascii configured signed named]
      constructor
      · intro digestible other otherId namedOther _
        obtain rfl := Option.some.inj (named.1.1.symm.trans namedOther.1.1)
        obtain rfl := Option.some.inj (named.2.1.symm.trans namedOther.2.1)
        exact digestible
      · exact fun digestible => digestible eventType deliveryId named signed
    · rw [outcomeOf_of_checked_error reachable named
        (checkedPayload_of_not_signed standard ascii configured signed)]
      exact iff_of_true ⟨.unauthorized _, fun is => absurd is signed⟩
        fun _ _ _ is => absurd is signed
  · have unnamed : ∀ eventType deliveryId, ¬ Named request eventType deliveryId :=
      fun eventType deliveryId is => named ⟨eventType, deliveryId, is⟩
    have refused : ∃ detail, outcomeOf respond runtime request database =
        .error (.httpException 400 detail) := outcomeOf_of_not_named unnamed
    obtain ⟨detail, refused⟩ := refused
    rw [refused]
    exact iff_of_true ⟨.badRequest _, fun _ _ => ⟨_, rfl⟩⟩
      fun eventType deliveryId is => absurd is (unnamed eventType deliveryId)

/-! ## Samples -/

theorem standard_acmeRuntime : Standard acmeRuntime := ⟨hexDigests_acmeRuntime, nofun⟩

/-- The delivery of an installation that the database knows is answered. -/
theorem receiveWebhook_answers_acmeDelivery :
    AnswersRequest acmeRuntime acmeDelivery
      (outcomeOf (performs acmeRuntime false) acmeRuntime acmeDelivery
        (Deliveries.created.insertInstallation ⟨acmeId, 99⟩)) := by
  refine (receiveWebhook_answers_iff standard_acmeRuntime (reachable_performs acmeRuntime)
    (by decide) (by decide) _).mpr fun _ _ _ _ => .inr ⟨acmePayload, .integer 99, rfl, ?_, .inr ?_⟩
  · exact .present _ [("id", .integer 99)] rfl
  · exact ⟨⟨99, rfl⟩, fun _ _ => rfl⟩

/-- The digest of the body `[]`. -/
def emptyListDigest : List Char :=
  "6395f1d5ca3d15bbcd33a601d7781ebc510ecde425ac36668d0518e1038da764".toList

/-- The standard library and the driver on a delivery of `[]`. -/
def emptyListRuntime : Runtime where
  hexdigest _ _ := emptyListDigest
  loads _ := .ok (.array [])
  format _ := "[]"
  bind _ := .error .other

/-- A delivery of `[]`, signed. -/
def emptyListDelivery : WebhookRequest where
  xHubSignature256 := signaturePrefix ++ emptyListDigest
  xGithubEvent := "pull_request"
  xGithubDelivery := "abc-123-delivery"
  body := [91, 93]
  secret := "integration-test-secret"

/-- The endpoint raises for it. -/
theorem not_answersRequest_emptyListDelivery :
    (Standard emptyListRuntime ∧ Reachable emptyListRuntime (fun _ => true)
      (performs emptyListRuntime false) ∧ Signed emptyListRuntime emptyListDelivery) ∧
      ¬ AnswersRequest emptyListRuntime emptyListDelivery (outcomeOf
        (performs emptyListRuntime false) emptyListRuntime emptyListDelivery
          Deliveries.created) := by
  have digits : emptyListDigest ⊆ "0123456789abcdef".toList := by decide
  refine ⟨⟨⟨fun _ _ => ⟨rfl, fun _ listed => digits listed⟩, nofun⟩, reachable_performs _, rfl⟩, ?_⟩
  have raised : outcomeOf (performs emptyListRuntime false) emptyListRuntime emptyListDelivery
      Deliveries.created = .error .attributeError := rfl
  rw [raised]
  rintro ⟨⟨⟩, -⟩

end Kenjutsu.Server.Webhook
