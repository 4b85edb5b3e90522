import SiliconHook.Api.Errors
import SiliconHook.Application.History
import SiliconHook.Application.Sharing
import SiliconHook.Domain.Eval

/-!
# Reading one event

`GET /silicons/{silicon}/events/{event}`: a delivered reference hydrated with the
caller's own access, as the document the route answers with.
-/

namespace SiliconHook

open Encoding

def HookApplication.getEvent (authorization : AuthorizationContext) (eventId : EventId)
    (now : Instant) (db : Store) : Except ApplicationError EventRecord := do
  authorizeAction authorization .readEvents
  match ← liftStore (SiliconHook.getEvent authorization.silicon.uuid eventId now db) with
  | some event => return event
  | none => throw .notFound

namespace Api

-- -----------------------------------------------------------------------------
-- Documents
-- -----------------------------------------------------------------------------

def optional : Option String → Json
  | some text => .string text
  | none => .null

def siliconResponse (silicon : SiliconRef) : Json :=
  .object [
    ("uuid", .string silicon.uuid.value),
    ("id", optional (silicon.id.map PublicId.value))]

/-- The body is shown as text where it is UTF-8, else in standard base64. -/
def capturedRequestResponse (lib : ExpressionLibrary) (request : CapturedRequest) : Json :=
  let body := fromUtf8 request.body
  let bodyBase64 := if body.isSome then none
    else some (String.ofList (base64Encode .standard true request.body))
  .object [
    ("method", .string request.method),
    ("url", .string request.url),
    ("path", .string (lib.path request.url)),
    ("query_string", .string ((lib.query request.url).getD "")),
    ("headers", .array (request.headers.map fun header =>
      .array [.string header.1, .string header.2])),
    ("content_type", optional request.contentType),
    ("body", optional body),
    ("body_base64", optional bodyBase64),
    ("remote_ip", .string request.remoteIp)]

def eventResponse (lib : ExpressionLibrary) (event : EventRecord) (silicon : SiliconRef)
    (receivedAt : String) : Json :=
  .object [
    ("id", .string event.id.uuid.hyphenated),
    ("silicon", siliconResponse silicon),
    ("hook_id", .string event.hookId.uuid.hyphenated),
    ("provider", .string event.provider.value),
    ("delivery_sequence", .number event.deliverySequence.value),
    ("summary", .string event.summary),
    ("received_at", .string receivedAt),
    ("request", capturedRequestResponse lib event.request)]

-- -----------------------------------------------------------------------------
-- The route
-- -----------------------------------------------------------------------------

def maxRequestIdBytes : Nat := 64

/-- What the routes use besides the application. The request's id is the caller's
where it is short enough, else a fresh one. -/
structure Routes where
  library : ExpressionLibrary
  rfc3339 : Instant → Except String String
  parseUuid : String → Option Uuid
  requestId : String
  requestId_size : requestId.utf8ByteSize ≤ maxRequestIdBytes

structure RouteDraw where
  silicon : Inquiry
  custody : Inquiry
  now : Instant

namespace Routes

variable (routes : Routes)

def getEvent (draw : RouteDraw) (actor : Actor) (silicon eventId : String) :
    Program SharingState AppError (EventRecord × SiliconRef) := fun state =>
  match routes.parseUuid eventId with
  | none => (.error (.validation "invalid_event_id" none), state)
  | some id =>
    match SharingCase.authorizeSilicon draw.silicon draw.custody actor silicon state with
    | (.error e, state) => (.error (mapApplicationError draw.now e), state)
    | (.ok authorization, state) =>
      match HookApplication.getEvent authorization ⟨id⟩ draw.now state.database.db with
      | .error e => (.error (mapApplicationError draw.now e), state)
      | .ok event => (.ok (event, authorization.silicon), state)

def respond : Except AppError (EventRecord × SiliconRef) → Response
  | .error e => e.intoResponse routes.requestId
  | .ok (event, silicon) =>
    match routes.rfc3339 event.receivedAt with
    -- the plain 500 of a document that cannot be written gets the envelope
    | .error _ => AppError.internal.intoResponse routes.requestId
    | .ok receivedAt => ⟨200, none, (eventResponse routes.library event silicon receivedAt).toVec⟩

def answer (draw : RouteDraw) (actor : Actor) (silicon eventId : String)
    (state : SharingState) : Response :=
  routes.respond (routes.getEvent draw actor silicon eventId state).1

end Routes

end Api

end SiliconHook
