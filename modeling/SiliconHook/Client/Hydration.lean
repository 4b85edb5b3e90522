import SiliconHook.Api.Errors
import SiliconHook.Client.Delivery

/-!
# Hydrating notifications

A notification is a pointer: the client crate fetches the event it names and
checks that what Hook answers is that event. Only Hook's own "not found" makes a
notification one whose event is gone.
-/

namespace SiliconHook.Client

-- -----------------------------------------------------------------------------
-- Answers
-- -----------------------------------------------------------------------------

/-- What a request for a path draws: an answer, or a failure of the transport. -/
abbrev Http := List String → Except Error Response

def maxResponseBytes : Nat := 64 * 1024 * 1024

def boundedBody (response : Response) : Except Error (List UInt8) :=
  if response.body.length ≤ maxResponseBytes then .ok response.body
  else .error (.protocol "the response exceeds 64 MiB; request a smaller history page")

def index (name : String) : Json → Json
  | .object fields => (fields.lookup name).getD .null
  | _ => .null

/-- Hook's envelope, read as far as it is there. -/
def ApiError.ofJson (status : Nat) (retryAfter : Option Nat) (json : Json) : ApiError :=
  let error := index "error" (toValue json)
  let text := fun name => (index name error).asString
  {
    status
    code := (text "code").getD "unknown_error"
    message := (text "message").getD "Hook refused the request."
    details := text "details"
    hint := text "hint"
    requestId := text "request_id"
    retryAfter }

namespace ReceiverCodec

variable (codec : ReceiverCodec)

def failure (response : Response) : Error :=
  match boundedBody response with
  | .error e => e
  | .ok body =>
    match codec.fromSlice body with
    | none => .protocol ("HTTP " ++ toString response.status ++
        " without Hook's error envelope; is this URL a Hook API?")
    | some json => .api (.ofJson response.status response.retryAfter json)

def decodeAnswer (read : Json → Option α) (response : Response) : Except Error α :=
  if ¬ (200 ≤ response.status ∧ response.status < 300) then .error (codec.failure response)
  else match boundedBody response with
    | .error e => .error e
    | .ok body =>
      match (codec.fromSlice body).bind read with
      | none => .error .json
      | some answer => .ok answer

end ReceiverCodec

def isSegment (segment : String) : Bool :=
  !segment.isEmpty && segment ≠ "." && segment ≠ ".." &&
    !segment.toList.any "/\\?#".toList.contains

def checkSegments : List String → Except Error Unit
  | [] => .ok ()
  | segment :: rest =>
    if isSegment segment then checkSegments rest
    else .error (.invalid ("`" ++ segment ++ "` is not a valid identifier in a Hook URL"))

/-- A `GET` of the API, once the version is agreed on. -/
def ReceiverCodec.call (codec : ReceiverCodec) (http : Http) (read : Json → Option α)
    (path : List String) : Except Error α := do
  let segments := "api" :: "v3" :: path
  checkSegments segments
  let response ← http segments
  codec.decodeAnswer read response

-- -----------------------------------------------------------------------------
-- Events
-- -----------------------------------------------------------------------------

structure SiliconRef where
  uuid : String
  id : Option String
  deriving DecidableEq, Repr

structure CapturedRequest where
  method : String
  url : String
  path : String
  queryString : String
  headers : List (String × String)
  contentType : Option String
  body : Option String
  bodyBase64 : Option String
  remoteIp : String
  deriving DecidableEq, Repr

structure Event where
  id : Uuid
  silicon : SiliconRef
  hookId : Uuid
  provider : String
  deliverySequence : Int
  summary : String
  receivedAt : String
  request : CapturedRequest
  deriving DecidableEq

def SiliconRef.ofJson (json : Json) : Option SiliconRef := do
  let fields ← members ["uuid", "id"] json
  let uuid ← (← fields.lookup "uuid").asString
  let id ← optionalString fields "id"
  return ⟨uuid, id⟩

def headerOfJson : Json → Option (String × String)
  | .array [name, value] => do return (← name.asString, ← value.asString)
  | _ => none

def headersOfJson : Json → Option (List (String × String))
  | .array headers => headers.mapM headerOfJson
  | _ => none

def CapturedRequest.ofJson (json : Json) : Option CapturedRequest := do
  let fields ← members ["method", "url", "path", "query_string", "headers", "content_type",
    "body", "body_base64", "remote_ip"] json
  let method ← (← fields.lookup "method").asString
  let url ← (← fields.lookup "url").asString
  let path ← (← fields.lookup "path").asString
  let queryString ← (← fields.lookup "query_string").asString
  let headers ← headersOfJson (← fields.lookup "headers")
  let contentType ← optionalString fields "content_type"
  let body ← optionalString fields "body"
  let bodyBase64 ← optionalString fields "body_base64"
  let remoteIp ← (← fields.lookup "remote_ip").asString
  return ⟨method, url, path, queryString, headers, contentType, body, bodyBase64, remoteIp⟩

def Event.ofJson (parseUuid : String → Option Uuid) (json : Json) : Option Event := do
  let fields ← members ["id", "silicon", "hook_id", "provider", "delivery_sequence", "summary",
    "received_at", "request"] json
  let id ← parseUuid (← (← fields.lookup "id").asString)
  let silicon ← SiliconRef.ofJson (← fields.lookup "silicon")
  let hookId ← parseUuid (← (← fields.lookup "hook_id").asString)
  let provider ← (← fields.lookup "provider").asString
  let deliverySequence ← asI64 (← fields.lookup "delivery_sequence")
  let summary ← (← fields.lookup "summary").asString
  let receivedAt ← (← fields.lookup "received_at").asString
  let request ← CapturedRequest.ofJson (← fields.lookup "request")
  return ⟨id, silicon, hookId, provider, deliverySequence, summary, receivedAt, request⟩

-- -----------------------------------------------------------------------------
-- Hydration
-- -----------------------------------------------------------------------------

structure ReceivedEvent where
  tingId : String
  key : String
  event : Event
  deriving DecidableEq

structure UnavailableEvent where
  tingId : String
  key : String
  reference : EventReference
  deriving DecidableEq

inductive DeliveryOutcome
  | event (received : ReceivedEvent)
  | unavailable (gone : UnavailableEvent)
  deriving DecidableEq

namespace ReceiverCodec

variable (codec : ReceiverCodec) (http : Http)

def event (silicon : String) (id : Uuid) : Except Error Event :=
  codec.call http (Event.ofJson codec.parseUuid) ["silicons", silicon, "events", id.hyphenated]

/-- Fetches the event a notification points to and checks that it matches. -/
def hydrateNotification (context : DeliveryContext) (notification : TingNotification) :
    Except Error ReceivedEvent := do
  let data ← codec.reference context notification
  let expected := data.metadata
  let event ← codec.event http expected.silicon.uuid expected.id
  if event.id ≠ expected.id ∨ event.silicon.uuid ≠ expected.silicon.uuid ∨
      event.hookId ≠ expected.hookId ∨ event.deliverySequence ≠ expected.deliverySequence ∨
      event.receivedAt ≠ expected.receivedAt ∨ event.summary ≠ expected.summary ∨
      event.provider ≠ data.sender then
    .error (.protocol "the event Hook returned differs from its notification")
  else return ⟨notification.id, notification.key, event⟩

def resolveNotification (context : DeliveryContext) (notification : TingNotification) :
    Except Error DeliveryOutcome := do
  let data ← codec.reference context notification
  match codec.hydrateNotification http context notification with
  | .ok received => return .event received
  | .error (.api api) =>
    if api.status = 404 ∧ api.code = "not_found" then
      return .unavailable ⟨notification.id, notification.key, data.metadata⟩
    else .error (.api api)
  | .error e => .error e

end ReceiverCodec

end SiliconHook.Client
