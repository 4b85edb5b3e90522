import Mathlib.Algebra.GroupWithZero.Nat
import SiliconHook.Application.Lifecycle
import SiliconHook.Domain.Verify
import SiliconHook.Store.Safety

/-!
# Public ingress

One provider request: routed, its address checked, captured, verified where the
hook requires signatures, and then accepted or withheld. Each store call is a
transaction of its own.
-/

namespace SiliconHook

open Encoding Text

-- -----------------------------------------------------------------------------
-- Capture
-- -----------------------------------------------------------------------------

def maxBodyBytes : Nat := 1024 * 1024
def maxHeaderCount : Nat := 128
def maxHeaderBytes : Nat := 64 * 1024

inductive CaptureError
  | bodyTooLarge
  | headersTooLarge
  | tooManyHeaders
  | invalidMethod
  deriving DecidableEq, Repr

def isTokenChar (c : Char) : Bool :=
  isAsciiAlphanumeric c || "!#$%&'*+-.^_\x60|~".toList.contains c

/-- Validates capture bounds and normalizes header names to lowercase. -/
def CapturedRequest.new (parts : CapturedRequest) : Except CaptureError CapturedRequest := do
  ensure (¬ (parts.method.isEmpty ∨ ¬ parts.method.toList.all isTokenChar)) .invalidMethod
  ensure (parts.body.length ≤ maxBodyBytes) .bodyTooLarge
  ensure (parts.headers.length ≤ maxHeaderCount) .tooManyHeaders
  ensure ((parts.headers.map fun (name, value) =>
    name.utf8ByteSize + value.utf8ByteSize).sum ≤ maxHeaderBytes) .headersTooLarge
  return { parts with
    method := String.ofList (parts.method.toList.map toAsciiUpper)
    headers := parts.headers.map fun (name, value) => (asciiLowercase name, value) }

def CaptureError.toApplication : CaptureError → ApplicationError
  | .bodyTooLarge | .headersTooLarge | .tooManyHeaders => .payloadTooLarge
  | .invalidMethod => .validation "method"

-- -----------------------------------------------------------------------------
-- The receiver
-- -----------------------------------------------------------------------------

structure Ingress extends HookApplication where
  library : ExpressionLibrary
  keys : KeyLibrary readKey
  codec : DeliveryCodec
  deliverySummary : SummaryRenderer
  /-- The app id deliveries are queued for, where Ting is configured. -/
  delivery : Option String
  /-- The public URL of a segment and a key, and of a request's path and query. -/
  endpointUrl : String → EndpointKey → Option String
  requestUrl : String → Option String → String

structure ReceiveRequestCommand where
  siliconSegment : String
  endpointKey : EndpointKey
  method : String
  path : String
  query : Option String
  headers : List (String × String)
  body : List UInt8
  remoteIp : String

inductive ReceiveOutcome
  | accepted (event : EventRecord)
  | blocked (request : BlockedRequest)

structure ReceiveDraw where
  databaseTime : Instant
  eventId : EventId
  blockedId : BlockedRequestId
  sendId : Uuid
  sendIds : Uuid → Uuid
  queuedAt : Instant

def accountDeletedRefusal : ApplicationError := .refused 410 "account_deleted"
  "The Silicon this endpoint belonged to was deleted; it accepts no more requests."

namespace Ingress

def capture (app : Ingress) (command : ReceiveRequestCommand) (receivedAt : Instant) :
    Except ApplicationError CapturedRequest :=
  (CapturedRequest.new {
    method := command.method
    url := app.requestUrl command.path command.query
    headers := command.headers
    body := command.body
    remoteIp := command.remoteIp
    receivedAt }).mapError CaptureError.toApplication

def storedSecret (app : Ingress) (hook : Hook) : Except SecretCipherError (Option SigningSecret) :=
  match hook.signing.encryptedSecret with
  | none => .ok none
  | some encrypted => some <$> app.secretCipher.decrypt hook.id encrypted

def material (app : Ingress) (hook : Hook) : Except BlockReason VerificationMaterial := do
  let secret ← (app.storedSecret hook).mapError fun error =>
    .materialUnavailable error.message
  (hook.signing.config.material app.keys (secret.map SigningSecret.value)).mapError fun error =>
    .materialUnavailable error.message

def verify (app : Ingress) (hook : Hook) (hookUrl : String) (request : CapturedRequest) :
    Except BlockReason Unit := do
  let material ← app.material hook
  match SiliconHook.verify app.library app.keys hook.signing.config request
      ⟨Uuid.hyphenated hook.id.uuid, hookUrl⟩ material with
  | .verified => return ()
  | .rejected reason => throw (.signature reason)

def acceptCommand (app : Ingress) (hook : Hook) (request : CapturedRequest) (eventId : EventId) :
    AcceptEvent := ⟨app.delivery, eventId, hook, request⟩

def accept (app : Ingress) (hook : Hook) (request : CapturedRequest) (draw : ReceiveDraw) :
    Program Store ApplicationError ReceiveOutcome := do
  let event ← Program.transact fun db => liftStore (app.codec.acceptEvent app.deliverySummary
    (app.acceptCommand hook request draw.eventId) draw.sendId draw.sendIds draw.queuedAt db)
  return .accepted event

/-- Counts the strike, then writes the blocked log. -/
def block (hook : Hook) (request : CapturedRequest) (reason : BlockReason) (draw : ReceiveDraw) :
    Program Store ApplicationError ReceiveOutcome := do
  let _ ← Program.transact fun db => liftStore
    (recordUnverifiedRequest hook.id request.remoteIp request.receivedAt db)
  let blocked ← Program.transact fun db => liftStore
    (recordBlockedRequest ⟨draw.blockedId, hook, request, reason⟩ db)
  return .blocked blocked

def route (command : ReceiveRequestCommand) (databaseTime : Instant) (db : Store) :
    Except ApplicationError (Hook × Instant) :=
  match liftStore (resolveEndpoint command.siliconSegment command.endpointKey databaseTime db) with
  | .error e => .error e
  | .ok (.active hook now) => .ok (hook, now)
  | .ok .retired => .error .endpointRetired
  | .ok .accountDeleted => .error accountDeletedRefusal
  | .ok .inactive | .ok .unknown => .error .notFound

/-- `hook.url`: the URL the provider called. -/
def hookUrl (app : Ingress) (command : ReceiveRequestCommand) : Except ApplicationError String :=
  match app.endpointUrl command.siliconSegment command.endpointKey with
  | none => .error .internal
  | some url => .ok url

/-- What a request becomes before its last store calls: accepted, or withheld
for a reason. -/
def assess (app : Ingress) (command : ReceiveRequestCommand) (hook : Hook) (now : Instant) :
    Except ApplicationError (CapturedRequest × Option BlockReason) := do
  let hookUrl ← app.hookUrl command
  let request ← app.capture command now
  if !hook.signing.required then return (request, none)
  match app.verify hook hookUrl request with
  | .ok () => return (request, none)
  | .error reason => return (request, some reason)

def checkAddress (hook : Hook) (remoteIp : String) (now : Instant) :
    Program Store ApplicationError BlockCheck :=
  Program.transact fun db => .ok (checkIpBlock hook.id remoteIp now db)

def receiveRequest (app : Ingress) (command : ReceiveRequestCommand) (draw : ReceiveDraw) :
    Program Store ApplicationError ReceiveOutcome := do
  let (hook, now) ← Program.read (route command draw.databaseTime)
  match ← checkAddress hook command.remoteIp now with
  | .blockedUntil instant => liftM (m := Except ApplicationError) (.error (.ipBlocked instant))
  | .allowed =>
    match ← (app.assess command hook now : Except ApplicationError _) with
    | (request, none) => app.accept hook request draw
    | (request, some reason) => block hook request reason draw

end Ingress

theorem Ingress.route_time (h : Ingress.route command clock db = .ok (hook, now)) :
    now = clock := by
  unfold Ingress.route at h
  split at h <;> cases h
  rename_i hres
  exact (resolveEndpoint_active (liftStore_ok.mp hres)).1

end SiliconHook
