import Mathlib.Algebra.Ring.Int.Defs
import SiliconHook.Delivery.Prepare

/-!
# Receiving events

What the client crate makes of a Ting callback: the host's destination is
authenticated, every notification of the batch must be a Hook event for the
receiving account, and each is read as a pointer to the retained event.
-/

namespace SiliconHook.Client

open Text Encoding

structure ApiError where
  status : Nat
  code : String
  message : String
  details : Option String
  hint : Option String
  requestId : Option String
  retryAfter : Option Nat
  deriving DecidableEq, Repr

/-- A failure of the client crate; what its texts repeat of other libraries is left out. -/
inductive Error
  | invalid (message : String)
  | transport
  | api (error : ApiError)
  | protocol (message : String)
  | json
  deriving DecidableEq, Repr

/-- The libraries behind a receiver: hashing, and the parsers of instants, of uuids
and of JSON. -/
structure ReceiverCodec where
  sha256 : List UInt8 → List UInt8
  parseRfc3339 : String → Option Instant
  parseUuid : String → Option Uuid
  fromSlice : List UInt8 → Option Json

-- -----------------------------------------------------------------------------
-- Values
-- -----------------------------------------------------------------------------

/-- Of members with one name the last stands. -/
def lastMembers (fields : List (String × Json)) : List (String × Json) :=
  fields.foldr (fun field kept =>
    if (kept.map Prod.fst).contains field.1 then kept else field :: kept) []

mutual

/-- A document as `serde_json::Value` holds it, its members in maps. -/
def toValue : Json → Json
  | .array values => .array (toValues values)
  | .object fields => .object (lastMembers (toMembers fields))
  | json => json

def toValues : List Json → List Json
  | [] => []
  | value :: rest => toValue value :: toValues rest

def toMembers : List (String × Json) → List (String × Json)
  | [] => []
  | (name, value) :: rest => (name, toValue value) :: toMembers rest

end

def asI64 : Json → Option Int
  | .number value => if -2 ^ 63 ≤ value ∧ value < 2 ^ 63 then some value else none
  | _ => none

-- -----------------------------------------------------------------------------
-- Notifications
-- -----------------------------------------------------------------------------

structure DeliveryContext where
  appId : String
  recipientUuid : String
  recipientId : Option String
  deriving DecidableEq, Repr

structure ReferencedSilicon where
  uuid : String
  id : Option String
  deriving DecidableEq, Repr

structure EventReference where
  id : Uuid
  silicon : ReferencedSilicon
  hookId : Uuid
  deliverySequence : Int
  receivedAt : String
  summary : String
  deriving DecidableEq, Repr

structure HookData where
  sender : String
  metadata : EventReference
  deriving DecidableEq, Repr

structure HookEnvelope where
  eventType : String
  data : HookData
  deriving DecidableEq, Repr

/-- One Ting callback record; native callbacks omit the recipient. -/
structure TingNotification where
  id : String
  createdAt : String
  eventType : String
  recipient : Option Json
  key : String
  data : Json
  metadata : Json

structure TingBatch where
  tings : List TingNotification

-- -----------------------------------------------------------------------------
-- Reading
-- -----------------------------------------------------------------------------

/-- The members with a known name, each given once; others are ignored. -/
def members (known : List String) : Json → Option (List (String × Json))
  | .object fields =>
    let fields := fields.filter fun field => known.contains field.1
    if (fields.map Prod.fst).Nodup then some fields else none
  | _ => none

def optionalString (fields : List (String × Json)) (name : String) : Option (Option String) :=
  match fields.lookup name with
  | none | some .null => some none
  | some value => value.asString.map some

def ReferencedSilicon.ofJson (json : Json) : Option ReferencedSilicon := do
  let fields ← json.knownFields ["uuid", "id"]
  let uuid ← (← fields.lookup "uuid").asString
  let id ← optionalString fields "id"
  return ⟨uuid, id⟩

def EventReference.ofJson (parseUuid : String → Option Uuid) (json : Json) :
    Option EventReference := do
  let fields ← json.knownFields
    ["id", "silicon", "hook_id", "delivery_sequence", "received_at", "summary"]
  let id ← parseUuid (← (← fields.lookup "id").asString)
  let silicon ← ReferencedSilicon.ofJson (← fields.lookup "silicon")
  let hookId ← parseUuid (← (← fields.lookup "hook_id").asString)
  let deliverySequence ← asI64 (← fields.lookup "delivery_sequence")
  let receivedAt ← (← fields.lookup "received_at").asString
  let summary ← (← fields.lookup "summary").asString
  return ⟨id, silicon, hookId, deliverySequence, receivedAt, summary⟩

def HookData.ofJson (parseUuid : String → Option Uuid) (json : Json) : Option HookData := do
  let fields ← json.knownFields ["sender", "metadata"]
  let sender ← (← fields.lookup "sender").asString
  let metadata ← EventReference.ofJson parseUuid (← fields.lookup "metadata")
  return ⟨sender, metadata⟩

def HookEnvelope.ofJson (parseUuid : String → Option Uuid) (json : Json) :
    Option HookEnvelope := do
  let fields ← json.knownFields ["type", "data"]
  let eventType ← (← fields.lookup "type").asString
  let data ← HookData.ofJson parseUuid (← fields.lookup "data")
  return ⟨eventType, data⟩

def TingNotification.ofJson (json : Json) : Option TingNotification := do
  let fields ← members ["id", "created_at", "type", "for", "key", "data", "metadata"] json
  let id ← (← fields.lookup "id").asString
  let createdAt ← (← fields.lookup "created_at").asString
  let eventType ← (← fields.lookup "type").asString
  let recipient := match fields.lookup "for" with
    | none | some .null => none
    | some value => some (toValue value)
  let key ← (← fields.lookup "key").asString
  let data ← fields.lookup "data"
  let metadata ← fields.lookup "metadata"
  return ⟨id, createdAt, eventType, recipient, key, toValue data, toValue metadata⟩

def TingBatch.ofJson (json : Json) : Option TingBatch := do
  let fields ← json.knownFields ["tings"]
  match ← fields.lookup "tings" with
  | .array tings => return ⟨← tings.mapM TingNotification.ofJson⟩
  | _ => none

-- -----------------------------------------------------------------------------
-- Checks
-- -----------------------------------------------------------------------------

def identifier (value : String) (max : Nat) : Bool :=
  !value.isEmpty && value.utf8ByteSize ≤ max && value.toList.all isAsciiGraphic

def validateContext (context : DeliveryContext) : Except Error Unit :=
  if !identifier context.appId 255 ∨ !identifier context.recipientUuid 255 ∨
      context.recipientId.any fun id => !identifier id 255 then
    .error (.invalid "the receiving context needs the app id and the recipient's uuid")
  else .ok ()

def maxBatchBytes : Nat := 2 * 1024 * 1024

def maxBatchItems : Nat := 100

def validateBatch (notifications : List TingNotification) : Except Error Unit :=
  if notifications.isEmpty ∨ maxBatchItems < notifications.length then
    .error (.invalid "a receiving batch holds 1 to 100 notifications")
  else .ok ()

def namesRecipient (context : DeliveryContext) : Json → Bool
  | .string text => text = context.recipientUuid || context.recipientId = some text
  | .object fields => (fields.lookup "uuid").bind Json.asString = some context.recipientUuid
  | _ => false

namespace ReceiverCodec

variable (codec : ReceiverCodec)

def expectedKey (event : Uuid) (recipient : String) : String :=
  "hook:" ++ event.hyphenated ++ ":" ++ String.ofList (hexEncode (codec.sha256 (utf8 recipient)))

def reference (context : DeliveryContext) (notification : TingNotification) :
    Except Error HookData :=
  match validateContext context with
  | .error e => .error e
  | .ok () =>
    if notification.eventType ≠ context.appId ++ ".webhook.received" ∨
        (notification.recipient.any fun value => !namesRecipient context value) ∨
        !identifier notification.id 255 ∨ !identifier notification.key 200 ∨
        !notification.metadata.isObject ∨ codec.parseRfc3339 notification.createdAt = none then
      .error (.protocol "the notification is not a Hook event for this recipient")
    else match HookEnvelope.ofJson codec.parseUuid notification.data with
      | none => .error .json
      | some envelope =>
        let reference := envelope.data.metadata
        if envelope.eventType ≠ "new_event" ∨ envelope.data.sender.isEmpty ∨ reference.id = 0 ∨
            reference.hookId = 0 ∨ !identifier reference.silicon.uuid 255 ∨
            reference.deliverySequence ≤ 0 ∨ reference.summary.isEmpty ∨
            codec.parseRfc3339 reference.receivedAt = none ∨
            notification.key ≠ codec.expectedKey reference.id context.recipientUuid then
          .error (.protocol "the Hook event reference is invalid")
        else .ok envelope.data

def references (context : DeliveryContext) : List TingNotification → Except Error Unit
  | [] => .ok ()
  | notification :: rest =>
    match codec.reference context notification with
    | .error e => .error e
    | .ok _ => references context rest

end ReceiverCodec

-- -----------------------------------------------------------------------------
-- Callbacks
-- -----------------------------------------------------------------------------

def Receiver.check (context : DeliveryContext) (webhookId secret : String) : Except Error Unit :=
  match validateContext context with
  | .error e => .error e
  | .ok () =>
    if !identifier webhookId 255 ∨ ¬(32 ≤ secret.utf8ByteSize ∧ secret.utf8ByteSize ≤ 4096) ∨
        !secret.toList.all isAsciiGraphic then
      .error (.invalid ("the receiving destination id or callback secret is invalid " ++
        "(the secret needs 32 to 4096 visible characters)"))
    else .ok ()

structure Receiver where
  context : DeliveryContext
  webhookId : String
  secret : String
  valid : Receiver.check context webhookId secret = .ok ()

def Receiver.new (context : DeliveryContext) (webhookId secret : String) :
    Except Error Receiver :=
  match h : Receiver.check context webhookId secret with
  | .error e => .error e
  | .ok () => .ok ⟨context, webhookId, secret, h⟩

def bearerPrefix : String := "Bearer "

def bearerToken (authorization : String) : String :=
  if bearerPrefix.toList.isPrefixOf authorization.toList then
    String.ofList (authorization.toList.drop bearerPrefix.toList.length)
  else ""

/-- Validates a complete callback before any call is made for it. -/
def ReceiverCodec.decode (codec : ReceiverCodec) (receiver : Receiver)
    (authorization webhookId : String) (body : List UInt8) :
    Except Error (List TingNotification) :=
  let provided := codec.sha256 (utf8 (bearerToken authorization))
  let expected := codec.sha256 (utf8 receiver.secret)
  if webhookId ≠ receiver.webhookId ∨ provided ≠ expected then
    .error (.invalid "the receiving callback failed authentication")
  else if maxBatchBytes < body.length then .error (.invalid "the receiving batch exceeds 2 MiB")
  else match (codec.fromSlice body).bind TingBatch.ofJson with
    | none => .error .json
    | some batch =>
      match validateBatch batch.tings with
      | .error e => .error e
      | .ok () =>
        match codec.references receiver.context batch.tings with
        | .error e => .error e
        | .ok () => .ok batch.tings

end SiliconHook.Client
