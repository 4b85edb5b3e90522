import SiliconHook.Domain.Event
import SiliconHook.Library.JsonText

/-!
# Prepared sends

A Ting send is serialized once, before its outbox row is committed, and the same
bytes are sent on every attempt. The enqueue parses them again and takes the
producer key from them.
-/

namespace SiliconHook

open Text Encoding

inductive Json
  | null
  | bool (value : Bool)
  | number (value : Int)
  | string (value : String)
  | array (values : List Json)
  | object (fields : List (String × Json))

-- -----------------------------------------------------------------------------
-- Serialization
-- -----------------------------------------------------------------------------

namespace Json

mutual

def render : Json → String
  | null => "null"
  | bool value => if value then "true" else "false"
  | number value => toString value
  | string value => quote value
  | array values => "[" ++ ",".intercalate (renderAll values) ++ "]"
  | object fields => "\x7b" ++ ",".intercalate (renderFields fields) ++ "\x7d"

def renderAll : List Json → List String
  | [] => []
  | value :: rest => value.render :: renderAll rest

def renderFields : List (String × Json) → List String
  | [] => []
  | (name, value) :: rest => (quote name ++ ":" ++ value.render) :: renderFields rest

end

def toVec (json : Json) : List UInt8 := utf8 json.render

end Json

/-- The libraries behind a prepared send: hashing, the rendering of instants and
the parser of JSON. -/
structure DeliveryCodec where
  sha256 : List UInt8 → List UInt8
  rfc3339 : Instant → Except String String
  fromSlice : List UInt8 → Option Json

-- -----------------------------------------------------------------------------
-- The send of one event
-- -----------------------------------------------------------------------------

inductive TingDeliveryMode
  | ordinary
  | required
  deriving DecidableEq, Repr

structure TingRecipient where
  uuid : String
  id : Option String
  deriving DecidableEq

def TingRecipient.toJson (recipient : TingRecipient) : Json :=
  .object ((recipient.id.map fun id => ("id", Json.string id)).toList ++
    [("uuid", .string recipient.uuid)])

abbrev ReferencedSilicon := TingRecipient

def validateAppId (appId : String) : Bool :=
  1 ≤ appId.utf8ByteSize && appId.utf8ByteSize ≤ 80 && appId.toList.head?.any isAsciiLower &&
    appId.toList.all fun c => isAsciiLower c || isAsciiDigit c || c = '_' || c = '-'

def eventTypeSuffix : String := ".webhook.received"

/-- The producer key of a send; the recipient is hashed so it stays short. -/
def DeliveryCodec.producerKey (codec : DeliveryCodec) (event : EventId) (recipient : String) :
    String :=
  "hook:" ++ event.uuid.hyphenated ++ ":" ++
    String.ofList (hexEncode (codec.sha256 (utf8 recipient)))

/-- Pointer to a retained event; fields in the order of their names, as maps are
serialized. -/
def eventReference (event : EventRecord) (silicon : ReferencedSilicon) (receivedAt : String) :
    Json :=
  .object [
    ("delivery_sequence", .number event.deliverySequence.value),
    ("hook_id", .string event.hookId.uuid.hyphenated),
    ("id", .string event.id.uuid.hyphenated),
    ("received_at", .string receivedAt),
    ("silicon", silicon.toJson),
    ("summary", .string event.summary)]

def DeliveryCodec.sendRequest (codec : DeliveryCodec) (appId : String) (event : EventRecord)
    (silicon : ReferencedSilicon) (recipient : TingRecipient) (delivery : TingDeliveryMode)
    (receivedAt : String) : Json :=
  .object ([
    ("data", .object [
      ("data", .object [
        ("metadata", eventReference event silicon receivedAt),
        ("sender", .string event.provider.value)]),
      ("type", .string "new_event")])] ++
    (if delivery = .required then [("delivery", .string "required")] else []) ++ [
    ("for", recipient.toJson),
    ("key", .string (codec.producerKey event.id recipient.uuid)),
    ("metadata", .object []),
    ("type", .string (appId ++ eventTypeSuffix))])

def DeliveryCodec.prepareEvent (codec : DeliveryCodec) (appId : String) (event : EventRecord)
    (silicon : ReferencedSilicon) (recipient : TingRecipient) (delivery : TingDeliveryMode) :
    Except String (List UInt8) :=
  (codec.rfc3339 event.receivedAt).map fun receivedAt =>
    (codec.sendRequest appId event silicon recipient delivery receivedAt).toVec

-- -----------------------------------------------------------------------------
-- Parsing
-- -----------------------------------------------------------------------------

structure PreparedTing where
  recipient : TingRecipient
  notificationType : String
  key : String
  data : Json
  metadata : Json
  delivery : TingDeliveryMode

namespace Json

def asString : Json → Option String
  | string value => some value
  | _ => none

def isObject : Json → Bool
  | object _ => true
  | _ => false

/-- The object's fields, where each is known and given once. -/
def knownFields (known : List String) : Json → Option (List (String × Json))
  | object fields =>
    if (fields.map Prod.fst).all known.contains && decide (fields.map Prod.fst).Nodup then
      some fields
    else none
  | _ => none

end Json

def TingRecipient.ofJson (json : Json) : Option TingRecipient := do
  let fields ← json.knownFields ["uuid", "id"]
  let uuid ← (← fields.lookup "uuid").asString
  let id ← match fields.lookup "id" with
    | none | some .null => some none
    | some value => value.asString.map some
  return ⟨uuid, id⟩

def deserializeDelivery (json : Json) : Option TingDeliveryMode :=
  if json.asString = some "required" then some .required else none

def PreparedTing.ofJson (json : Json) : Option PreparedTing := do
  let fields ← json.knownFields ["for", "type", "key", "data", "metadata", "delivery"]
  let recipient ← TingRecipient.ofJson (← fields.lookup "for")
  let notificationType ← (← fields.lookup "type").asString
  let key ← (← fields.lookup "key").asString
  let data ← fields.lookup "data"
  let delivery ← match fields.lookup "delivery" with
    | none => some TingDeliveryMode.ordinary
    | some value => deserializeDelivery value
  return ⟨recipient, notificationType, key, data, (fields.lookup "metadata").getD (.object []),
    delivery⟩

end SiliconHook
