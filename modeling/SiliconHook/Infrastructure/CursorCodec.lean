import Mathlib.Algebra.Ring.Int.Defs
import SiliconHook.Domain.Lexer
import SiliconHook.Domain.Value
import SiliconHook.Store.History

/-!
# History cursors

A history boundary leaves the server as an authenticated text, bound to the
Silicon, the collection and the filter it was read under.
-/

namespace SiliconHook

open Encoding Text

inductive HistoryCollection
  | events
  | blockedRequests
  deriving DecidableEq, Repr

def HistoryCollection.asStr : HistoryCollection → String
  | events => "events"
  | blockedRequests => "blocked_requests"

structure HistoryCursorScope where
  silicon : AccountUuid
  collection : HistoryCollection
  filter : HistoryFilter
  deriving DecidableEq

inductive CursorError
  | tooLong
  | invalidEncoding
  | authentication
  | invalidPayload
  | unsupportedVersion
  | scopeMismatch
  deriving DecidableEq, Repr

def hmacTagBytes : Nat := 32
def cursorVersion : Nat := 2
def maxCursorBytes : Nat := 2048

-- -----------------------------------------------------------------------------
-- Claims
-- -----------------------------------------------------------------------------

structure CursorClaims where
  version : Nat
  scope : HistoryCursorScope
  receivedAtUnixNanos : Int
  id : Uuid

def HistoryFilter.toJson (filter : HistoryFilter) : JsonValue :=
  .object [("hook_id",
    (filter.hookId.map fun id => JsonValue.string id.uuid.hyphenated).getD .null)]

def HistoryCursorScope.toJson (scope : HistoryCursorScope) : JsonValue :=
  .object [("silicon", .string scope.silicon.value), ("collection", .string scope.collection.asStr),
    ("filter", scope.filter.toJson)]

def CursorClaims.toJson (claims : CursorClaims) : JsonValue :=
  .object [("version", .number (toString claims.version)), ("scope", claims.scope.toJson),
    ("received_at_unix_nanos", .number (toString claims.receivedAtUnixNanos)),
    ("id", .string claims.id.hyphenated)]

def JsonValue.requiredField (name : String) : JsonValue → Option JsonValue
  | .object members =>
    match members.filter fun member => member.1 = name with
    | [(_, value)] => some value
    | _ => none
  | _ => none

def JsonValue.asStr : JsonValue → Option String
  | .string text => some text
  | _ => none

def readDigits (digits : List Char) : Option Nat :=
  if !digits.isEmpty && digits.all isAsciiDigit then some (decimal digits) else none

def JsonValue.asInt : JsonValue → Option Int
  | .number text =>
    match text.toList with
    | '-' :: digits => (readDigits digits).map fun n : Nat => -(n : Int)
    | digits => (readDigits digits).map fun n : Nat => (n : Int)
  | _ => none

def HistoryCollection.fromJson (value : JsonValue) : Option HistoryCollection := do
  match ← value.asStr with
  | "events" => some .events
  | "blocked_requests" => some .blockedRequests
  | _ => none

/-- An absent hook id is none, like a null one. -/
def HistoryFilter.fromJson (parseUuid : String → Option Uuid) : JsonValue → Option HistoryFilter
  | .object members =>
    match members.filter fun member => member.1 = "hook_id" with
    | [] | [(_, .null)] => some ⟨none⟩
    | [(_, .string text)] => (parseUuid text).map fun uuid => ⟨some ⟨uuid⟩⟩
    | _ => none
  | _ => none

def AccountUuid.fromJson (value : JsonValue) : Option AccountUuid := do
  (AccountUuid.new (← value.asStr)).toOption

def HistoryCursorScope.fromJson (parseUuid : String → Option Uuid) (value : JsonValue) :
    Option HistoryCursorScope := do
  let silicon ← AccountUuid.fromJson (← value.requiredField "silicon")
  let collection ← HistoryCollection.fromJson (← value.requiredField "collection")
  let filter ← HistoryFilter.fromJson parseUuid (← value.requiredField "filter")
  return ⟨silicon, collection, filter⟩

/-- The numbers are a `u8` and an `i128`. -/
def CursorClaims.fromJson (parseUuid : String → Option Uuid) (value : JsonValue) :
    Option CursorClaims := do
  let version ← (← value.requiredField "version").asInt
  guard (0 ≤ version ∧ version < 256)
  let scope ← HistoryCursorScope.fromJson parseUuid (← value.requiredField "scope")
  let nanos ← (← value.requiredField "received_at_unix_nanos").asInt
  guard (-2 ^ 127 ≤ nanos ∧ nanos < 2 ^ 127)
  let id ← parseUuid (← (← value.requiredField "id").asStr)
  return ⟨version.toNat, scope, nanos, id⟩

-- -----------------------------------------------------------------------------
-- Times
-- -----------------------------------------------------------------------------

def offsetDateTimeMin : Int := -377705116800
def offsetDateTimeEnd : Int := 253402300800

/-- A microsecond an `OffsetDateTime` can hold. -/
def Instant.representable (t : Instant) : Bool :=
  decide (offsetDateTimeMin * second ≤ t ∧ t < offsetDateTimeEnd * second)

def Instant.unixTimestampNanos (t : Instant) : Int := t * 1000

/-- `OffsetDateTime::from_unix_timestamp_nanos`, at the resolution of the store. -/
def Instant.fromUnixTimestampNanos (nanos : Int) : Option Instant :=
  if Instant.representable (nanos / 1000) then some (nanos / 1000) else none

-- -----------------------------------------------------------------------------
-- The codec
-- -----------------------------------------------------------------------------

/-- Stateless authenticated codec for history keyset cursors: HMAC-SHA256 under
its key, and the parsers of JSON documents and of uuids. -/
structure CursorCodec where
  authenticate : List UInt8 → List UInt8
  tag_length : ∀ payload, (authenticate payload).length = hmacTagBytes
  fromSlice : List UInt8 → Option JsonValue
  parseUuid : String → Option Uuid

namespace CursorCodec

variable (codec : CursorCodec)

def encode (scope : HistoryCursorScope) (cursor : HistoryCursor) : String :=
  let claims : CursorClaims := {
    version := cursorVersion
    scope := scope
    receivedAtUnixNanos := cursor.receivedAt.unixTimestampNanos
    id := cursor.id }
  let payload := utf8 claims.toJson.render
  String.ofList (base64Encode .urlSafe false (payload ++ codec.authenticate payload))

def decode (expectedScope : HistoryCursorScope) (encoded : String) :
    Except CursorError HistoryCursor :=
  if maxCursorBytes < encoded.utf8ByteSize then .error .tooLong
  else if encoded.isEmpty || encoded.toList.contains '=' then .error .invalidEncoding
  else match base64Decode .urlSafe false encoded.toList with
    | none => .error .invalidEncoding
    | some authenticated =>
      if authenticated.length ≤ hmacTagBytes then .error .invalidEncoding
      else
        let payloadLength := authenticated.length - hmacTagBytes
        let payload := authenticated.take payloadLength
        let suppliedTag := authenticated.drop payloadLength
        if codec.authenticate payload ≠ suppliedTag then .error .authentication
        else match (codec.fromSlice payload).bind (CursorClaims.fromJson codec.parseUuid) with
          | none => .error .invalidPayload
          | some claims =>
            if claims.version ≠ cursorVersion then .error .unsupportedVersion
            else if claims.scope ≠ expectedScope then .error .scopeMismatch
            else match Instant.fromUnixTimestampNanos claims.receivedAtUnixNanos with
              | none => .error .invalidPayload
              | some receivedAt => .ok ⟨receivedAt, claims.id⟩

structure ReadsIssued : Prop where
  documents : ∀ claims : CursorClaims,
    codec.fromSlice (utf8 claims.toJson.render) = some claims.toJson
  uuids : ∀ uuid : Uuid, codec.parseUuid uuid.hyphenated = some uuid

end CursorCodec

end SiliconHook
