import SiliconHook.Client.Delivery
import SiliconHook.Delivery.ProofCache

/-!
# The Ting transport

A send is parsed once more before its bytes are posted, and Ting's answer is an
acceptance only where it names the key of the request. Provider texts are never kept:
a refusal becomes a status, one of the known codes and a bounded delay.
-/

namespace SiliconHook

open Text

-- -----------------------------------------------------------------------------
-- Errors
-- -----------------------------------------------------------------------------

def TingError.code : TingError → String
  | .invalidInput code => code
  | .transport => "ting_transport_unavailable"
  | .invalidResponse => "ting_invalid_response"
  | .responseTooLarge => "ting_response_too_large"
  | .rejected _ code _ _ => code

def TingError.proofRefused : TingError → Bool
  | .rejected status code _ _ => status = 401 &&
      ["invalid_proof", "proof_expired", "proof_consumed", "proof_revoked"].contains code
  | _ => false

def knownTingCodes : List String := [
  "authentication_required", "invalid_proof", "proof_expired", "proof_consumed",
  "proof_revoked", "proof_verification_uncertain", "recipient_not_registered",
  "required_delivery_not_enabled", "permission_denied", "idempotency_conflict",
  "payload_too_large", "invalid_input", "not_found", "rate_limited",
  "dependency_unavailable", "storage_unavailable"]

-- -----------------------------------------------------------------------------
-- Requests
-- -----------------------------------------------------------------------------

def maxTingSendBytes : Nat := 256 * 1024
def maxTingResponseBytes : Nat := 1024 * 1024

structure OffsetDateTime where
  instant : Instant
  offset : Int
  deriving DecidableEq

structure TingClient where
  appId : String
  fromSlice : List UInt8 → Option Json
  parseRfc3339 : String → Option OffsetDateTime

structure SendRequest where
  eventType : String
  recipient : TingRecipient
  key : String
  data : List (String × Json)
  metadata : List (String × Json)
  delivery : TingDeliveryMode

def Json.asObject : Json → Option (List (String × Json))
  | .object fields => some fields
  | _ => none

/-- The mode of a send or an answer: ordinary where it is not named. -/
def deliveryMode (fields : List (String × Json)) : Option TingDeliveryMode :=
  match fields.lookup "delivery" with
  | none => some .ordinary
  | some value => deserializeDelivery value

def SendRequest.ofJson (json : Json) : Option SendRequest := do
  let fields ← json.knownFields ["type", "for", "key", "data", "metadata", "delivery"]
  let eventType ← (← fields.lookup "type").asString
  let recipient ← TingRecipient.ofJson (← fields.lookup "for")
  let key ← (← fields.lookup "key").asString
  let data ← (← fields.lookup "data").asObject
  let metadata ← ((fields.lookup "metadata").getD (.object [])).asObject
  let delivery ← deliveryMode fields
  return ⟨eventType, recipient, key, data, metadata, delivery⟩

def tingIdentifier (value : String) (limit : Nat) : Bool :=
  !value.isEmpty && value.utf8ByteSize ≤ limit && !value.toList.any isControl

/-- The request of a prepared body, checked before any network I/O. -/
def TingClient.sendRequest (ting : TingClient) (body : List UInt8) :
    Except TingError SendRequest :=
  if maxTingSendBytes < body.length then .error (.invalidInput "ting_request_too_large")
  else match (ting.fromSlice body).bind SendRequest.ofJson with
    | none => .error (.invalidInput "invalid_ting_send")
    | some request =>
      if request.eventType ≠ ting.appId ++ eventTypeSuffix ∨
          ¬ tingIdentifier request.recipient.uuid 64 ∨ ¬ tingIdentifier request.key 200 then
        .error (.invalidInput "invalid_ting_send")
      else .ok request

-- -----------------------------------------------------------------------------
-- Answers
-- -----------------------------------------------------------------------------

/-- What a request draws: no answer, or one whose body arrives in chunks, each of
which may fail to. The header texts are as they are received. -/
inductive TingResponse
  | lost
  | answered (status : Nat) (retryAfter : Option String) (contentLength : Option Nat)
      (chunks : List (Option (List UInt8)))

/-- An unsigned number of 64 bits; a plus is allowed before it. -/
def parseU64 (text : String) : Option Nat :=
  let digits : List Char := match text.toList with
    | '+' :: rest => rest
    | chars => chars
  let value := digits.foldl (fun n c => 10 * n + (c.toNat - 48)) 0
  if digits ≠ [] ∧ digits.all isAsciiDigit ∧ value < 2 ^ 64 then some value else none

def readChunks (bytes : List UInt8) : List (Option (List UInt8)) → Except TingError (List UInt8)
  | [] => .ok bytes
  | none :: _ => .error .transport
  | some chunk :: rest =>
    if maxTingResponseBytes < bytes.length + chunk.length then .error .responseTooLarge
    else readChunks (bytes ++ chunk) rest

def Json.get (name : String) : Json → Option Json
  | .object fields => fields.lookup name
  | _ => none

def TingClient.rejection (ting : TingClient) (status : Nat) (body : List UInt8)
    (retryAfter : Option Nat) : TingError :=
  let raw := (((ting.fromSlice body).map Client.toValue).bind (Json.get "error")).bind
    (Json.get "code")
  let code := ((raw.bind Json.asString).filter knownTingCodes.contains).getD "ting_rejected"
  let retryable := status = 408 || status = 425 || status = 429 ||
    (500 ≤ status && status ≤ 599) || (status = 401 &&
      ["proof_expired", "proof_consumed", "proof_revoked", "invalid_proof"].contains code)
  .rejected status code retryable retryAfter

def TingClient.answer (ting : TingClient) : TingResponse → Except TingError (Nat × List UInt8)
  | .lost => .error .transport
  | .answered status retryAfter contentLength chunks =>
    let retryAfter := (retryAfter.bind parseU64).map fun seconds => min seconds 3600
    if contentLength.any fun length => maxTingResponseBytes < length then .error .responseTooLarge
    else match readChunks [] chunks with
      | .error e => .error e
      | .ok bytes =>
        if 200 ≤ status ∧ status < 300 then .ok (status, bytes)
        else .error (ting.rejection status bytes retryAfter)

structure AcceptanceResponse where
  id : String
  key : String
  status : String
  silent : Bool
  delivery : TingDeliveryMode
  createdAt : String

def Json.asBool : Json → Option Bool
  | .bool value => some value
  | _ => none

def AcceptanceResponse.ofJson (json : Json) : Option AcceptanceResponse := do
  let fields ← Client.members ["id", "key", "status", "silent", "delivery", "created_at"] json
  let id ← (← fields.lookup "id").asString
  let key ← (← fields.lookup "key").asString
  let status ← (← fields.lookup "status").asString
  let silent ← (← fields.lookup "silent").asBool
  let delivery ← deliveryMode fields
  let createdAt ← (← fields.lookup "created_at").asString
  return ⟨id, key, status, silent, delivery, createdAt⟩

structure TingAcceptance where
  id : String
  key : String
  silent : Bool
  delivery : TingDeliveryMode
  createdAt : OffsetDateTime
  deriving DecidableEq

def TingClient.decodeAcceptance (ting : TingClient) (body : List UInt8) (key : String)
    (delivery : TingDeliveryMode) : Except TingError TingAcceptance :=
  match (ting.fromSlice body).bind AcceptanceResponse.ofJson with
  | none => .error .invalidResponse
  | some response =>
    match ting.parseRfc3339 response.createdAt with
    | none => .error .invalidResponse
    | some createdAt =>
      if response.status ≠ "accepted" ∨ response.key ≠ key ∨ response.delivery ≠ delivery ∨
          ¬ tingIdentifier response.id 255 ∨ response.createdAt.toList.getLast? ≠ some 'Z' ∨
          createdAt.offset ≠ 0 then
        .error .invalidResponse
      else .ok ⟨response.id, response.key, response.silent, response.delivery, createdAt⟩

def TingClient.confirm (ting : TingClient) (request : SendRequest) (response : TingResponse) :
    Except TingError TingAcceptance := do
  let (status, body) ← ting.answer response
  if status ≠ 200 ∧ status ≠ 202 then .error .invalidResponse
  else ting.decodeAcceptance body request.key request.delivery

/-- Sends the exact persisted bytes; `http` is what posting a body draws. -/
def TingClient.send (ting : TingClient) (http : List UInt8 → TingResponse)
    (preparedBody : List UInt8) : Except TingError TingAcceptance := do
  let request ← ting.sendRequest preparedBody
  ting.confirm request (http preparedBody)

-- -----------------------------------------------------------------------------
-- The adapter
-- -----------------------------------------------------------------------------

/-- What the adapter does with an answer: a refused proof is renewed once, anything
else is the result. -/
def adapterResult (retried : Bool) (result : Except TingError TingAcceptance) :
    Option (Except DeliveryError TingAcceptance) :=
  match result with
  | .error e => if e.proofRefused && !retried then none else some (.error (.ting e))
  | .ok accepted => some (.ok accepted)

end SiliconHook
