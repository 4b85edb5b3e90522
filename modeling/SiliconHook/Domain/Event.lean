import SiliconHook.Domain.Hook

/-!
# Requests and events

A captured provider request, and the record a verified one becomes.
-/

namespace SiliconHook

open Text

def logRetentionDays : Int := 14

structure CapturedRequest where
  method : String
  url : String
  headers : List (String × String)
  body : List UInt8
  remoteIp : String
  receivedAt : Instant
  deriving DecidableEq, Repr

structure DeliverySequence where
  value : Int
  positive : 1 ≤ value
  deriving DecidableEq, Repr

def DeliverySequence.new (value : Int) : Except DomainError DeliverySequence :=
  if h : 1 ≤ value then .ok ⟨value, h⟩
  else .error (.outOfRange "delivery_sequence" 1 18446744073709551615)

structure EventRecord where
  id : EventId
  siliconId : SiliconId
  siliconUuid : Option AccountUuid
  hookId : HookId
  provider : HookName
  summary : String
  request : CapturedRequest
  deliverySequence : DeliverySequence
  receivedAt : Instant
  deriving DecidableEq

def maxReasonDetailLength : Nat := 500

def boundedDetail (detail : String) : String :=
  String.ofList ((detail.toList.map fun c => if isControl c then ' ' else c).take
    maxReasonDetailLength)

structure BlockReason where
  code : String
  detail : String
  deriving DecidableEq, Repr

def BlockReason.materialUnavailable (detail : String) : BlockReason :=
  ⟨"material_unavailable", boundedDetail detail⟩

structure BlockedRequest where
  id : BlockedRequestId
  siliconId : SiliconId
  siliconUuid : Option AccountUuid
  hookId : HookId
  provider : HookName
  request : CapturedRequest
  reason : BlockReason
  receivedAt : Instant
  deriving DecidableEq

def BlockedRequest.record (id : BlockedRequestId) (hook : Hook) (request : CapturedRequest)
    (reason : BlockReason) : BlockedRequest where
  id := id
  siliconId := hook.siliconId
  siliconUuid := hook.siliconUuid
  hookId := hook.id
  provider := hook.snapshot.name
  request := request
  reason := reason
  receivedAt := request.receivedAt

/-- Renders a delivery line in a time zone; the zone rules are a library's. -/
abbrev SummaryRenderer := HookName → Instant → HookTimeZone → String

/-- The zone rules of the bundled database, as far as a summary shows them: the
clock of a zone at an instant, where the library represents it. -/
structure ZonedClock where
  rendered : Instant → HookTimeZone → Option String
  rendered_length : ∀ instant zone text, rendered instant zone = some text →
    text.toList.length ≤ 32

def ZonedClock.deliverySummary (clock : ZonedClock) : SummaryRenderer := fun provider instant zone =>
  provider.value ++ " triggered at " ++
    (clock.rendered instant zone).getD "00:00:00 01-01-1970" ++ " " ++ zone.value

def EventRecord.accept (deliverySummary : SummaryRenderer) (id : EventId) (hook : Hook)
    (request : CapturedRequest) (deliverySequence : DeliverySequence) : EventRecord where
  id := id
  siliconId := hook.siliconId
  siliconUuid := hook.siliconUuid
  hookId := hook.id
  provider := hook.snapshot.name
  summary := deliverySummary hook.snapshot.name request.receivedAt hook.snapshot.timeZone
  request := request
  deliverySequence := deliverySequence
  receivedAt := request.receivedAt

end SiliconHook
