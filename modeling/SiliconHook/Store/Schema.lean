import SiliconHook.Library.Result
import SiliconHook.Library.Table
import SiliconHook.Domain.Event
import SiliconHook.Domain.Policy

/-!
# The database

One row structure for each table, keyed as its primary key or the unique index
its statements conflict on, and the store that holds the tables. A store
operation maps the arguments, the clock and the store to an error, which rolls
the transaction back, or to a result and the committed store.
-/

namespace SiliconHook

/-- Failures of the PostgreSQL adapter a modelled operation can return. -/
inductive StoreError
  | database (constraint : String)
  | corruptData (entity reason : String)
  | notFound (entity : String)
  | stateConflict (entity : String)
  | idempotencyConflict
  | secretReplayExpired
  | secretSuperseded
  | endpointKeyConflict
  | defaultHookExists
  | hookLimitReached
  | numericRange (field : String)
  | invalidArgument (field reason : String)
  deriving DecidableEq, Repr

-- -----------------------------------------------------------------------------
-- Hooks
-- -----------------------------------------------------------------------------

structure HookRow where
  id : HookId
  siliconId : SiliconId
  siliconUuid : Option AccountUuid
  endpointKey : EndpointKey
  name : HookName
  description : Option HookDescription
  signing : SigningPolicy
  timeZone : HookTimeZone
  isAccountsDefault : Bool
  createdBy : ActorRef
  createdAt : Instant
  disabledAt : Option Instant
  deletedAt : Option Instant
  lastReceivedAt : Option Instant
  lastBlockedAt : Option Instant
  endpointRotatedAt : Option Instant
  deriving DecidableEq

instance : Keyed HookRow HookId := ⟨HookRow.id⟩

structure RetiredKeyRow where
  endpointKey : EndpointKey
  siliconId : SiliconId
  siliconUuid : Option AccountUuid
  hookId : HookId
  retiredAt : Instant
  deriving DecidableEq

instance : Keyed RetiredKeyRow EndpointKey := ⟨RetiredKeyRow.endpointKey⟩

structure ManagementKey where
  operation : String
  actorKind : ActorKind
  actorId : ActorId
  targetId : String
  key : String
  deriving DecidableEq, Repr

structure PersistedResponse where
  status : Nat
  resourceId : Option HookId
  encryptedSecret : Option EncryptedSecret
  secretReplayUntil : Option Instant
  deriving DecidableEq

structure IdempotencyRow where
  scope : ManagementKey
  requestDigest : List UInt8
  expiresAt : Instant
  response : Option PersistedResponse
  deriving DecidableEq

instance : Keyed IdempotencyRow ManagementKey := ⟨IdempotencyRow.scope⟩

-- -----------------------------------------------------------------------------
-- Accounts and access
-- -----------------------------------------------------------------------------

/-- What Hook knows about one Silicon Accounts account. The kind is unknown
where a sign-out or deletion arrived before the account ever used Hook. -/
structure AccountRow where
  uuid : AccountUuid
  kind : Option ActorKind
  publicId : Option PublicId
  publicIdAt : Option Instant
  displayName : Option String
  pfpUrl : Option String
  custodianUuid : Option AccountUuid
  custodianCheckedAt : Option Instant
  custodianChangedAt : Option Instant
  profileVersion : Int
  revokedBefore : Option Instant
  deletedAt : Option Instant
  deriving DecidableEq

instance : Keyed AccountRow AccountUuid := ⟨AccountRow.uuid⟩

/-- The row an `INSERT` that names only the uuid leaves. -/
def AccountRow.blank (uuid : AccountUuid) : AccountRow :=
  ⟨uuid, none, none, none, none, none, none, none, none, 0, none, none⟩

structure AccountIdRow where
  accountUuid : AccountUuid
  publicId : PublicId
  deriving DecidableEq

instance : Keyed AccountIdRow (AccountUuid × PublicId) := ⟨fun r => (r.accountUuid, r.publicId)⟩

structure AccountsEventRow where
  eventId : String
  eventType : String
  accountUuid : Option AccountUuid
  occurredAt : Option Instant
  deriving DecidableEq

instance : Keyed AccountsEventRow String := ⟨AccountsEventRow.eventId⟩

structure GrantRow where
  siliconUuid : AccountUuid
  granteeUuid : AccountUuid
  level : GrantLevel
  grantedByUuid : AccountUuid
  deriving DecidableEq

instance : Keyed GrantRow (AccountUuid × AccountUuid) := ⟨fun r => (r.siliconUuid, r.granteeUuid)⟩

structure AllowanceRow where
  siliconUuid : AccountUuid
  allowedUuid : AccountUuid
  addedByUuid : AccountUuid
  deriving DecidableEq

instance : Keyed AllowanceRow (AccountUuid × AccountUuid) :=
  ⟨fun r => (r.siliconUuid, r.allowedUuid)⟩

-- -----------------------------------------------------------------------------
-- Events and delivery
-- -----------------------------------------------------------------------------

structure EventRow where
  id : EventId
  hookId : HookId
  siliconId : SiliconId
  siliconUuid : Option AccountUuid
  provider : HookName
  summary : String
  deliverySequence : Int
  request : CapturedRequest
  receivedAt : Instant
  expiresAt : Instant
  deriving DecidableEq

instance : Keyed EventRow EventId := ⟨EventRow.id⟩

structure BlockedRequestRow where
  id : BlockedRequestId
  hookId : HookId
  siliconId : SiliconId
  siliconUuid : Option AccountUuid
  provider : HookName
  reason : BlockReason
  request : CapturedRequest
  receivedAt : Instant
  expiresAt : Instant
  deriving DecidableEq

instance : Keyed BlockedRequestRow BlockedRequestId := ⟨BlockedRequestRow.id⟩

structure IpBlockRow where
  hookId : HookId
  remoteIp : String
  strikes : Nat
  blockedUntil : Option Instant
  rejectedRequests : Nat
  updatedAt : Instant
  deriving DecidableEq

instance : Keyed IpBlockRow (HookId × String) := ⟨fun r => (r.hookId, r.remoteIp)⟩

structure SequenceRow where
  siliconId : SiliconId
  lastSequence : Int
  deriving DecidableEq

instance : Keyed SequenceRow SiliconId := ⟨SequenceRow.siliconId⟩

/-- A Carbon's request to receive copies of a Silicon's future events, keyed by
the unique pair; `id` tells it from one made after an unsubscription. -/
structure SubscriptionRow where
  id : Uuid
  siliconUuid : AccountUuid
  recipientUuid : AccountUuid
  deriving DecidableEq

instance : Keyed SubscriptionRow (AccountUuid × AccountUuid) :=
  ⟨fun r => (r.siliconUuid, r.recipientUuid)⟩

structure OutboxRow where
  id : Uuid
  eventId : EventId
  recipientId : AccountUuid
  idempotencyKey : String
  requestBody : List UInt8
  observerSubscriptionId : Option Uuid
  createdAt : Instant
  expiresAt : Instant
  nextAttemptAt : Instant
  attempts : Nat
  lastAttemptAt : Option Instant
  lastErrorCode : Option String
  leaseId : Option Uuid
  leaseUntil : Option Instant
  acceptedAt : Option Instant
  tingId : Option String
  silent : Option Bool
  deriving DecidableEq

instance : Keyed OutboxRow (EventId × AccountUuid) := ⟨fun r => (r.eventId, r.recipientId)⟩

-- -----------------------------------------------------------------------------
-- Identity links
-- -----------------------------------------------------------------------------

/-- An IAM-era public id and the Accounts uuid an operator mapped it to, keyed
by the id's text. `inHookData` tells the ids the migration found in the tables. -/
structure IdentityLinkRow where
  iamPublicId : PublicId
  kind : ActorKind
  iamPrincipalId : Option String
  accountsUuid : Option AccountUuid
  linkedAt : Option Instant
  source : String
  inHookData : Bool
  deriving DecidableEq

instance : Keyed IdentityLinkRow String := ⟨fun r => r.iamPublicId.value⟩

structure Store where
  hooks : Table HookRow
  retiredEndpointKeys : Table RetiredKeyRow
  managementIdempotency : Table IdempotencyRow
  accounts : Table AccountRow
  accountIds : Table AccountIdRow
  accountsEvents : Table AccountsEventRow
  /-- Old uuids of the backfill ledger. -/
  accountsUuid128Map : List AccountUuid
  siliconGrants : Table GrantRow
  siliconAllowances : Table AllowanceRow
  observerSubscriptions : Table SubscriptionRow
  events : Table EventRow
  deliverySequences : Table SequenceRow
  tingOutbox : Table OutboxRow
  identityLinks : Table IdentityLinkRow
  blockedRequests : Table BlockedRequestRow
  ipBlocks : Table IpBlockRow
  deriving DecidableEq

def Store.empty : Store :=
  ⟨.empty, .empty, .empty, .empty, .empty, .empty, [], .empty, .empty, .empty, .empty, .empty,
    .empty, .empty, .empty, .empty⟩

end SiliconHook
