import SiliconHook.Delivery.Prepare
import SiliconHook.Store.Schema
import Mathlib.Data.List.Sort

/-!
# The Ting outbox

Sends are enqueued in the transaction that accepts their event. A claim leases a
due send for a while; only its holder, and only before the lease or the event
expires, records an acceptance or schedules another attempt.
-/

namespace SiliconHook

open Text Encoding

structure TingOutboxClaim where
  id : Uuid
  eventId : EventId
  recipientId : AccountUuid
  observerSubscriptionId : Option Uuid
  idempotencyKey : String
  requestBody : List UInt8
  attempts : Nat
  leaseId : Uuid
  leaseUntil : Instant
  expiresAt : Instant
  deriving DecidableEq

inductive TingSendFailure
  | proofUnavailable
  | consentRequired
  | recipientNotRegistered
  | requiredDeliveryNotEnabled
  | transportUnavailable
  | rateLimited
  | tingUnavailable
  | requestRejected
  | invalidResponse
  | tingUnauthorized
  | typeNotRegistered
  | idempotencyConflict
  deriving DecidableEq, Repr

def TingSendFailure.asStr : TingSendFailure → String
  | .proofUnavailable => "proof_unavailable"
  | .consentRequired => "consent_required"
  | .recipientNotRegistered => "recipient_not_registered"
  | .requiredDeliveryNotEnabled => "required_delivery_not_enabled"
  | .transportUnavailable => "transport_unavailable"
  | .rateLimited => "rate_limited"
  | .tingUnavailable => "ting_unavailable"
  | .requestRejected => "request_rejected"
  | .invalidResponse => "invalid_response"
  | .tingUnauthorized => "ting_unauthorized"
  | .typeNotRegistered => "type_not_registered"
  | .idempotencyConflict => "idempotency_conflict"

-- -----------------------------------------------------------------------------
-- Enqueue
-- -----------------------------------------------------------------------------

def DeliveryCodec.preparedKey (codec : DeliveryCodec) (body : List UInt8)
    (recipient : AccountUuid) : Except StoreError String :=
  let invalid := StoreError.invalidArgument "prepared_body"
    "must be a Ting request addressed to the queued recipient"
  if body.isEmpty ∨ 256 * 1024 < body.length then .error invalid
  else match (codec.fromSlice body).bind PreparedTing.ofJson with
    | none => .error invalid
    | some request =>
      if request.recipient.uuid ≠ recipient.value ∨ request.key.isEmpty ∨
          200 < request.key.utf8ByteSize ∨ request.key.toList.any isControl ∨
          request.notificationType.isEmpty ∨ 255 < request.notificationType.utf8ByteSize ∨
          !request.data.isObject ∨ !request.metadata.isObject then
        .error invalid
      else .ok request.key

def OutboxRow.queued (id : Uuid) (event : EventId) (recipient : AccountUuid) (key : String)
    (body : List UInt8) (observerSubscription : Option Uuid) (expiresAt now : Instant) :
    OutboxRow where
  id := id
  eventId := event
  recipientId := recipient
  idempotencyKey := key
  requestBody := body
  observerSubscriptionId := observerSubscription
  createdAt := now
  expiresAt := expiresAt
  nextAttemptAt := now
  attempts := 0
  lastAttemptAt := none
  lastErrorCode := none
  leaseId := none
  leaseUntil := none
  acceptedAt := none
  tingId := none
  silent := none

/-- The send already queued for an event and recipient, where it is the same. -/
def existingSend (event : EventId) (recipient : AccountUuid) (body : List UInt8)
    (observerSubscription : Option Uuid) (now : Instant) (db : Store) :
    Except StoreError (Uuid × Store) :=
  match (db.tingOutbox.find (event, recipient)).filter fun row => decide (now < row.expiresAt) with
  | none => .error (.notFound "event")
  | some row =>
    if row.requestBody = body ∧ row.observerSubscriptionId = observerSubscription then
      .ok (row.id, db)
    else .error .idempotencyConflict

/-- The unique and foreign keys of a new row, past the one its insertion skips. -/
def OutboxRow.check (row : OutboxRow) (db : Store) : Except StoreError Unit := do
  ensure (∀ other ∈ db.tingOutbox.rows, other.id ≠ row.id) (.database "ting_outbox_pkey")
  ensure (∀ other ∈ db.tingOutbox.rows, other.idempotencyKey ≠ row.idempotencyKey)
    (.database "ting_outbox_key_unique")
  ensure (row.observerSubscriptionId.all fun subscription =>
      db.observerSubscriptions.rows.any fun other => other.id = subscription)
    (.database "ting_outbox_observer_subscription_id_fkey")

/-- Enqueues a prepared notification in the transaction that accepts its event.
Repeating the same send returns its id. -/
def DeliveryCodec.enqueueTing (codec : DeliveryCodec) (id : Uuid) (event : EventRecord)
    (recipient : AccountUuid) (body : List UInt8) (observerSubscription : Option Uuid)
    (now : Instant) (db : Store) : Except StoreError (Uuid × Store) :=
  match codec.preparedKey body recipient with
  | .error e => .error e
  | .ok key =>
    match (db.events.find event.id).filter fun stored => decide (now < stored.expiresAt) with
    | none => existingSend event.id recipient body observerSubscription now db
    | some stored =>
      let row := OutboxRow.queued id event.id recipient key body observerSubscription
        stored.expiresAt now
      match db.tingOutbox.insert row with
      | none => existingSend event.id recipient body observerSubscription now db
      | some queued =>
        match row.check db with
        | .error e => .error e
        | .ok () => .ok (id, { db with tingOutbox := queued })

-- -----------------------------------------------------------------------------
-- Claims
-- -----------------------------------------------------------------------------

namespace OutboxRow

/-- The send may be attempted now, and no live lease is on it. -/
def due (row : OutboxRow) (now : Instant) : Bool :=
  row.acceptedAt.isNone && decide (now < row.expiresAt) && decide (row.nextAttemptAt ≤ now) &&
    decide (row.lastErrorCode ≠ some "legacy_identity") &&
    row.leaseUntil.all fun until' => decide (until' ≤ now)

/-- `ORDER BY next_attempt_at, created_at, id`. -/
def before (a b : OutboxRow) : Prop :=
  a.nextAttemptAt < b.nextAttemptAt ∨ a.nextAttemptAt = b.nextAttemptAt ∧
    (a.createdAt < b.createdAt ∨ a.createdAt = b.createdAt ∧ a.id.toNat ≤ b.id.toNat)

instance : DecidableRel before := fun a b => by
  unfold before
  infer_instance

def leaseEnd (row : OutboxRow) (leaseSeconds : Int) (now : Instant) : Instant :=
  min row.expiresAt (now + leaseSeconds * Instant.second)

def lease (row : OutboxRow) (leaseId : Uuid) (leaseSeconds : Int) (now : Instant) : OutboxRow :=
  { row with
    leaseId := some leaseId
    leaseUntil := some (row.leaseEnd leaseSeconds now)
    attempts := row.attempts + 1
    lastAttemptAt := some now }

def claim (row : OutboxRow) (leaseId : Uuid) (leaseSeconds : Int) (now : Instant) :
    TingOutboxClaim where
  id := row.id
  eventId := row.eventId
  recipientId := row.recipientId
  observerSubscriptionId := row.observerSubscriptionId
  idempotencyKey := row.idempotencyKey
  requestBody := row.requestBody
  attempts := row.attempts + 1
  leaseId := leaseId
  leaseUntil := row.leaseEnd leaseSeconds now
  expiresAt := row.expiresAt

/-- The claim's lease is the row's, and neither it nor the send has expired. -/
def heldBy (row : OutboxRow) (claim : TingOutboxClaim) (now : Instant) : Bool :=
  decide (row.id = claim.id) && decide (row.leaseId = some claim.leaseId) &&
    row.acceptedAt.isNone && row.leaseUntil.any (fun until' => decide (now < until')) &&
    decide (now < row.expiresAt)

def complete (row : OutboxRow) (tingId : String) (silent : Bool) (now : Instant) : OutboxRow :=
  { row with
    acceptedAt := some now
    tingId := some tingId
    silent := some silent
    leaseId := none
    leaseUntil := none
    lastErrorCode := none }

def retry (row : OutboxRow) (failure : TingSendFailure) (retryAt now : Instant) : OutboxRow :=
  { row with
    nextAttemptAt := min row.expiresAt (max now retryAt)
    lastErrorCode := some failure.asStr
    leaseId := none
    leaseUntil := none }

end OutboxRow

def dueSends (limit : Nat) (now : Instant) (db : Store) : List OutboxRow :=
  ((db.tingOutbox.select (·.due now)).insertionSort OutboxRow.before).take limit

/-- Leases due sends; `leaseIds` are the random lease ids drawn for them. -/
def claimTing (limit : Nat) (leaseDuration : Int) (leaseIds : Uuid → Uuid) (now : Instant)
    (db : Store) : Except StoreError (List TingOutboxClaim × Store) := do
  ensure (1 ≤ limit ∧ limit ≤ 100) (.invalidArgument "limit" "must be between 1 and 100")
  ensure (Instant.second ≤ leaseDuration ∧ leaseDuration ≤ Instant.hours 1)
    (.invalidArgument "lease_duration" "must be between one second and one hour")
  let leaseSeconds := leaseDuration / Instant.second
  let due := dueSends limit now db
  return (due.map fun row => row.claim (leaseIds row.id) leaseSeconds now, { db with
    tingOutbox := db.tingOutbox.update (fun row => (due.map OutboxRow.id).contains row.id)
      (fun row => row.lease (leaseIds row.id) leaseSeconds now) fun _ => rfl })

def tingClaimIsCurrent (claim : TingOutboxClaim) (now : Instant) (db : Store) : Bool :=
  db.tingOutbox.rows.any (·.heldBy claim now)

def validIdentifier (value : String) (maxBytes : Nat) : Bool :=
  !value.isEmpty && decide (value.utf8ByteSize ≤ maxBytes) && value.toList.all isAsciiGraphic

/-- Updates the row the claim holds; says whether there was one. -/
def updateHeld (claim : TingOutboxClaim) (f : OutboxRow → OutboxRow)
    (hf : ∀ row, Keyed.key (f row) = Keyed.key row) (now : Instant) (db : Store) : Bool × Store :=
  (decide ((db.tingOutbox.select (·.heldBy claim now)).length = 1),
    { db with tingOutbox := db.tingOutbox.update (·.heldBy claim now) f hf })

/-- Records Ting's confirmed acceptance, for the current unexpired lease only. -/
def completeTing (claim : TingOutboxClaim) (tingId : String) (silent : Bool) (now : Instant)
    (db : Store) : Except StoreError (Bool × Store) :=
  if !validIdentifier tingId 255 then
    .error (.invalidArgument "ting_id" "must be a nonempty identifier of at most 255 bytes")
  else .ok (updateHeld claim (·.complete tingId silent now) (fun _ => rfl) now db)

def retryTing (claim : TingOutboxClaim) (failure : TingSendFailure) (retryAt now : Instant)
    (db : Store) : Bool × Store :=
  updateHeld claim (·.retry failure retryAt now) (fun _ => rfl) now db

-- -----------------------------------------------------------------------------
-- What a call does
-- -----------------------------------------------------------------------------

variable {db db' : Store} {codec : DeliveryCodec} {row : OutboxRow} {now : Instant}

theorem mem_dueSends (h : row ∈ dueSends limit now db) :
    row ∈ db.tingOutbox.rows ∧ row.due now = true := by
  have hs := List.mem_of_mem_take h
  rw [List.mem_insertionSort] at hs
  simpa [Table.select] using hs

theorem dueSends_nodup (limit : Nat) (now : Instant) (db : Store) : (dueSends limit now db).Nodup := by
  have hrows : db.tingOutbox.rows.Nodup := .of_map _ db.tingOutbox.nodup
  refine ((List.perm_insertionSort _ _).nodup_iff.mpr ?_).sublist (List.take_sublist _ _)
  exact hrows.filter _

theorem claimTing_ok {claims : List TingOutboxClaim} :
    claimTing limit leaseDuration leaseIds now db = .ok (claims, db') ↔
      (1 ≤ limit ∧ limit ≤ 100) ∧
        (Instant.second ≤ leaseDuration ∧ leaseDuration ≤ Instant.hours 1) ∧
        (dueSends limit now db).map (fun row =>
          row.claim (leaseIds row.id) (leaseDuration / Instant.second) now) = claims ∧
        { db with
          tingOutbox := db.tingOutbox.update
            (fun row => ((dueSends limit now db).map OutboxRow.id).contains row.id)
            (fun row => row.lease (leaseIds row.id) (leaseDuration / Instant.second) now)
            fun _ => rfl } = db' := by
  simp only [claimTing, Except.bind_ok, ensure_ok, Except.pure_ok, Prod.mk.injEq, exists_const]

theorem updateHeld_stale {claim : TingOutboxClaim} {f : OutboxRow → OutboxRow}
    (hf : ∀ row, Keyed.key (f row) = Keyed.key row)
    (h : ∀ row ∈ db.tingOutbox.rows, row.heldBy claim now = false) :
    updateHeld claim f hf now db = (false, db) := by
  have hselect : db.tingOutbox.select (·.heldBy claim now) = [] := by
    rw [Table.select, List.filter_eq_nil_iff]
    intro row hm
    simp [h row hm]
  have hupdate : db.tingOutbox.update (·.heldBy claim now) f hf = db.tingOutbox :=
    Table.update_eq_self hf h
  simp [updateHeld, hselect, hupdate]

theorem existingSend_ok {id : Uuid} :
    existingSend event recipient body observer now db = .ok (id, db') ↔
      db' = db ∧ ∃ row, db.tingOutbox.find (event, recipient) = some row ∧ now < row.expiresAt ∧
        row.requestBody = body ∧ row.observerSubscriptionId = observer ∧ row.id = id := by
  unfold existingSend
  cases hf : db.tingOutbox.find (event, recipient) with
  | none => simp
  | some row =>
    by_cases hl : now < row.expiresAt
    · simp only [Option.filter_some, hl, decide_true, if_true]
      split
      · rename_i h
        simp [hl, h, eq_comm (a := db'), and_comm]
      · rename_i h
        simp only [reduceCtorEq, Option.some.injEq, false_iff, not_and]
        rintro - ⟨row', rfl, -, hb, ho, -⟩
        exact h ⟨hb, ho⟩
    · simp [Option.filter_some, hl]

theorem OutboxRow.check_id (h : row.check db = .ok u) :
    ∀ other ∈ db.tingOutbox.rows, other.id ≠ row.id := by
  simp only [check, Except.bind_ok, ensure_ok, exists_const] at h
  exact h.1

theorem enqueueTing_ok {event : EventRecord} {id id' : Uuid}
    (h : codec.enqueueTing id event recipient body observer now db = .ok (id', db')) :
    ∃ key, codec.preparedKey body recipient = .ok key ∧
      ((∃ stored queued, db.events.find event.id = some stored ∧ now < stored.expiresAt ∧
          db.tingOutbox.insert (.queued id event.id recipient key body observer stored.expiresAt
            now) = some queued ∧
          (OutboxRow.queued id event.id recipient key body observer stored.expiresAt now).check
            db = .ok () ∧ id' = id ∧ db' = { db with tingOutbox := queued }) ∨
        existingSend event.id recipient body observer now db = .ok (id', db')) := by
  unfold DeliveryCodec.enqueueTing at h
  split at h
  · cases h
  · rename_i key hk
    refine ⟨key, hk, ?_⟩
    split at h
    · exact .inr h
    · rename_i stored hs
      obtain ⟨hfind, hl⟩ := Option.filter_eq_some_iff.mp hs
      simp only at h
      split at h
      · exact .inr h
      · rename_i queued hq
        split at h
        · cases h
        · rename_i hc
          cases h
          exact .inl ⟨stored, queued, hfind, by simpa using hl, hq, hc, rfl, rfl⟩

-- -----------------------------------------------------------------------------
-- How an enqueue fails
-- -----------------------------------------------------------------------------

/-- Failures of an enqueue: input that is no send to the recipient, a missing or
expired event, another send under the same key, or a constraint. -/
def StoreError.ofEnqueue : StoreError → Bool
  | .invalidArgument .. | .notFound _ | .idempotencyConflict | .database _ => true
  | _ => false

theorem existingSend_error {e : StoreError}
    (h : existingSend event recipient body observer now db = .error e) : e.ofEnqueue := by
  unfold existingSend at h
  split at h
  · cases h
    rfl
  · split at h
    · cases h
    · cases h
      rfl

theorem preparedKey_error {e : StoreError} (h : codec.preparedKey body recipient = .error e) :
    e = .invalidArgument "prepared_body"
      "must be a Ting request addressed to the queued recipient" := by
  unfold DeliveryCodec.preparedKey at h
  simp only at h
  split at h
  · cases h
    rfl
  · split at h
    · cases h
      rfl
    · split at h
      · cases h
        rfl
      · cases h

theorem OutboxRow.check_error {e : StoreError} (h : row.check db = .error e) : e.ofEnqueue := by
  simp only [check, Except.bind_error, ensure_error] at h
  obtain ⟨-, rfl⟩ | ⟨_, -, ⟨-, rfl⟩ | ⟨_, -, -, rfl⟩⟩ := h <;> rfl

theorem enqueueTing_error {event : EventRecord} {id : Uuid} {e : StoreError}
    (h : codec.enqueueTing id event recipient body observer now db = .error e) : e.ofEnqueue := by
  unfold DeliveryCodec.enqueueTing at h
  split at h
  · rename_i hk
    cases h
    rw [preparedKey_error hk]
    rfl
  · split at h
    · exact existingSend_error h
    · simp only at h
      split at h
      · exact existingSend_error h
      · split at h
        · rename_i hc
          cases h
          exact OutboxRow.check_error hc
        · cases h

end SiliconHook
