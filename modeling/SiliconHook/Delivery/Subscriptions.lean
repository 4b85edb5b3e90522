import SiliconHook.Store.Access
import SiliconHook.Store.Ting

/-!
# Observers

Carbons observing a Silicon: copies of its future events. Access is checked
again inside every event acceptance, and the number of observers is bounded.
-/

namespace SiliconHook

def maxObserversPerSilicon : Nat := 100

inductive SubscriptionError
  | limitReached
  | store (error : StoreError)
  deriving DecidableEq, Repr

-- -----------------------------------------------------------------------------
-- Subscriptions
-- -----------------------------------------------------------------------------

def Store.observersOf (db : Store) (silicon : AccountUuid) : List SubscriptionRow :=
  db.observerSubscriptions.select fun row => row.siliconUuid = silicon

/-- Records a Carbon's interest under a fresh id, within the fanout limit. -/
def subscribe (id : Uuid) (silicon recipient : AccountUuid) (db : Store) :
    Except SubscriptionError (SubscriptionRow × Store) :=
  match db.observerSubscriptions.find (silicon, recipient) with
  | some existing => .ok (existing, db)
  | none =>
    if maxObserversPerSilicon ≤ (db.observersOf silicon).length then .error .limitReached
    else if silicon = recipient then
      .error (.store (.database "observer_subscriptions_not_self"))
    else if db.observerSubscriptions.rows.any fun row => row.id = id then
      .error (.store (.database "observer_subscriptions_pkey"))
    else
      match db.observerSubscriptions.insert ⟨id, silicon, recipient⟩ with
      | none => .error (.store (.database "observer_subscriptions_unique"))
      | some subscriptions =>
        .ok (⟨id, silicon, recipient⟩, { db with observerSubscriptions := subscriptions })

def unsubscribe (silicon recipient : AccountUuid) (db : Store) : Bool × Store :=
  ((db.observerSubscriptions.find (silicon, recipient)).isSome,
    db.deleteSubscriptions fun row => row.siliconUuid = silicon && row.recipientUuid = recipient)

-- -----------------------------------------------------------------------------
-- Copies
-- -----------------------------------------------------------------------------

/-- The account holds a grant on the Silicon, or is its stored custodian. -/
def Store.hasAccess (db : Store) (silicon recipient : AccountUuid) : Bool :=
  hasGrant silicon recipient db ||
    (db.accounts.find silicon).any fun owner => owner.custodianUuid = some recipient

structure ObserverRow where
  id : Uuid
  recipientUuid : AccountUuid
  publicId : Option PublicId
  deriving DecidableEq

def Store.observes (db : Store) (row : SubscriptionRow) : Bool :=
  (db.accounts.find row.recipientUuid).all (fun recipient => recipient.deletedAt.isNone) &&
    db.hasAccess row.siliconUuid row.recipientUuid

/-- `ORDER BY subscription.id LIMIT` one more than the limit. -/
def Store.observerRows (db : Store) (silicon : AccountUuid) : List ObserverRow :=
  ((((db.observersOf silicon).filter db.observes).insertionSort fun a b =>
      a.id.toNat ≤ b.id.toNat).take (maxObserversPerSilicon + 1)).map fun row =>
    ⟨row.id, row.recipientUuid, (db.accounts.find row.recipientUuid).bind AccountRow.publicId⟩

def DeliveryCodec.enqueueSend (codec : DeliveryCodec) (appId : String) (id : Uuid)
    (event : EventRecord) (silicon : ReferencedSilicon) (recipient : AccountUuid)
    (publicId : Option PublicId) (delivery : TingDeliveryMode) (observer : Option Uuid)
    (now : Instant) (db : Store) : Except StoreError Store :=
  match codec.prepareEvent appId event silicon ⟨recipient.value, publicId.map PublicId.value⟩
      delivery with
  | .error reason => .error (.corruptData "ting_outbox" reason)
  | .ok body =>
    match codec.enqueueTing id event recipient body observer now db with
    | .error e => .error e
    | .ok (_, db) => .ok db

/-- Enqueues the copies of the observers in turn; `sendIds` are the ids drawn. -/
def DeliveryCodec.enqueueCopies (codec : DeliveryCodec) (appId : String) (sendIds : Uuid → Uuid)
    (event : EventRecord) (silicon : ReferencedSilicon) (now : Instant) :
    List ObserverRow → Store → Except StoreError Store
  | [], db => .ok db
  | observer :: rest, db =>
    match codec.enqueueSend appId (sendIds observer.id) event silicon observer.recipientUuid
        observer.publicId .ordinary (some observer.id) now db with
    | .error e => .error e
    | .ok db => codec.enqueueCopies appId sendIds event silicon now rest db

def DeliveryCodec.enqueueObservers (codec : DeliveryCodec) (appId : String)
    (sendIds : Uuid → Uuid) (event : EventRecord) (siliconUuid : AccountUuid)
    (silicon : ReferencedSilicon) (now : Instant) (db : Store) : Except StoreError Store :=
  let observers := db.observerRows siliconUuid
  if maxObserversPerSilicon < observers.length then
    .error (.corruptData "observer_subscriptions" "observer limit exceeded")
  else codec.enqueueCopies appId sendIds event silicon now observers db

-- -----------------------------------------------------------------------------
-- What enqueueing changes
-- -----------------------------------------------------------------------------

theorem enqueueSend_frame {codec : DeliveryCodec} {db db' : Store} {id : Uuid}
    {event : EventRecord} {delivery : TingDeliveryMode}
    (h : codec.enqueueSend appId id event silicon recipient publicId delivery observer now db =
      .ok db') : ∃ outbox, db' = { db with tingOutbox := outbox } := by
  unfold DeliveryCodec.enqueueSend at h
  split at h
  · cases h
  · split at h
    · cases h
    · rename_i id' queued hq
      cases h
      obtain ⟨_, -, ⟨_, outbox, -, -, -, -, -, rfl⟩ | hold⟩ := enqueueTing_ok hq
      · exact ⟨outbox, rfl⟩
      · obtain ⟨rfl, -⟩ := existingSend_ok.mp hold
        exact ⟨_, rfl⟩

theorem enqueueCopies_frame {codec : DeliveryCodec} {db db' : Store} {sendIds : Uuid → Uuid}
    {event : EventRecord} {observers : List ObserverRow}
    (h : codec.enqueueCopies appId sendIds event silicon now observers db = .ok db') :
    ∃ outbox, db' = { db with tingOutbox := outbox } := by
  induction observers generalizing db with
  | nil =>
    cases h
    exact ⟨_, rfl⟩
  | cons observer rest ih =>
    unfold DeliveryCodec.enqueueCopies at h
    split at h
    · cases h
    · rename_i mid hmid
      obtain ⟨_, rfl⟩ := enqueueSend_frame hmid
      obtain ⟨outbox, rfl⟩ := ih h
      exact ⟨outbox, rfl⟩

end SiliconHook
