import SiliconHook.Delivery.Subscriptions

/-!
# Verified events

A verified request is appended to its hook's log and its Silicon's delivery
stream, and its sends are queued, in one transaction.
-/

namespace SiliconHook

/-- A verified request to append; delivery is on where an app id is given. -/
structure AcceptEvent where
  delivery : Option String
  eventId : EventId
  hook : Hook
  request : CapturedRequest

/-- `disabled_at IS NULL AND deleted_at IS NULL`, for one hook. -/
def activeHook (hookId : HookId) (row : HookRow) : Bool :=
  row.id = hookId && row.disabledAt.isNone && row.deletedAt.isNone

def HookRow.received (receivedAt : Instant) (row : HookRow) : HookRow :=
  { row with lastReceivedAt := some (max (row.lastReceivedAt.getD receivedAt) receivedAt) }

def touchHook (hookId : HookId) (receivedAt : Instant) (db : Store) : Except StoreError Store :=
  if (db.hooks.select (activeHook hookId)).length ≠ 1 then .error (.notFound "hook")
  else .ok { db with
    hooks := db.hooks.update (activeHook hookId) (·.received receivedAt) fun _ => rfl }

/-- The next position of a stream, which starts at one. -/
def nextSequence (siliconId : SiliconId) (db : Store) : Int × Store :=
  ((db.deliverySequences.upserted ⟨siliconId, 1⟩ fun row =>
      { row with lastSequence := row.lastSequence + 1 }).lastSequence,
    { db with
      deliverySequences := db.deliverySequences.upsert ⟨siliconId, 1⟩
        (fun row => { row with lastSequence := row.lastSequence + 1 }) fun _ => rfl })

/-- The row of an event; the namespace columns are copied from the hook. -/
def EventRecord.row (event : EventRecord) (hook : HookRow) : EventRow where
  id := event.id
  hookId := hook.id
  siliconId := hook.siliconId
  siliconUuid := hook.siliconUuid
  provider := event.provider
  summary := event.summary
  deliverySequence := event.deliverySequence.value
  request := event.request
  receivedAt := event.request.receivedAt
  expiresAt := event.request.receivedAt + Instant.days logRetentionDays

def insertEvent (event : EventRecord) (db : Store) : Except StoreError Store :=
  match db.hooks.find event.hookId with
  | none => .error (.notFound "hook")
  | some hook =>
    match db.events.insert (event.row hook) with
    | none => .error (.database "events_pkey")
    | some events =>
      if db.events.rows.any fun row => row.siliconId = hook.siliconId &&
          row.deliverySequence = event.deliverySequence.value then
        .error (.database "events_delivery_stream_unique")
      else .ok { db with events := events }

def DeliveryCodec.queueSends (codec : DeliveryCodec) (appId : String) (sendId : Uuid)
    (sendIds : Uuid → Uuid) (event : EventRecord) (siliconUuid : AccountUuid) (now : Instant)
    (db : Store) : Except StoreError Store :=
  let publicId := (db.accounts.find siliconUuid).bind AccountRow.publicId
  let silicon : ReferencedSilicon := ⟨siliconUuid.value, publicId.map PublicId.value⟩
  match codec.enqueueSend appId sendId event silicon siliconUuid publicId .required none now db with
  | .error e => .error e
  | .ok db => codec.enqueueObservers appId sendIds event siliconUuid silicon now db

def appendEvent (deliverySummary : SummaryRenderer) (command : AcceptEvent) (db : Store) :
    Except StoreError (EventRecord × Store) :=
  match touchHook command.hook.id command.request.receivedAt db with
  | .error e => .error e
  | .ok db =>
    let (sequence, db) := nextSequence command.hook.siliconId db
    match DeliverySequence.new sequence with
    | .error _ => .error (.corruptData "event"
        "delivery_sequence must be between 1 and 18446744073709551615")
    | .ok sequence =>
      let event := EventRecord.accept deliverySummary command.eventId command.hook command.request
        sequence
      match insertEvent event db with
      | .error e => .error e
      | .ok db => .ok (event, db)

def DeliveryCodec.acceptEvent (codec : DeliveryCodec) (deliverySummary : SummaryRenderer)
    (command : AcceptEvent) (sendId : Uuid) (sendIds : Uuid → Uuid) (now : Instant) (db : Store) :
    Except StoreError (EventRecord × Store) :=
  match appendEvent deliverySummary command db with
  | .error e => .error e
  | .ok (event, db) =>
    match command.delivery, event.siliconUuid with
    | some appId, some siliconUuid =>
      match codec.queueSends appId sendId sendIds event siliconUuid now db with
      | .error e => .error e
      | .ok db => .ok (event, db)
    | _, _ => .ok (event, db)

-- -----------------------------------------------------------------------------
-- Blocked requests
-- -----------------------------------------------------------------------------

structure RecordBlockedRequest where
  id : BlockedRequestId
  hook : Hook
  request : CapturedRequest
  reason : BlockReason

def HookRow.blocked (receivedAt : Instant) (row : HookRow) : HookRow :=
  { row with lastBlockedAt := some (max (row.lastBlockedAt.getD receivedAt) receivedAt) }

theorem HookRow.blocked_id (receivedAt : Instant) (row : HookRow) :
    (row.blocked receivedAt).id = row.id := rfl

def BlockedRequest.row (blocked : BlockedRequest) (hook : HookRow) : BlockedRequestRow where
  id := blocked.id
  hookId := hook.id
  siliconId := hook.siliconId
  siliconUuid := hook.siliconUuid
  provider := blocked.provider
  reason := blocked.reason
  request := blocked.request
  receivedAt := blocked.request.receivedAt
  expiresAt := blocked.request.receivedAt + Instant.days logRetentionDays

def insertBlockedRequest (blocked : BlockedRequest) (db : Store) : Except StoreError Store :=
  match db.hooks.find blocked.hookId with
  | none => .error (.notFound "hook")
  | some hook =>
    match db.blockedRequests.insert (blocked.row hook) with
    | none => .error (.database "blocked_requests_pkey")
    | some blockedRequests => .ok { db with blockedRequests := blockedRequests }

def recordBlockedRequest (command : RecordBlockedRequest) (db : Store) :
    Except StoreError (BlockedRequest × Store) :=
  if (db.hooks.select (activeHook command.hook.id)).length ≠ 1 then .error (.notFound "hook")
  else
    let blocked := BlockedRequest.record command.id command.hook command.request command.reason
    match insertBlockedRequest blocked { db with
        hooks := db.hooks.update (activeHook command.hook.id)
          (HookRow.blocked command.request.receivedAt)
          (HookRow.blocked_id command.request.receivedAt) } with
    | .error e => .error e
    | .ok db => .ok (blocked, db)

/-- `DELETE FROM events WHERE p`, with the sends still queued for them. -/
def Store.deleteEvents (db : Store) (p : EventRow → Bool) : Store :=
  let removed := (db.events.select p).map EventRow.id
  { db with
    events := db.events.delete p
    tingOutbox := db.tingOutbox.delete fun row => removed.contains row.eventId }

-- -----------------------------------------------------------------------------
-- What an acceptance does
-- -----------------------------------------------------------------------------

variable {db db' : Store} {codec : DeliveryCodec} {deliverySummary : SummaryRenderer}
  {command : AcceptEvent} {event : EventRecord}

theorem touchHook_ok {hookId : HookId} :
    touchHook hookId receivedAt db = .ok db' ↔
      (db.hooks.select (activeHook hookId)).length = 1 ∧
        db' = { db with
          hooks := db.hooks.update (activeHook hookId) (·.received receivedAt) fun _ => rfl } := by
  unfold touchHook
  split
  · rename_i hn
    simp [hn]
  · rename_i hn
    rw [not_not] at hn
    simp [hn, eq_comm]

theorem recordBlockedRequest_ok {command : RecordBlockedRequest}
    (h : recordBlockedRequest command db = .ok (blocked, db')) :
    blocked = .record command.id command.hook command.request command.reason ∧
      (db.hooks.select (activeHook command.hook.id)).length = 1 ∧
      ∃ hook blockedRequests, db.blockedRequests.insert (blocked.row hook) = some blockedRequests ∧
        hook.id = command.hook.id ∧ db' = { db with
          hooks := db.hooks.update (activeHook command.hook.id)
            (HookRow.blocked command.request.receivedAt)
            (HookRow.blocked_id command.request.receivedAt)
          blockedRequests := blockedRequests } := by
  unfold recordBlockedRequest at h
  split at h
  · cases h
  · rename_i hactive
    rw [not_not] at hactive
    simp only at h
    split at h
    · cases h
    · rename_i inserted hinserted
      cases h
      unfold insertBlockedRequest at hinserted
      split at hinserted
      · cases hinserted
      · rename_i hook hfind
        split at hinserted
        · cases hinserted
        · rename_i blockedRequests hins
          cases hinserted
          exact ⟨rfl, hactive, hook, blockedRequests, hins, Table.find_key hfind, rfl⟩

/-- Failures of an append: a hook that is not active, a position out of range, or an id
or a position that is taken. -/
def StoreError.ofAppend : StoreError → Bool
  | .notFound _ => true
  | .corruptData entity _ => entity = "event"
  | .database constraint =>
    constraint = "events_pkey" || constraint = "events_delivery_stream_unique"
  | _ => false

theorem insertEvent_error (h : insertEvent event db = .error e) : e.ofAppend := by
  unfold insertEvent at h
  split at h
  · cases h
    rfl
  · split at h
    · cases h
      rfl
    · split at h
      · cases h
        rfl
      · cases h

theorem appendEvent_error (h : appendEvent deliverySummary command db = .error e) :
    e.ofAppend := by
  unfold appendEvent at h
  split at h
  · rename_i htouch
    cases h
    unfold touchHook at htouch
    split at htouch
    · cases htouch
      rfl
    · cases htouch
  · simp only at h
    split at h
    · cases h
      rfl
    · split at h
      · rename_i hinsert
        cases h
        exact insertEvent_error hinsert
      · cases h

theorem insertEvent_ok :
    insertEvent event db = .ok db' ↔
      ∃ hook events, db.hooks.find event.hookId = some hook ∧
        db.events.insert (event.row hook) = some events ∧
        (∀ row ∈ db.events.rows, row.siliconId = hook.siliconId →
          row.deliverySequence ≠ event.deliverySequence.value) ∧
        db' = { db with events := events } := by
  unfold insertEvent
  cases hf : db.hooks.find event.hookId with
  | none => simp
  | some hook =>
    cases hi : db.events.insert (event.row hook) with
    | none => simp [hi]
    | some events =>
      simp only [hi]
      split
      · rename_i hany
        simp only [reduceCtorEq, false_iff]
        rintro ⟨hook', events', hh, -, hnone, -⟩
        cases hh
        obtain ⟨row, hm, hs⟩ := List.any_eq_true.mp hany
        simp only [Bool.and_eq_true, decide_eq_true_eq] at hs
        exact hnone row hm hs.1 hs.2
      · rename_i hany
        have hnone : ∀ row ∈ db.events.rows, row.siliconId = hook.siliconId →
            row.deliverySequence ≠ event.deliverySequence.value := by
          intro row hm hid hs
          exact hany (List.any_eq_true.mpr ⟨row, hm, by simp [hid, hs]⟩)
        constructor
        · intro h
          cases h
          exact ⟨hook, events, rfl, hi, hnone, rfl⟩
        · rintro ⟨hook', events', hh, hi', -, rfl⟩
          cases hh
          cases hi.symm.trans hi'
          rfl

/-- An appended event: its hook is active, its position follows the namespace's
last one, and its row is new in the log and in the stream. -/
structure Appended (deliverySummary : SummaryRenderer) (command : AcceptEvent) (db : Store)
    (event : EventRecord) (db' : Store) : Prop where
  active : (db.hooks.select (activeHook command.hook.id)).length = 1
  sequence : event.deliverySequence.value = (nextSequence command.hook.siliconId db).1
  record : event = .accept deliverySummary command.eventId command.hook command.request
    event.deliverySequence
  stored : ∃ hook events,
    (db.hooks.find command.hook.id).map (·.received command.request.receivedAt) = some hook ∧
      db.events.insert (event.row hook) = some events ∧
      (∀ row ∈ db.events.rows, row.siliconId = hook.siliconId →
        row.deliverySequence ≠ event.deliverySequence.value) ∧
      db' = { db with
        hooks := db.hooks.update (activeHook command.hook.id)
          (·.received command.request.receivedAt) fun _ => rfl
        deliverySequences := (nextSequence command.hook.siliconId db).2.deliverySequences
        events := events }

theorem find_active {hookId : HookId} (h : (db.hooks.select (activeHook hookId)).length = 1) :
    ∃ row, db.hooks.find hookId = some row ∧ activeHook hookId row = true := by
  obtain ⟨row, hrow⟩ := List.length_eq_one_iff.mp h
  have hm : row ∈ db.hooks.select (activeHook hookId) := by simp [hrow]
  obtain ⟨hm, ha⟩ := List.mem_filter.mp hm
  refine ⟨row, Table.find_some.mpr ⟨hm, ?_⟩, ha⟩
  simp only [activeHook, Bool.and_eq_true, decide_eq_true_eq] at ha
  exact ha.1.1

theorem appendEvent_ok (h : appendEvent deliverySummary command db = .ok (event, db')) :
    Appended deliverySummary command db event db' := by
  unfold appendEvent at h
  split at h
  · cases h
  · rename_i touched ht
    obtain ⟨hactive, rfl⟩ := touchHook_ok.mp ht
    simp only at h
    split at h
    · cases h
    · rename_i sequence hseq
      have hvalue : sequence.value = (nextSequence command.hook.siliconId db).1 := by
        unfold DeliverySequence.new at hseq
        split at hseq
        · cases hseq
          rfl
        · cases hseq
      split at h
      · cases h
      · rename_i inserted hi
        cases h
        obtain ⟨hook, events, hf, hins, hnone, rfl⟩ := insertEvent_ok.mp hi
        refine ⟨hactive, hvalue, rfl, hook, events, ?_, hins, hnone, rfl⟩
        obtain ⟨row, hrow, ha⟩ := find_active hactive
        have hid : row.id = command.hook.id := Table.find_key hrow
        have hupdated := Table.find_update (t := db.hooks) (p := activeHook command.hook.id)
          (f := (·.received command.request.receivedAt)) (k := command.hook.id) fun _ => rfl
        rw [hrow, Option.map_some, if_pos ha] at hupdated
        rw [hrow, Option.map_some]
        exact hupdated.symm.trans hf

/-- A committed acceptance appended its event, and queued sends where delivery
is on and the hook is linked. -/
theorem acceptEvent_ok {sendIds : Uuid → Uuid}
    (h : codec.acceptEvent deliverySummary command sendId sendIds now db = .ok (event, db')) :
    ∃ mid, Appended deliverySummary command db event mid ∧
      match command.delivery, command.hook.siliconUuid with
      | some appId, some siliconUuid =>
        codec.queueSends appId sendId sendIds event siliconUuid now mid = .ok db'
      | _, _ => db' = mid := by
  unfold DeliveryCodec.acceptEvent at h
  split at h
  · cases h
  · rename_i made mid hmid
    have happended := appendEvent_ok hmid
    have hlinked : made.siliconUuid = command.hook.siliconUuid := by
      rw [happended.record]
      rfl
    rw [hlinked] at h
    split at h
    · rename_i appId siliconUuid hd hs
      split at h
      · cases h
      · rename_i queued hq
        cases h
        exact ⟨mid, happended, by simpa only [hd, hs] using hq⟩
    · cases h
      exact ⟨_, happended, rfl⟩

theorem queueSends_frame {sendIds : Uuid → Uuid}
    (h : codec.queueSends appId sendId sendIds event s now db = .ok db') :
    ∃ outbox, db' = { db with tingOutbox := outbox } := by
  unfold DeliveryCodec.queueSends at h
  simp only at h
  split at h
  · cases h
  · rename_i mid hmid
    obtain ⟨_, rfl⟩ := enqueueSend_frame hmid
    unfold DeliveryCodec.enqueueObservers at h
    simp only at h
    split at h
    · cases h
    · obtain ⟨outbox, rfl⟩ := enqueueCopies_frame h
      exact ⟨outbox, rfl⟩

theorem acceptEvent_hooks {sendIds : Uuid → Uuid}
    (h : codec.acceptEvent deliverySummary command sendId sendIds now db = .ok (event, db')) :
    db'.hooks = db.hooks.update (activeHook command.hook.id)
      (·.received command.request.receivedAt) fun _ => rfl := by
  obtain ⟨mid, happended, hqueued⟩ := acceptEvent_ok h
  obtain ⟨_, _, -, -, -, rfl⟩ := happended.stored
  split at hqueued
  · obtain ⟨_, rfl⟩ := queueSends_frame hqueued
    rfl
  · rw [hqueued]

theorem acceptEvent_ipBlocks {sendIds : Uuid → Uuid}
    (h : codec.acceptEvent deliverySummary command sendId sendIds now db = .ok (event, db')) :
    db'.ipBlocks = db.ipBlocks := by
  obtain ⟨mid, happended, hqueued⟩ := acceptEvent_ok h
  obtain ⟨_, _, -, -, -, rfl⟩ := happended.stored
  split at hqueued
  · obtain ⟨_, rfl⟩ := queueSends_frame hqueued
    rfl
  · rw [hqueued]

end SiliconHook
