import SiliconHook.Infrastructure.Ting
import SiliconHook.Properties.Hydration
import SiliconHook.Properties.Leases

/-!
# Sends at Ting

Publishers claim queued sends, post them, crash, time out and are taken over; posted
requests and answers are lost or come late. Whatever they do, Ting holds each send of an
accepted event at most once and exactly as it was prepared, and a row says accepted only
of the record Ting holds for it.
-/

namespace SiliconHook

-- -----------------------------------------------------------------------------
-- Publishers and Ting
-- -----------------------------------------------------------------------------

inductive PublisherStage
  | idle
  | checks (claim : TingOutboxClaim)
  /-- It gets a proof; `retried` after a refused one. -/
  | proves (claim : TingOutboxClaim) (retried : Bool)
  /-- Its request is on the wire. -/
  | waits (claim : TingOutboxClaim) (retried : Bool)
  | records (claim : TingOutboxClaim) (result : Except DeliveryError TingAcceptance)
  deriving DecidableEq

structure TingRecord where
  id : String
  key : String
  body : List UInt8
  silent : Bool
  deriving DecidableEq

/-- Hook, its publishers and Ting; `queued`, `claims` and `posted` are ledgers of every
send queued, every claim made and every body posted so far. -/
structure SendWorld where
  feed : Feed
  queued : List OutboxRow
  claims : List TingOutboxClaim
  publishers : Nat → PublisherStage
  posted : List (List UInt8)
  ting : List TingRecord

inductive SendLabel
  | server (label : FanOutLabel)
  | claims (publisher : Nat) (leaseIds : Uuid → Uuid) (now : Instant)
  | checks (publisher : Nat) (now : Instant)
  | proves (publisher : Nat) (proof : Except DeliveryError String)
  /-- Ting stores a posted body; it may have been on the wire for long. -/
  | stores (body : List UInt8) (id : String) (silent : Bool)
  | answers (publisher : Nat) (response : TingResponse)
  | timesOut (publisher : Nat)
  | records (publisher : Nat) (observed now : Instant)
  | crashes (publisher : Nat)

def FanOutLabel.queues (codec : DeliveryCodec) (feed : Feed) (label : FanOutLabel) :
    List OutboxRow :=
  match label.accepts codec feed.db with
  | some event => (codec.fanOutStep feed.db label).tingOutbox.select
      fun row => row.eventId = event.id
  | none => []

def FanOutLabel.OfServer : FanOutLabel → Prop
  | .claimed .. | .completed .. | .retried .. => False
  | _ => True

namespace SendWorld

def empty : SendWorld := ⟨.empty, [], [], fun _ => .idle, [], []⟩

abbrev rows (world : SendWorld) : List OutboxRow := world.feed.db.tingOutbox.rows

def turn (world : SendWorld) (publisher : Nat) (stage : PublisherStage) : SendWorld :=
  { world with publishers := Function.update world.publishers publisher stage }

def commit (world : SendWorld) (db : Store) : SendWorld :=
  { world with feed := { world.feed with db } }

def claim (world : SendWorld) (publisher : Nat) (leaseIds : Uuid → Uuid) (now : Instant) :
    SendWorld :=
  match claimTing 1 publisherLease leaseIds now world.feed.db with
  | .error _ => world
  | .ok (made, db) =>
    { world.commit db with claims := world.claims ++ made }.turn publisher
      (made.getLast?.elim .idle .checks)

def check (world : SendWorld) (publisher : Nat) (claim : TingOutboxClaim) (now : Instant) :
    SendWorld :=
  world.turn publisher
    (if tingClaimIsCurrent claim now world.feed.db then .proves claim false else .idle)

/-- With a proof the body is posted, unless it is no request. -/
def prove (ting : TingClient) (world : SendWorld) (publisher : Nat) (claim : TingOutboxClaim)
    (retried : Bool) : Except DeliveryError String → SendWorld
  | .error e => world.turn publisher (.records claim (.error e))
  | .ok _ =>
    match ting.sendRequest claim.requestBody with
    | .error e => world.turn publisher (.records claim (.error (.ting e)))
    | .ok _ => { world with posted := world.posted ++ [claim.requestBody] }.turn publisher
        (.waits claim retried)

def store (ting : TingClient) (world : SendWorld) (body : List UInt8) (id : String)
    (silent : Bool) : SendWorld :=
  match ting.sendRequest body with
  | .error _ => world
  | .ok request => { world with ting := world.ting ++ [⟨id, request.key, body, silent⟩] }

def answer (ting : TingClient) (world : SendWorld) (publisher : Nat) (claim : TingOutboxClaim)
    (retried : Bool) (response : TingResponse) : SendWorld :=
  world.turn publisher <|
    match adapterResult retried (ting.send (fun _ => response) claim.requestBody) with
    | none => .proves claim true
    | some result => .records claim result

def record (world : SendWorld) (publisher : Nat) (claim : TingOutboxClaim)
    (result : Except DeliveryError TingAcceptance) (observed now : Instant) : SendWorld :=
  match recordOutcome claim (result.map fun accepted => ⟨accepted.id, accepted.silent⟩) observed
      now world.feed.db with
  | .ok db => (world.commit db).turn publisher .idle
  | .error _ => world.turn publisher .idle

variable (codec : DeliveryCodec) (ting : TingClient)

def step (world : SendWorld) : SendLabel → SendWorld
  | .server label => { world with
      feed := codec.feedStep world.feed label
      queued := world.queued ++ label.queues codec world.feed }
  | .claims publisher leaseIds now =>
    match world.publishers publisher with
    | .idle => world.claim publisher leaseIds now
    | _ => world
  | .checks publisher now =>
    match world.publishers publisher with
    | .checks claim => world.check publisher claim now
    | _ => world
  | .proves publisher proof =>
    match world.publishers publisher with
    | .proves claim retried => world.prove ting publisher claim retried proof
    | _ => world
  | .stores body id silent => world.store ting body id silent
  | .answers publisher response =>
    match world.publishers publisher with
    | .waits claim retried => world.answer ting publisher claim retried response
    | _ => world
  | .timesOut publisher =>
    match world.publishers publisher with
    | .proves claim _ | .waits claim _ =>
      world.turn publisher (.records claim (.error (.ting .transport)))
    | _ => world
  | .records publisher observed now =>
    match world.publishers publisher with
    | .records claim result => world.record publisher claim result observed now
    | _ => world
  | .crashes publisher => world.turn publisher .idle

def Honest (world : SendWorld) (claim : TingOutboxClaim) (response : TingResponse) : Prop :=
  ∀ accepted, ting.send (fun _ => response) claim.requestBody = .ok accepted →
    ∃ record ∈ world.ting, record.id = accepted.id ∧ record.key = accepted.key ∧
      record.silent = accepted.silent

/-- Event and lease ids are drawn afresh. Ting stores what was posted, a key once and
under an id of its own, and confirms what it holds. -/
def Allowed (world : SendWorld) : SendLabel → Prop
  | .server label => label.Fresh world.feed ∧ label.OfServer
  | .claims _ leaseIds _ =>
    ∀ row ∈ world.rows, leaseIds row.id ∉ world.claims.map TingOutboxClaim.leaseId
  | .stores body id _ => body ∈ world.posted ∧ id ∉ world.ting.map TingRecord.id ∧
      ∀ request, ting.sendRequest body = .ok request →
        request.key ∉ world.ting.map TingRecord.key
  | .answers publisher response => ∀ claim retried,
      world.publishers publisher = .waits claim retried → world.Honest ting claim response
  | _ => True

end SendWorld

section

variable {codec : DeliveryCodec} {ting : TingClient} {db db' : Store} {body : List UInt8}
  {key : String} {event : EventRecord} {recipient : AccountUuid}

-- -----------------------------------------------------------------------------
-- Keys
-- -----------------------------------------------------------------------------

def DeliveryCodec.ReadsSends (codec : DeliveryCodec) : Prop :=
  ∀ appId event silicon recipient delivery receivedAt json,
    codec.fromSlice (codec.sendRequest appId event silicon recipient delivery
      receivedAt).toVec = some json →
      json = codec.sendRequest appId event silicon recipient delivery receivedAt

def DeliveryCodec.Prepares (codec : DeliveryCodec) (event : EventRecord)
    (recipient : AccountUuid) (body : List UInt8) : Prop :=
  ∃ appId silicon publicId delivery,
    codec.prepareEvent appId event silicon ⟨recipient.value, publicId⟩ delivery = .ok body

theorem sendRequest_ofJson (appId : String) (silicon : ReferencedSilicon)
    (addressee : TingRecipient) (delivery : TingDeliveryMode) (receivedAt : String) :
    ∃ request, PreparedTing.ofJson
        (codec.sendRequest appId event silicon addressee delivery receivedAt) = some request ∧
      request.key = codec.producerKey event.id addressee.uuid := by
  have hrecipient := recipient_ofJson addressee
  refine ⟨⟨addressee, appId ++ eventTypeSuffix, codec.producerKey event.id addressee.uuid,
    .object [
      ("data", .object [
        ("metadata", eventReference event silicon receivedAt),
        ("sender", .string event.provider.value)]),
      ("type", .string "new_event")],
    .object [], delivery⟩, ?_, rfl⟩
  cases delivery with
  | ordinary =>
    simp only [DeliveryCodec.sendRequest, reduceCtorEq, if_false]
    show (TingRecipient.ofJson addressee.toJson).bind _ = _
    rw [hrecipient]
    rfl
  | required =>
    simp only [DeliveryCodec.sendRequest, if_true]
    show (TingRecipient.ofJson addressee.toJson).bind _ = _
    rw [hrecipient]
    rfl

theorem preparedKey_request (h : codec.preparedKey body recipient = .ok key) :
    ∃ json request, codec.fromSlice body = some json ∧ PreparedTing.ofJson json = some request ∧
      request.key = key := by
  unfold DeliveryCodec.preparedKey at h
  simp only at h
  split at h
  · cases h
  · split at h
    · cases h
    · rename_i request hrequest
      obtain ⟨json, hjson, hrequest⟩ := Option.bind_eq_some_iff.mp hrequest
      split at h
      · cases h
      · exact ⟨json, request, hjson, hrequest, Except.ok.inj h⟩

theorem DeliveryCodec.Prepares.producer {addressee : AccountUuid} (hreads : codec.ReadsSends)
    (h : codec.Prepares event recipient body) (hkey : codec.preparedKey body addressee = .ok key) :
    key = codec.producerKey event.id recipient.value := by
  obtain ⟨appId, silicon, publicId, delivery, hbody⟩ := h
  unfold DeliveryCodec.prepareEvent at hbody
  cases htime : codec.rfc3339 event.receivedAt with
  | error e =>
    rw [htime] at hbody
    cases hbody
  | ok receivedAt =>
    rw [htime] at hbody
    cases hbody
    obtain ⟨json, request, hjson, hrequest, rfl⟩ := preparedKey_request hkey
    rw [hreads _ _ _ _ _ _ _ hjson] at hrequest
    have hofJson : ∃ request, PreparedTing.ofJson (codec.sendRequest appId event silicon
        ⟨recipient.value, publicId⟩ delivery receivedAt) = some request ∧
        request.key = codec.producerKey event.id recipient.value :=
      sendRequest_ofJson appId silicon ⟨recipient.value, publicId⟩ delivery receivedAt
    obtain ⟨sent, hsent, hsentKey⟩ := hofJson
    rw [hsent] at hrequest
    cases hrequest
    exact hsentKey

theorem knownFields_object {known : List String} {json : Json} {fields : List (String × Json)}
    (h : json.knownFields known = some fields) : json = .object fields := by
  cases json with
  | object given =>
    simp only [Json.knownFields, Option.ite_none_right_eq_some, Option.some.injEq] at h
    rw [h.2]
  | _ => cases h

theorem PreparedTing.ofJson_key {json : Json} {request : PreparedTing}
    (h : PreparedTing.ofJson json = some request) : ∃ fields, json = .object fields ∧
      (fields.lookup "key").bind Json.asString = some request.key := by
  unfold PreparedTing.ofJson at h
  simp only [Option.bind_eq_bind, Option.bind_eq_some_iff, Option.pure_def] at h
  obtain ⟨fields, hfields, _, -, _, -, _, -, _, -, json', hname, key, hvalue, _, -, hrest⟩ := h
  have hkey : request.key = key := by
    split at hrest
    · cases hrest
      rfl
    · obtain ⟨_, -, hrequest⟩ := Option.bind_eq_some_iff.mp hrest
      cases hrequest
      rfl
  refine ⟨fields, knownFields_object hfields, ?_⟩
  rw [hname, hkey]
  exact hvalue

theorem SendRequest.ofJson_key {json : Json} {request : SendRequest}
    (h : SendRequest.ofJson json = some request) : ∃ fields, json = .object fields ∧
      (fields.lookup "key").bind Json.asString = some request.key := by
  unfold SendRequest.ofJson at h
  simp only [Option.bind_eq_bind, Option.bind_eq_some_iff, Option.pure_def,
    Option.some.injEq] at h
  obtain ⟨fields, hfields, _, -, _, -, _, -, _, -, json', hname, key, hvalue, _, -, _, -, _, -, _,
    -, rfl⟩ := h
  refine ⟨fields, knownFields_object hfields, ?_⟩
  rw [hname]
  exact hvalue

theorem sendRequest_key {request : SendRequest} (hparser : ting.fromSlice = codec.fromSlice)
    (hkey : codec.preparedKey body recipient = .ok key)
    (h : ting.sendRequest body = .ok request) : request.key = key := by
  obtain ⟨json, prepared, hjson, hprepared, rfl⟩ := preparedKey_request hkey
  obtain ⟨fields, rfl, hpreparedKey⟩ := PreparedTing.ofJson_key hprepared
  unfold TingClient.sendRequest at h
  rw [hparser, hjson] at h
  split at h
  · cases h
  · split at h
    · cases h
    · rename_i sent hsent
      split at h
      · cases h
      · cases h
        obtain ⟨given, hgiven, hsentKey⟩ := SendRequest.ofJson_key hsent
        cases hgiven
        exact Option.some.inj (hsentKey.symm.trans hpreparedKey)

theorem decodeAcceptance_key {delivery : TingDeliveryMode} {accepted : TingAcceptance}
    (h : ting.decodeAcceptance body key delivery = .ok accepted) : accepted.key = key := by
  unfold TingClient.decodeAcceptance at h
  split at h
  · cases h
  · split at h
    · cases h
    · split at h
      · cases h
      · rename_i hchecked
        cases h
        simp only [not_or, not_not] at hchecked
        exact hchecked.2.1

theorem send_ok {http : List UInt8 → TingResponse} {accepted : TingAcceptance}
    (h : ting.send http body = .ok accepted) :
    ∃ request, ting.sendRequest body = .ok request ∧ accepted.key = request.key := by
  simp only [TingClient.send, TingClient.confirm, Except.bind_ok] at h
  obtain ⟨request, hrequest, answer, -, h⟩ := h
  refine ⟨request, hrequest, ?_⟩
  split at h
  · cases h
  · exact decodeAcceptance_key h

theorem adapterResult_ok {retried : Bool} {result : Except TingError TingAcceptance}
    {accepted : TingAcceptance} (h : adapterResult retried result = some (.ok accepted)) :
    result = .ok accepted := by
  cases result with
  | error e =>
    dsimp only [adapterResult] at h
    split at h <;> cases h
  | ok given =>
    cases h
    rfl

theorem hyphenated_inj {a b : Uuid} (h : a.hyphenated = b.hyphenated) : a = b := by
  have hparsed := PagedHistory.parseUuid_hyphenated b
  rw [← h, PagedHistory.parseUuid_hyphenated] at hparsed
  exact Option.some.inj hparsed

theorem producerKey_event {event event' : EventId} {name name' : String}
    (h : codec.producerKey event name = codec.producerKey event' name') : event = event' := by
  have hchars := congrArg String.toList h
  simp only [DeliveryCodec.producerKey, String.toList_append, List.append_assoc] at hchars
  have hlength := (hyphenated_toList event.uuid).1.trans (hyphenated_toList event'.uuid).1.symm
  have huuid := (List.append_inj (List.append_cancel_left hchars) hlength).1
  cases event
  cases event'
  exact congrArg EventId.mk (hyphenated_inj (String.toList_inj.mp huuid))

-- -----------------------------------------------------------------------------
-- The server's transactions
-- -----------------------------------------------------------------------------

/-- A column the insertion of a row keeps free of repetitions. -/
def OutboxRow.Unique (column : OutboxRow → α) : Prop :=
  ∀ row db, row.check db = .ok () → ∀ other ∈ db.tingOutbox.rows, column other ≠ column row

theorem OutboxRow.unique_id : Unique OutboxRow.id := fun _ _ h => check_id h

theorem OutboxRow.unique_key : Unique OutboxRow.idempotencyKey := by
  intro row db h
  simp only [check, Except.bind_ok, ensure_ok, exists_const] at h
  exact h.2.1

variable {column : OutboxRow → α} {appId : String} {silicon : ReferencedSilicon}
  {now : Instant}

theorem enqueueSend_nodup {id : Uuid} {publicId : Option PublicId} {delivery : TingDeliveryMode}
    {observer : Option Uuid} (hcolumn : OutboxRow.Unique column)
    (h : codec.enqueueSend appId id event silicon recipient publicId delivery observer now db =
      .ok db') (hn : (db.tingOutbox.rows.map column).Nodup) :
    (db'.tingOutbox.rows.map column).Nodup := by
  unfold DeliveryCodec.enqueueSend at h
  split at h
  · cases h
  · split at h
    · cases h
    · rename_i id' queued hq
      cases h
      obtain ⟨key, -, ⟨stored, outbox, -, -, hinsert, hcheck, -, rfl⟩ | hold⟩ := enqueueTing_ok hq
      · rw [Table.insert_rows hinsert, List.map_append, List.nodup_append]
        refine ⟨hn, List.nodup_singleton _, fun value hvalue new hnew => ?_⟩
        obtain ⟨other, hm, rfl⟩ := List.mem_map.mp hvalue
        rw [List.mem_singleton.mp hnew]
        exact hcolumn _ _ hcheck other hm
      · obtain ⟨rfl, -⟩ := existingSend_ok.mp hold
        exact hn

theorem enqueueCopies_nodup {sendIds : Uuid → Uuid} {observers : List ObserverRow}
    (hcolumn : OutboxRow.Unique column)
    (h : codec.enqueueCopies appId sendIds event silicon now observers db = .ok db')
    (hn : (db.tingOutbox.rows.map column).Nodup) : (db'.tingOutbox.rows.map column).Nodup := by
  induction observers generalizing db with
  | nil =>
    cases h
    exact hn
  | cons observer rest ih =>
    unfold DeliveryCodec.enqueueCopies at h
    split at h
    · cases h
    · rename_i mid hmid
      exact ih h (enqueueSend_nodup hcolumn hmid hn)

theorem acceptEvent_nodup {deliverySummary : SummaryRenderer} {command : AcceptEvent}
    {sendId : Uuid} {sendIds : Uuid → Uuid} (hcolumn : OutboxRow.Unique column)
    (h : codec.acceptEvent deliverySummary command sendId sendIds now db = .ok (event, db'))
    (hn : (db.tingOutbox.rows.map column).Nodup) : (db'.tingOutbox.rows.map column).Nodup := by
  obtain ⟨mid, happended, hqueued⟩ := acceptEvent_ok h
  have hmid : mid.tingOutbox = db.tingOutbox := by
    obtain ⟨hook, events, -, -, -, rfl⟩ := happended.stored
    rfl
  rw [← hmid] at hn
  split at hqueued
  · unfold DeliveryCodec.queueSends at hqueued
    dsimp only at hqueued
    split at hqueued
    · cases hqueued
    · rename_i first hfirst
      unfold DeliveryCodec.enqueueObservers at hqueued
      dsimp only at hqueued
      split at hqueued
      · cases hqueued
      · exact enqueueCopies_nodup hcolumn hqueued (enqueueSend_nodup hcolumn hfirst hn)
  · rw [hqueued]
    exact hn

theorem subscribe_outbox {id : Uuid} {silicon recipient : AccountUuid} {row : SubscriptionRow}
    (h : SiliconHook.subscribe id silicon recipient db = .ok (row, db')) :
    db'.tingOutbox = db.tingOutbox := by
  unfold SiliconHook.subscribe at h
  split at h
  · cases h
    rfl
  · split at h
    · cases h
    · split at h
      · cases h
      · split at h
        · cases h
        · split at h <;> cases h
          rfl

theorem fanOutStep_outbox {label : FanOutLabel} (h : label.OfServer) :
    (label.accepts codec db = none ∧
      (codec.fanOutStep db label).tingOutbox.rows.Sublist db.tingOutbox.rows) ∨
    ∃ deliverySummary command sendId sendIds now event, label.accepts codec db = some event ∧
      label = .accepted deliverySummary command sendId sendIds now ∧
      codec.acceptEvent deliverySummary command sendId sendIds now db =
        .ok (event, codec.fanOutStep db label) := by
  cases label with
  | accepted deliverySummary command sendId sendIds now =>
    unfold FanOutLabel.accepts DeliveryCodec.fanOutStep
    dsimp only
    cases ha : codec.acceptEvent deliverySummary command sendId sendIds now db with
    | error e => exact .inl ⟨rfl, List.Sublist.refl _⟩
    | ok answer => exact .inr ⟨_, _, _, _, _, answer.1, rfl, rfl, ha⟩
  | subscribed id silicon recipient =>
    refine .inl ⟨rfl, ?_⟩
    unfold DeliveryCodec.fanOutStep
    dsimp only
    split
    · rename_i hs
      rw [subscribe_outbox hs]
    · exact List.Sublist.refl _
  | unsubscribed silicon recipient => exact .inl ⟨rfl, List.filter_sublist⟩
  | revoked silicon grantee keeps =>
    refine .inl ⟨rfl, ?_⟩
    unfold DeliveryCodec.fanOutStep deleteGrant
    dsimp only
    split
    · exact List.Sublist.refl _
    · split
      · exact List.Sublist.refl _
      · exact List.filter_sublist
  | delivered event clock =>
    obtain ⟨p, hr⟩ := deliver_removes event clock db
    refine .inl ⟨rfl, ?_⟩
    unfold DeliveryCodec.fanOutStep
    rw [hr.outbox]
    exact List.filter_sublist
  | claimed limit leaseDuration leaseIds now => exact h.elim
  | completed claim tingId silent now => exact h.elim
  | retried claim failure retryAt now => exact h.elim
  | purged expired => exact .inl ⟨rfl, List.filter_sublist⟩
  | linked mapping dryRun clock auditLog =>
    refine .inl ⟨rfl, ?_⟩
    unfold DeliveryCodec.fanOutStep
    rw [linkIdentities_outbox]
  | elsewhere other => exact .inl ⟨rfl, List.Sublist.refl _⟩

/-- After an acceptance the outbox holds what it held and the sends of the event. -/
theorem FanOutInv.queues (h : FanOutInv codec db) {deliverySummary : SummaryRenderer}
    {command : AcceptEvent} {sendId : Uuid} {sendIds : Uuid → Uuid} {row : OutboxRow}
    (ha : codec.acceptEvent deliverySummary command sendId sendIds now db = .ok (event, db'))
    (hm : row ∈ db'.tingOutbox.rows) : row ∈ db.tingOutbox.rows ∨
      row.eventId = event.id ∧ codec.Prepares event row.recipientId row.requestBody ∧
        row.leaseId = none ∧ row.acceptedAt = none := by
  obtain ⟨mid, happended, hqueued⟩ := acceptEvent_ok ha
  have hfree := h.unqueued happended
  obtain ⟨hook, events, -, -, -, rfl⟩ := happended.stored
  split at hqueued
  · rename_i appId silicon _ _
    obtain ⟨sends, -, outbox, new, rfl, hrows, hnew, -⟩ := queueSends_ok hqueued (h.limit silicon)
      h.notSelf hfree
    simp only [hrows, List.mem_append] at hm
    refine hm.imp_right fun hm => ?_
    obtain ⟨send, -, id, key, body, expiresAt, rfl, -, hbody⟩ := exists_mem_of_forall₂ hnew hm
    exact ⟨rfl, ⟨appId, _, _, _, hbody⟩, rfl, rfl⟩
  · rw [hqueued] at hm
    exact .inl hm

-- -----------------------------------------------------------------------------
-- The queue
-- -----------------------------------------------------------------------------

def Queued (queued : List OutboxRow) (key : String) (body : List UInt8) : Prop :=
  ∃ send ∈ queued, send.idempotencyKey = key ∧ send.requestBody = body

/-- The outbox against the ledgers: it holds sends that were queued, each prepared for an
accepted event, and a key stands for one body for good. -/
structure QueueInv (codec : DeliveryCodec) (feed : Feed) (queued : List OutboxRow) : Prop where
  log : FeedInv feed
  fanOut : FanOutInv codec feed.db
  ids : (feed.db.tingOutbox.rows.map OutboxRow.id).Nodup
  keys : (feed.db.tingOutbox.rows.map OutboxRow.idempotencyKey).Nodup
  rows : ∀ row ∈ feed.db.tingOutbox.rows, Queued queued row.idempotencyKey row.requestBody
  prepared : ∀ send ∈ queued, ∃ event ∈ feed.accepted, send.eventId = event.id ∧
    codec.Prepares event send.recipientId send.requestBody ∧
      codec.preparedKey send.requestBody send.recipientId = .ok send.idempotencyKey
  bodies : ∀ send ∈ queued, ∀ other ∈ queued, send.idempotencyKey = other.idempotencyKey →
    send.requestBody = other.requestBody

theorem Queued.mono {queued more : List OutboxRow} (h : Queued queued key body) :
    Queued (queued ++ more) key body := by
  obtain ⟨send, hm, hsend⟩ := h
  exact ⟨send, List.mem_append_left _ hm, hsend⟩

namespace QueueInv

variable {feed : Feed} {queued : List OutboxRow}

theorem empty : QueueInv codec .empty [] where
  log := .empty
  fanOut := .empty
  ids := List.nodup_nil
  keys := List.nodup_nil
  rows row hm := by cases hm
  prepared row hm := by cases hm
  bodies row hm := by cases hm

theorem update (h : QueueInv codec feed queued) {p : OutboxRow → Bool}
    {f : OutboxRow → OutboxRow} (hf : ∀ row, Keyed.key (f row) = Keyed.key row)
    (hsame : ∀ row, (f row).id = row.id ∧ (f row).idempotencyKey = row.idempotencyKey ∧
      (f row).requestBody = row.requestBody) :
    QueueInv codec { feed with db := { feed.db with
      tingOutbox := feed.db.tingOutbox.update p f hf } } queued := by
  have hcolumn : ∀ {β : Type} (column : OutboxRow → β), (∀ row, column (f row) = column row) →
      (feed.db.tingOutbox.update p f hf).rows.map column =
        feed.db.tingOutbox.rows.map column := by
    intro β column hcolumn
    rw [Table.update, List.map_map]
    refine List.map_congr_left fun row _ => ?_
    simp only [Function.comp_apply]
    split
    · exact hcolumn row
    · rfl
  refine ⟨⟨h.log.ids, h.log.recorded⟩, h.fanOut.updated hf fun row => ⟨(hsame row).2.2,
    (hsame row).2.1⟩, ?_, ?_, fun row hm => ?_, h.prepared, h.bodies⟩
  · exact (hcolumn _ fun row => (hsame row).1) ▸ h.ids
  · exact (hcolumn _ fun row => (hsame row).2.1) ▸ h.keys
  · obtain ⟨old, hold, rfl⟩ := (Table.mem_update hf).mp hm
    have hqueued := h.rows old hold
    split
    · rw [(hsame old).2.1, (hsame old).2.2]
      exact hqueued
    · exact hqueued

/-- The sends an acceptance adds are queued under keys no other event has had. -/
theorem accepted (h : QueueInv codec feed queued) {label : FanOutLabel}
    {deliverySummary : SummaryRenderer} {command : AcceptEvent} {sendId : Uuid}
    {sendIds : Uuid → Uuid} (hreads : codec.ReadsSends)
    (hlabel : label = .accepted deliverySummary command sendId sendIds now)
    (haccepts : label.accepts codec feed.db = some event)
    (ha : codec.acceptEvent deliverySummary command sendId sendIds now feed.db =
      .ok (event, codec.fanOutStep feed.db label))
    (hfresh : label.Fresh feed) :
    QueueInv codec (codec.feedStep feed label)
      (queued ++ (codec.fanOutStep feed.db label).tingOutbox.select fun row =>
        row.eventId = event.id) := by
  have hlog : FeedInv (codec.feedStep feed label) := h.log.step hfresh
  have hfanOut := h.fanOut.step label
  have haccepted : (codec.feedStep feed label).accepted =
      feed.accepted ++ [event] := by
    show feed.accepted ++ (label.accepts codec feed.db).toList = _
    rw [haccepts, Option.toList_some]
  have hkeys := acceptEvent_nodup OutboxRow.unique_key ha h.keys
  -- a row of the event is one the acceptance adds
  have hnew : ∀ row ∈ (codec.fanOutStep feed.db label).tingOutbox.select fun row =>
      row.eventId = event.id, row ∈ (codec.fanOutStep feed.db label).tingOutbox.rows ∧
        row.eventId = event.id ∧ codec.Prepares event row.recipientId row.requestBody ∧
        codec.preparedKey row.requestBody row.recipientId = .ok row.idempotencyKey := by
    intro row hm
    obtain ⟨hm, hevent⟩ := List.mem_filter.mp hm
    have hevent : row.eventId = event.id := of_decide_eq_true hevent
    refine ⟨hm, hevent, ?_, hfanOut.prepared row hm⟩
    obtain ⟨mid, happended, -⟩ := acceptEvent_ok ha
    rcases h.fanOut.queues ha hm with hold | ⟨-, hprepares, -⟩
    · exact absurd hevent (h.fanOut.unqueued happended row hold)
    · exact hprepares
  refine ⟨hlog, hfanOut, acceptEvent_nodup OutboxRow.unique_id ha h.ids, hkeys, ?_, ?_, ?_⟩
  · intro row hm
    rcases h.fanOut.queues ha hm with hold | ⟨hevent, -⟩
    · exact (h.rows row hold).mono
    · exact ⟨row, List.mem_append_right _ (List.mem_filter.mpr ⟨hm, decide_eq_true hevent⟩),
        rfl, rfl⟩
  · intro send hm
    rw [haccepted]
    rcases List.mem_append.mp hm with hold | hm
    · obtain ⟨other, hother, hprepared⟩ := h.prepared send hold
      exact ⟨other, List.mem_append_left _ hother, hprepared⟩
    · obtain ⟨-, hevent, hprepared⟩ := hnew send hm
      exact ⟨event, List.mem_append_right _ (List.mem_singleton_self _), hevent, hprepared⟩
  · -- a queued send's event was accepted before, so its key names another event
    have hapart : ∀ send ∈ queued, ∀ row ∈ (codec.fanOutStep feed.db label).tingOutbox.select
        fun row => row.eventId = event.id, send.idempotencyKey ≠ row.idempotencyKey := by
      intro send hsend row hm hkey
      obtain ⟨other, hother, -, hprepares, hprepared⟩ := h.prepared send hsend
      obtain ⟨-, -, hrow, hrowKey⟩ := hnew row hm
      have hsame := (hprepares.producer hreads hprepared).symm.trans
        (hkey.trans (hrow.producer hreads hrowKey))
      have hid : event.id = command.eventId := by
        obtain ⟨mid, happended, -⟩ := acceptEvent_ok ha
        exact happended.records.choose_spec.2.1
      subst hlabel
      exact hfresh other hother ((producerKey_event hsame).trans hid)
    intro send hm other hm' hkey
    rcases List.mem_append.mp hm with hold | hm
    · rcases List.mem_append.mp hm' with hold' | hm'
      · exact h.bodies send hold other hold' hkey
      · exact absurd hkey (hapart send hold other hm')
    · rcases List.mem_append.mp hm' with hold' | hm'
      · exact absurd hkey.symm (hapart other hold' send hm)
      · rw [List.inj_on_of_nodup_map hkeys (hnew send hm).1 (hnew other hm').1 hkey]

theorem server (h : QueueInv codec feed queued) {label : FanOutLabel} (hreads : codec.ReadsSends)
    (hfresh : label.Fresh feed) (hserver : label.OfServer) :
    QueueInv codec (codec.feedStep feed label) (queued ++ label.queues codec feed) ∧
      ∀ row ∈ (codec.feedStep feed label).db.tingOutbox.rows,
        row ∈ feed.db.tingOutbox.rows ∨ row.leaseId = none ∧ row.acceptedAt = none := by
  rcases @fanOutStep_outbox codec feed.db label hserver with ⟨hnone, hrows⟩ |
    ⟨deliverySummary, command, sendId, sendIds, now, event, haccepts, hlabel, ha⟩
  · have haccepted : (codec.feedStep feed label).accepted = feed.accepted := by
      show feed.accepted ++ (label.accepts codec feed.db).toList = _
      rw [hnone, Option.toList_none, List.append_nil]
    have hqueues : label.queues codec feed = [] := by
      unfold FanOutLabel.queues
      rw [hnone]
    rw [hqueues, List.append_nil]
    refine ⟨⟨h.log.step hfresh, h.fanOut.step label, (hrows.map _).nodup h.ids,
      (hrows.map _).nodup h.keys, fun row hm => h.rows row (hrows.subset hm), ?_, h.bodies⟩,
      fun row hm => .inl (hrows.subset hm)⟩
    rw [haccepted]
    exact h.prepared
  · have hqueues : label.queues codec feed =
        (codec.fanOutStep feed.db label).tingOutbox.select fun row => row.eventId = event.id := by
      unfold FanOutLabel.queues
      rw [haccepts]
    rw [hqueues]
    refine ⟨h.accepted hreads hlabel haccepts ha hfresh, fun row hm => ?_⟩
    exact (h.fanOut.queues ha hm).imp_right fun hnew => hnew.2.2

end QueueInv

-- -----------------------------------------------------------------------------
-- Publishers
-- -----------------------------------------------------------------------------

namespace SendWorld

variable {world : SendWorld} {publisher : Nat} {claim : TingOutboxClaim}

def Stored (world : SendWorld) (key id : String) (silent : Bool) : Prop :=
  ∃ record ∈ world.ting, record.key = key ∧ record.id = id ∧ record.silent = silent

/-- A publisher works on a claim that was made, and an acceptance it is about to record
is of the claim's key. -/
def StageOk (world : SendWorld) : PublisherStage → Prop
  | .idle => True
  | .checks claim | .proves claim _ | .waits claim _ => claim ∈ world.claims
  | .records claim result => claim ∈ world.claims ∧ ∀ accepted, result = .ok accepted →
      world.Stored claim.idempotencyKey accepted.id accepted.silent

structure Inv (codec : DeliveryCodec) (ting : TingClient) (world : SendWorld) : Prop where
  queue : QueueInv codec world.feed world.queued
  claims : ∀ claim ∈ world.claims, Queued world.queued claim.idempotencyKey claim.requestBody
  leases : (world.claims.map TingOutboxClaim.leaseId).Nodup
  leased : ∀ row ∈ world.rows, ∀ lease, row.leaseId = some lease →
    ∃ claim ∈ world.claims, claim.leaseId = lease ∧ claim.idempotencyKey = row.idempotencyKey
  accepted : ∀ row ∈ world.rows, row.acceptedAt.isSome → ∃ id silent, row.tingId = some id ∧
    row.silent = some silent ∧ world.Stored row.idempotencyKey id silent
  stages : ∀ publisher, world.StageOk (world.publishers publisher)
  posted : ∀ body ∈ world.posted, ∃ claim ∈ world.claims, claim.requestBody = body
  held : ∀ record ∈ world.ting, record.body ∈ world.posted ∧
    ∃ request, ting.sendRequest record.body = .ok request ∧ request.key = record.key
  tingKeys : (world.ting.map TingRecord.key).Nodup
  tingIds : (world.ting.map TingRecord.id).Nodup

theorem StageOk.mono {world' : SendWorld} {stage : PublisherStage} (h : world.StageOk stage)
    (hclaims : ∀ claim ∈ world.claims, claim ∈ world'.claims)
    (hting : ∀ record ∈ world.ting, record ∈ world'.ting) : world'.StageOk stage := by
  cases stage with
  | idle => trivial
  | checks claim => exact hclaims claim h
  | proves claim retried => exact hclaims claim h
  | waits claim retried => exact hclaims claim h
  | records claim result =>
    refine ⟨hclaims claim h.1, fun accepted hok => ?_⟩
    obtain ⟨record, hm, hrecord⟩ := h.2 accepted hok
    exact ⟨record, hting record hm, hrecord⟩

namespace Inv

theorem empty : Inv codec ting .empty where
  queue := .empty
  claims claim hm := by cases hm
  leases := List.nodup_nil
  leased row hm := by cases hm
  accepted row hm := by cases hm
  stages _ := trivial
  posted body hm := by cases hm
  held record hm := by cases hm
  tingKeys := List.nodup_nil
  tingIds := List.nodup_nil

theorem turn (h : world.Inv codec ting) {stage : PublisherStage} (hstage : world.StageOk stage) :
    (world.turn publisher stage).Inv codec ting := by
  refine ⟨h.queue, h.claims, h.leases, h.leased, h.accepted, fun other => ?_, h.posted, h.held,
    h.tingKeys, h.tingIds⟩
  show world.StageOk (Function.update world.publishers publisher stage other)
  by_cases ho : other = publisher
  · rw [ho, Function.update_self]
    exact hstage
  · rw [Function.update_of_ne ho]
    exact h.stages other

theorem working (h : world.Inv codec ting) {stage : PublisherStage}
    (hstage : world.publishers publisher = stage) : world.StageOk stage :=
  hstage ▸ h.stages publisher

theorem server (h : world.Inv codec ting) {label : FanOutLabel} (hreads : codec.ReadsSends)
    (hfresh : label.Fresh world.feed) (hserver : label.OfServer) :
    (world.step codec ting (.server label)).Inv codec ting := by
  obtain ⟨hqueue, hrows⟩ := h.queue.server hreads hfresh hserver
  refine ⟨hqueue, fun claim hm => (h.claims claim hm).mono, h.leases, fun row hm lease hl => ?_,
    fun row hm ha => ?_, h.stages, h.posted, h.held, h.tingKeys, h.tingIds⟩
  · rcases hrows row hm with hold | ⟨hnone, -⟩
    · exact h.leased row hold lease hl
    · rw [hnone] at hl
      cases hl
  · rcases hrows row hm with hold | ⟨-, hnone⟩
    · exact h.accepted row hold ha
    · rw [hnone] at ha
      cases ha

theorem claimed (h : world.Inv codec ting) {leaseIds : Uuid → Uuid}
    (hfresh : ∀ row ∈ world.rows, leaseIds row.id ∉ world.claims.map TingOutboxClaim.leaseId) :
    (world.claim publisher leaseIds now).Inv codec ting := by
  unfold SendWorld.claim
  split
  · exact h
  · rename_i made db hok
    obtain ⟨-, -, rfl, rfl⟩ := claimTing_ok.mp hok
    generalize hdue : dueSends 1 now world.feed.db = due
    have hmem : ∀ row ∈ due, row ∈ world.rows ∧ row.due now = true := by
      subst hdue
      exact fun row hm => mem_dueSends hm
    have hlength : due.length ≤ 1 := by
      rw [← hdue]
      exact List.length_take_le ..
    have hmade : ∀ claim ∈ due.map fun row =>
        row.claim (leaseIds row.id) (publisherLease / Instant.second) now, ∃ row ∈ due,
          claim = row.claim (leaseIds row.id) (publisherLease / Instant.second) now := by
      intro claim hm
      obtain ⟨row, hrow, rfl⟩ := List.mem_map.mp hm
      exact ⟨row, hrow, rfl⟩
    refine @turn codec ting { world.commit { world.feed.db with
      tingOutbox := world.feed.db.tingOutbox.update
        (fun row => (due.map OutboxRow.id).contains row.id)
        (fun row => row.lease (leaseIds row.id) (publisherLease / Instant.second) now)
        fun _ => rfl } with
      claims := world.claims ++ due.map fun row =>
        row.claim (leaseIds row.id) (publisherLease / Instant.second) now } publisher ?_ _ ?_
    · refine ⟨h.queue.update _ fun _ => ⟨rfl, rfl, rfl⟩, ?_, ?_, ?_, ?_, ?_, ?_, h.held,
        h.tingKeys, h.tingIds⟩
      · intro claim hm
        rcases List.mem_append.mp hm with hold | hm
        · exact h.claims claim hold
        · obtain ⟨row, hrow, rfl⟩ := hmade claim hm
          exact h.queue.rows row (hmem row hrow).1
      · rw [List.map_append, List.nodup_append]
        refine ⟨h.leases, ?_, fun lease hold other hnew => ?_⟩
        · rcases due with _ | ⟨row, _ | ⟨other, rest⟩⟩
          · exact List.nodup_nil
          · exact List.nodup_singleton _
          · simp at hlength
        · obtain ⟨claim, hm, rfl⟩ := List.mem_map.mp hnew
          obtain ⟨row, hrow, rfl⟩ := hmade claim hm
          rintro rfl
          exact hfresh row (hmem row hrow).1 hold
      · intro row hm lease hl
        obtain ⟨old, hold, rfl⟩ := (Table.mem_update (by exact fun _ => rfl)).mp hm
        by_cases hleased : (due.map OutboxRow.id).contains old.id = true
        · rw [if_pos hleased] at hl ⊢
          obtain ⟨row, hrow, hid⟩ := List.mem_map.mp (List.contains_iff_mem.mp hleased)
          obtain rfl := List.inj_on_of_nodup_map h.queue.ids (hmem row hrow).1 hold hid
          exact ⟨_, List.mem_append_right _ (List.mem_map_of_mem hrow), Option.some.inj hl, rfl⟩
        · rw [if_neg hleased] at hl ⊢
          obtain ⟨claim, hclaim, hsame⟩ := h.leased old hold lease hl
          exact ⟨claim, List.mem_append_left _ hclaim, hsame⟩
      · intro row hm ha
        obtain ⟨old, hold, rfl⟩ := (Table.mem_update (by exact fun _ => rfl)).mp hm
        by_cases hleased : (due.map OutboxRow.id).contains old.id = true
        · rw [if_pos hleased] at ha ⊢
          exact h.accepted old hold ha
        · rw [if_neg hleased] at ha ⊢
          exact h.accepted old hold ha
      · exact fun other => (h.stages other).mono (fun _ => List.mem_append_left _) fun _ => id
      · intro body hm
        obtain ⟨claim, hclaim, hbody⟩ := h.posted body hm
        exact ⟨claim, List.mem_append_left _ hclaim, hbody⟩
    · cases hlast : (due.map fun row =>
          row.claim (leaseIds row.id) (publisherLease / Instant.second) now).getLast? with
      | none => trivial
      | some claim => exact List.mem_append_right _ (List.mem_of_getLast? hlast)

theorem check (h : world.Inv codec ting) (hclaim : claim ∈ world.claims) :
    (world.check publisher claim now).Inv codec ting := by
  refine h.turn ?_
  split
  · exact hclaim
  · trivial

theorem prove (h : world.Inv codec ting) {retried : Bool} {proof : Except DeliveryError String}
    (hclaim : claim ∈ world.claims) :
    (world.prove ting publisher claim retried proof).Inv codec ting := by
  unfold SendWorld.prove
  split
  · exact h.turn ⟨hclaim, fun _ hok => by cases hok⟩
  · split
    · exact h.turn ⟨hclaim, fun _ hok => by cases hok⟩
    · refine @turn codec ting { world with posted := world.posted ++ [claim.requestBody] }
        publisher ?_ _ hclaim
      refine ⟨h.queue, h.claims, h.leases, h.leased, h.accepted, h.stages, fun body hm => ?_,
        fun record hm => ?_, h.tingKeys, h.tingIds⟩
      · rcases List.mem_append.mp hm with hold | hnew
        · exact h.posted body hold
        · exact ⟨claim, hclaim, (List.mem_singleton.mp hnew).symm⟩
      · exact (h.held record hm).imp_left (List.mem_append_left _)

theorem store (h : world.Inv codec ting) {id : String} {silent : Bool}
    (hbody : body ∈ world.posted) (hid : id ∉ world.ting.map TingRecord.id)
    (hkey : ∀ request, ting.sendRequest body = .ok request →
      request.key ∉ world.ting.map TingRecord.key) :
    (world.store ting body id silent).Inv codec ting := by
  unfold SendWorld.store
  split
  · exact h
  · rename_i request hrequest
    refine ⟨h.queue, h.claims, h.leases, h.leased, fun row hm ha => ?_, fun other => ?_, h.posted,
      fun record hm => ?_, ?_, ?_⟩
    · obtain ⟨id, silent, htingId, hsilent, record, hrecord, hsame⟩ := h.accepted row hm ha
      exact ⟨id, silent, htingId, hsilent, record, List.mem_append_left _ hrecord, hsame⟩
    · exact (h.stages other).mono (fun _ hm => hm) fun _ => List.mem_append_left _
    · rcases List.mem_append.mp hm with hold | hnew
      · exact h.held record hold
      · rw [List.mem_singleton.mp hnew]
        exact ⟨hbody, request, hrequest, rfl⟩
    · rw [List.map_append, List.nodup_append]
      refine ⟨h.tingKeys, List.nodup_singleton _, fun key hold other hnew => ?_⟩
      rw [List.mem_singleton.mp hnew]
      rintro rfl
      exact hkey request hrequest hold
    · rw [List.map_append, List.nodup_append]
      refine ⟨h.tingIds, List.nodup_singleton _, fun key hold other hnew => ?_⟩
      rw [List.mem_singleton.mp hnew]
      rintro rfl
      exact hid hold

theorem confirmed (h : world.Inv codec ting) (hparser : ting.fromSlice = codec.fromSlice)
    (hclaim : claim ∈ world.claims) {response : TingResponse} {accepted : TingAcceptance}
    (hsend : ting.send (fun _ => response) claim.requestBody = .ok accepted) :
    accepted.key = claim.idempotencyKey := by
  obtain ⟨send, hm, hkey, hbody⟩ := h.claims claim hclaim
  obtain ⟨event, -, -, -, hprepared⟩ := h.queue.prepared send hm
  rw [hkey, hbody] at hprepared
  obtain ⟨request, hrequest, haccepted⟩ := send_ok hsend
  exact haccepted.trans (sendRequest_key hparser hprepared hrequest)

theorem answer (h : world.Inv codec ting) (hparser : ting.fromSlice = codec.fromSlice)
    {retried : Bool} {response : TingResponse} (hclaim : claim ∈ world.claims)
    (hhonest : world.Honest ting claim response) :
    (world.answer ting publisher claim retried response).Inv codec ting := by
  refine h.turn ?_
  split
  · exact hclaim
  · rename_i result hresult
    refine ⟨hclaim, fun accepted hok => ?_⟩
    subst hok
    have hsend := adapterResult_ok hresult
    obtain ⟨record, hm, hid, hkey, hsilent⟩ := hhonest accepted hsend
    exact ⟨record, hm, hkey.trans (h.confirmed hparser hclaim hsend), hid, hsilent⟩

theorem record (h : world.Inv codec ting) {result : Except DeliveryError TingAcceptance}
    {observed : Instant} (hstage : world.StageOk (.records claim result)) :
    (world.record publisher claim result observed now).Inv codec ting := by
  obtain ⟨hclaim, haccepted⟩ := hstage
  unfold SendWorld.record
  split
  · rename_i db hok
    refine @turn codec ting (world.commit db) publisher ?_ _ trivial
    cases result with
    | error e =>
      cases hok
      refine ⟨h.queue.update _ fun _ => ⟨rfl, rfl, rfl⟩, h.claims, h.leases,
        fun row hm lease hl => ?_, fun row hm ha => ?_, h.stages, h.posted, h.held, h.tingKeys,
        h.tingIds⟩
      · obtain ⟨old, hold, rfl | ⟨-, rfl⟩⟩ := OutboxWorld.mem_updateHeld hm
        · exact h.leased row hold lease hl
        · cases hl
      · obtain ⟨old, hold, rfl | ⟨-, rfl⟩⟩ := OutboxWorld.mem_updateHeld hm
        · exact h.accepted row hold ha
        · exact h.accepted old hold ha
    | ok accepted =>
      obtain ⟨⟨found, db⟩, hcomplete, rfl⟩ := Except.map_ok.mp hok
      unfold completeTing at hcomplete
      split at hcomplete
      · cases hcomplete
      · cases hcomplete
        refine ⟨h.queue.update _ fun _ => ⟨rfl, rfl, rfl⟩, h.claims, h.leases,
          fun row hm lease hl => ?_, fun row hm ha => ?_, h.stages, h.posted, h.held, h.tingKeys,
          h.tingIds⟩
        · obtain ⟨old, hold, rfl | ⟨-, rfl⟩⟩ := OutboxWorld.mem_updateHeld hm
          · exact h.leased row hold lease hl
          · cases hl
        · obtain ⟨old, hold, rfl | ⟨hheld, rfl⟩⟩ := OutboxWorld.mem_updateHeld hm
          · exact h.accepted row hold ha
          · -- the lease on the row is the claim's, and so is the row's key
            obtain ⟨-, hlease, -⟩ := OutboxRow.heldBy_spec hheld
            obtain ⟨holder, hholder, hsame, hkey⟩ := h.leased old hold _ hlease
            obtain rfl := List.inj_on_of_nodup_map h.leases hholder hclaim hsame
            refine ⟨accepted.id, accepted.silent, rfl, rfl, ?_⟩
            show world.Stored old.idempotencyKey accepted.id accepted.silent
            rw [← hkey]
            exact haccepted accepted rfl
  · exact h.turn trivial

theorem step (h : world.Inv codec ting) {label : SendLabel} (hreads : codec.ReadsSends)
    (hparser : ting.fromSlice = codec.fromSlice) (hallowed : world.Allowed ting label) :
    (world.step codec ting label).Inv codec ting := by
  cases label with
  | server label => exact h.server hreads hallowed.1 hallowed.2
  | claims publisher leaseIds now =>
    dsimp only [SendWorld.step]
    split
    · exact h.claimed hallowed
    · exact h
  | checks publisher now =>
    dsimp only [SendWorld.step]
    split
    · rename_i hstage
      exact h.check (h.working hstage)
    · exact h
  | proves publisher proof =>
    dsimp only [SendWorld.step]
    split
    · rename_i hstage
      exact h.prove (h.working hstage)
    · exact h
  | stores body id silent => exact h.store hallowed.1 hallowed.2.1 hallowed.2.2
  | answers publisher response =>
    dsimp only [SendWorld.step]
    split
    · rename_i claim retried hstage
      exact h.answer hparser (h.working hstage) (hallowed claim retried hstage)
    · exact h
  | timesOut publisher =>
    dsimp only [SendWorld.step]
    split
    · rename_i hstage
      exact h.turn ⟨h.working hstage, fun _ hok => by cases hok⟩
    · rename_i hstage
      exact h.turn ⟨h.working hstage, fun _ hok => by cases hok⟩
    · exact h
  | records publisher observed now =>
    dsimp only [SendWorld.step]
    split
    · rename_i hstage
      exact h.record (h.working hstage)
    · exact h
  | crashes publisher => exact h.turn trivial

end Inv

structure Exact (codec : DeliveryCodec) (ting : TingClient) (world : SendWorld) : Prop where
  /-- Ting holds sends of accepted events only, as they were prepared. -/
  genuine : ∀ record ∈ world.ting, ∃ event ∈ world.feed.accepted, ∃ recipient,
    codec.Prepares event recipient record.body ∧
      record.key = codec.producerKey event.id recipient.value
  /-- An event is held for a recipient at most once. -/
  once : ∀ record ∈ world.ting, ∀ other ∈ world.ting, ∀ event event' recipient,
    codec.Prepares event recipient record.body → codec.Prepares event' recipient other.body →
      event.id = event'.id → record = other
  /-- No request Hook has posted conflicts with what Ting holds under its key. -/
  consistent : ∀ body ∈ world.posted, ∀ request, ting.sendRequest body = .ok request →
    ∀ record ∈ world.ting, record.key = request.key → record.body = body
  /-- A row says accepted only of the record Ting holds for its send. -/
  confirmed : ∀ row ∈ world.rows, row.acceptedAt.isSome → ∃ record ∈ world.ting,
    row.tingId = some record.id ∧ row.silent = some record.silent ∧
      record.key = row.idempotencyKey ∧ record.body = row.requestBody
  /-- No two sends are accepted under one record. -/
  unshared : ∀ row ∈ world.rows, ∀ other ∈ world.rows, row.acceptedAt.isSome →
    other.acceptedAt.isSome → row.tingId = other.tingId → row = other

/-- A body Hook has posted is a queued send, and the transport reads the key it was
queued under. -/
theorem Inv.queued (h : world.Inv codec ting) (hparser : ting.fromSlice = codec.fromSlice)
    (hbody : body ∈ world.posted) : ∃ send ∈ world.queued, send.requestBody = body ∧
      codec.preparedKey body send.recipientId = .ok send.idempotencyKey ∧
      ∀ request, ting.sendRequest body = .ok request → request.key = send.idempotencyKey := by
  obtain ⟨claim, hclaim, rfl⟩ := h.posted body hbody
  obtain ⟨send, hm, hkey, hsame⟩ := h.claims claim hclaim
  obtain ⟨event, -, -, -, hprepared⟩ := h.queue.prepared send hm
  rw [hsame] at hprepared
  exact ⟨send, hm, hsame, hprepared, fun request hrequest =>
    sendRequest_key hparser hprepared hrequest⟩

theorem Inv.recorded (h : world.Inv codec ting) (hparser : ting.fromSlice = codec.fromSlice)
    {record : TingRecord} (hm : record ∈ world.ting) : ∃ send ∈ world.queued,
      send.requestBody = record.body ∧ send.idempotencyKey = record.key ∧
        codec.preparedKey record.body send.recipientId = .ok record.key := by
  obtain ⟨hbody, request, hrequest, hkey⟩ := h.held record hm
  obtain ⟨send, hsend, hsame, hprepared, hread⟩ := h.queued hparser hbody
  have hsendKey := (hread request hrequest).symm.trans hkey
  exact ⟨send, hsend, hsame, hsendKey, hsendKey ▸ hprepared⟩

theorem Inv.exact (h : world.Inv codec ting) (hreads : codec.ReadsSends)
    (hparser : ting.fromSlice = codec.fromSlice) : world.Exact codec ting where
  genuine record hm := by
    obtain ⟨send, hsend, hbody, -, hprepared⟩ := h.recorded hparser hm
    obtain ⟨event, hevent, -, hprepares, -⟩ := h.queue.prepared send hsend
    rw [hbody] at hprepares
    exact ⟨event, hevent, send.recipientId, hprepares, hprepares.producer hreads hprepared⟩
  once record hm other ho event event' recipient hprepares hprepares' hevent := by
    obtain ⟨send, -, -, -, hprepared⟩ := h.recorded hparser hm
    obtain ⟨send', -, -, -, hprepared'⟩ := h.recorded hparser ho
    refine List.inj_on_of_nodup_map h.tingKeys hm ho ?_
    rw [hprepares.producer hreads hprepared, hprepares'.producer hreads hprepared', hevent]
  consistent body hbody request hrequest record hm hkey := by
    obtain ⟨send, hsend, rfl, -, hread⟩ := h.queued hparser hbody
    obtain ⟨send', hsend', hbody', hkey', -⟩ := h.recorded hparser hm
    rw [← hbody']
    exact h.queue.bodies send' hsend' send hsend
      (hkey'.trans (hkey.trans (hread request hrequest)))
  confirmed row hm ha := by
    obtain ⟨id, silent, htingId, hsilent, record, hrecord, hkey, hid, hsame⟩ :=
      h.accepted row hm ha
    refine ⟨record, hrecord, by rw [htingId, hid], by rw [hsilent, hsame], hkey, ?_⟩
    obtain ⟨send, hsend, hbody, hsendKey, -⟩ := h.recorded hparser hrecord
    obtain ⟨send', hsend', hkey', hbody'⟩ := h.queue.rows row hm
    rw [← hbody, ← hbody']
    exact h.queue.bodies send hsend send' hsend' (hsendKey.trans (hkey.trans hkey'.symm))
  unshared row hm other ho ha ha' hsame := by
    obtain ⟨id, _, htingId, -, record, hrecord, hkey, hid, -⟩ := h.accepted row hm ha
    obtain ⟨id', _, htingId', -, record', hrecord', hkey', hid', -⟩ := h.accepted other ho ha'
    refine List.inj_on_of_nodup_map h.queue.keys hm ho ?_
    have hids : record.id = record'.id := by
      rw [htingId, htingId'] at hsame
      rw [hid, hid', Option.some.inj hsame]
    rw [← hkey, ← hkey', List.inj_on_of_nodup_map h.tingIds hrecord hrecord' hids]

end SendWorld

/-- However Hook's transactions, its publishers and Ting interleave, Ting holds every
send of an accepted event at most once, as it was prepared, and the outbox records
exactly what Ting holds. -/
theorem sends_stored_once (hreads : codec.ReadsSends)
    (hparser : ting.fromSlice = codec.fromSlice) {labels : List SendLabel}
    (hallowed : Along (SendWorld.step codec ting) (SendWorld.Allowed ting) .empty labels) :
    (run (SendWorld.step codec ting) .empty labels).Exact codec ting := by
  have hinv := run_invariant (I := SendWorld.Inv codec ting)
    (fun _ _ h hlabel => h.step hreads hparser hlabel) SendWorld.Inv.empty hallowed
  exact hinv.exact hreads hparser

end

-- -----------------------------------------------------------------------------
-- Documents and their bytes
-- -----------------------------------------------------------------------------

namespace Json

theorem toString_inj {a b : Int} (h : toString a = toString b) : a = b := by
  have hchars : ∀ m : Nat, (toString m).toList = Nat.toDigits 10 m := by simp
  have hdigits : ∀ {m n : Nat}, Nat.toDigits 10 m = Nat.toDigits 10 n → m = n := by
    intro m n h
    have hvalue := congrArg (Nat.ofDigitChars 10 · 0) h
    simpa using hvalue
  have hnegative : ∀ m : Nat, (toString (Int.negSucc m)).toList =
      '-' :: Nat.toDigits 10 (m + 1) := by
    intro m
    show ("-" ++ toString (m + 1)).toList = _
    simp
  have hsign : ∀ m n : Nat, Nat.toDigits 10 m ≠ '-' :: Nat.toDigits 10 (n + 1) := by
    intro m n h
    have hdigit := Nat.isDigit_of_mem_toDigits (b := 10) (n := m) (c := '-') (by decide) (by decide)
      (h ▸ List.mem_cons_self)
    exact absurd hdigit (by decide)
  have hlist := congrArg String.toList h
  cases a with
  | ofNat m =>
    cases b with
    | ofNat n => exact congrArg Int.ofNat (hdigits ((hchars m).symm.trans (hlist.trans (hchars n))))
    | negSucc n => exact absurd ((hchars m).symm.trans (hlist.trans (hnegative n))) (hsign m n)
  | negSucc m =>
    cases b with
    | ofNat n => exact absurd ((hchars n).symm.trans (hlist.symm.trans (hnegative m))) (hsign n m)
    | negSucc n =>
      have htail := (List.cons.inj ((hnegative m).symm.trans (hlist.trans (hnegative n)))).2
      exact congrArg Int.negSucc (Nat.succ.inj (hdigits htail))

mutual

def written : Json → JsonValue
  | .null => .null
  | .bool value => .bool value
  | .number value => .number (toString value)
  | .string value => .string value
  | .array values => .array (writtenAll values)
  | .object fields => .object (writtenFields fields)

def writtenAll : List Json → List JsonValue
  | [] => []
  | value :: rest => value.written :: writtenAll rest

def writtenFields : List (String × Json) → List (String × JsonValue)
  | [] => []
  | (name, value) :: rest => (name, value.written) :: writtenFields rest

end

mutual

theorem written_render : ∀ json : Json, json.written.render = json.render
  | .null => rfl
  | .bool _ => rfl
  | .number _ => rfl
  | .string _ => rfl
  | .array values => by
    rw [written, JsonValue.render, Json.render, writtenAll_render]
  | .object fields => by
    rw [written, JsonValue.render, Json.render, writtenFields_render]

theorem writtenAll_render : ∀ values : List Json,
    JsonValue.renderAll (writtenAll values) = renderAll values
  | [] => rfl
  | value :: rest => by
    rw [writtenAll, JsonValue.renderAll, renderAll, written_render, writtenAll_render]

theorem writtenFields_render : ∀ fields : List (String × Json),
    JsonValue.renderMembers (writtenFields fields) = renderFields fields
  | [] => rfl
  | (name, value) :: rest => by
    rw [writtenFields, JsonValue.renderMembers, renderFields, written_render,
      writtenFields_render]

end

mutual

theorem written_numeric : ∀ json : Json, json.written.Numeric
  | .null => trivial
  | .bool _ => trivial
  | .number value => PagedHistory.numeral value
  | .string _ => trivial
  | .array values => writtenAll_numeric values
  | .object fields => writtenFields_numeric fields

theorem writtenAll_numeric : ∀ values : List Json, JsonValue.NumericAll (writtenAll values)
  | [] => trivial
  | value :: rest => ⟨written_numeric value, writtenAll_numeric rest⟩

theorem writtenFields_numeric : ∀ fields : List (String × Json),
    JsonValue.NumericMembers (writtenFields fields)
  | [] => trivial
  | (_, value) :: rest => ⟨written_numeric value, writtenFields_numeric rest⟩

end

mutual

theorem written_inj : ∀ json other : Json, json.written = other.written → json = other
  | .null, other, h => by cases other <;> cases h; rfl
  | .bool _, other, h => by cases other <;> cases h; rfl
  | .number value, other, h => by
    cases other <;> try cases h
    exact congrArg Json.number (toString_inj (JsonValue.number.inj h))
  | .string _, other, h => by cases other <;> cases h; rfl
  | .array values, other, h => by
    cases other <;> try cases h
    exact congrArg Json.array (writtenAll_inj values _ (JsonValue.array.inj h))
  | .object fields, other, h => by
    cases other <;> try cases h
    exact congrArg Json.object (writtenFields_inj fields _ (JsonValue.object.inj h))

theorem writtenAll_inj : ∀ values others : List Json, writtenAll values = writtenAll others →
    values = others
  | [], others, h => by cases others <;> cases h; rfl
  | value :: rest, others, h => by
    cases others with
    | nil => cases h
    | cons other others =>
      obtain ⟨hvalue, hrest⟩ := List.cons.inj h
      rw [written_inj value other hvalue, writtenAll_inj rest others hrest]

theorem writtenFields_inj : ∀ fields others : List (String × Json),
    writtenFields fields = writtenFields others → fields = others
  | [], others, h => by cases others <;> cases h; rfl
  | (name, value) :: rest, others, h => by
    cases others with
    | nil => cases h
    | cons other others =>
      obtain ⟨hfield, hrest⟩ := List.cons.inj h
      obtain ⟨hname, hvalue⟩ := Prod.mk.inj hfield
      rw [hname, written_inj value other.2 hvalue, writtenFields_inj rest others hrest]

end

theorem toVec_inj {json other : Json} (h : json.toVec = other.toVec) : json = other := by
  have hrender : json.written.render = other.written.render := by
    rw [written_render, written_render]
    exact Encoding.utf8_inj h
  exact written_inj json other (JsonValue.render_inj (written_numeric json)
    (written_numeric other) hrender)

end Json

-- -----------------------------------------------------------------------------
-- A send that is accepted
-- -----------------------------------------------------------------------------

namespace FeedNotification

def acceptance : Json := .object [
  ("created_at", .string epoch), ("delivery", .string "required"), ("id", .string "ting_01"),
  ("key", .string (hasher.producerKey send.event.id send.recipient.value)),
  ("silent", .bool false), ("status", .string "accepted")]

/-- Parses the send and the acceptance. -/
def publishing : DeliveryCodec :=
  { hasher with fromSlice := fun body =>
      [send.document hasher epoch, acceptance].find? fun json => json.toVec = body }

def transport : TingClient where
  appId := "hook"
  fromSlice := publishing.fromSlice
  parseRfc3339 text := if text = epoch then some ⟨0, 0⟩ else none

def body : List UInt8 := (send.document hasher epoch).toVec

def answer : TingResponse := .answered 202 none none [some acceptance.toVec]

def posting : List SendLabel :=
  [.server (.elsewhere database),
    .server (.accepted BillingHook.summary BillingHook.command 1 id 0),
    .claims 0 (fun _ => 5) 0, .checks 0 0, .proves 0 (.ok "sap_1")]

def posted : SendWorld := run (SendWorld.step publishing transport) .empty posting

def confirming : List SendLabel :=
  [.stores body "ting_01" false, .answers 0 answer, .records 0 0 0]

def confirmed : SendWorld := run (SendWorld.step publishing transport) posted confirming

theorem reads_sends : publishing.ReadsSends := by
  intro appId event silicon recipient delivery receivedAt json h
  have hfound := List.find?_some h
  simp only [decide_eq_true_eq] at hfound
  exact Json.toVec_inj hfound

theorem answer_confirms : transport.send (fun _ => answer) body =
    .ok ⟨"ting_01", hasher.producerKey send.event.id send.recipient.value, false, .required,
      ⟨0, 0⟩⟩ := by
  decide +kernel

def claim : TingOutboxClaim where
  id := 1
  eventId := send.event.id
  recipientId := BillingHook.silicon
  observerSubscriptionId := none
  idempotencyKey := hasher.producerKey send.event.id send.recipient.value
  requestBody := body
  attempts := 1
  leaseId := 5
  leaseUntil := 180000000
  expiresAt := Instant.days 14

theorem posting_allowed : Along (SendWorld.step publishing transport)
    (SendWorld.Allowed transport) .empty posting := by
  refine ⟨⟨trivial, trivial⟩, ⟨?_, trivial⟩, ?_, trivial, trivial, trivial⟩
  · intro event hm
    cases hm
  · intro row _
    exact List.not_mem_nil

def stored : SendWorld := posted.step publishing transport (.stores body "ting_01" false)

theorem reached : body ∈ posted.posted ∧ posted.ting = [] ∧
    stored.ting = [⟨"ting_01", claim.idempotencyKey, body, false⟩] ∧
    stored.publishers 0 = .waits claim false ∧
    ∃ row ∈ confirmed.rows, row.acceptedAt.isSome := by
  decide +kernel

theorem confirming_allowed : Along (SendWorld.step publishing transport)
    (SendWorld.Allowed transport) posted confirming := by
  obtain ⟨hbody, hting, hstored, hwaits, -⟩ := reached
  rw [stored] at hstored hwaits
  refine ⟨⟨hbody, ?_, ?_⟩, ?_, trivial, trivial⟩
  · rw [hting]
    exact List.not_mem_nil
  · rw [hting]
    exact fun _ _ => List.not_mem_nil
  · intro held retried hstage accepted hsend
    rw [hwaits] at hstage
    cases hstage
    have hclaim : claim.requestBody = body := rfl
    rw [hclaim, answer_confirms] at hsend
    cases hsend
    refine ⟨⟨"ting_01", claim.idempotencyKey, body, false⟩, ?_, rfl, rfl, rfl⟩
    rw [hstored]
    exact List.mem_singleton_self _

/-- The outbox records the acceptance of the send Ting holds. -/
theorem feed_stored : ∃ row ∈ confirmed.rows, ∃ record ∈ confirmed.ting,
    row.tingId = some record.id ∧ record.body = row.requestBody := by
  have hlater := confirming_allowed
  rw [posted] at hlater
  have hallowed : Along (SendWorld.step publishing transport) (SendWorld.Allowed transport) .empty
      (posting ++ confirming) := along_append.mpr ⟨posting_allowed, hlater⟩
  have hexact := sends_stored_once reads_sends rfl hallowed
  rw [run_append, ← posted, ← confirmed] at hexact
  obtain ⟨-, -, -, -, row, hm, ha⟩ := reached
  obtain ⟨record, hrecord, hid, -, -, hbody⟩ := hexact.confirmed row hm ha
  exact ⟨row, hm, record, hrecord, hid, hbody⟩

end FeedNotification

end SiliconHook
