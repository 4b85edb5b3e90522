import Mathlib.Algebra.Order.BigOperators.Group.List
import Mathlib.Algebra.Order.Group.Nat
import SiliconHook.Api.Events
import SiliconHook.Client.Hydration
import SiliconHook.Properties.AccessLevels
import SiliconHook.Properties.IdentityLinks
import SiliconHook.Properties.Notifications

/-!
# Hydrated events

A notification of an accepted event, hydrated at any later moment of any run,
gives the event as it was accepted while the server retains it, and says that it
is gone only once the server no longer does.
-/

namespace SiliconHook

open Text Encoding

-- -----------------------------------------------------------------------------
-- Documents
-- -----------------------------------------------------------------------------

def CapturedRequest.shown (lib : ExpressionLibrary) (request : CapturedRequest) :
    Client.CapturedRequest where
  method := request.method
  url := request.url
  path := lib.path request.url
  queryString := (lib.query request.url).getD ""
  headers := request.headers
  contentType := request.contentType
  body := fromUtf8 request.body
  bodyBase64 := if (fromUtf8 request.body).isSome then none
    else some (String.ofList (base64Encode .standard true request.body))
  remoteIp := request.remoteIp

def EventRecord.shown (lib : ExpressionLibrary) (event : EventRecord) (silicon : SiliconRef)
    (receivedAt : String) : Client.Event where
  id := event.id.uuid
  silicon := ⟨silicon.uuid.value, silicon.id.map PublicId.value⟩
  hookId := event.hookId.uuid
  provider := event.provider.value
  deliverySequence := event.deliverySequence.value
  summary := event.summary
  receivedAt := receivedAt
  request := event.request.shown lib

def Client.CapturedRequest.bytes (request : Client.CapturedRequest) : Option (List UInt8) :=
  match request.body with
  | some text => some (utf8 text)
  | none => request.bodyBase64.bind fun text => base64Decode .standard true text.toList

theorem shown_bytes (lib : ExpressionLibrary) (request : CapturedRequest) :
    (request.shown lib).bytes = some request.body := by
  unfold Client.CapturedRequest.bytes CapturedRequest.shown
  cases htext : fromUtf8 request.body with
  | some text => exact congrArg some (utf8_fromUtf8 htext)
  | none =>
    simp only [Option.isSome_none, Bool.false_eq_true, if_false, Option.bind_some,
      String.toList_ofList]
    exact base64Decode_base64Encode .standard true request.body

theorem headers_ofJson (headers : List (String × String)) :
    Client.headersOfJson (.array (headers.map fun header =>
      .array [.string header.1, .string header.2])) = some headers := by
  show (headers.map _).mapM Client.headerOfJson = some headers
  induction headers with
  | nil => rfl
  | cons header rest ih =>
    rw [List.map_cons, List.mapM_cons, ih]
    rfl

theorem optional_ofJson {fields : List (String × Json)} {name : String} (value : Option String)
    (h : fields.lookup name = some (Api.optional value)) :
    Client.optionalString fields name = some value := by
  unfold Client.optionalString
  rw [h]
  cases value <;> rfl

theorem request_ofJson (lib : ExpressionLibrary) (request : CapturedRequest) :
    Client.CapturedRequest.ofJson (Api.capturedRequestResponse lib request) =
      some (request.shown lib) := by
  have hmembers : Client.members ["method", "url", "path", "query_string", "headers",
      "content_type", "body", "body_base64", "remote_ip"]
      (Api.capturedRequestResponse lib request) = some [
        ("method", .string request.method),
        ("url", .string request.url),
        ("path", .string (lib.path request.url)),
        ("query_string", .string ((lib.query request.url).getD "")),
        ("headers", .array (request.headers.map fun header =>
          .array [.string header.1, .string header.2])),
        ("content_type", Api.optional request.contentType),
        ("body", Api.optional (fromUtf8 request.body)),
        ("body_base64", Api.optional (if (fromUtf8 request.body).isSome then none
          else some (String.ofList (base64Encode .standard true request.body)))),
        ("remote_ip", .string request.remoteIp)] := rfl
  unfold Client.CapturedRequest.ofJson
  rw [hmembers, Option.bind_eq_bind, Option.bind_some]
  simp only [List.lookup_cons, String.reduceBEq, Json.asString, Option.bind_eq_bind, Option.bind_some,
    headers_ofJson, Option.pure_def]
  rw [optional_ofJson request.contentType rfl, Option.bind_some,
    optional_ofJson (fromUtf8 request.body) rfl, Option.bind_some,
    optional_ofJson _ rfl, Option.bind_some]
  rfl

-- -----------------------------------------------------------------------------
-- The size of an answer
-- -----------------------------------------------------------------------------

/-- What capture, the log's columns and the shape of an address promise of a request. -/
structure CapturedRequest.Bounded (lib : ExpressionLibrary) (request : CapturedRequest) :
    Prop where
  captured : ∃ parts, CapturedRequest.new parts = .ok request
  checked : request.Checked lib
  remoteIp : request.remoteIp.toList.length ≤ 45

theorem roomAll_headers (headers : List (String × String)) :
    Json.roomAll (headers.map fun header => .array [.string header.1, .string header.2]) =
      6 * (headers.map fun header => header.1.toList.length + header.2.toList.length).sum +
        9 * headers.length := by
  induction headers with
  | nil => rfl
  | cons header rest ih =>
    rw [List.map_cons, Json.roomAll, ih, List.map_cons, List.sum_cons, List.length_cons]
    simp only [Json.room, Json.roomAll]
    omega

theorem headers_bounds {parts request : CapturedRequest}
    (h : CapturedRequest.new parts = .ok request) :
    (request.headers.map fun header =>
      header.1.toList.length + header.2.toList.length).sum ≤ maxHeaderBytes ∧
      request.headers.length ≤ maxHeaderCount := by
  unfold CapturedRequest.new at h
  obtain ⟨⟨⟩, -, h⟩ := Except.bind_ok.mp h
  obtain ⟨⟨⟩, -, h⟩ := Except.bind_ok.mp h
  obtain ⟨⟨⟩, hcount, h⟩ := Except.bind_ok.mp h
  obtain ⟨⟨⟩, hbytes, h⟩ := Except.bind_ok.mp h
  rw [ensure_ok] at hcount hbytes
  cases h
  refine ⟨le_trans ?_ hbytes, by simpa using hcount⟩
  rw [List.map_map]
  refine List.sum_le_sum fun header _ => ?_
  have hname : (asciiLowercase header.1).toList.length = header.1.toList.length := by
    rw [asciiLowercase, String.toList_ofList, List.length_map]
  show (asciiLowercase header.1).toList.length + header.2.toList.length ≤ _
  rw [hname]
  exact Nat.add_le_add (toList_length_le _) (toList_length_le _)

theorem optional_room {value : Option String} {n : Nat}
    (h : ∀ text, value = some text → text.toList.length ≤ n) :
    (Api.optional value).room ≤ 6 * n + 4 := by
  cases value with
  | none => exact Nat.le_add_left _ _
  | some text =>
    have htext := h text rfl
    simp only [Api.optional, Json.room]
    omega

/-- A request is shown in at most half of the 64 MiB a client reads. -/
theorem capturedRequest_room {lib : ExpressionLibrary} {request : CapturedRequest}
    (h : request.Bounded lib) :
    (Api.capturedRequestResponse lib request).room ≤ 32 * 1024 * 1024 := by
  obtain ⟨parts, hnew⟩ := h.captured
  obtain ⟨hbytes, hcount⟩ := headers_bounds hnew
  have hmethod := h.checked.methodLength.2
  have hurl := h.checked.urlLength.2
  have hpath := h.checked.pathLength.2
  have hquery := h.checked.queryStringLength.2
  have hip := h.remoteIp
  have hbody := h.checked.bodyLength
  have htype : (Api.optional request.contentType).room ≤ 6 * 255 + 4 :=
    optional_room fun contentType hm => (h.checked.contentTypeLength contentType hm).2
  have htext : (Api.optional (fromUtf8 request.body)).room ≤ 6 * 1048576 + 4 := by
    refine optional_room fun text ht => ?_
    have hsize := toList_length_le text
    rw [← length_utf8, utf8_fromUtf8 ht] at hsize
    exact hsize.trans hbody
  have hbase64 : (Api.optional (if (fromUtf8 request.body).isSome then none
      else some (String.ofList (base64Encode .standard true request.body)))).room ≤
        6 * 4194304 + 4 := by
    refine optional_room fun text ht => ?_
    split at ht
    · cases ht
    · cases ht
      have hle := length_base64Encode_le .standard true request.body
      rw [String.toList_ofList]
      omega
  simp only [maxHeaderBytes, maxHeaderCount] at hbytes hcount
  simp only [Api.capturedRequestResponse, Json.room, Json.roomFields, roomAll_headers,
    String.reduceToList, List.length_cons, List.length_nil]
  omega

theorem event_size {lib : ExpressionLibrary} {event : EventRecord} (h : event.Acceptable)
    (hrequest : event.request.Bounded lib) (silicon : SiliconRef) {receivedAt : String}
    (htime : receivedAt.utf8ByteSize ≤ 64) :
    (Api.eventResponse lib event silicon receivedAt).toVec.length ≤ Client.maxResponseBytes := by
  refine (Json.toVec_size _).trans ?_
  have hroom := capturedRequest_room hrequest
  have hprovider := event.provider.checked
  have hsummary := h.summary
  have hsequence := sequence_size event.deliverySequence.positive h.deliverySequence
  have hevent := (hyphenated_toList event.id.uuid).1
  have hhook := (hyphenated_toList event.hookId.uuid).1
  have htext := (toList_length_le receivedAt).trans htime
  have huuid := silicon.uuid.toList_length_le
  have hid : (Api.optional (silicon.id.map PublicId.value)).room ≤ 6 * 255 + 4 := by
    refine optional_room fun text ht => ?_
    obtain ⟨id, -, rfl⟩ := Option.map_eq_some_iff.mp ht
    exact id.toList_length_le
  unfold LengthBetween at hprovider hsummary
  simp only [Api.eventResponse, Api.siliconResponse, Json.room, Json.roomFields,
    String.reduceToList, List.length_cons, List.length_nil, Client.maxResponseBytes]
  omega

section

variable {server : DeliveryCodec} {client : Client.ReceiverCodec}

theorem event_ofJson (h : LibrariesAgree server client) (lib : ExpressionLibrary)
    {event : EventRecord} (hevent : event.deliverySequence.value < 2 ^ 63) (silicon : SiliconRef)
    (receivedAt : String) :
    Client.Event.ofJson client.parseUuid (Api.eventResponse lib event silicon receivedAt) =
      some (event.shown lib silicon receivedAt) := by
  have hsilicon : Client.SiliconRef.ofJson (Api.siliconResponse silicon) =
      some ⟨silicon.uuid.value, silicon.id.map PublicId.value⟩ := by
    cases hid : silicon.id <;> simp only [Api.siliconResponse, hid] <;> rfl
  have hmembers : Client.members ["id", "silicon", "hook_id", "provider", "delivery_sequence",
      "summary", "received_at", "request"] (Api.eventResponse lib event silicon receivedAt) = some [
        ("id", .string event.id.uuid.hyphenated),
        ("silicon", Api.siliconResponse silicon),
        ("hook_id", .string event.hookId.uuid.hyphenated),
        ("provider", .string event.provider.value),
        ("delivery_sequence", .number event.deliverySequence.value),
        ("summary", .string event.summary),
        ("received_at", .string receivedAt),
        ("request", Api.capturedRequestResponse lib event.request)] := rfl
  unfold Client.Event.ofJson
  rw [hmembers, Option.bind_eq_bind, Option.bind_some]
  simp only [List.lookup_cons, String.reduceBEq, Json.asString, Option.bind_eq_bind, Option.bind_some,
    h.uuids, hsilicon, asI64_sequence _ hevent, request_ofJson, Option.pure_def]
  rfl

end

-- -----------------------------------------------------------------------------
-- The log over a run
-- -----------------------------------------------------------------------------

structure Feed where
  db : Store
  accepted : List EventRecord

def Feed.empty : Feed := ⟨.empty, []⟩

def FanOutLabel.accepts (codec : DeliveryCodec) (db : Store) : FanOutLabel → Option EventRecord
  | .accepted deliverySummary command sendId sendIds now =>
    (codec.acceptEvent deliverySummary command sendId sendIds now db).toOption.map Prod.fst
  | _ => none

def DeliveryCodec.feedStep (codec : DeliveryCodec) (feed : Feed) (label : FanOutLabel) : Feed where
  db := codec.fanOutStep feed.db label
  accepted := feed.accepted ++ (label.accepts codec feed.db).toList

/-- Event ids are drawn afresh: none is used twice, not even after a purge. -/
def FanOutLabel.Fresh (feed : Feed) : FanOutLabel → Prop
  | .accepted _ command _ _ _ => ∀ event ∈ feed.accepted, event.id ≠ command.eventId
  | _ => True

/-- A row holds an event as it was accepted, but for whose it is by now. -/
def EventRow.Records (row : EventRow) (event : EventRecord) : Prop :=
  row.id = event.id ∧ ∃ siliconId siliconUuid,
    row.toRecord = .ok { event with siliconId, siliconUuid }

theorem EventRow.toRecord_owned (row : EventRow) (uuid : Option AccountUuid) :
    (EventRow.ownerColumn.set uuid row).toRecord =
      row.toRecord.map fun record => { record with siliconUuid := uuid } := by
  unfold EventRow.toRecord
  dsimp only [EventRow.ownerColumn]
  cases DeliverySequence.new row.deliverySequence <;> rfl

theorem EventRow.Records.assign {row : EventRow} {event : EventRecord} (h : row.Records event)
    (target : EventRow → Option (Option AccountUuid)) :
    (EventRow.ownerColumn.assign target row).Records event := by
  obtain ⟨hid, siliconId, siliconUuid, hrecord⟩ := h
  unfold Column.assign
  cases target row with
  | none => exact ⟨hid, siliconId, siliconUuid, hrecord⟩
  | some uuid =>
    refine ⟨hid, siliconId, uuid, ?_⟩
    show (EventRow.ownerColumn.set uuid row).toRecord = _
    rw [EventRow.toRecord_owned, hrecord]
    rfl

theorem Appended.records {deliverySummary : SummaryRenderer} {command : AcceptEvent}
    {db db' : Store} {event : EventRecord} (h : Appended deliverySummary command db event db') :
    ∃ hook, (event.row hook).Records event ∧ event.id = command.eventId ∧
      ∀ row ∈ db'.events.rows, row ∈ db.events.rows ∨ row = event.row hook := by
  obtain ⟨hook, events, hfound, hinsert, -, rfl⟩ := h.stored
  have hhook : hook.id = event.hookId := by
    obtain ⟨row, hrow, rfl⟩ := Option.map_eq_some_iff.mp hfound
    rw [h.record]
    exact Table.find_key hrow
  have hreceived : event.request.receivedAt = event.receivedAt := by rw [h.record]; rfl
  refine ⟨hook, ⟨rfl, hook.siliconId, hook.siliconUuid, ?_⟩, by rw [h.record]; rfl, ?_⟩
  · have hsequence : DeliverySequence.new event.deliverySequence.value =
        .ok event.deliverySequence := dif_pos event.deliverySequence.positive
    unfold EventRow.toRecord EventRecord.row
    dsimp only
    rw [hsequence, hhook, hreceived]
  · intro row hm
    exact (Table.mem_insert hinsert).mp hm

theorem subscribe_events {id : Uuid} {silicon recipient : AccountUuid} {row : SubscriptionRow}
    {db db' : Store} (h : SiliconHook.subscribe id silicon recipient db = .ok (row, db')) :
    db'.events = db.events := by
  unfold SiliconHook.subscribe at h
  split at h
  · cases h
    rfl
  · split at h
    · cases h
    · split at h
      · cases h
      · split at h
        · cases h
        · split at h <;> cases h
          rfl

/-- A transaction's rows hold what rows before it held, or an event it accepts. -/
theorem fanOutStep_events {codec : DeliveryCodec} {db : Store} (label : FanOutLabel) {row : EventRow}
    (hm : row ∈ (codec.fanOutStep db label).events.rows) :
    (∃ old ∈ db.events.rows, ∀ event, old.Records event → row.Records event) ∨
      ∃ event ∈ label.accepts codec db, row.Records event := by
  have hkept : row ∈ db.events.rows →
      ∃ old ∈ db.events.rows, ∀ event, old.Records event → row.Records event :=
    fun hm => ⟨row, hm, fun _ h => h⟩
  cases label with
  | accepted deliverySummary command sendId sendIds now =>
    unfold DeliveryCodec.fanOutStep at hm
    cases ha : codec.acceptEvent deliverySummary command sendId sendIds now db with
    | error e =>
      simp only [ha] at hm
      exact .inl (hkept hm)
    | ok answer =>
      obtain ⟨event, db'⟩ := answer
      simp only [ha] at hm
      obtain ⟨mid, happended, hqueued⟩ := acceptEvent_ok ha
      have hevents : db'.events = mid.events := by
        split at hqueued
        · obtain ⟨outbox, rfl⟩ := queueSends_frame hqueued
          rfl
        · rw [hqueued]
      obtain ⟨hook, hrecords, -, hrows⟩ := happended.records
      rw [hevents] at hm
      rcases hrows row hm with hold | rfl
      · exact .inl (hkept hold)
      · refine .inr ⟨event, ?_, hrecords⟩
        show Option.map Prod.fst (Except.toOption _) = some event
        rw [ha]
        rfl
  | subscribed id silicon recipient =>
    refine .inl (hkept ?_)
    unfold DeliveryCodec.fanOutStep at hm
    dsimp only at hm
    split at hm
    · rename_i hs
      have hevents := subscribe_events hs
      rwa [hevents] at hm
    · exact hm
  | unsubscribed silicon recipient => exact .inl (hkept hm)
  | revoked silicon grantee keeps =>
    refine .inl (hkept ?_)
    unfold DeliveryCodec.fanOutStep deleteGrant at hm
    dsimp only at hm
    split at hm
    · exact hm
    · split at hm <;> exact hm
  | delivered event clock =>
    obtain ⟨p, hr⟩ := deliver_removes event clock db
    unfold DeliveryCodec.fanOutStep at hm
    rw [hr.events] at hm
    exact .inl (hkept hm)
  | claimed limit leaseDuration leaseIds now =>
    refine .inl (hkept ?_)
    unfold DeliveryCodec.fanOutStep at hm
    dsimp only at hm
    split at hm
    · rename_i hc
      obtain ⟨-, -, -, rfl⟩ := claimTing_ok.mp hc
      exact hm
    · exact hm
  | completed claim tingId silent now =>
    refine .inl (hkept ?_)
    unfold DeliveryCodec.fanOutStep completeTing at hm
    dsimp only at hm
    split at hm
    · rename_i hc
      split at hc
      · cases hc
      · cases hc
        exact hm
    · exact hm
  | retried claim failure retryAt now => exact .inl (hkept hm)
  | purged expired => exact .inl (hkept (Table.mem_delete.mp hm).1)
  | linked mapping dryRun clock auditLog =>
    unfold DeliveryCodec.fanOutStep linkIdentities at hm
    dsimp only at hm
    split at hm
    · exact .inl (hkept hm)
    · rename_i hok
      obtain ⟨-, links, -, -, -, rfl⟩ := applyMapping_ok.mp hok
      split at hm
      · exact .inl (hkept hm)
      · -- a run of the links sets owner columns at most
        rw [Database.rekeyed, rekeyEvents_rows] at hm
        obtain ⟨old, hold, rfl⟩ := List.mem_map.mp hm
        exact .inl ⟨old, hold, fun _ hrecords => hrecords.assign _⟩
  | elsewhere other => exact .inl (hkept hm)

/-- Every row holds an accepted event, and no two accepted events share an id. -/
structure FeedInv (feed : Feed) : Prop where
  ids : (feed.accepted.map EventRecord.id).Nodup
  recorded : ∀ row ∈ feed.db.events.rows, ∃ event ∈ feed.accepted, row.Records event

theorem FeedInv.empty : FeedInv .empty := ⟨List.nodup_nil, fun row hm => by cases hm⟩

theorem accepts_id {codec : DeliveryCodec} {db : Store} {label : FanOutLabel}
    {event : EventRecord} (h : label.accepts codec db = some event) :
    ∃ deliverySummary command sendId sendIds now,
      label = .accepted deliverySummary command sendId sendIds now ∧
        event.id = command.eventId := by
  cases label with
  | accepted deliverySummary command sendId sendIds now =>
    unfold FanOutLabel.accepts at h
    obtain ⟨⟨accepted, db'⟩, ha, rfl⟩ := Option.map_eq_some_iff.mp h
    cases hresult : codec.acceptEvent deliverySummary command sendId sendIds now db with
    | error e =>
      rw [hresult] at ha
      cases ha
    | ok answer =>
      rw [hresult] at ha
      cases ha
      obtain ⟨mid, happended, -⟩ := acceptEvent_ok hresult
      obtain ⟨-, -, hid, -⟩ := happended.records
      exact ⟨_, _, _, _, _, rfl, hid⟩
  | _ => cases h

theorem FeedInv.step {codec : DeliveryCodec} {feed : Feed} {label : FanOutLabel} (h : FeedInv feed)
    (hfresh : label.Fresh feed) : FeedInv (codec.feedStep feed label) := by
  constructor
  · show ((feed.accepted ++ (label.accepts codec feed.db).toList).map EventRecord.id).Nodup
    cases ha : label.accepts codec feed.db with
    | none =>
      rw [Option.toList_none, List.append_nil]
      exact h.ids
    | some event =>
      obtain ⟨deliverySummary, command, sendId, sendIds, now, rfl, hid⟩ := accepts_id ha
      rw [Option.toList_some, List.map_append, List.nodup_append]
      refine ⟨h.ids, List.nodup_singleton _, fun id hold other hnew => ?_⟩
      obtain ⟨old, hm, rfl⟩ := List.mem_map.mp hold
      rw [List.mem_singleton.mp hnew, hid]
      exact hfresh old hm
  · intro row hm
    rcases fanOutStep_events label hm with ⟨old, hold, hsame⟩ | ⟨event, ha, hrecords⟩
    · obtain ⟨event, hevent, hrecords⟩ := h.recorded old hold
      exact ⟨event, List.mem_append_left _ hevent, hsame event hrecords⟩
    · exact ⟨event, List.mem_append_right _ (Option.mem_toList.mpr ha), hrecords⟩

-- -----------------------------------------------------------------------------
-- What the route answers
-- -----------------------------------------------------------------------------

/-- The event is stored, not expired, and its hook is the Silicon's and recoverable. -/
def Store.Retains (db : Store) (silicon : AccountUuid) (now : Instant) (event : EventId) : Prop :=
  ∃ row, db.events.find event = some row ∧
    (db.hooks.find row.hookId).any (historyHook silicon now) = true ∧ now < row.expiresAt

instance (db : Store) (silicon : AccountUuid) (now : Instant) (event : EventId) :
    Decidable (db.Retains silicon now event) :=
  decidable_of_iff ((db.events.find event).any (fun row =>
      (db.hooks.find row.hookId).any (historyHook silicon now) && decide (now < row.expiresAt)) = true)
    (by simp [Store.Retains, Option.any_eq_true])

theorem FeedInv.getEvent {feed : Feed} (h : FeedInv feed) {event : EventRecord}
    (haccepted : event ∈ feed.accepted) (silicon : AccountUuid) (now : Instant) :
    (feed.db.Retains silicon now event.id ∧ ∃ siliconId siliconUuid,
      getEvent silicon event.id now feed.db = .ok (some { event with siliconId, siliconUuid })) ∨
    (¬ feed.db.Retains silicon now event.id ∧ getEvent silicon event.id now feed.db = .ok none) := by
  unfold SiliconHook.getEvent
  cases hfound : feed.db.events.find event.id with
  | none =>
    refine .inr ⟨?_, rfl⟩
    rintro ⟨row, hrow, -⟩
    rw [hfound] at hrow
    cases hrow
  | some row =>
    obtain ⟨other, hother, hid, siliconId, siliconUuid, hrecord⟩ :=
      h.recorded row (Table.find_some.mp hfound).1
    have hkey : row.id = event.id := Table.find_key hfound
    -- accepted events with one id are one event
    have hsame : other = event :=
      List.inj_on_of_nodup_map h.ids hother haccepted (hid.symm.trans hkey)
    subst hsame
    rw [Option.filter_some]
    by_cases hlive : (feed.db.hooks.find row.hookId).any (historyHook silicon now) = true ∧
        now < row.expiresAt
    · refine .inl ⟨⟨row, hfound, hlive⟩, siliconId, siliconUuid, ?_⟩
      rw [if_pos (by simpa using hlive)]
      simp only [hrecord]
      rfl
    · refine .inr ⟨?_, ?_⟩
      · rintro ⟨found, hrow, hlive'⟩
        rw [hfound] at hrow
        cases hrow
        exact hlive hlive'
      · rw [if_neg (by simpa using hlive)]

/-- No error of the kind a missing event has. -/
def ApplicationError.Elsewhere (e : ApplicationError) : Prop :=
  e ≠ .notFound ∧ ∀ status message, e ≠ .refused status "not_found" message

theorem elsewhere_refused {status : Nat} {code message : String} (h : code ≠ "not_found") :
    (ApplicationError.refused status code message).Elsewhere :=
  ⟨ApplicationError.noConfusion, fun _ _ he => h (ApplicationError.refused.inj he).2.1⟩

namespace SharingCase

open Program

theorem lookUp_elsewhere (inquiry : Inquiry) (value : String) (byId : Bool) :
    FailsOnly (lookUp inquiry value byId) ApplicationError.Elsewhere := by
  intro s e h
  unfold lookUp SiliconHook.lookUp at h
  dsimp only at h
  split at h
  · cases h
    rename_i e' _ _
    cases e' <;> exact elsewhere_refused (by decide)
  · rename_i answer _ _
    dsimp only at h
    unfold recordLookup at h
    split at h
    · split at h
      · rename_i e' hview
        cases h
        unfold viewOf at hview
        split at hview
        · cases hview
          exact elsewhere_refused (by decide)
        · cases hview
      · split at h
        · rename_i e' hrecorded
          cases h
          unfold recordAccountView at hrecorded
          dsimp only at hrecorded
          split at hrecorded
          · cases hrecorded
            exact ⟨ApplicationError.noConfusion, fun _ _ => ApplicationError.noConfusion⟩
          · cases hrecorded
        · cases h
    · cases h
      exact elsewhere_refused (by decide)
    · cases h

theorem query_ok {f : Store → α} {E : ApplicationError → Prop} :
    FailsOnly (query fun db => .ok (f db)) E := .read fun _ _ h => by cases h

theorem ensure_elsewhere {p : Prop} [Decidable p] {status : Nat} {code message : String}
    (h : code ≠ "not_found") :
    FailsOnly (liftM (m := Except ApplicationError) (ensure p (.refused status code message)) :
      SharingCase Unit) ApplicationError.Elsewhere := by
  refine .lift fun e he => ?_
  unfold ensure at he
  split at he
  · cases he
  · cases he
    exact elsewhere_refused h

theorem resolveAccount_elsewhere (inquiry : Inquiry) (value : String) :
    FailsOnly (resolveAccount inquiry value) ApplicationError.Elsewhere := by
  have hfound : ∀ (message : String) (found : Option AccountRow),
      FailsOnly (liftM (orNotFound message found) : SharingCase AccountRow)
        ApplicationError.Elsewhere := by
    refine fun message found => .lift fun e he => ?_
    cases found with
    | some record => cases he
    | none =>
      cases he
      exact elsewhere_refused (by decide)
  unfold resolveAccount
  dsimp only
  split
  · refine .bind query_ok fun cached => ?_
    cases cached with
    | some record => exact .pure record
    | none => exact .bind (lookUp_elsewhere _ _ _) fun found => hfound _ found
  · split
    · refine .bind query_ok fun cached => ?_
      cases cached with
      | some record => exact .bind (ensure_elsewhere (by decide)) fun _ => .pure record
      | none => exact .bind (lookUp_elsewhere _ _ _) fun found => hfound _ found
    · refine .lift fun e he => ?_
      cases he
      exact elsewhere_refused (by decide)

theorem authorizeSilicon_elsewhere (named custody : Inquiry) (actor : Actor) (segment : String) :
    FailsOnly (authorizeSilicon named custody actor segment) ApplicationError.Elsewhere := by
  refine .bind ?_ fun silicon => ?_
  · unfold namedSilicon
    split
    · refine .read fun s e he => ?_
      dsimp only at he
      split at he
      · cases he
      · cases he
        exact elsewhere_refused (by decide)
    · refine .bind (.mapError (resolveAccount_elsewhere _ _) fun e he => ?_) fun record =>
        .bind (ensure_elsewhere (by decide)) fun _ => .pure record
      unfold siliconNotFound
      split
      · exact elsewhere_refused (by decide)
      · exact he
  · split
    · exact .pure _
    · refine .bind ?_ fun custodian => ?_
      · unfold custodianFor currentCustodian
        split
        · split
          · exact .pure _
          · exact .bind (lookUp_elsewhere _ _ _) fun _ => .pure _
        · exact .pure _
      · split
        · exact .pure _
        · refine .bind (.read fun s e he => ?_) fun level => .pure _
          dsimp only at he
          split at he
          · cases he
          · cases he
            exact elsewhere_refused (by decide)

end SharingCase

-- -----------------------------------------------------------------------------
-- Refusals
-- -----------------------------------------------------------------------------

theorem elsewhere_not_missing {e : ApplicationError} (h : e.Elsewhere) (now : Instant) :
    ¬ ((Api.mapApplicationError now e).status = 404 ∧
      (Api.mapApplicationError now e).publicParts.code = "not_found") := by
  rintro ⟨hstatus, hcode⟩
  cases e with
  | notFound => exact h.1 rfl
  | refused status code message =>
    have hcode : code = "not_found" := hcode
    subst hcode
    exact h.2 _ _ rfl
  | _ => exact absurd hstatus (by simp [Api.mapApplicationError, Api.AppError.status])

theorem error_envelope (requestId : String) (error : Api.AppError) :
    Client.index "error" (Client.toValue (error.envelope requestId)) = .object ([
      ("code", .string error.publicParts.code),
      ("message", .string error.publicParts.message),
      ("request_id", .string requestId)] ++
        (error.publicParts.details.map fun details => ("details", Json.string details)).toList) := by
  unfold Api.AppError.envelope
  generalize error.publicParts = parts
  obtain ⟨code, message, details⟩ := parts
  cases details <;> rfl

section

variable {client : Client.ReceiverCodec} {requestId : String} {error : Api.AppError}

/-- The client crate takes a refusal for what it is, whatever it asked for. -/
theorem decode_refusal (read : Json → Option α)
    (hreads : client.fromSlice (error.envelope requestId).toVec = some (error.envelope requestId))
    (hread : read (error.envelope requestId) = none) :
    ∃ e, client.decodeAnswer read (error.intoResponse requestId) = .error e ∧
      ∀ api, e = .api api → api.status = error.status ∧ api.code = error.publicParts.code := by
  have hcode : Client.index "code" (Client.index "error"
      (Client.toValue (error.envelope requestId))) = .string error.publicParts.code := by
    rw [error_envelope]
    rfl
  unfold Client.ReceiverCodec.decodeAnswer
  split
  · refine ⟨_, rfl, fun api he => ?_⟩
    unfold Client.ReceiverCodec.failure Client.boundedBody at he
    split at he
    · split at *
      · rename_i hsize
        cases hsize
      · rename_i hsize
        cases hsize
        cases he
    · rename_i body hbody
      split at hbody
      · cases hbody
        rw [show (error.intoResponse requestId).body = (error.envelope requestId).toVec from rfl,
          hreads] at he
        cases he
        refine ⟨rfl, ?_⟩
        show ((Client.index "code" _).asString).getD _ = _
        rw [hcode]
        rfl
      · cases hbody
  · unfold Client.boundedBody
    split
    · rename_i e hsize
      split at hsize
      · cases hsize
      · cases hsize
        exact ⟨_, rfl, fun api he => by cases he⟩
    · rename_i body hbody
      split at hbody
      · cases hbody
        rw [show (error.intoResponse requestId).body = (error.envelope requestId).toVec from rfl,
          hreads, Option.bind_some, hread]
        exact ⟨_, rfl, fun api he => by cases he⟩
      · cases hbody

theorem decode_event {read : Json → Option α} {document : Json} {a : α}
    (hreads : client.fromSlice document.toVec = some document)
    (hsize : document.toVec.length ≤ Client.maxResponseBytes) (hread : read document = some a) :
    client.decodeAnswer read ⟨200, none, document.toVec⟩ = .ok a := by
  have hbody : Client.boundedBody ⟨200, none, document.toVec⟩ = .ok document.toVec := if_pos hsize
  unfold Client.ReceiverCodec.decodeAnswer
  rw [if_neg (by simp), hbody]
  dsimp only
  rw [hreads, Option.bind_some, hread]

theorem decode_notFound (read : Json → Option α) (hsize : requestId.utf8ByteSize ≤ 64)
    (hreads : client.fromSlice (Api.AppError.notFound.envelope requestId).toVec =
      some (Api.AppError.notFound.envelope requestId)) :
    ∃ api, client.decodeAnswer read (Api.AppError.notFound.intoResponse requestId) =
      .error (.api api) ∧ api.status = 404 ∧ api.code = "not_found" := by
  have hbound : (Api.AppError.notFound.envelope requestId).toVec.length ≤
      Client.maxResponseBytes := by
    refine (Json.toVec_size _).trans ?_
    have hid := (toList_length_le requestId).trans hsize
    simp only [Api.AppError.envelope, Api.AppError.publicParts, Option.map_none, Option.toList_none,
      List.append_nil, Json.room, Json.roomFields, String.reduceToList, List.length_cons,
      List.length_nil, Client.maxResponseBytes]
    omega
  have hbody : Client.boundedBody (Api.AppError.notFound.intoResponse requestId) =
      .ok (Api.AppError.notFound.envelope requestId).toVec := if_pos hbound
  refine ⟨.ofJson 404 none (Api.AppError.notFound.envelope requestId), ?_, rfl, rfl⟩
  have hrefused : ¬ (200 ≤ 404 ∧ 404 < 300) := by decide
  refine (if_pos hrefused).trans ?_
  rw [Client.ReceiverCodec.failure, hbody]
  simp only [hreads]
  rfl

end

-- -----------------------------------------------------------------------------
-- Paths
-- -----------------------------------------------------------------------------

theorem isSegment_of {text : String} (hne : text ≠ "")
    (h : ∀ c ∈ text.toList, isAsciiAlphanumeric c = true ∨ c = '-') :
    Client.isSegment text = true := by
  have hempty : text.isEmpty = false := by
    rw [Bool.eq_false_iff, ne_eq, String.isEmpty_iff]
    exact hne
  have hdot : ∀ other : String, '.' ∈ other.toList → text ≠ other := by
    rintro other hm rfl
    rcases h _ hm with halnum | heq
    · exact absurd halnum (by decide)
    · exact absurd heq (by decide)
  have hclean : text.toList.any "/\\?#".toList.contains = false := by
    rw [List.any_eq_false]
    intro c hc hspecial
    simp only [String.reduceToList, List.contains_eq_mem, List.mem_cons, List.not_mem_nil, or_false,
      decide_eq_true_eq] at hspecial
    rcases h c hc with halnum | rfl
    · rcases hspecial with rfl | rfl | rfl | rfl <;> exact absurd halnum (by decide)
    · exact absurd hspecial (by decide)
  have hone := hdot "." (by simp)
  have htwo := hdot ".." (by simp)
  simp only [Client.isSegment, hempty, hclean, hone, htwo, ne_eq, not_false_eq_true, decide_true,
    Bool.not_false, Bool.and_self]

theorem AccountUuid.isSegment (uuid : AccountUuid) : Client.isSegment uuid.value = true := by
  have hvalid := uuid.valid
  simp only [looksLike, Bool.or_eq_true, Bool.and_eq_true, beq_iff_eq] at hvalid
  rcases hvalid with ⟨⟨hne, -⟩, halnum⟩ | ⟨hsize, hcanonical⟩
  · refine isSegment_of (by simpa [String.isEmpty_iff] using hne) fun c hc => ?_
    exact .inl (List.all_eq_true.mp halnum c hc)
  · refine isSegment_of ?_ fun c hc => ?_
    · rintro h
      rw [h] at hsize
      exact absurd hsize (by decide)
    · simp only [isCanonicalUuid, Bool.and_eq_true, List.all_eq_true] at hcanonical
      obtain ⟨i, hi, rfl⟩ := List.getElem_of_mem hc
      have hdigit := hcanonical.2 (uuid.value.toList[i], i)
        (List.mem_zipIdx_iff_getElem?.mpr (List.getElem?_eq_getElem hi))
      dsimp only at hdigit
      split at hdigit
      · exact .inr (by simpa using hdigit)
      · refine .inl ?_
        split at hdigit
        · simp only [Bool.or_eq_true, beq_iff_eq] at hdigit
          rcases hdigit with ((h | h) | h) | h <;> rw [h] <;> decide
        · simp only [isLowerHex, Bool.or_eq_true, Bool.and_eq_true, decide_eq_true_eq] at hdigit
          simp only [isAsciiAlphanumeric, isAsciiLower, Bool.or_eq_true, Bool.and_eq_true,
            decide_eq_true_eq]
          rcases hdigit with h | h
          · exact .inl (.inl h)
          · exact .inr ⟨h.1, by omega⟩

theorem hexEncode_alphanumeric (bytes : List UInt8) :
    ∀ c ∈ hexEncode bytes, isAsciiAlphanumeric c = true := by
  have hchar : ∀ n < 16, isAsciiAlphanumeric (hexChar n) = true := by decide
  induction bytes with
  | nil =>
    intro c hc
    cases hc
  | cons b rest ih =>
    have hb := b.toNat_lt
    rw [hexEncode]
    simp only [List.mem_cons, forall_eq_or_imp]
    exact ⟨hchar _ (by omega), hchar _ (by omega), ih⟩

theorem hyphenated_isSegment (uuid : Uuid) : Client.isSegment uuid.hyphenated = true := by
  refine isSegment_of ?_ fun c hc => ?_
  · rintro h
    have hlength := (hyphenated_toList uuid).1
    rw [h] at hlength
    simp at hlength
  · have halnum := hexEncode_alphanumeric uuid.asBytes
    rw [Uuid.hyphenated, String.toList_ofList] at hc
    simp only [List.mem_append, List.mem_cons] at hc
    rcases hc with ((((hc | rfl | hc) | rfl | hc) | rfl | hc) | rfl | hc)
    · exact .inl (halnum c (List.mem_of_mem_take hc))
    · exact .inr rfl
    · exact .inl (halnum c (List.mem_of_mem_drop (List.mem_of_mem_take hc)))
    · exact .inr rfl
    · exact .inl (halnum c (List.mem_of_mem_drop (List.mem_of_mem_take hc)))
    · exact .inr rfl
    · exact .inl (halnum c (List.mem_of_mem_drop (List.mem_of_mem_take hc)))
    · exact .inr rfl
    · exact .inl (halnum c (List.mem_of_mem_drop hc))

-- -----------------------------------------------------------------------------
-- Hydration
-- -----------------------------------------------------------------------------

/-- The routes write instants as sends do, and read ids as the client does. -/
structure WireAgrees (server : DeliveryCodec) (client : Client.ReceiverCodec)
    (routes : Api.Routes) : Prop extends LibrariesAgree server client where
  rfc3339 : routes.rfc3339 = server.rfc3339
  parseUuid : routes.parseUuid = client.parseUuid

structure Api.Routes.ReadBy (routes : Api.Routes) (client : Client.ReceiverCodec)
    (answer : Except Api.AppError (EventRecord × SiliconRef)) : Prop where
  refusal : ∀ e, answer = .error e →
    client.fromSlice (e.envelope routes.requestId).toVec = some (e.envelope routes.requestId)
  event : ∀ event silicon receivedAt, answer = .ok (event, silicon) →
    routes.rfc3339 event.receivedAt = .ok receivedAt →
      client.fromSlice (Api.eventResponse routes.library event silicon receivedAt).toVec =
        some (Api.eventResponse routes.library event silicon receivedAt)

def Client.Reaches (http : Client.Http) (routes : Api.Routes) (draw : Api.RouteDraw)
    (actor : Actor) (state : SharingState) : Prop :=
  ∀ silicon event, http ["api", "v3", "silicons", silicon, "events", event] =
    .ok (routes.answer draw actor silicon event state)

structure Send.Resolves (send : Send) (routes : Api.Routes) (db : Store) (now : Instant)
    (notification : Client.TingNotification)
    (authorized : Except ApplicationError AuthorizationContext)
    (result : Except Client.Error Client.DeliveryOutcome) : Prop where
  /-- A reader that is refused learns nothing about the event. -/
  refused : ∀ e, authorized = .error e → ∃ error, result = .error error
  /-- A retained event is the accepted one, its body byte for byte. -/
  event : ∀ context, authorized = .ok context → context.silicon.uuid = send.silicon →
    db.Retains send.silicon now send.event.id → ∃ received : Client.ReceivedEvent,
      result = .ok (.event received) ∧ received.tingId = notification.id ∧
        received.key = notification.key ∧ received.event.request.bytes = some send.event.request.body ∧
          ∃ receivedAt, received.event =
            send.event.shown routes.library context.silicon receivedAt
  /-- An event is gone only where it is no longer retained. -/
  gone : ∀ context, authorized = .ok context →
    ¬ db.Retains context.silicon.uuid now send.event.id → ∃ reference,
      result = .ok (.unavailable ⟨notification.id, notification.key, reference⟩) ∧
        reference.id = send.event.id.uuid
  /-- An event that is another Silicon's by now is not taken for the one notified. -/
  moved : ∀ context, authorized = .ok context → context.silicon.uuid ≠ send.silicon →
    db.Retains context.silicon.uuid now send.event.id → ∃ error, result = .error error

section

variable {server : DeliveryCodec} {client : Client.ReceiverCodec} {routes : Api.Routes}
  {send : Send} {context : Client.DeliveryContext} {notification : Client.TingNotification}
  {http : Client.Http} {draw : Api.RouteDraw} {actor : Actor} {state : SharingState}
  {receivedAt : String}

theorem event_answered (client : Client.ReceiverCodec)
    (hhttp : Client.Reaches http routes draw actor state) (silicon : AccountUuid) (id : Uuid) :
    client.event http silicon.value id =
      client.decodeAnswer (Client.Event.ofJson client.parseUuid)
        (routes.answer draw actor silicon.value id.hyphenated state) := by
  have hsegments : Client.checkSegments
      ["api", "v3", "silicons", silicon.value, "events", id.hyphenated] = .ok () := by
    have hapi : Client.isSegment "api" = true ∧ Client.isSegment "v3" = true ∧
        Client.isSegment "silicons" = true ∧ Client.isSegment "events" = true := by decide
    obtain ⟨hapi, hversion, hsilicons, hevents⟩ := hapi
    simp only [Client.checkSegments, hapi, hversion, hsilicons, hevents, silicon.isSegment,
      hyphenated_isSegment, if_true]
  unfold Client.ReceiverCodec.event Client.ReceiverCodec.call
  dsimp only
  rw [hsegments]
  show ((http _).bind _ : Except Client.Error Client.Event) = _
  rw [hhttp]
  rfl

theorem getEvent_answers (draw : Api.RouteDraw) (actor : Actor)
    (hparse : routes.parseUuid send.event.id.uuid.hyphenated = some send.event.id.uuid) {feed : Feed} (hinv : FeedInv feed)
    (haccepted : send.event ∈ feed.accepted) (hstate : state.database.db = feed.db)
    (authorized : Except ApplicationError AuthorizationContext)
    (hauthorized : (SharingCase.authorizeSilicon draw.silicon draw.custody actor send.silicon.value
      state).1 = authorized) :
    (∀ e, authorized = .error e →
      (routes.getEvent draw actor send.silicon.value send.event.id.uuid.hyphenated state).1 =
        .error (Api.mapApplicationError draw.now e)) ∧
    ∀ context, authorized = .ok context →
      (feed.db.Retains context.silicon.uuid draw.now send.event.id ∧ ∃ siliconId siliconUuid,
        (routes.getEvent draw actor send.silicon.value send.event.id.uuid.hyphenated state).1 =
          .ok ({ send.event with siliconId, siliconUuid }, context.silicon)) ∨
      (¬ feed.db.Retains context.silicon.uuid draw.now send.event.id ∧
        (routes.getEvent draw actor send.silicon.value send.event.id.uuid.hyphenated state).1 =
          .error .notFound) := by
  subst hauthorized
  unfold Api.Routes.getEvent
  simp only [hparse]
  have hkept : Program.Holds state.OnlyAccounts (SharingCase.authorizeSilicon draw.silicon
      draw.custody actor send.silicon.value) fun _ => True :=
    SharingCase.holds_authorizeSilicon (SharingState.OnlyAccounts.durable state)
  obtain ⟨⟨hstore, -⟩, -⟩ := hkept state (.refl state)
  unfold Program.exec at hstore
  cases hresult : SharingCase.authorizeSilicon draw.silicon draw.custody actor send.silicon.value
      state with
  | mk answer state' =>
    rw [hresult] at hstore
    obtain ⟨accounts, ids, hdb⟩ := hstore
    cases answer with
    | error e =>
      refine ⟨fun e' he => ?_, fun context he => by cases he⟩
      cases he
      rfl
    | ok context =>
      refine ⟨fun e' he => (by cases he), fun context' he => ?_⟩
      cases he
      -- establishing access leaves the log and the hooks alone
      have hread : SiliconHook.getEvent context.silicon.uuid send.event.id draw.now
          state'.database.db =
            SiliconHook.getEvent context.silicon.uuid send.event.id draw.now feed.db := by
        rw [show state'.database.db = _ from hdb, hstate]
        rfl
      have hid : (⟨send.event.id.uuid⟩ : EventId) = send.event.id := rfl
      dsimp only
      unfold HookApplication.getEvent
      rw [hid, hread]
      rcases hinv.getEvent haccepted context.silicon.uuid draw.now with
        ⟨hretained, siliconId, siliconUuid, hevent⟩ | ⟨hmissing, hnone⟩
      · rw [hevent]
        exact .inl ⟨hretained, siliconId, siliconUuid, rfl⟩
      · rw [hnone]
        exact .inr ⟨hmissing, rfl⟩

theorem resolve_eq (h : LibrariesAgree server client)
    (htime : server.rfc3339 send.event.receivedAt = .ok receivedAt)
    (hn : (send.request server receivedAt).RepeatedBy notification)
    (haddressed : send.AddressedTo context) (hrecords : client.Records notification)
    {fetched : Except Client.Error Client.Event}
    (hfetched : client.event http send.silicon.value send.event.id.uuid = fetched) :
    (∀ e, fetched = .error e → (∀ api, e = .api api → ¬ (api.status = 404 ∧ api.code = "not_found")) →
      client.resolveNotification http context notification = .error e) ∧
    (∀ api, fetched = .error (.api api) → api.status = 404 → api.code = "not_found" →
      client.resolveNotification http context notification = .ok (.unavailable
        ⟨notification.id, notification.key, (send.hookData receivedAt).metadata⟩)) ∧
    ∀ silicon : SiliconRef, ∀ lib, fetched = .ok (send.event.shown lib silicon receivedAt) →
      (silicon.uuid = send.silicon → client.resolveNotification http context notification =
        .ok (.event ⟨notification.id, notification.key, send.event.shown lib silicon receivedAt⟩)) ∧
      (silicon.uuid ≠ send.silicon →
        ∃ e, client.resolveNotification http context notification = .error e) := by
  have hreads : client.parseRfc3339 receivedAt ≠ none := by
    rw [(h.instants _ _ htime).2]
    exact Option.some_ne_none _
  have hreference := reference_repeated h send hreads hn hrecords haddressed.valid
    haddressed.appId haddressed.recipient
  have hfetch : client.event http (send.hookData receivedAt).metadata.silicon.uuid
      (send.hookData receivedAt).metadata.id = fetched := hfetched
  have hhydrate : client.hydrateNotification http context notification =
      fetched.bind fun event =>
        if event.id ≠ send.event.id.uuid ∨ event.silicon.uuid ≠ send.silicon.value ∨
            event.hookId ≠ send.event.hookId.uuid ∨
            event.deliverySequence ≠ send.event.deliverySequence.value ∨
            event.receivedAt ≠ receivedAt ∨ event.summary ≠ send.event.summary ∨
            event.provider ≠ send.event.provider.value then
          .error (.protocol "the event Hook returned differs from its notification")
        else .ok ⟨notification.id, notification.key, event⟩ := by
    unfold Client.ReceiverCodec.hydrateNotification
    rw [hreference]
    show ((client.event http _ _).bind _ : Except Client.Error Client.ReceivedEvent) = _
    rw [hfetch]
    rfl
  unfold Client.ReceiverCodec.resolveNotification
  rw [hreference, hhydrate]
  refine ⟨fun e he hother => ?_, fun api he hstatus hcode => ?_, fun silicon lib he => ⟨?_, ?_⟩⟩
  · subst he
    cases e with
    | api api => exact if_neg (hother api rfl)
    | _ => rfl
  · subst he
    exact if_pos ⟨hstatus, hcode⟩
  · rintro hsilicon
    subst he
    rw [Except.bind, if_neg (by simp [EventRecord.shown, hsilicon])]
    rfl
  · rintro hsilicon
    subst he
    have hvalue : silicon.uuid.value ≠ send.silicon.value := by
      intro hv
      cases hown : silicon.uuid
      cases hsent : send.silicon
      rw [hown, hsent] at hv hsilicon
      cases hv
      exact hsilicon rfl
    rw [Except.bind, if_pos (.inr (.inl hvalue))]
    exact ⟨_, rfl⟩

/-- In every run, a notification of an accepted event resolves to that event while the
server retains it for its Silicon, and to a gone one only once it does not. -/
theorem notification_hydrated (h : WireAgrees server client routes) {labels : List FanOutLabel}
    {feed : Feed} (hfresh : Along server.feedStep FanOutLabel.Fresh .empty labels)
    (hfeed : run server.feedStep .empty labels = feed) (haccepted : send.event ∈ feed.accepted)
    (hrequest : send.event.request.Bounded routes.library)
    (hsend : send.RepeatedBy server notification) (haddressed : send.AddressedTo context)
    (hrecords : client.Records notification) (hstate : state.database.db = feed.db)
    (hhttp : Client.Reaches http routes draw actor state)
    (hread : routes.ReadBy client
      (routes.getEvent draw actor send.silicon.value send.event.id.uuid.hyphenated state).1) :
    send.Resolves routes feed.db draw.now notification
      (SharingCase.authorizeSilicon draw.silicon draw.custody actor send.silicon.value state).1
      (client.resolveNotification http context notification) := by
  have hinv : FeedInv feed := by
    rw [← hfeed]
    exact run_invariant (fun _ _ hinv hlabel => FeedInv.step hinv hlabel) FeedInv.empty hfresh
  have hparse : routes.parseUuid send.event.id.uuid.hyphenated = some send.event.id.uuid := by
    rw [h.parseUuid]
    exact h.uuids _
  obtain ⟨receivedAt, htime, hn⟩ := hsend
  have hfetched := event_answered client hhttp send.silicon send.event.id.uuid
  obtain ⟨hfailed, hgone, hshown⟩ := resolve_eq h.toLibrariesAgree htime hn haddressed hrecords
    hfetched
  obtain ⟨hrefused, hanswered⟩ := getEvent_answers draw actor hparse hinv haccepted hstate
    _ rfl
  unfold Api.Routes.answer at hfailed hgone hshown
  have hunread : ∀ e : Api.AppError, Client.Event.ofJson client.parseUuid
      (e.envelope routes.requestId) = none := fun _ => rfl
  have hmissing : (routes.getEvent draw actor send.silicon.value send.event.id.uuid.hyphenated
      state).1 = .error .notFound →
        client.resolveNotification http context notification = .ok (.unavailable
          ⟨notification.id, notification.key, (send.hookData receivedAt).metadata⟩) := by
    intro hanswer
    rw [hanswer] at hgone
    obtain ⟨api, hdecoded, hstatus, hcode⟩ := decode_notFound
      (Client.Event.ofJson client.parseUuid) routes.requestId_size (hread.refusal _ hanswer)
    exact hgone api hdecoded hstatus hcode
  have hfound : ∀ context siliconId siliconUuid,
      (routes.getEvent draw actor send.silicon.value send.event.id.uuid.hyphenated state).1 =
        .ok ({ send.event with siliconId, siliconUuid }, context) →
          client.decodeAnswer (Client.Event.ofJson client.parseUuid)
            (routes.respond (routes.getEvent draw actor send.silicon.value
              send.event.id.uuid.hyphenated state).1) =
            .ok (send.event.shown routes.library context receivedAt) := by
    intro silicon siliconId siliconUuid hanswer
    have htext : routes.rfc3339 send.event.receivedAt = .ok receivedAt := by rw [h.rfc3339, htime]
    rw [hanswer]
    unfold Api.Routes.respond
    dsimp only
    rw [htext]
    exact decode_event (hread.event _ _ _ hanswer htext)
      (event_size send.acceptable hrequest silicon (h.instants _ _ htime).1)
      (event_ofJson h.toLibrariesAgree _ send.acceptable.deliverySequence silicon receivedAt)
  constructor
  · intro e he
    have hanswer := hrefused e he
    obtain ⟨error, hdecoded, hapi⟩ := decode_refusal (Client.Event.ofJson client.parseUuid)
      (hread.refusal _ hanswer) (hunread _)
    rw [hanswer] at hfailed
    refine ⟨error, hfailed error hdecoded fun api herror hcase => ?_⟩
    obtain ⟨hstatus, hcode⟩ := hapi api herror
    rw [hstatus, hcode] at hcase
    exact elsewhere_not_missing (SharingCase.authorizeSilicon_elsewhere _ _ _ _ _ _ he) _ hcase
  · intro context' hcontext hsilicon hretained
    rcases hanswered context' hcontext with ⟨-, siliconId, siliconUuid, hanswer⟩ | ⟨hnot, -⟩
    · have hresolved := (hshown _ _ (hfound _ _ _ hanswer)).1 hsilicon
      exact ⟨_, hresolved, rfl, rfl, shown_bytes _ _, receivedAt, rfl⟩
    · rw [hsilicon] at hnot
      exact absurd hretained hnot
  · intro context' hcontext hnot
    rcases hanswered context' hcontext with ⟨hretained, -⟩ | ⟨-, hanswer⟩
    · exact absurd hretained hnot
    · exact ⟨_, hmissing hanswer, rfl⟩
  · intro context' hcontext hsilicon hretained
    rcases hanswered context' hcontext with ⟨-, siliconId, siliconUuid, hanswer⟩ | ⟨hnot, -⟩
    · exact (hshown _ _ (hfound _ _ _ hanswer)).2 hsilicon
    · exact absurd hretained hnot

end

-- -----------------------------------------------------------------------------
-- A Silicon that reads its own event
-- -----------------------------------------------------------------------------

namespace FeedNotification

def reader : Actor := ⟨BillingHook.silicon, .silicon, none⟩

def database : Store :=
  { BillingHook.database with
    accounts := ⟨[{ AccountRow.blank BillingHook.silicon with kind := some .silicon }], by decide⟩ }

def labels : List FanOutLabel :=
  [.elsewhere database, .accepted BillingHook.summary BillingHook.command 1 id 0]

def feed : Feed := run server.feedStep .empty labels

/-- Accounts is not asked: the Silicon names itself. -/
def accounts : Inquiry :=
  ⟨0, ⟨fun _ => .error (.unavailable "down"), fun _ => .error ⟨none, "down", "down"⟩,
    fun _ => .error ⟨none, "down", "down"⟩, fun _ => .error ⟨none, "down", "down"⟩⟩⟩

def draw : Api.RouteDraw := ⟨accounts, accounts, 0⟩

def state : SharingState := ⟨⟨feed.db, []⟩, .empty 0⟩

def routes : Api.Routes where
  library := { UnsignedRequests.receiver.library with path := id, query := fun _ => none }
  rfc3339 := server.rfc3339
  parseUuid := PagedHistory.parseUuid
  requestId := "req_01"
  requestId_size := by decide

def own : SiliconRef := ⟨BillingHook.silicon, none⟩

def answered : Json := Api.eventResponse routes.library BillingHook.accepted own epoch

def hydrator : Client.ReceiverCodec :=
  { client with fromSlice := fun body => if body = answered.toVec then some answered else none }

def http : Client.Http := fun path =>
  match path with
  | [_, _, _, silicon, _, event] => .ok (routes.answer draw reader silicon event state)
  | _ => .error .transport

/-- The event is stored and kept, its Silicon is let through, and the route answers it. -/
theorem retained : feed.accepted = [BillingHook.accepted] ∧
    feed.db.Retains send.silicon draw.now send.event.id ∧
    (SharingCase.authorizeSilicon draw.silicon draw.custody reader send.silicon.value
      state).1 = .ok ⟨reader, own, .own⟩ ∧
    (routes.getEvent draw reader send.silicon.value send.event.id.uuid.hyphenated state).1 =
      .ok (BillingHook.accepted, own) := by
  decide +kernel

theorem answered_event :
    (routes.getEvent draw reader send.silicon.value send.event.id.uuid.hyphenated state).1 =
      .ok (BillingHook.accepted, own) :=
  retained.2.2.2

theorem wire_agrees : WireAgrees server hydrator routes where
  toLibrariesAgree := libraries_agree _
  rfc3339 := rfl
  parseUuid := by simp only [routes, hydrator, client]

theorem reads_answered : hydrator.fromSlice
    (Api.eventResponse routes.library BillingHook.accepted own epoch).toVec =
      some (Api.eventResponse routes.library BillingHook.accepted own epoch) := by
  have hanswered : Api.eventResponse routes.library BillingHook.accepted own epoch = answered := rfl
  rw [hanswered]
  simp only [hydrator, if_true]

theorem answer_read : routes.ReadBy hydrator
    (routes.getEvent draw reader send.silicon.value send.event.id.uuid.hyphenated state).1 where
  refusal e h := by
    rw [answered_event] at h
    cases h
  event event silicon receivedAt h htime := by
    rw [answered_event] at h
    cases h
    simp only [routes] at htime
    obtain ⟨-, rfl⟩ := rfc3339_epoch htime
    exact reads_answered

/-- The event is queued, notified and read by its Silicon while it is retained. -/
theorem feed_hydrated : ∃ received : Client.ReceivedEvent,
    hydrator.resolveNotification http context notification = .ok (.event received) ∧
      received.event.request.bytes = some BillingHook.command.request.body := by
  obtain ⟨haccepted, hretained, hauthorized, -⟩ := retained
  have hrequest : send.event.request.Bounded routes.library :=
    ⟨⟨BillingHook.command.request, by decide +kernel⟩, by decide +kernel, by decide⟩
  have hfresh : Along server.feedStep FanOutLabel.Fresh .empty labels := by
    refine ⟨trivial, ?_, trivial⟩
    have hnone : (server.feedStep .empty (.elsewhere database)).accepted = [] := rfl
    intro event hm
    rw [hnone] at hm
    cases hm
  have hevent : send.event ∈ feed.accepted := by
    rw [haccepted]
    exact List.mem_singleton_self _
  have haddressed : send.AddressedTo context := ⟨by decide, rfl, rfl⟩
  have hhttp : Client.Reaches http routes draw reader state := fun _ _ => rfl
  have hfeed : run server.feedStep .empty labels = feed := by rw [feed]
  have hstate : state.database.db = feed.db := by rw [state]
  have hresolves := notification_hydrated wire_agrees hfresh hfeed hevent hrequest repeated
    haddressed (records _) hstate hhttp answer_read
  obtain ⟨received, hresolved, -, -, hbytes, -⟩ := hresolves.event _ hauthorized rfl hretained
  exact ⟨received, hresolved, hbytes⟩

end FeedNotification

end SiliconHook
