import SiliconHook.Client.Delivery
import SiliconHook.Properties.FanOut
import SiliconHook.Properties.HistoryPages
import SiliconHook.Properties.StoredCaptures

/-!
# Sends and notifications

The bytes the server prepares for an accepted event pass the outbox's check, and
a notification that carries them unchanged is read by the receiving account's
client as a pointer to the same event, and by no other account's.
-/

namespace SiliconHook

open Text Encoding

-- -----------------------------------------------------------------------------
-- The size of a document
-- -----------------------------------------------------------------------------

namespace Json

mutual

def room : Json → Nat
  | null => 4
  | bool _ => 5
  | number value => (toString value).utf8ByteSize
  | string value => 6 * value.toList.length + 2
  | array values => roomAll values + 2
  | object fields => roomFields fields + 2

def roomAll : List Json → Nat
  | [] => 0
  | value :: rest => value.room + 1 + roomAll rest

def roomFields : List (String × Json) → Nat
  | [] => 0
  | (name, value) :: rest => 6 * name.toList.length + 3 + value.room + 1 + roomFields rest

end

theorem intercalate_size (texts : List String) :
    (",".intercalate texts).utf8ByteSize ≤ (texts.map fun text => text.utf8ByteSize + 1).sum := by
  have hcomma : ",".utf8ByteSize = 1 := by decide
  induction texts with
  | nil => simp
  | cons text rest ih =>
    cases rest with
    | nil => simp
    | cons next rest =>
      rw [String.intercalate_cons_cons, String.utf8ByteSize_append, String.utf8ByteSize_append,
        hcomma, List.map_cons, List.sum_cons]
      omega

mutual

theorem render_size : ∀ json : Json, json.render.utf8ByteSize ≤ json.room
  | null => by decide
  | bool value => by cases value <;> decide
  | number value => Nat.le_refl _
  | string value => quote_size_le value
  | array values => by
    have hmarks : "[".utf8ByteSize = 1 ∧ "]".utf8ByteSize = 1 := by decide
    have hvalues := (intercalate_size _).trans (renderAll_size values)
    rw [render, room, String.utf8ByteSize_append, String.utf8ByteSize_append]
    omega
  | object fields => by
    have hmarks : "\x7b".utf8ByteSize = 1 ∧ "\x7d".utf8ByteSize = 1 := by decide
    have hfields := (intercalate_size _).trans (renderFields_size fields)
    rw [render, room, String.utf8ByteSize_append, String.utf8ByteSize_append]
    omega

theorem renderAll_size : ∀ values : List Json,
    ((renderAll values).map fun text => text.utf8ByteSize + 1).sum ≤ roomAll values
  | [] => Nat.le_refl 0
  | value :: rest => by
    have hvalue := render_size value
    have hrest := renderAll_size rest
    rw [renderAll, roomAll, List.map_cons, List.sum_cons]
    omega

theorem renderFields_size : ∀ fields : List (String × Json),
    ((renderFields fields).map fun text => text.utf8ByteSize + 1).sum ≤ roomFields fields
  | [] => Nat.le_refl 0
  | (name, value) :: rest => by
    have hcolon : ":".utf8ByteSize = 1 := by decide
    have hname := quote_size_le name
    have hvalue := render_size value
    have hrest := renderFields_size rest
    rw [renderFields, roomFields, List.map_cons, List.sum_cons, String.utf8ByteSize_append,
      String.utf8ByteSize_append]
    omega

end

theorem toVec_size (json : Json) : json.toVec.length ≤ json.room := by
  rw [toVec, length_utf8]
  exact json.render_size

end Json

-- -----------------------------------------------------------------------------
-- Sends
-- -----------------------------------------------------------------------------

/-- What the log and the generators of ids promise of an accepted event: fresh ids are
never nil, a sequence is a bigint, and a summary fits its column. -/
structure EventRecord.Acceptable (event : EventRecord) : Prop where
  id : event.id.uuid ≠ 0
  hookId : event.hookId.uuid ≠ 0
  deliverySequence : event.deliverySequence.value < 2 ^ 63
  summary : LengthBetween 1 400 event.summary

structure Send where
  appId : String
  event : EventRecord
  silicon : AccountUuid
  siliconId : Option PublicId
  recipient : AccountUuid
  recipientId : Option PublicId
  delivery : TingDeliveryMode
  app : validateAppId appId = true
  acceptable : event.Acceptable

namespace Send

def referenced (send : Send) : ReferencedSilicon :=
  ⟨send.silicon.value, send.siliconId.map PublicId.value⟩

def addressee (send : Send) : TingRecipient :=
  ⟨send.recipient.value, send.recipientId.map PublicId.value⟩

def prepare (send : Send) (codec : DeliveryCodec) : Except String (List UInt8) :=
  codec.prepareEvent send.appId send.event send.referenced send.addressee send.delivery

def document (send : Send) (codec : DeliveryCodec) (receivedAt : String) : Json :=
  codec.sendRequest send.appId send.event send.referenced send.addressee send.delivery receivedAt

def data (send : Send) (receivedAt : String) : Json :=
  .object [
    ("data", .object [
      ("metadata", eventReference send.event send.referenced receivedAt),
      ("sender", .string send.event.provider.value)]),
    ("type", .string "new_event")]

end Send

section

variable {server : DeliveryCodec} {client : Client.ReceiverCodec} {send : Send}
  {receivedAt : String}

theorem recipient_ofJson (recipient : TingRecipient) :
    TingRecipient.ofJson recipient.toJson = some recipient := by
  obtain ⟨uuid, _ | id⟩ := recipient <;> rfl

theorem prepared_ofJson (send : Send) : PreparedTing.ofJson (send.document server receivedAt) =
    some ⟨send.addressee, send.appId ++ eventTypeSuffix,
      server.producerKey send.event.id send.recipient.value, send.data receivedAt, .object [],
      send.delivery⟩ := by
  have hrecipient := recipient_ofJson send.addressee
  cases hd : send.delivery with
  | ordinary =>
    simp only [Send.document, DeliveryCodec.sendRequest, hd, reduceCtorEq, if_false]
    show (TingRecipient.ofJson send.addressee.toJson).bind _ = _
    rw [hrecipient]
    rfl
  | required =>
    simp only [Send.document, DeliveryCodec.sendRequest, hd, if_true]
    show (TingRecipient.ofJson send.addressee.toJson).bind _ = _
    rw [hrecipient]
    rfl

-- -----------------------------------------------------------------------------
-- The size of a send
-- -----------------------------------------------------------------------------

theorem AccountUuid.toList_length_le (uuid : AccountUuid) : uuid.value.toList.length ≤ 64 := by
  refine (Text.toList_length_le _).trans ?_
  have hvalid := uuid.valid
  simp only [AccountUuid.looksLike, Bool.or_eq_true, Bool.and_eq_true, decide_eq_true_eq,
    beq_iff_eq] at hvalid
  rcases hvalid with ⟨⟨-, hl⟩, -⟩ | ⟨hl, -⟩
  · exact hl
  · omega

theorem PublicId.toList_length_le (id : PublicId) : id.value.toList.length ≤ 255 := by
  refine (Text.toList_length_le _).trans ?_
  have hvalid := id.valid
  unfold PublicId.check at hvalid
  split at hvalid
  · cases hvalid
  · split at hvalid
    · cases hvalid
    · rename_i hsize
      simp only [Bool.or_eq_true, decide_eq_true_eq, not_or, not_lt] at hsize
      exact hsize.2

theorem appId_size {appId : String} (h : validateAppId appId = true) :
    appId.utf8ByteSize ≤ 80 := by
  simp only [validateAppId, Bool.and_eq_true, decide_eq_true_eq] at h
  exact h.1.1.2

theorem hyphenated_toList (uuid : Uuid) : uuid.hyphenated.toList.length = 36 ∧
    ∀ c ∈ uuid.hyphenated.toList, isAsciiGraphic c = true := by
  have hlength : (hexEncode uuid.asBytes).length = 32 := by
    rw [length_hexEncode, Uuid.asBytes, List.length_map, List.length_range]
  have hgraphic := hexEncode_graphic uuid.asBytes
  have hhyphen : isAsciiGraphic '-' = true := by decide
  rw [Uuid.hyphenated, String.toList_ofList]
  constructor
  · simp [hlength]
  · intro c hc
    simp only [List.mem_append, List.mem_cons] at hc
    rcases hc with ((((hc | rfl | hc) | rfl | hc) | rfl | hc) | rfl | hc)
    · exact hgraphic c (List.mem_of_mem_take hc)
    · exact hhyphen
    · exact hgraphic c (List.mem_of_mem_drop (List.mem_of_mem_take hc))
    · exact hhyphen
    · exact hgraphic c (List.mem_of_mem_drop (List.mem_of_mem_take hc))
    · exact hhyphen
    · exact hgraphic c (List.mem_of_mem_drop (List.mem_of_mem_take hc))
    · exact hhyphen
    · exact hgraphic c (List.mem_of_mem_drop hc)

theorem producerKey_toList (hdigest : ∀ message, (server.sha256 message).length = 32)
    (event : EventId) (recipient : String) :
    (server.producerKey event recipient).toList.length = 106 ∧
      ∀ c ∈ (server.producerKey event recipient).toList, isAsciiGraphic c = true := by
  obtain ⟨hlength, hgraphic⟩ := hyphenated_toList event.uuid
  have hhook : ∀ c ∈ "hook:".toList ++ ":".toList, isAsciiGraphic c = true := by simp [isAsciiGraphic]
  simp only [DeliveryCodec.producerKey, String.toList_append, String.toList_ofList,
    List.length_append, hlength, length_hexEncode, hdigest]
  refine ⟨rfl, fun c hc => ?_⟩
  simp only [List.mem_append] at hc hhook
  rcases hc with ((hc | hc) | hc) | hc
  · exact hhook c (.inl hc)
  · exact hgraphic c hc
  · exact hhook c (.inr hc)
  · exact hexEncode_graphic _ c hc

theorem sequence_size {value : Int} (hpos : 1 ≤ value) (h : value < 2 ^ 63) :
    (toString value).utf8ByteSize ≤ 76 := by
  obtain ⟨n, rfl⟩ := Int.eq_ofNat_of_zero_le (by omega : 0 ≤ value)
  have htext : toString (n : Int) = String.ofList (Nat.toDigits 10 n) := by
    show toString n = _
    rw [← String.toList_inj]
    simp
  have hdigits : (Nat.toDigits 10 n).length ≤ 19 :=
    (Nat.length_toDigits_le_iff (by decide) (by decide)).mpr (by omega)
  have hsize := utf8ByteSize_ofList_le (Nat.toDigits 10 n)
  rw [htext]
  omega

theorem account_room (recipient : AccountUuid) (id : Option PublicId) :
    (TingRecipient.toJson ⟨recipient.value, id.map PublicId.value⟩).room ≤ 2000 := by
  have huuid := recipient.toList_length_le
  cases id with
  | none =>
    simp only [TingRecipient.toJson, Option.map_none, Option.toList_none, List.nil_append,
      Json.room, Json.roomFields, String.reduceToList, List.length_cons, List.length_nil]
    omega
  | some id =>
    have hid := id.toList_length_le
    simp only [TingRecipient.toJson, Option.map_some, Option.toList_some, List.cons_append,
      List.nil_append, Json.room, Json.roomFields, String.reduceToList, List.length_cons,
      List.length_nil]
    omega

/-- A send takes at most twelve of the 256 KiB there are. -/
theorem Send.document_size (send : Send) (hdigest : ∀ message, (server.sha256 message).length = 32)
    (htime : receivedAt.utf8ByteSize ≤ 64) :
    (send.document server receivedAt).toVec.length ≤ 12 * 1024 := by
  refine (Json.toVec_size _).trans ?_
  have hprovider := send.event.provider.checked
  have hsummary := send.acceptable.summary
  have hsequence := sequence_size send.event.deliverySequence.positive
    send.acceptable.deliverySequence
  have hevent := (hyphenated_toList send.event.id.uuid).1
  have hhook := (hyphenated_toList send.event.hookId.uuid).1
  have hkey := (producerKey_toList hdigest send.event.id send.recipient.value).1
  have hsilicon := account_room send.silicon send.siliconId
  have hrecipient := account_room send.recipient send.recipientId
  have htext := (Text.toList_length_le receivedAt).trans htime
  have happ := (Text.toList_length_le send.appId).trans (appId_size send.app)
  unfold LengthBetween at hprovider hsummary
  cases hd : send.delivery <;>
  · simp only [document, DeliveryCodec.sendRequest, eventReference, hd, reduceCtorEq, if_true,
      if_false, List.nil_append, List.cons_append, referenced, addressee, Json.room,
      Json.roomFields, String.reduceToList, String.toList_append, eventTypeSuffix,
      List.length_append, List.length_cons, List.length_nil]
    omega

-- -----------------------------------------------------------------------------
-- Both sides
-- -----------------------------------------------------------------------------

/-- The libraries of the two crates agree: one hash of 32 bytes, and parsers that read
what their writers write. -/
structure LibrariesAgree (server : DeliveryCodec) (client : Client.ReceiverCodec) : Prop where
  digest : ∀ message, (server.sha256 message).length = 32
  sha256 : client.sha256 = server.sha256
  instants : ∀ instant text, server.rfc3339 instant = .ok text →
    text.utf8ByteSize ≤ 64 ∧ client.parseRfc3339 text = some instant
  uuids : ∀ uuid : Uuid, client.parseUuid uuid.hyphenated = some uuid

theorem Send.prepare_ok {body : List UInt8} (h : send.prepare server = .ok body) :
    ∃ receivedAt, server.rfc3339 send.event.receivedAt = .ok receivedAt ∧
      body = (send.document server receivedAt).toVec := by
  unfold prepare DeliveryCodec.prepareEvent at h
  cases ht : server.rfc3339 send.event.receivedAt with
  | error e =>
    rw [ht] at h
    cases h
  | ok receivedAt =>
    rw [ht] at h
    cases h
    exact ⟨receivedAt, rfl, rfl⟩

theorem toVec_object_ne_nil (fields : List (String × Json)) : (Json.object fields).toVec ≠ [] := by
  refine utf8_ne_nil fun h => ?_
  have hlength := congrArg String.utf8ByteSize h
  have hmark : "\x7b".utf8ByteSize = 1 := by decide
  rw [Json.render, String.utf8ByteSize_append, String.utf8ByteSize_append, hmark] at hlength
  simp at hlength

theorem Send.preparedKey_ok (hdigest : ∀ message, (server.sha256 message).length = 32)
    (htime : receivedAt.utf8ByteSize ≤ 64)
    (hread : server.fromSlice (send.document server receivedAt).toVec =
      some (send.document server receivedAt)) :
    server.preparedKey (send.document server receivedAt).toVec send.recipient =
      .ok (server.producerKey send.event.id send.recipient.value) := by
  have hsize := send.document_size hdigest htime
  have hne : (send.document server receivedAt).toVec ≠ [] := toVec_object_ne_nil _
  obtain ⟨hkey, hgraphic⟩ := producerKey_toList hdigest send.event.id send.recipient.value
  have hkeySize : (server.producerKey send.event.id send.recipient.value).utf8ByteSize = 106 := by
    have hascii := utf8ByteSize_ascii fun c hc => isAsciiGraphic_ascii (hgraphic c hc)
    rwa [String.ofList_toList, hkey] at hascii
  have hkeyNonempty : (server.producerKey send.event.id send.recipient.value).isEmpty = false := by
    rw [Bool.eq_false_iff, ne_eq, String.isEmpty_iff]
    intro h
    rw [h] at hkeySize
    simp at hkeySize
  have hcontrol : (server.producerKey send.event.id send.recipient.value).toList.any isControl =
      false := by
    rw [List.any_eq_false]
    intro c hc
    simp [isAsciiGraphic_not_control (hgraphic c hc)]
  have happ := appId_size send.app
  have hsuffix : eventTypeSuffix.utf8ByteSize = 17 := by decide
  have htype : (send.appId ++ eventTypeSuffix).utf8ByteSize = send.appId.utf8ByteSize + 17 := by
    rw [String.utf8ByteSize_append, hsuffix]
  have htypeNonempty : (send.appId ++ eventTypeSuffix).isEmpty = false := by
    rw [Bool.eq_false_iff, ne_eq, String.isEmpty_iff]
    intro h
    rw [h] at htype
    simp at htype
  unfold DeliveryCodec.preparedKey
  rw [if_neg (by rw [List.isEmpty_iff, not_or]; exact ⟨hne, by omega⟩), hread, Option.bind_some,
    prepared_ofJson]
  simp only [addressee, hkeyNonempty, hkeySize, hcontrol, htypeNonempty, htype, data, Json.isObject]
  rw [if_neg]
  simp
  omega

-- -----------------------------------------------------------------------------
-- The receiver
-- -----------------------------------------------------------------------------

def Send.request (send : Send) (server : DeliveryCodec) (receivedAt : String) : PreparedTing where
  recipient := send.addressee
  notificationType := send.appId ++ eventTypeSuffix
  key := server.producerKey send.event.id send.recipient.value
  data := send.data receivedAt
  metadata := .object []
  delivery := send.delivery

def Send.hookData (send : Send) (receivedAt : String) : Client.HookData where
  sender := send.event.provider.value
  metadata := {
    id := send.event.id.uuid
    silicon := ⟨send.silicon.value, send.siliconId.map PublicId.value⟩
    hookId := send.event.hookId.uuid
    deliverySequence := send.event.deliverySequence.value
    receivedAt := receivedAt
    summary := send.event.summary }

/-- A notification that repeats a request unchanged; Ting may leave the recipient out. -/
structure PreparedTing.RepeatedBy (request : PreparedTing)
    (notification : Client.TingNotification) : Prop where
  eventType : notification.eventType = request.notificationType
  recipient : notification.recipient = none ∨
    notification.recipient = some request.recipient.toJson
  key : notification.key = request.key
  data : notification.data = request.data
  metadata : notification.metadata = request.metadata

structure Client.ReceiverCodec.Records (client : Client.ReceiverCodec)
    (notification : Client.TingNotification) : Prop where
  id : Client.identifier notification.id 255 = true
  createdAt : client.parseRfc3339 notification.createdAt ≠ none

theorem silicon_ofJson (send : Send) : Client.ReferencedSilicon.ofJson send.referenced.toJson =
    some ⟨send.silicon.value, send.siliconId.map PublicId.value⟩ := by
  unfold Send.referenced
  cases send.siliconId <;> rfl

theorem asI64_sequence (sequence : DeliverySequence) (h : sequence.value < 2 ^ 63) :
    Client.asI64 (.number sequence.value) = some sequence.value := by
  have hpos := sequence.positive
  exact if_pos ⟨by omega, h⟩

theorem envelope_ofJson (h : LibrariesAgree server client) (send : Send) (receivedAt : String) :
    Client.HookEnvelope.ofJson client.parseUuid (send.data receivedAt) =
      some ⟨"new_event", send.hookData receivedAt⟩ := by
  have hreference : Client.EventReference.ofJson client.parseUuid
      (eventReference send.event send.referenced receivedAt) =
        some (send.hookData receivedAt).metadata := by
    show (client.parseUuid send.event.id.uuid.hyphenated).bind (fun _ =>
      (Client.ReferencedSilicon.ofJson send.referenced.toJson).bind fun _ =>
        (client.parseUuid send.event.hookId.uuid.hyphenated).bind fun _ =>
          (Client.asI64 (.number send.event.deliverySequence.value)).bind fun _ => _) = _
    rw [h.uuids, silicon_ofJson, h.uuids,
      asI64_sequence _ send.acceptable.deliverySequence]
    rfl
  show (Client.EventReference.ofJson client.parseUuid
    (eventReference send.event send.referenced receivedAt)).bind _ >>= _ = _
  rw [hreference]
  rfl

theorem names_addressee (context : Client.DeliveryContext) (send : Send) :
    Client.namesRecipient context send.addressee.toJson =
      decide (send.recipient.value = context.recipientUuid) := by
  have hlookup : ∀ fields, send.addressee.toJson = .object fields →
      fields.lookup "uuid" = some (.string send.recipient.value) := by
    unfold Send.addressee
    rintro fields h
    cases hid : send.recipientId with
    | none =>
      rw [hid] at h
      cases h
      rfl
    | some id =>
      rw [hid] at h
      cases h
      rfl
  obtain ⟨fields, hfields⟩ : ∃ fields, send.addressee.toJson = .object fields := ⟨_, rfl⟩
  rw [hfields]
  show decide ((fields.lookup "uuid").bind Json.asString = some context.recipientUuid) = _
  rw [hlookup fields hfields]
  simp [Json.asString]

theorem key_identifier (hdigest : ∀ message, (server.sha256 message).length = 32)
    (event : EventId) (recipient : String) :
    Client.identifier (server.producerKey event recipient) 200 = true := by
  obtain ⟨hkey, hgraphic⟩ := producerKey_toList hdigest event recipient
  have hsize : (server.producerKey event recipient).utf8ByteSize = 106 := by
    have hascii := utf8ByteSize_ascii fun c hc => isAsciiGraphic_ascii (hgraphic c hc)
    rwa [String.ofList_toList, hkey] at hascii
  have hnonempty : (server.producerKey event recipient).isEmpty = false := by
    rw [Bool.eq_false_iff, ne_eq, String.isEmpty_iff]
    intro h
    rw [h] at hsize
    simp at hsize
  rw [Client.identifier, hnonempty, hsize]
  simpa using hgraphic

theorem account_identifier (uuid : AccountUuid) : Client.identifier uuid.value 255 = true := by
  have hexternal := uuid.isExternalId
  simp only [isExternalId, Bool.and_eq_true, maxExternalIdBytes] at hexternal
  simp only [Client.identifier, Bool.and_eq_true]
  exact hexternal

theorem nonempty_of_length {text : String} (h : 1 ≤ text.toList.length) : text.isEmpty = false := by
  rw [Bool.eq_false_iff, ne_eq, String.isEmpty_iff]
  rintro rfl
  simp at h

theorem reference_repeated (h : LibrariesAgree server client) (send : Send)
    {notification : Client.TingNotification} {context : Client.DeliveryContext}
    (htime : client.parseRfc3339 receivedAt ≠ none)
    (hn : (send.request server receivedAt).RepeatedBy notification)
    (hting : client.Records notification)
    (hcontext : Client.validateContext context = .ok ()) (happ : context.appId = send.appId)
    (hrecipient : context.recipientUuid = send.recipient.value) :
    client.reference context notification = .ok (send.hookData receivedAt) := by
  have hnames : (notification.recipient.any fun value =>
      !Client.namesRecipient context value) = false := by
    rcases hn.recipient with hnone | hsome
    · rw [hnone]
      rfl
    · rw [hsome, Option.any_some]
      show (!Client.namesRecipient context send.addressee.toJson) = false
      rw [names_addressee]
      simp [hrecipient]
  have hkey := key_identifier h.digest send.event.id send.recipient.value
  have hprovider := nonempty_of_length send.event.provider.checked.1
  have hsummary := nonempty_of_length send.acceptable.summary.1
  have hsequence := send.event.deliverySequence.positive
  have hexpected : client.expectedKey send.event.id.uuid context.recipientUuid =
      server.producerKey send.event.id send.recipient.value := by
    rw [Client.ReceiverCodec.expectedKey, DeliveryCodec.producerKey, hrecipient, h.sha256]
  have hsuffix : context.appId ++ ".webhook.received" = send.appId ++ eventTypeSuffix := by
    rw [happ, eventTypeSuffix]
  have hmetadata : notification.metadata.isObject = true := by
    rw [hn.metadata]
    rfl
  unfold Client.ReceiverCodec.reference
  rw [hcontext]
  refine (if_neg ?_).trans ?_
  · rw [hn.eventType, hn.key, hnames]
    simp [Send.request, hsuffix, hting.id, hting.createdAt, hkey, hmetadata]
  · rw [hn.data]
    simp only [Send.request]
    rw [envelope_ofJson h]
    refine (if_neg ?_).trans rfl
    rw [hn.key]
    simp only [Send.request, Send.hookData, hprovider, hsummary, hexpected, send.acceptable.id,
      send.acceptable.hookId, account_identifier, htime]
    simp
    omega

theorem reference_refused (h : LibrariesAgree server client) (send : Send)
    {notification : Client.TingNotification} {context : Client.DeliveryContext}
    (hn : (send.request server receivedAt).RepeatedBy notification)
    (hother : server.sha256 (utf8 context.recipientUuid) ≠
      server.sha256 (utf8 send.recipient.value)) :
    ∃ e, client.reference context notification = .error e := by
  unfold Client.ReceiverCodec.reference
  split
  · exact ⟨_, rfl⟩
  · split
    · exact ⟨_, rfl⟩
    · rw [hn.data]
      simp only [Send.request]
      rw [envelope_ofJson h]
      dsimp only
      refine ⟨_, if_pos ?_⟩
      iterate 8 right
      rw [hn.key]
      intro heq
      simp only [Send.request, Send.hookData, Client.ReceiverCodec.expectedKey,
        DeliveryCodec.producerKey, h.sha256] at heq
      have hdigits := String.ofList_inj.mp ((String.append_right_inj _).mp heq)
      have hbytes := congrArg hexDecode hdigits
      rw [hexDecode_hexEncode, hexDecode_hexEncode] at hbytes
      exact hother (Option.some.inj hbytes).symm

theorem reference_misaddressed (send : Send) {notification : Client.TingNotification}
    {context : Client.DeliveryContext}
    (hnamed : notification.recipient = some send.addressee.toJson)
    (hother : context.recipientUuid ≠ send.recipient.value) :
    ∃ e, client.reference context notification = .error e := by
  unfold Client.ReceiverCodec.reference
  split
  · exact ⟨_, rfl⟩
  · refine ⟨_, if_pos (.inr (.inl ?_))⟩
    rw [hnamed, Option.any_some, names_addressee]
    simp [Ne.symm hother]

-- -----------------------------------------------------------------------------
-- Batches
-- -----------------------------------------------------------------------------

structure Client.ReceiverCodec.Callback (client : Client.ReceiverCodec)
    (receiver : Client.Receiver) (authorization webhookId : String) (body : List UInt8)
    (tings : List Client.TingNotification) : Prop where
  destination : webhookId = receiver.webhookId
  secret : client.sha256 (utf8 (Client.bearerToken authorization)) =
    client.sha256 (utf8 receiver.secret)
  size : body.length ≤ Client.maxBatchBytes
  batch : (client.fromSlice body).bind Client.TingBatch.ofJson = some ⟨tings⟩
  count : 1 ≤ tings.length ∧ tings.length ≤ Client.maxBatchItems

theorem references_ok {context : Client.DeliveryContext} {tings : List Client.TingNotification} :
    client.references context tings = .ok () ↔
      ∀ notification ∈ tings, ∃ data, client.reference context notification = .ok data := by
  induction tings with
  | nil => simp [Client.ReceiverCodec.references]
  | cons notification rest ih =>
    rw [List.forall_mem_cons, ← ih, Client.ReceiverCodec.references]
    cases client.reference context notification with
    | error e => simp
    | ok data => simp

/-- A callback is decoded exactly when each of its notifications is one for the account. -/
theorem decode_ok {receiver : Client.Receiver} {authorization webhookId : String}
    {body : List UInt8} {tings : List Client.TingNotification}
    (h : client.Callback receiver authorization webhookId body tings) :
    client.decode receiver authorization webhookId body = .ok tings ↔
      ∀ notification ∈ tings, ∃ data,
        client.reference receiver.context notification = .ok data := by
  have hbatch : Client.validateBatch tings = .ok () := by
    have hcount := h.count
    refine if_neg ?_
    rw [List.isEmpty_iff, ← List.length_eq_zero_iff]
    omega
  unfold Client.ReceiverCodec.decode
  rw [← references_ok]
  dsimp only
  rw [if_neg (by simp [h.destination, h.secret]), if_neg (Nat.not_lt.mpr h.size), h.batch]
  dsimp only
  rw [hbatch]
  dsimp only
  cases client.references receiver.context tings with
  | error e => simp
  | ok _ => simp

-- -----------------------------------------------------------------------------
-- Agreement
-- -----------------------------------------------------------------------------

/-- The parser reads the send's document back from its bytes. -/
def Send.ReadBack (send : Send) (server : DeliveryCodec) : Prop :=
  ∀ receivedAt, server.rfc3339 send.event.receivedAt = .ok receivedAt →
    server.fromSlice (send.document server receivedAt).toVec =
      some (send.document server receivedAt)

def Send.RepeatedBy (send : Send) (server : DeliveryCodec)
    (notification : Client.TingNotification) : Prop :=
  ∃ receivedAt, server.rfc3339 send.event.receivedAt = .ok receivedAt ∧
    (send.request server receivedAt).RepeatedBy notification

structure Send.AddressedTo (send : Send) (context : Client.DeliveryContext) : Prop where
  valid : Client.validateContext context = .ok ()
  appId : context.appId = send.appId
  recipient : context.recipientUuid = send.recipient.value

/-- The context is another account's, which a notification that leaves the recipient
out is told from by the digest. -/
structure Send.ForeignTo (send : Send) (server : DeliveryCodec)
    (context : Client.DeliveryContext) (notification : Client.TingNotification) : Prop where
  recipient : context.recipientUuid ≠ send.recipient.value
  digest : notification.recipient = none →
    server.sha256 (utf8 context.recipientUuid) ≠ server.sha256 (utf8 send.recipient.value)

structure Send.NamedBy (send : Send) (client : Client.ReceiverCodec) (data : Client.HookData) :
    Prop where
  sender : data.sender = send.event.provider.value
  id : data.metadata.id = send.event.id.uuid
  hookId : data.metadata.hookId = send.event.hookId.uuid
  silicon : data.metadata.silicon = ⟨send.silicon.value, send.siliconId.map PublicId.value⟩
  deliverySequence : data.metadata.deliverySequence = send.event.deliverySequence.value
  receivedAt : client.parseRfc3339 data.metadata.receivedAt = some send.event.receivedAt
  summary : data.metadata.summary = send.event.summary

structure Understood (server : DeliveryCodec) (client : Client.ReceiverCodec) (send : Send)
    (notification : Client.TingNotification) : Prop where
  accepted : ∀ context, send.AddressedTo context → client.Records notification →
    ∃ data, client.reference context notification = .ok data ∧ send.NamedBy client data
  refused : ∀ context, send.ForeignTo server context notification →
    ∃ e, client.reference context notification = .error e

theorem Send.RepeatedBy.understood (h : LibrariesAgree server client)
    {notification : Client.TingNotification} (hsend : send.RepeatedBy server notification) :
    Understood server client send notification where
  accepted context hcontext hting := by
    obtain ⟨receivedAt, htime, hn⟩ := hsend
    have hparsed := (h.instants _ _ htime).2
    have hreads : client.parseRfc3339 receivedAt ≠ none := by
      rw [hparsed]
      exact Option.some_ne_none _
    exact ⟨_, reference_repeated h send hreads hn hting hcontext.valid hcontext.appId
      hcontext.recipient, rfl, rfl, rfl, rfl, rfl, hparsed, rfl⟩
  refused context hforeign := by
    obtain ⟨receivedAt, htime, hn⟩ := hsend
    rcases hn.recipient with hnone | hsome
    · exact reference_refused h send hn (hforeign.digest hnone)
    · exact reference_misaddressed send hsome hforeign.recipient

/-- The server's sends and the client's receiver agree: the outbox takes every prepared
send under the key its recipient expects, a notification that repeats it is read by the
recipient as the same event and refused by every other account, and a callback is
decoded whole or refused whole accordingly. -/
theorem sends_received (h : LibrariesAgree server client) :
    (∀ (send : Send) body, send.prepare server = .ok body → send.ReadBack server →
      ∃ request, (server.fromSlice body).bind PreparedTing.ofJson = some request ∧
        server.preparedKey body send.recipient = .ok request.key ∧
        ∀ notification, request.RepeatedBy notification →
          Understood server client send notification) ∧
    ∀ receiver authorization webhookId body tings,
      client.Callback receiver authorization webhookId body tings →
      ((∀ notification ∈ tings, client.Records notification ∧ ∃ send : Send,
          send.RepeatedBy server notification ∧ send.AddressedTo receiver.context) →
        client.decode receiver authorization webhookId body = .ok tings) ∧
      ((∃ notification ∈ tings, ∃ send : Send, send.RepeatedBy server notification ∧
          send.ForeignTo server receiver.context notification) →
        ∃ e, client.decode receiver authorization webhookId body = .error e) := by
  refine ⟨fun send body hbody hread => ?_, fun receiver authorization webhookId body tings hc =>
    ⟨fun hall => ?_, ?_⟩⟩
  · obtain ⟨receivedAt, htime, rfl⟩ := Send.prepare_ok hbody
    refine ⟨send.request server receivedAt, ?_, ?_, fun notification hn =>
      Send.RepeatedBy.understood h ⟨receivedAt, htime, hn⟩⟩
    · rw [hread _ htime, Option.bind_some, prepared_ofJson]
      rfl
    · exact send.preparedKey_ok h.digest (h.instants _ _ htime).1 (hread _ htime)
  · refine (decode_ok hc).mpr fun notification hm => ?_
    obtain ⟨hting, send, hsend, haddressed⟩ := hall notification hm
    obtain ⟨data, hdata, -⟩ := (hsend.understood h).accepted _ haddressed hting
    exact ⟨data, hdata⟩
  · rintro ⟨notification, hm, send, hsend, hforeign⟩
    obtain ⟨e, he⟩ := (hsend.understood h).refused _ hforeign
    cases hd : client.decode receiver authorization webhookId body with
    | error e => exact ⟨e, rfl⟩
    | ok decoded =>
      -- A decoded batch is the one the body holds.
      have hsame : decoded = tings := by
        unfold Client.ReceiverCodec.decode at hd
        rw [if_neg (by simp [hc.destination, hc.secret]), if_neg (Nat.not_lt.mpr hc.size),
          hc.batch] at hd
        dsimp only at hd
        split at hd
        · cases hd
        · split at hd
          · cases hd
          · exact (Except.ok.inj hd).symm
      subst hsame
      obtain ⟨data, hdata⟩ := (decode_ok hc).mp hd notification hm
      rw [he] at hdata
      cases hdata

end

-- -----------------------------------------------------------------------------
-- A send to the Silicon itself
-- -----------------------------------------------------------------------------

namespace FeedNotification

def send : Send where
  appId := "hook"
  event := BillingHook.accepted
  silicon := BillingHook.silicon
  siliconId := none
  recipient := BillingHook.silicon
  recipientId := none
  delivery := .required
  app := by decide
  acceptable := ⟨by decide, by decide, by decide, by decide⟩

def digest : List UInt8 := [
  82, 147, 8, 97, 144, 6, 115, 98, 122, 150, 183, 194, 98, 181, 134, 13,
  30, 154, 84, 215, 48, 83, 145, 115, 207, 218, 74, 134, 25, 243, 133, 59]

def epoch : String := "1970-01-01T00:00:00Z"

/-- Hashes the recipient's uuid, and knows the text of one instant. -/
def hasher : DeliveryCodec where
  sha256 message := if message = utf8 BillingHook.silicon.value then digest
    else List.replicate 32 0
  rfc3339 instant := if instant = 0 then .ok epoch else .error "year"
  fromSlice _ := none

def server : DeliveryCodec :=
  { hasher with fromSlice := fun body =>
      if body = (send.document hasher epoch).toVec then some (send.document hasher epoch) else none }

def client : Client.ReceiverCodec where
  sha256 := hasher.sha256
  parseRfc3339 text := if text = epoch then some 0 else none
  parseUuid := PagedHistory.parseUuid
  fromSlice _ := none

theorem rfc3339_epoch {instant : Instant} {text : String}
    (h : server.rfc3339 instant = .ok text) : instant = 0 ∧ text = epoch := by
  simp only [server, hasher] at h
  split at h
  · rename_i hzero
    exact ⟨hzero, (Except.ok.inj h).symm⟩
  · cases h

theorem digest_length (message : List UInt8) : (server.sha256 message).length = 32 := by
  simp only [server, hasher]
  split
  · rfl
  · exact List.length_replicate

theorem parseRfc3339_epoch : client.parseRfc3339 epoch = some 0 := by
  simp only [client, if_true]

theorem libraries_agree (fromSlice : List UInt8 → Option Json) :
    LibrariesAgree server { client with fromSlice } where
  digest := digest_length
  sha256 := by simp only [server, client]
  instants instant text h := by
    obtain ⟨rfl, rfl⟩ := rfc3339_epoch h
    exact ⟨by decide, parseRfc3339_epoch⟩
  uuids := by
    simp only [client]
    exact PagedHistory.parseUuid_hyphenated

theorem read_back : send.ReadBack server := by
  intro receivedAt h
  obtain ⟨-, rfl⟩ := rfc3339_epoch h
  simp only [server, Send.document, DeliveryCodec.sendRequest, DeliveryCodec.producerKey, if_true]

def context : Client.DeliveryContext := ⟨"hook", BillingHook.silicon.value, none⟩

/-- A native notification, which leaves the recipient out. -/
def notification : Client.TingNotification where
  id := "ting_01"
  createdAt := epoch
  eventType := (send.request server epoch).notificationType
  recipient := none
  key := (send.request server epoch).key
  data := send.data epoch
  metadata := .object []

theorem repeated : send.RepeatedBy server notification := by
  refine ⟨epoch, ?_, rfl, .inl rfl, rfl, rfl, rfl⟩
  simp only [server, hasher]
  rfl

theorem records (fromSlice : List UInt8 → Option Json) :
    Client.ReceiverCodec.Records { client with fromSlice } notification := by
  refine ⟨by decide, ?_⟩
  show client.parseRfc3339 epoch ≠ none
  rw [parseRfc3339_epoch]
  exact Option.some_ne_none _

def secret : String := "a-callback-secret-of-thirty-two-characters"

def receiver : Client.Receiver := ⟨context, "wh_01", secret, by decide⟩

/-- The destination of another account. -/
def stranger : Client.Receiver := ⟨⟨"hook", "CaReader", none⟩, "wh_01", secret, by decide⟩

/-- The callback's body. -/
def batch : Json :=
  .object [("tings", .array [.object [
    ("id", .string notification.id),
    ("created_at", .string notification.createdAt),
    ("type", .string notification.eventType),
    ("key", .string notification.key),
    ("data", notification.data),
    ("metadata", notification.metadata)]])]

/-- Parses the callback. -/
def parse (body : List UInt8) : Option Json := if body = batch.toVec then some batch else none

def called : Client.ReceiverCodec := { client with fromSlice := parse }

theorem callback (receiver : Client.Receiver) (hid : receiver.webhookId = "wh_01")
    (hsecret : receiver.secret = secret) :
    called.Callback receiver (Client.bearerPrefix ++ secret) "wh_01" batch.toVec [notification] where
  destination := hid.symm
  secret := by
    rw [hsecret]
    rfl
  size := by decide +kernel
  batch := by
    simp only [called, parse, if_true]
    rfl
  count := by decide

/-- The Silicon's own destination reads the callback, another account's refuses it. -/
theorem feed_received :
    (∃ body request, send.prepare server = .ok body ∧
      server.preparedKey body BillingHook.silicon = .ok request.key ∧
      ∀ notification, PreparedTing.RepeatedBy request notification →
        Understood server called send notification) ∧
    called.decode receiver (Client.bearerPrefix ++ secret) "wh_01" batch.toVec =
      .ok [notification] ∧
    ∃ e, called.decode stranger (Client.bearerPrefix ++ secret) "wh_01" batch.toVec = .error e := by
  obtain ⟨hsends, hcallbacks⟩ := sends_received (libraries_agree parse)
  refine ⟨?_, ?_, ?_⟩
  · have hprepared : send.prepare server = .ok (send.document server epoch).toVec := rfl
    obtain ⟨request, -, hkey, hread⟩ := hsends send _ hprepared read_back
    exact ⟨_, request, hprepared, hkey, hread⟩
  · refine (hcallbacks _ _ _ _ _ (callback receiver rfl rfl)).1 fun other hm => ?_
    rw [List.mem_singleton.mp hm]
    exact ⟨records parse, send, repeated, by decide, rfl, rfl⟩
  · refine (hcallbacks _ _ _ _ _ (callback stranger rfl rfl)).2
      ⟨notification, List.mem_singleton_self _, send, repeated, by decide, fun _ => ?_⟩
    decide

end FeedNotification

end SiliconHook
