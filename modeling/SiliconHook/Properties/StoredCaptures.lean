import SiliconHook.Properties.AbuseControl
import SiliconHook.Store.Checks

/-!
# Captured requests in the logs

Capture bounds a request's body and headers, the tables also its method, URL,
path, query and media type. A request within the tables' bounds is logged as if
there were no constraint; any other one that is withheld leaves a strike and no
log row.
-/

namespace SiliconHook

open Text

/-- The bounds of the log columns that capture does not check. -/
structure CapturedRequest.Fits (lib : ExpressionLibrary) (request : CapturedRequest) : Prop where
  method : request.method.toList.length ≤ 32
  url : request.url.toList.length ≤ 16384
  path : (lib.path request.url).toList.length ≤ 4096
  query : ((lib.query request.url).getD "").toList.length ≤ 8192
  contentType : ∀ contentType ∈ request.contentType, contentType.toList.length ≤ 255

/-- An absolute URL of a web origin: neither it nor its path is empty. -/
structure WebUrl (lib : ExpressionLibrary) (url : String) : Prop where
  nonempty : 1 ≤ url.toList.length
  path : 1 ≤ (lib.path url).toList.length

inductive BlockReason.Made : BlockReason → Prop
  | signature (reason : RejectionReason) : Made (.signature reason)
  | material (detail : String) : Made (.materialUnavailable detail)

variable {app : Ingress} {clock : ZonedClock} {command : ReceiveRequestCommand}
  {parts request : CapturedRequest} {hook : Hook} {db db' : Store} {lib : ExpressionLibrary}

-- -----------------------------------------------------------------------------
-- What capture admits
-- -----------------------------------------------------------------------------

theorem isTokenChar_column {c : Char} (h : isTokenChar c = true) :
    isMethodColumnChar (toAsciiUpper c) = true := by
  have hpunctuation : ∀ d : Char, "!#$%&'*+-.^_\x60|~".toList.contains d = true →
      "!#$%&'*+.^_\x60|~-".toList.contains d = true := by
    intro d hd
    simp only [List.contains_eq_mem, decide_eq_true_eq, String.reduceToList, List.mem_cons,
      List.not_mem_nil, or_false] at hd ⊢
    tauto
  unfold toAsciiUpper
  split
  · rename_i hlower
    have hupper : isAsciiUpper (Char.ofNat (c.toNat - 32)) = true := by
      simp only [isAsciiLower, Bool.and_eq_true, decide_eq_true_eq] at hlower
      have hvalid : (c.toNat - 32).isValidChar := .inl (by omega)
      have hvalue : (Char.ofNat (c.toNat - 32)).toNat = c.toNat - 32 := by
        rw [Char.ofNat, dif_pos hvalid]
        rfl
      simp only [isAsciiUpper, hvalue, Bool.and_eq_true, decide_eq_true_eq]
      omega
    simp [isMethodColumnChar, isAsciiAlphanumeric, hupper]
  · unfold isTokenChar at h
    rw [Bool.or_eq_true] at h
    unfold isMethodColumnChar
    rw [Bool.or_eq_true]
    exact h.imp id (hpunctuation c)

/-- An admitted method is a token of the column, and an admitted body fits it. -/
theorem new_bounds (h : CapturedRequest.new parts = .ok request) :
    1 ≤ request.method.toList.length ∧ request.method.toList.all isMethodColumnChar = true ∧
      request.body.length ≤ 1048576 := by
  unfold CapturedRequest.new at h
  obtain ⟨⟨⟩, hmethod, h⟩ := Except.bind_ok.mp h
  obtain ⟨⟨⟩, hbody, h⟩ := Except.bind_ok.mp h
  obtain ⟨⟨⟩, -, h⟩ := Except.bind_ok.mp h
  obtain ⟨⟨⟩, -, h⟩ := Except.bind_ok.mp h
  rw [ensure_ok, not_or, not_not] at hmethod
  rw [ensure_ok] at hbody
  cases h
  refine ⟨?_, ?_, hbody⟩
  · have hne : parts.method.toList ≠ [] := by simpa using hmethod.1
    simpa [Nat.one_le_iff_ne_zero] using hne
  · rw [String.toList_ofList, List.all_map, List.all_eq_true]
    exact fun c hc => isTokenChar_column (List.all_eq_true.mp hmethod.2 c hc)

theorem checked_iff (h : CapturedRequest.new parts = .ok request) (hurl : WebUrl lib request.url) :
    request.Checked lib ↔ request.Fits lib := by
  obtain ⟨hmethod, htoken, hbody⟩ := new_bounds h
  constructor
  · intro hc
    exact ⟨hc.methodLength.2, hc.urlLength.2, hc.pathLength.2, hc.queryStringLength.2,
      fun contentType hm => (hc.contentTypeLength contentType hm).2⟩
  · intro hf
    exact ⟨⟨hmethod, hf.method⟩, htoken, ⟨hurl.nonempty, hf.url⟩, ⟨hurl.path, hf.path⟩,
      ⟨Nat.zero_le _, hf.query⟩, fun contentType hm => ⟨Nat.zero_le _, hf.contentType _ hm⟩, hbody⟩

-- -----------------------------------------------------------------------------
-- The other columns
-- -----------------------------------------------------------------------------

theorem boundedDetail_checked (detail : String) :
    LengthBetween 0 500 (boundedDetail detail) ∧
      (boundedDetail detail).toList.any isControl = false := by
  unfold boundedDetail
  rw [LengthBetween, String.toList_ofList]
  refine ⟨⟨Nat.zero_le _, List.length_take_le _ _⟩, ?_⟩
  rw [List.any_eq_false]
  intro c hc
  obtain ⟨d, -, rfl⟩ := List.mem_map.mp (List.mem_of_mem_take hc)
  split
  · decide
  · assumption

theorem BlockReason.Made.checked {reason : BlockReason} (h : reason.Made) :
    (LengthBetween 1 64 reason.code ∧ reason.code.toList.all isReasonCodeChar = true) ∧
      LengthBetween 0 500 reason.detail ∧ reason.detail.toList.any isControl = false := by
  cases h with
  | signature reason =>
    refine ⟨?_, boundedDetail_checked reason.message⟩
    show LengthBetween 1 64 reason.code ∧ reason.code.toList.all isReasonCodeChar = true
    cases reason <;> simp only [RejectionReason.code] <;> decide
  | material detail =>
    refine ⟨?_, boundedDetail_checked detail⟩
    show LengthBetween 1 64 "material_unavailable" ∧
      "material_unavailable".toList.all isReasonCodeChar = true
    decide

theorem HookName.checked (name : HookName) : LengthBetween 1 200 name.value := by
  have hvalid := name.valid
  unfold HookName.check at hvalid
  split at hvalid
  · cases hvalid
  · rename_i hempty
    split at hvalid
    · cases hvalid
    · split at hvalid
      · cases hvalid
      · rename_i hlength
        have hne : name.value.toList ≠ [] := by simpa using hempty
        exact ⟨List.length_pos_of_ne_nil hne, Nat.le_of_not_lt hlength⟩

theorem SiliconId.checked (siliconId : SiliconId) : LengthBetween 1 255 siliconId.value ∧
    siliconId.value.toList.all isAsciiGraphic = true := by
  have hvalid := siliconId.valid
  simp only [isExternalId, Bool.and_eq_true, decide_eq_true_eq, Bool.not_eq_true'] at hvalid
  obtain ⟨⟨hempty, hlength⟩, hgraphic⟩ := hvalid
  have hne : siliconId.value.toList ≠ [] := by simpa using hempty
  refine ⟨⟨List.length_pos_of_ne_nil hne, ?_⟩, hgraphic⟩
  exact Nat.le_trans (toList_length_le siliconId.value) hlength

theorem deliverySummary_checked {zone : HookTimeZone} (provider : HookName) (instant : Instant)
    (hzone : LengthBetween 1 64 zone.value) :
    LengthBetween 1 400 (clock.deliverySummary provider instant zone) := by
  have hname := provider.checked
  have hrendered : ((clock.rendered instant zone).getD "00:00:00 01-01-1970").toList.length ≤ 32 := by
    cases hr : clock.rendered instant zone with
    | none => decide
    | some text => exact clock.rendered_length instant zone text hr
  unfold LengthBetween at hname hzone ⊢
  simp only [ZonedClock.deliverySummary, String.toList_append, List.length_append,
    String.reduceToList, List.length_cons, List.length_nil]
  omega

-- -----------------------------------------------------------------------------
-- The calls that log a request
-- -----------------------------------------------------------------------------

/-- On a hook that stays active no constraint fails a call that logs the
request: an acceptance commits as without constraints, and a withheld request
gets its row. -/
structure Logged (app : Ingress) (hook : Hook) (request : CapturedRequest) : Prop where
  accepted : ∀ eventId sendId sendIds queuedAt db, db.Checked app.library →
    constrained app.library (app.codec.acceptEvent app.deliverySummary
        (app.acceptCommand hook request eventId) sendId sendIds queuedAt) db =
      app.codec.acceptEvent app.deliverySummary (app.acceptCommand hook request eventId) sendId
        sendIds queuedAt db
  withheld : ∀ (id : BlockedRequestId) reason (db : Store), db.Checked app.library →
    reason.Made → (db.hooks.select (activeHook hook.id)).length = 1 →
    db.blockedRequests.find id = none →
    ∃ blocked db', constrained app.library
      (recordBlockedRequest ⟨id, hook, request, reason⟩) db = .ok (blocked, db')

theorem HookRow.Checked.of_columns {row row' : HookRow} (h : row.Checked)
    (huuid : row'.siliconUuid = row.siliconUuid) (hzone : row'.timeZone = row.timeZone) :
    row'.Checked := by
  constructor
  · rw [huuid]
    exact h.siliconUuidFormat
  · rw [hzone]
    exact h.timeZoneLength

theorem checked_update {p : HookRow → Bool} {f : HookRow → HookRow}
    (h : ∀ row ∈ db.hooks.rows, row.Checked) (hf : ∀ row, Keyed.key (f row) = Keyed.key row)
    (huuid : ∀ row, (f row).siliconUuid = row.siliconUuid)
    (hzone : ∀ row, (f row).timeZone = row.timeZone) :
    ∀ row ∈ (db.hooks.update p f hf).rows, row.Checked := by
  intro row hm
  obtain ⟨old, hold, rfl⟩ := (Table.mem_update hf).mp hm
  split
  · exact (h old hold).of_columns (huuid old) (hzone old)
  · exact h old hold

theorem event_checked {id : EventId} {event : EventRecord} {sequence : DeliverySequence}
    {row : HookRow} (hrow : row.Checked)
    (hzone : LengthBetween 1 64 hook.snapshot.timeZone.value) (hrequest : request.Checked lib)
    (hevent : event = .accept clock.deliverySummary id hook request sequence) :
    (event.row row).Checked lib := by
  subst hevent
  exact {
    siliconIdLength := row.siliconId.checked.1
    siliconIdFormat := row.siliconId.checked.2
    siliconUuidFormat := hrow.siliconUuidFormat
    providerLength := hook.snapshot.name.checked
    summaryLength := deliverySummary_checked hook.snapshot.name request.receivedAt hzone
    deliverySequencePositive := sequence.positive
    capture := hrequest
    expiresAfterRetention := rfl }

theorem blocked_checked {id : BlockedRequestId} {reason : BlockReason} {row : HookRow}
    (hrow : row.Checked) (hreason : reason.Made) (hrequest : request.Checked lib) :
    ((BlockedRequest.record id hook request reason).row row).Checked lib :=
  { siliconIdLength := row.siliconId.checked.1
    siliconIdFormat := row.siliconId.checked.2
    siliconUuidFormat := hrow.siliconUuidFormat
    providerLength := hook.snapshot.name.checked
    reasonCodeLength := hreason.checked.1.1
    reasonCodeFormat := hreason.checked.1.2
    reasonDetailLength := hreason.checked.2.1
    reasonDetailFormat := hreason.checked.2.2
    capture := hrequest
    expiresAfterRetention := rfl }

theorem accepted_checked {accept : AcceptEvent} {codec : DeliveryCodec} {sendIds : Uuid → Uuid}
    (hdb : db.Checked lib) (hrequest : accept.request.Checked lib)
    (hzone : LengthBetween 1 64 accept.hook.snapshot.timeZone.value)
    (h : codec.acceptEvent clock.deliverySummary accept sendId sendIds now db =
      .ok (event, db')) : db'.Checked lib := by
  obtain ⟨mid, happended, hqueued⟩ := acceptEvent_ok h
  obtain ⟨row, events, hfind, hinsert, -, hmid⟩ := happended.stored
  have hmidChecked : mid.Checked lib := by
    subst hmid
    have hhooks := checked_update (p := activeHook accept.hook.id)
      (f := (·.received accept.request.receivedAt)) hdb.hooks (fun _ => rfl) (fun _ => rfl)
      fun _ => rfl
    refine ⟨hhooks, fun stored hm => ?_, hdb.blockedRequests⟩
    obtain hold | rfl := (Table.mem_insert hinsert).mp hm
    · exact hdb.events stored hold
    · obtain ⟨old, hold, rfl⟩ := Option.map_eq_some_iff.mp hfind
      exact event_checked ((hdb.hooks old (Table.find_some.mp hold).1).of_columns rfl rfl) hzone
        hrequest happended.record
  split at hqueued
  · obtain ⟨_, rfl⟩ := queueSends_frame hqueued
    exact ⟨hmidChecked.hooks, hmidChecked.events, hmidChecked.blockedRequests⟩
  · rw [hqueued]
    exact hmidChecked

theorem recordBlockedRequest_active (record : RecordBlockedRequest)
    (hactive : (db.hooks.select (activeHook record.hook.id)).length = 1) :
    ∃ row ∈ db.hooks.rows, recordBlockedRequest record db =
      match db.blockedRequests.insert
          ((BlockedRequest.record record.id record.hook record.request record.reason).row
            (row.blocked record.request.receivedAt)) with
      | none => .error (.database "blocked_requests_pkey")
      | some blockedRequests => .ok
          (.record record.id record.hook record.request record.reason, { db with
            hooks := db.hooks.update (activeHook record.hook.id)
              (HookRow.blocked record.request.receivedAt)
              (HookRow.blocked_id record.request.receivedAt)
            blockedRequests := blockedRequests }) := by
  obtain ⟨row, hrow, ha⟩ := find_active hactive
  have hfind := Table.find_update (t := db.hooks) (p := activeHook record.hook.id)
    (f := HookRow.blocked record.request.receivedAt) (k := record.hook.id)
    (HookRow.blocked_id record.request.receivedAt)
  rw [hrow, Option.map_some, if_pos ha] at hfind
  refine ⟨row, (Table.find_some.mp hrow).1, ?_⟩
  rw [recordBlockedRequest, if_neg (not_not.mpr hactive)]
  simp only [insertBlockedRequest]
  have hid : (BlockedRequest.record record.id record.hook record.request record.reason).hookId =
      record.hook.id := rfl
  rw [hid, hfind]
  dsimp only
  cases db.blockedRequests.insert
    ((BlockedRequest.record record.id record.hook record.request record.reason).row
      (row.blocked record.request.receivedAt)) <;> rfl

theorem withheld_checked {record : RecordBlockedRequest} {blocked : BlockedRequest}
    (hdb : db.Checked lib) (hreason : record.reason.Made) (hrequest : record.request.Checked lib)
    (h : recordBlockedRequest record db = .ok (blocked, db')) : db'.Checked lib := by
  obtain ⟨row, hm, hcall⟩ := recordBlockedRequest_active _ (recordBlockedRequest_ok h).2.1
  rw [hcall] at h
  split at h
  · cases h
  · rename_i blockedRequests hinsert
    cases h
    have hhooks := checked_update (p := activeHook record.hook.id) hdb.hooks
      (HookRow.blocked_id record.request.receivedAt) (fun _ => rfl) fun _ => rfl
    refine ⟨hhooks, hdb.events, fun stored hs => ?_⟩
    obtain hold | rfl := (Table.mem_insert hinsert).mp hs
    · exact hdb.blockedRequests stored hold
    · exact blocked_checked ((hdb.hooks row hm).of_columns rfl rfl) hreason hrequest

/-- A withheld request's row is its capture, which then is within the constraints. -/
theorem withheld_row {record : RecordBlockedRequest} {blocked : BlockedRequest}
    (h : recordBlockedRequest record db = .ok (blocked, db')) (hdb : db'.Checked lib) :
    record.request.Checked lib := by
  obtain ⟨rfl, -, row, blockedRequests, hinsert, -, rfl⟩ := recordBlockedRequest_ok h
  exact (hdb.blockedRequests _ ((Table.mem_insert hinsert).mpr (.inr rfl))).capture

/-- The routed hook is active in the database it was read from, and its zone is a
checked row's. -/
theorem route_active (hdb : db.Checked lib)
    (h : Ingress.route command databaseTime db = .ok (hook, now)) :
    (db.hooks.select (activeHook hook.id)).length = 1 ∧
      LengthBetween 1 64 hook.snapshot.timeZone.value := by
  unfold Ingress.route at h
  split at h <;> cases h
  rename_i hres
  obtain ⟨-, henabled, row, hm, -, hsnapshot, -⟩ := resolveEndpoint_active (liftStore_ok.mp hres)
  have hid : hook.id = row.id := congrArg HookSnapshot.id hsnapshot
  have hstatus : row.status = .active := by
    have hhook : hook.status = row.status := congrArg HookSnapshot.status hsnapshot
    rw [← hhook]
    exact eq_of_beq henabled
  have hlive : (row.disabledAt.isNone && row.deletedAt.isNone) = true := by
    unfold HookRow.status at hstatus
    cases hdel : row.deletedAt <;> cases hdis : row.disabledAt <;> simp [hdel, hdis] at hstatus ⊢
  constructor
  · have hselect := Table.select_key (t := db.hooks) (k := hook.id)
      (q := fun row => row.disabledAt.isNone && row.deletedAt.isNone)
    have hfind : db.hooks.find hook.id = some row := Table.find_some.mpr ⟨hm, hid.symm⟩
    simp only [hfind, Option.toList_some, List.filter_cons, hlive, if_true, List.filter_nil]
      at hselect
    have hactive : activeHook hook.id = fun row =>
        decide (Keyed.key row = hook.id) && (row.disabledAt.isNone && row.deletedAt.isNone) := by
      funext row
      exact Bool.and_assoc _ _ _
    rw [hactive, hselect, List.length_singleton]
  · have hzone : hook.snapshot.timeZone = row.timeZone := by rw [hsnapshot]; rfl
    rw [hzone]
    exact (hdb.hooks row hm).timeZoneLength

/-- A captured request is logged exactly where it fits the columns. -/
theorem captured_request_logged_iff (hsummary : app.deliverySummary = clock.deliverySummary)
    (hdb : db.Checked app.library)
    (hroute : Ingress.route command databaseTime db = .ok (hook, now))
    (hcapture : app.capture command now = .ok request) (hurl : WebUrl app.library request.url) :
    Logged app hook request ↔ request.Fits app.library := by
  obtain ⟨hactive, hzone⟩ := route_active hdb hroute
  have hnew := Except.mapError_ok.mp hcapture
  rw [← checked_iff hnew hurl]
  constructor
  · intro hlogged
    have hempty : ({ db with blockedRequests := .empty } : Store).Checked app.library :=
      ⟨hdb.hooks, hdb.events, by simp [Table.empty]⟩
    obtain ⟨blocked, db', hcall⟩ := hlogged.withheld ⟨0⟩ _ _ hempty (.material "") hactive
      Table.find_empty
    obtain ⟨hrecord, hchecked⟩ := constrained_ok.mp hcall
    exact withheld_row hrecord hchecked
  · intro hrequest
    constructor
    · intro eventId sendId sendIds queuedAt stored hstored
      rw [hsummary]
      exact constrained_eq fun event db' hcall => accepted_checked hstored hrequest hzone hcall
    · intro id reason stored hstored hreason hstill hfresh
      obtain ⟨row, hm, hcall⟩ := recordBlockedRequest_active
        ⟨id, hook, request, reason⟩ hstill
      cases hinsert : stored.blockedRequests.insert
          ((BlockedRequest.record id hook request reason).row (row.blocked request.receivedAt)) with
      | none =>
        obtain ⟨clash, hclash⟩ := Table.insert_eq_none.mp hinsert
        cases hfresh.symm.trans hclash
      | some blockedRequests =>
        simp only [hinsert] at hcall
        exact ⟨_, _, constrained_ok.mpr ⟨hcall, withheld_checked hstored hreason hrequest hcall⟩⟩

namespace LongMethod

open UnsignedRequests (database row)

def utcClock : ZonedClock where
  rendered _ _ := some "00:00:00 01-01-1970"
  rendered_length _ _ text h := by
    cases h
    decide

def receiver : Ingress :=
  { UnsignedRequests.receiver with
    deliverySummary := utcClock.deliverySummary
    library := { UnsignedRequests.receiver.library with path := fun _ => "/" }
    requestUrl := fun path _ => "https://hook.example" ++ path }

def routed : Hook := ⟨row.snapshot, by decide, by decide, by decide, by decide⟩

def sent (method : String) : ReceiveRequestCommand :=
  ⟨UnsignedRequests.silicon.value, row.endpointKey, method, "/", none, [], [], "192.0.2.1"⟩

def captured (method : String) : CapturedRequest :=
  ⟨method, "https://hook.example/", [], [], "192.0.2.1", 0⟩

theorem post_logged_iff :
    Logged receiver routed (captured "POST") ↔ (captured "POST").Fits receiver.library :=
  have hsummary : receiver.deliverySummary = utcClock.deliverySummary := rfl
  have hdb : database.Checked receiver.library := by decide +kernel
  have hroute : Ingress.route (sent "POST") 0 database = .ok (routed, 0) := by rfl
  have hcapture : receiver.capture (sent "POST") 0 = .ok (captured "POST") := by decide +kernel
  captured_request_logged_iff hsummary hdb hroute hcapture ⟨by decide, by decide⟩

def longMethod : String := String.ofList (List.replicate 33 'A')

/-- A token of thirty-three characters passes capture; withheld, it counts a strike
and then has no log row. -/
theorem long_method_unlogged :
    receiver.capture (sent longMethod) 0 = .ok (captured longMethod) ∧
      ∃ struck, recordUnverifiedRequest routed.id "192.0.2.1" 0 database =
          .ok (.counted 1, struck) ∧
        constrained receiver.library (recordBlockedRequest
          ⟨⟨1⟩, routed, captured longMethod, .signature .signatureMissing⟩) struck =
          .error (.database "check_violation") := by
  refine ⟨by decide +kernel, ?_⟩
  refine ⟨_, rfl, by decide +kernel⟩

end LongMethod

end SiliconHook
