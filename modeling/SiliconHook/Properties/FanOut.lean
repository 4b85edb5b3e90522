import SiliconHook.Store.AccountsEvents
import SiliconHook.Store.Events
import SiliconHook.Store.Hooks
import SiliconHook.Store.IdentityLinks
import SiliconHook.Library.Transition

/-!
# Event fan-out

An accepted event of a hook that was linked when its request was routed is
queued for its Silicon and for every observer with access at that moment, once
each and for nobody else. Observers stay within their limit whatever happens
around an acceptance, and repeating a queued send finds it while its event is
retained.
-/

namespace SiliconHook

section

variable {codec : DeliveryCodec} {appId : String} {event : EventRecord}
  {silicon : ReferencedSilicon} {now : Instant} {db db' : Store}

-- -----------------------------------------------------------------------------
-- The sends of one event
-- -----------------------------------------------------------------------------

/-- A send an event is due: to whom, in which mode and for which subscription. -/
structure DueSend where
  recipient : AccountUuid
  publicId : Option PublicId
  delivery : TingDeliveryMode
  observer : Option Uuid

def Store.publicIdOf (db : Store) (uuid : AccountUuid) : Option PublicId :=
  (db.accounts.find uuid).bind AccountRow.publicId

/-- The Silicon itself, then every observer that has access. -/
def Store.dueSendsOf (db : Store) (silicon : AccountUuid) : List DueSend :=
  ⟨silicon, db.publicIdOf silicon, .required, none⟩ ::
    ((db.observersOf silicon).filter db.observes).map fun row =>
      ⟨row.recipientUuid, db.publicIdOf row.recipientUuid, .ordinary, some row.id⟩

def DeliveryCodec.Carries (codec : DeliveryCodec) (appId : String) (event : EventRecord)
    (silicon : ReferencedSilicon) (now : Instant) (row : OutboxRow) (send : DueSend) : Prop :=
  ∃ id key body expiresAt,
    row = .queued id event.id send.recipient key body send.observer expiresAt now ∧
      codec.preparedKey body send.recipient = .ok key ∧
      codec.prepareEvent appId event silicon
        ⟨send.recipient.value, send.publicId.map PublicId.value⟩ send.delivery = .ok body

/-- An outbox extended by the rows that carry the sends, one for each. -/
def DeliveryCodec.Queues (codec : DeliveryCodec) (appId : String) (event : EventRecord)
    (silicon : ReferencedSilicon) (now : Instant) (sends : List DueSend) (db db' : Store) : Prop :=
  ∃ outbox new, db' = { db with tingOutbox := outbox } ∧ outbox.rows = db.tingOutbox.rows ++ new ∧
    List.Forall₂ (codec.Carries appId event silicon now) new sends ∧
    ((db.tingOutbox.rows.map OutboxRow.id).Nodup → (outbox.rows.map OutboxRow.id).Nodup)

def Store.Unqueued (db : Store) (event : EventId) (recipient : AccountUuid) : Prop :=
  ∀ row ∈ db.tingOutbox.rows, ¬(row.eventId = event ∧ row.recipientId = recipient)

theorem Store.Unqueued.find (h : db.Unqueued e recipient) :
    db.tingOutbox.find (e, recipient) = none := by
  refine Table.find_none.mpr fun row hm hk => ?_
  exact h row hm (Prod.mk.injEq .. ▸ hk)

theorem enqueueSend_ok (send : DueSend) {id : Uuid}
    (h : codec.enqueueSend appId id event silicon send.recipient send.publicId send.delivery
      send.observer now db = .ok db') (hfree : db.Unqueued event.id send.recipient) :
    codec.Queues appId event silicon now [send] db db' := by
  unfold DeliveryCodec.enqueueSend at h
  split at h
  · cases h
  · rename_i body hbody
    split at h
    · cases h
    · rename_i id' queued hq
      cases h
      obtain ⟨key, hkey, hnew | hold⟩ := enqueueTing_ok hq
      · obtain ⟨stored, outbox, -, -, hins, hcheck, -, rfl⟩ := hnew
        have hrows := Table.insert_rows hins
        refine ⟨outbox, _, rfl, hrows, .cons ?_ .nil, fun hids => ?_⟩
        · exact ⟨_, key, body, _, rfl, hkey, hbody⟩
        · rw [hrows, List.map_append, List.nodup_append]
          refine ⟨hids, List.nodup_singleton _, fun i hi j hj => ?_⟩
          obtain ⟨other, hm, rfl⟩ := List.mem_map.mp hi
          obtain rfl := List.mem_singleton.mp hj
          exact OutboxRow.check_id hcheck other hm
      · obtain ⟨-, row, hfind, -⟩ := existingSend_ok.mp hold
        rw [hfree.find] at hfind
        cases hfind

theorem DeliveryCodec.Queues.append {first second : List DueSend} {mid : Store}
    (h : codec.Queues appId event silicon now first db mid)
    (h' : codec.Queues appId event silicon now second mid db') :
    codec.Queues appId event silicon now (first ++ second) db db' := by
  obtain ⟨_, new, rfl, hrows, hnew, hids⟩ := h
  obtain ⟨outbox, new', rfl, hrows', hnew', hids'⟩ := h'
  refine ⟨outbox, new ++ new', rfl, ?_, List.rel_append hnew hnew', fun h => hids' (hids h)⟩
  rw [hrows', hrows, List.append_assoc]

theorem DeliveryCodec.Queues.mem {sends : List DueSend} {row : OutboxRow}
    (h : codec.Queues appId event silicon now sends db db') (hm : row ∈ db'.tingOutbox.rows) :
    row ∈ db.tingOutbox.rows ∨ ∃ send ∈ sends, codec.Carries appId event silicon now row send := by
  obtain ⟨outbox, new, rfl, hrows, hnew, -⟩ := h
  simp only [hrows, List.mem_append] at hm
  exact hm.imp_right (exists_mem_of_forall₂ hnew)

theorem DeliveryCodec.Queues.unqueued {send : DueSend} {recipient : AccountUuid}
    (h : codec.Queues appId event silicon now [send] db db')
    (hfree : db.Unqueued event.id recipient) (hne : send.recipient ≠ recipient) :
    db'.Unqueued event.id recipient := by
  intro row hm hk
  obtain hm | ⟨sent, hs, _, _, _, _, rfl, -⟩ := h.mem hm
  · exact hfree row hm hk
  · obtain rfl := List.mem_singleton.mp hs
    exact hne hk.2

def ObserverRow.send (observer : ObserverRow) : DueSend :=
  ⟨observer.recipientUuid, observer.publicId, .ordinary, some observer.id⟩

theorem enqueueCopies_ok {sendIds : Uuid → Uuid} {observers : List ObserverRow}
    (h : codec.enqueueCopies appId sendIds event silicon now observers db = .ok db')
    (hnodup : (observers.map ObserverRow.recipientUuid).Nodup)
    (hfree : ∀ observer ∈ observers, db.Unqueued event.id observer.recipientUuid) :
    codec.Queues appId event silicon now (observers.map ObserverRow.send) db db' := by
  induction observers generalizing db with
  | nil =>
    cases h
    exact ⟨_, [], rfl, (List.append_nil _).symm, .nil, id⟩
  | cons observer rest ih =>
    unfold DeliveryCodec.enqueueCopies at h
    split at h
    · cases h
    · rename_i mid hmid
      rw [List.map_cons, List.nodup_cons] at hnodup
      have hfirst := enqueueSend_ok observer.send hmid
        (hfree observer (List.mem_cons_self ..))
      refine hfirst.append (ih h hnodup.2 fun other hm => ?_)
      refine hfirst.unqueued (hfree other (List.mem_cons_of_mem _ hm)) fun he => hnodup.1 ?_
      exact List.mem_map.mpr ⟨other, hm, he.symm⟩

-- -----------------------------------------------------------------------------
-- Observers
-- -----------------------------------------------------------------------------

theorem Store.observersOf_recipients (db : Store) (s : AccountUuid) :
    ((db.observersOf s).map SubscriptionRow.recipientUuid).Nodup := by
  have hkeys : ((db.observersOf s).map (Keyed.key (κ := AccountUuid × AccountUuid))).Nodup :=
    (List.filter_sublist.map _).nodup db.observerSubscriptions.nodup
  have hsame : (db.observersOf s).map (Keyed.key (κ := AccountUuid × AccountUuid)) =
      ((db.observersOf s).map SubscriptionRow.recipientUuid).map fun r => (s, r) := by
    rw [List.map_map]
    refine List.map_congr_left fun row hm => ?_
    have hs : row.siliconUuid = s := by simpa using (List.mem_filter.mp hm).2
    simp [Keyed.key, hs]
  rw [hsame] at hkeys
  exact .of_map _ hkeys

theorem Store.observerRows_perm (hlimit : (db.observersOf s).length ≤ maxObserversPerSilicon) :
    ((db.observerRows s).map ObserverRow.send).Perm
      (((db.observersOf s).filter db.observes).map fun row =>
        ⟨row.recipientUuid, db.publicIdOf row.recipientUuid, .ordinary, some row.id⟩) := by
  have hlen : (((db.observersOf s).filter db.observes).insertionSort fun a b =>
      a.id.toNat ≤ b.id.toNat).length ≤ maxObserversPerSilicon + 1 := by
    rw [List.length_insertionSort]
    exact (List.length_filter_le ..).trans (hlimit.trans (Nat.le_succ _))
  rw [observerRows, List.take_of_length_le hlen, List.map_map]
  exact (List.perm_insertionSort ..).map _

theorem Store.mem_observerRows {observer : ObserverRow} (h : observer ∈ db.observerRows s) :
    ∃ row ∈ db.observersOf s, row.recipientUuid = observer.recipientUuid := by
  obtain ⟨row, hm, rfl⟩ := List.mem_map.mp h
  have hm := List.mem_of_mem_take hm
  rw [List.mem_insertionSort] at hm
  exact ⟨row, List.mem_of_mem_filter hm, rfl⟩

theorem Store.observerRows_recipients (db : Store) (s : AccountUuid) :
    ((db.observerRows s).map ObserverRow.recipientUuid).Nodup := by
  rw [observerRows, List.map_map]
  refine ((List.take_sublist ..).map _).nodup ?_
  refine (((List.perm_insertionSort ..).map _).nodup_iff).mpr ?_
  exact (List.filter_sublist.map _).nodup (db.observersOf_recipients s)

/-- What fan-out relies on: observers within their limit and never the Silicon
itself, and every queued send prepared for its recipient and of a stored event. -/
structure FanOutInv (codec : DeliveryCodec) (db : Store) : Prop where
  limit : ∀ s, (db.observersOf s).length ≤ maxObserversPerSilicon
  notSelf : ∀ row ∈ db.observerSubscriptions.rows, row.siliconUuid ≠ row.recipientUuid
  stored : ∀ row ∈ db.tingOutbox.rows, (db.events.find row.eventId).isSome
  prepared : ∀ row ∈ db.tingOutbox.rows,
    codec.preparedKey row.requestBody row.recipientId = .ok row.idempotencyKey

/-- The event's sends are in the outbox, one for each, and no others of it. -/
def DeliveryCodec.FansOut (codec : DeliveryCodec) (appId : String) (event : EventRecord)
    (s : AccountUuid) (now : Instant) (db db' : Store) : Prop :=
  ∃ sends, sends.Perm (db.dueSendsOf s) ∧
    List.Forall₂ (codec.Carries appId event ⟨s.value, (db.publicIdOf s).map PublicId.value⟩ now)
      (db'.tingOutbox.select fun row => row.eventId = event.id) sends

theorem queueSends_ok {sendIds : Uuid → Uuid}
    (h : codec.queueSends appId sendId sendIds event s now db = .ok db')
    (hlimit : (db.observersOf s).length ≤ maxObserversPerSilicon)
    (hself : ∀ row ∈ db.observerSubscriptions.rows, row.siliconUuid ≠ row.recipientUuid)
    (hfree : ∀ row ∈ db.tingOutbox.rows, row.eventId ≠ event.id) :
    ∃ sends, sends.Perm (db.dueSendsOf s) ∧ codec.Queues appId event
      ⟨s.value, (db.publicIdOf s).map PublicId.value⟩ now sends db db' := by
  have hunqueued : ∀ recipient, db.Unqueued event.id recipient :=
    fun recipient row hm hk => hfree row hm hk.1
  unfold DeliveryCodec.queueSends at h
  simp only at h
  split at h
  · cases h
  · rename_i mid hmid
    have hfirst := enqueueSend_ok ⟨s, db.publicIdOf s, .required, none⟩ hmid
      (hunqueued s)
    have hsame : mid.observerRows s = db.observerRows s := by
      obtain ⟨outbox, new, rfl, -⟩ := hfirst
      rfl
    unfold DeliveryCodec.enqueueObservers at h
    simp only [hsame] at h
    split at h
    · cases h
    · refine ⟨_, (Store.observerRows_perm hlimit).cons _, ?_⟩
      have hcopies := enqueueCopies_ok h ?_ ?_
      · exact hfirst.append hcopies
      · exact db.observerRows_recipients s
      · intro observer hm
        refine hfirst.unqueued (hunqueued _) fun he => ?_
        obtain ⟨row, hrow, hr⟩ := Store.mem_observerRows hm
        obtain ⟨hrow, hs⟩ := List.mem_filter.mp hrow
        exact hself row hrow ((of_decide_eq_true hs).trans (he.trans hr.symm))

theorem FanOutInv.unqueued (h : FanOutInv codec db)
    (ha : Appended deliverySummary command db event db') :
    ∀ row ∈ db.tingOutbox.rows, row.eventId ≠ event.id := by
  obtain ⟨hook, events, -, hins, -⟩ := ha.stored
  intro row hm he
  have hstored := h.stored row hm
  have hfresh := Table.insert_fresh hins
  rw [show Keyed.key (event.row hook) = event.id from rfl] at hfresh
  rw [he, hfresh] at hstored
  cases hstored

/-- What the acceptance of an event committed: its sends on top of the append. -/
theorem FanOutInv.accepted (h : FanOutInv codec db) {sendIds : Uuid → Uuid}
    (ha : codec.acceptEvent deliverySummary command sendId sendIds now db = .ok (event, db')) :
    FanOutInv codec db' ∧
      match command.delivery, command.hook.siliconUuid with
      | some appId, some s => codec.FansOut appId event s now db db'
      | _, _ => db'.tingOutbox.select (fun row => row.eventId = event.id) = [] := by
  obtain ⟨mid, happended, hqueued⟩ := acceptEvent_ok ha
  have hfree := h.unqueued happended
  obtain ⟨hook, events, -, hins, -, rfl⟩ := happended.stored
  have hkey : Keyed.key (event.row hook) = event.id := rfl
  have hkept : ∀ row ∈ db.tingOutbox.rows, (events.find row.eventId).isSome := by
    intro row hm
    rw [Table.find_insert hins, hkey, if_neg (hfree row hm)]
    exact h.stored row hm
  have hnone : db.tingOutbox.select (fun row => row.eventId = event.id) = [] := by
    rw [Table.select, List.filter_eq_nil_iff]
    intro row hm
    simpa using hfree row hm
  cases hd : command.delivery with
  | none =>
    simp only [hd] at hqueued ⊢
    subst hqueued
    exact ⟨⟨h.limit, h.notSelf, hkept, h.prepared⟩, hnone⟩
  | some appId =>
    cases hs : command.hook.siliconUuid with
    | none =>
      simp only [hd, hs] at hqueued ⊢
      subst hqueued
      exact ⟨⟨h.limit, h.notSelf, hkept, h.prepared⟩, hnone⟩
    | some s =>
      simp only [hd, hs] at hqueued ⊢
      obtain ⟨sends, hperm, outbox, new, rfl, hrows, hnew, -⟩ := queueSends_ok hqueued (h.limit s)
        h.notSelf hfree
      have hcarried : ∀ row ∈ new, row.eventId = event.id ∧
          codec.preparedKey row.requestBody row.recipientId = .ok row.idempotencyKey := by
        intro row hm
        obtain ⟨send, -, _, _, _, _, rfl, hkey, -⟩ := exists_mem_of_forall₂ hnew hm
        exact ⟨rfl, hkey⟩
      constructor
      · refine ⟨h.limit, h.notSelf, ?_, ?_⟩
        · intro row hm
          simp only [hrows, List.mem_append] at hm
          obtain hm | hm := hm
          · exact hkept row hm
          · rw [(hcarried row hm).1]
            show (events.find event.id).isSome
            rw [Table.find_insert hins, hkey, if_pos rfl]
            rfl
        · intro row hm
          simp only [hrows, List.mem_append] at hm
          obtain hm | hm := hm
          · exact h.prepared row hm
          · exact (hcarried row hm).2
      · refine ⟨sends, hperm, ?_⟩
        have hselect : (outbox.select fun row => row.eventId = event.id) = new := by
          rw [Table.select, hrows, List.filter_append]
          have hnew : new.filter (fun row => row.eventId = event.id) = new := by
            rw [List.filter_eq_self]
            intro row hm
            simpa using (hcarried row hm).1
          rw [Table.select] at hnone
          rw [hnone, hnew, List.nil_append]
        show List.Forall₂ _ (outbox.select fun row => row.eventId = event.id) sends
        rw [hselect]
        exact hnew

-- -----------------------------------------------------------------------------
-- Other steps
-- -----------------------------------------------------------------------------

theorem FanOutInv.of_rows (h : FanOutInv codec db)
    (hsubs : db'.observerSubscriptions.rows.Sublist db.observerSubscriptions.rows)
    (hevents : db'.events = db.events)
    (hrows : ∀ row ∈ db'.tingOutbox.rows, ∃ old ∈ db.tingOutbox.rows,
      row.eventId = old.eventId ∧ row.recipientId = old.recipientId ∧
        row.requestBody = old.requestBody ∧ row.idempotencyKey = old.idempotencyKey) :
    FanOutInv codec db' := by
  refine ⟨fun s => ?_, fun row hm => h.notSelf row (hsubs.subset hm), ?_, ?_⟩
  · exact (hsubs.filter _).length_le.trans (h.limit s)
  · intro row hm
    obtain ⟨old, hold, he, -⟩ := hrows row hm
    rw [hevents, he]
    exact h.stored old hold
  · intro row hm
    obtain ⟨old, hold, -, hr, hb, hk⟩ := hrows row hm
    rw [hr, hb, hk]
    exact h.prepared old hold

theorem FanOutInv.removed {p : SubscriptionRow → Bool} (h : FanOutInv codec db)
    (hr : Store.Removes p db db') : FanOutInv codec db' := by
  refine h.of_rows ?_ hr.events fun row hm => ⟨row, ?_, rfl, rfl, rfl, rfl⟩
  · rw [hr.subscriptions]
    exact List.filter_sublist
  · rw [hr.outbox] at hm
    exact List.mem_of_mem_filter hm

theorem FanOutInv.updated {f : OutboxRow → OutboxRow} {p : OutboxRow → Bool}
    (h : FanOutInv codec db) (hf : ∀ row, Keyed.key (f row) = Keyed.key row)
    (hb : ∀ row, (f row).requestBody = row.requestBody ∧
      (f row).idempotencyKey = row.idempotencyKey) :
    FanOutInv codec { db with tingOutbox := db.tingOutbox.update p f hf } := by
  refine h.of_rows (List.Sublist.refl _) rfl fun row hm => ?_
  obtain ⟨old, hold, rfl⟩ := (Table.mem_update hf).mp hm
  refine ⟨old, hold, ?_⟩
  split
  · have hk := hf old
    simp only [Keyed.key, Prod.mk.injEq] at hk
    exact ⟨hk.1, hk.2, hb old⟩
  · exact ⟨rfl, rfl, rfl, rfl⟩

theorem FanOutInv.purged (h : FanOutInv codec db) (p : EventRow → Bool) :
    FanOutInv codec (db.deleteEvents p) := by
  refine ⟨h.limit, h.notSelf, ?_, fun row hm => h.prepared row (List.mem_of_mem_filter hm)⟩
  intro row hm
  obtain ⟨hm, hr⟩ := Table.mem_delete.mp hm
  obtain ⟨stored, hstored⟩ := Option.isSome_iff_exists.mp (h.stored row hm)
  have hkept : p stored = false := by
    by_contra hp
    obtain ⟨hmem, hid⟩ := Table.find_some.mp hstored
    have hremoved : row.eventId ∈ (db.events.select p).map EventRow.id :=
      List.mem_map.mpr ⟨stored, List.mem_filter.mpr ⟨hmem, by simpa using hp⟩, hid⟩
    simp only [List.contains_eq_mem, decide_eq_false_iff_not] at hr
    exact hr hremoved
  show ((db.events.delete p).find row.eventId).isSome
  rw [Table.find_delete, hstored]
  simp [hkept]

theorem linkIdentities_outbox (mapping : IdentityMapping) (dryRun : Bool) (clock : Instant)
    (auditLog : List AuditRow) :
    (linkIdentities mapping dryRun clock ⟨db, auditLog⟩).2.db.tingOutbox = db.tingOutbox := by
  unfold linkIdentities
  split
  · rfl
  · rename_i hok
    obtain ⟨-, links, -, -, -, rfl⟩ := applyMapping_ok.mp hok
    cases dryRun <;> rfl

theorem FanOutInv.linked (h : FanOutInv codec db) (mapping : IdentityMapping) (dryRun : Bool)
    (clock : Instant) (auditLog : List AuditRow) :
    FanOutInv codec (linkIdentities mapping dryRun clock ⟨db, auditLog⟩).2.db := by
  unfold linkIdentities
  split
  · exact h
  · rename_i hok
    obtain ⟨-, links, -, -, -, rfl⟩ := applyMapping_ok.mp hok
    dsimp only
    split
    · exact h
    · refine ⟨h.limit, h.notSelf, fun row hm => ?_, h.prepared⟩
      show ((rekeyEvents _ _ db.events).find row.eventId).isSome
      rw [rekeyEvents, Table.find_assign, Option.isSome_map]
      exact h.stored row hm

theorem FanOutInv.subscribed {id : Uuid} {recipient : AccountUuid} (h : FanOutInv codec db)
    (hs : subscribe id s recipient db = .ok (row, db')) : FanOutInv codec db' := by
  unfold subscribe at hs
  split at hs
  · cases hs
    exact h
  · split at hs
    · cases hs
    · rename_i hlimit
      split at hs
      · cases hs
      · rename_i hne
        split at hs
        · cases hs
        · split at hs
          · cases hs
          · rename_i subscriptions hins
            cases hs
            have hrows := Table.insert_rows hins
            refine ⟨fun t => ?_, fun row hm => ?_, h.stored, h.prepared⟩
            · simp only [Store.observersOf, Table.select, hrows, List.filter_append,
                List.length_append]
              by_cases ht : s = t
              · subst ht
                simp only [List.filter_cons, decide_true, if_true, List.filter_nil,
                  List.length_cons, List.length_nil]
                exact not_le.mp hlimit
              · simp only [List.filter_cons, ht, decide_false, Bool.false_eq_true, if_false,
                  List.filter_nil, List.length_nil, Nat.add_zero]
                exact h.limit t
            · obtain hm | rfl := (Table.mem_insert hins).mp hm
              · exact h.notSelf row hm
              · exact hne

-- -----------------------------------------------------------------------------
-- Failures and repetitions
-- -----------------------------------------------------------------------------

def observerLimitExceeded : StoreError :=
  .corruptData "observer_subscriptions" "observer limit exceeded"

theorem enqueueSend_error {id : Uuid} {observer : Option Uuid} {recipient : AccountUuid}
    (h : codec.enqueueSend appId id event silicon recipient publicId delivery observer now db =
      .error e) : e ≠ observerLimitExceeded := by
  unfold DeliveryCodec.enqueueSend at h
  split at h
  · cases h
    simp [observerLimitExceeded]
  · split at h
    · rename_i hq
      cases h
      rintro rfl
      exact absurd (enqueueTing_error hq) (by decide)
    · cases h

theorem enqueueSend_observers {id : Uuid} {observer : Option Uuid} {recipient : AccountUuid}
    (h : codec.enqueueSend appId id event silicon recipient publicId delivery observer now db =
      .ok db') : db'.observersOf s = db.observersOf s := by
  obtain ⟨_, rfl⟩ := enqueueSend_frame h
  rfl

theorem enqueueCopies_error {sendIds : Uuid → Uuid} {observers : List ObserverRow}
    (h : codec.enqueueCopies appId sendIds event silicon now observers db = .error e) :
    e ≠ observerLimitExceeded := by
  induction observers generalizing db with
  | nil => cases h
  | cons observer rest ih =>
    unfold DeliveryCodec.enqueueCopies at h
    split at h
    · rename_i he
      cases h
      exact enqueueSend_error he
    · exact ih h

theorem FanOutInv.accept_ne (h : FanOutInv codec db) {sendIds : Uuid → Uuid} :
    codec.acceptEvent deliverySummary command sendId sendIds now db ≠
      .error observerLimitExceeded := by
  intro ha
  unfold DeliveryCodec.acceptEvent at ha
  split at ha
  · rename_i he
    cases ha
    exact absurd (appendEvent_error he) (by decide)
  · rename_i event mid hmid
    obtain ⟨hook, events, -, -, -, heq⟩ := (appendEvent_ok hmid).stored
    split at ha
    · split at ha
      · rename_i appId s _ _ _ _ hq
        cases ha
        unfold DeliveryCodec.queueSends at hq
        simp only at hq
        split at hq
        · rename_i he
          cases hq
          exact enqueueSend_error he rfl
        · rename_i first hfirst
          have hsame : first.observersOf s = db.observersOf s := by
            rw [enqueueSend_observers hfirst, heq]
            rfl
          unfold DeliveryCodec.enqueueObservers at hq
          simp only at hq
          split at hq
          · rename_i hover
            rw [Store.observerRows, List.length_map, List.length_take, List.length_insertionSort,
              hsame] at hover
            have hle := (List.length_filter_le (first.observes) (db.observersOf s)).trans
              (h.limit s)
            omega
          · exact enqueueCopies_error hq rfl
      · cases ha
    · cases ha

theorem enqueueTing_again {row : OutboxRow} {id : Uuid} {observer : Option Uuid}
    (hm : row ∈ db.tingOutbox.rows) (he : event.id = row.eventId) :
    codec.enqueueTing id event row.recipientId body observer now db =
      match codec.preparedKey body row.recipientId with
      | .error e => .error e
      | .ok _ => if now < row.expiresAt then
          if row.requestBody = body ∧ row.observerSubscriptionId = observer then .ok (row.id, db)
          else .error .idempotencyConflict
        else .error (.notFound "event") := by
  have hfind : db.tingOutbox.find (event.id, row.recipientId) = some row :=
    Table.find_some.mpr ⟨hm, by rw [he]; rfl⟩
  have hexisting : existingSend event.id row.recipientId body observer now db =
      if now < row.expiresAt then
        if row.requestBody = body ∧ row.observerSubscriptionId = observer then .ok (row.id, db)
        else .error .idempotencyConflict
      else .error (.notFound "event") := by
    unfold existingSend
    rw [hfind]
    by_cases hl : now < row.expiresAt
    · simp [Option.filter_some, hl]
    · simp [Option.filter_some, hl]
  unfold DeliveryCodec.enqueueTing
  cases codec.preparedKey body row.recipientId with
  | error e => rfl
  | ok key =>
    simp only
    split
    · exact hexisting
    · rename_i stored _
      have hconflict : db.tingOutbox.insert (.queued id event.id row.recipientId key body observer
          stored.expiresAt now) = none := Table.insert_eq_none.mpr ⟨row, hfind⟩
      simp only [hconflict]
      exact hexisting

-- -----------------------------------------------------------------------------
-- Runs
-- -----------------------------------------------------------------------------

/-- One transaction of the delivery tables, a run of the identity links, or
`elsewhere`: any other transaction, which may leave any store that agrees with
the present one on those tables. -/
inductive FanOutLabel
  | accepted (deliverySummary : SummaryRenderer) (command : AcceptEvent) (sendId : Uuid)
      (sendIds : Uuid → Uuid) (now : Instant)
  | subscribed (id : Uuid) (silicon recipient : AccountUuid)
  | unsubscribed (silicon recipient : AccountUuid)
  | revoked (silicon grantee : AccountUuid) (granteeKeepsAccess : Bool)
  | delivered (event : AccountsEvent) (clock : Instant)
  | claimed (limit : Nat) (leaseDuration : Int) (leaseIds : Uuid → Uuid) (now : Instant)
  | completed (claim : TingOutboxClaim) (tingId : String) (silent : Bool) (now : Instant)
  | retried (claim : TingOutboxClaim) (failure : TingSendFailure) (retryAt now : Instant)
  | purged (expired : EventRow → Bool)
  | linked (mapping : IdentityMapping) (dryRun : Bool) (clock : Instant) (auditLog : List AuditRow)
  | elsewhere (db : Store)

namespace DeliveryCodec

/-- A refused transaction is rolled back. -/
def fanOutStep (codec : DeliveryCodec) (db : Store) : FanOutLabel → Store
  | .accepted deliverySummary command sendId sendIds now =>
    match codec.acceptEvent deliverySummary command sendId sendIds now db with
    | .ok (_, db) => db
    | .error _ => db
  | .subscribed id silicon recipient =>
    match subscribe id silicon recipient db with
    | .ok (_, db) => db
    | .error _ => db
  | .unsubscribed silicon recipient => (unsubscribe silicon recipient db).2
  | .revoked silicon grantee keeps => (deleteGrant silicon grantee keeps db).2
  | .delivered event clock => deliver event clock db
  | .claimed limit leaseDuration leaseIds now =>
    match claimTing limit leaseDuration leaseIds now db with
    | .ok (_, db) => db
    | .error _ => db
  | .completed claim tingId silent now =>
    match completeTing claim tingId silent now db with
    | .ok (_, db) => db
    | .error _ => db
  | .retried claim failure retryAt now => (retryTing claim failure retryAt now db).2
  | .purged expired => db.deleteEvents expired
  | .linked mapping dryRun clock auditLog =>
    (linkIdentities mapping dryRun clock ⟨db, auditLog⟩).2.db
  | .elsewhere other => { other with
      observerSubscriptions := db.observerSubscriptions
      events := db.events
      tingOutbox := db.tingOutbox }

end DeliveryCodec

theorem FanOutInv.step (h : FanOutInv codec db) (label : FanOutLabel) :
    FanOutInv codec (codec.fanOutStep db label) := by
  cases label with
  | accepted deliverySummary command sendId sendIds now =>
    simp only [DeliveryCodec.fanOutStep]
    split
    · rename_i ha
      exact (h.accepted ha).1
    · exact h
  | subscribed id silicon recipient =>
    simp only [DeliveryCodec.fanOutStep]
    split
    · rename_i hs
      exact h.subscribed hs
    · exact h
  | unsubscribed silicon recipient => exact h.removed ⟨rfl, rfl, rfl⟩
  | revoked silicon grantee keeps =>
    simp only [DeliveryCodec.fanOutStep, deleteGrant]
    split
    · exact h
    · split
      · exact ⟨h.limit, h.notSelf, h.stored, h.prepared⟩
      · exact h.removed ⟨rfl, rfl, rfl⟩
  | delivered event clock =>
    obtain ⟨p, hr⟩ := deliver_removes event clock db
    exact h.removed hr
  | claimed limit leaseDuration leaseIds now =>
    simp only [DeliveryCodec.fanOutStep]
    split
    · rename_i claims _ hc
      obtain ⟨-, -, -, rfl⟩ := claimTing_ok.mp hc
      exact h.updated (by exact fun _ => rfl) (by exact fun _ => ⟨rfl, rfl⟩)
    · exact h
  | completed claim tingId silent now =>
    simp only [DeliveryCodec.fanOutStep, completeTing]
    split
    · rename_i hc
      split at hc
      · cases hc
      · cases hc
        exact h.updated (by exact fun _ => rfl) (by exact fun _ => ⟨rfl, rfl⟩)
    · exact h
  | retried claim failure retryAt now =>
    exact h.updated (by exact fun _ => rfl) (by exact fun _ => ⟨rfl, rfl⟩)
  | purged expired => exact h.purged expired
  | linked mapping dryRun clock auditLog => exact h.linked mapping dryRun clock auditLog
  | elsewhere other => exact ⟨h.limit, h.notSelf, h.stored, h.prepared⟩

structure FanOutExact (codec : DeliveryCodec) (db : Store) : Prop where
  /-- An accepted event is queued for the Silicon its hook was linked to as routed and
  for the observers, or for nobody. -/
  queued : ∀ deliverySummary command sendId sendIds now event db',
    codec.acceptEvent deliverySummary command sendId sendIds now db = .ok (event, db') →
      match command.delivery, command.hook.siliconUuid with
      | some appId, some s => codec.FansOut appId event s now db db'
      | _, _ => db'.tingOutbox.select (fun row => row.eventId = event.id) = []
  limit : ∀ s, (db.observersOf s).length ≤ maxObserversPerSilicon
  notFull : ∀ deliverySummary command sendId sendIds now,
    codec.acceptEvent deliverySummary command sendId sendIds now db ≠ .error observerLimitExceeded
  /-- Repeating a send finds it while its event is retained, and misses the event then. -/
  again : ∀ row ∈ db.tingOutbox.rows, ∀ id event body observer now, event.id = row.eventId →
    if body = row.requestBody ∧ observer = row.observerSubscriptionId then
      codec.enqueueTing id event row.recipientId body observer now db =
        if now < row.expiresAt then .ok (row.id, db) else .error (.notFound "event")
    else ∃ e, codec.enqueueTing id event row.recipientId body observer now db = .error e

theorem FanOutInv.empty : FanOutInv codec .empty := by
  refine ⟨fun s => Nat.zero_le _, ?_, ?_, ?_⟩
  · intro row hm
    cases hm
  · intro row hm
    cases hm
  · intro row hm
    cases hm

theorem FanOutInv.exact (h : FanOutInv codec db) : FanOutExact codec db := by
  refine ⟨fun _ _ _ _ _ _ _ ha => (h.accepted ha).2, h.limit, fun _ _ _ _ _ => h.accept_ne, ?_⟩
  intro row hm id event body observer now he
  rw [enqueueTing_again hm he]
  split
  · rename_i hsame
    obtain ⟨rfl, rfl⟩ := hsame
    simp [h.prepared row hm]
  · rename_i hdiffers
    cases codec.preparedKey body row.recipientId with
    | error e => exact ⟨e, rfl⟩
    | ok key =>
      simp only
      split
      · rw [if_neg fun hk => hdiffers ⟨hk.1.symm, hk.2.symm⟩]
        exact ⟨_, rfl⟩
      · exact ⟨_, rfl⟩

/-- In every reachable state fan-out is exact. -/
theorem fan_out_exact (codec : DeliveryCodec) (labels : List FanOutLabel) :
    FanOutExact codec (run codec.fanOutStep .empty labels) := by
  refine (run_invariant (I := FanOutInv codec) (P := fun _ _ => True) ?_ .empty along_true).exact
  exact fun db label h _ => h.step label

end

namespace BillingHook

def silicon : AccountUuid := ⟨"SiFeed", by decide⟩

def text (field : String) : Expression := ⟨"request." ++ field, .path ⟨.request, [.key field]⟩⟩

def row : HookRow where
  id := ⟨1⟩
  siliconId := .fromAccountUuid silicon
  siliconUuid := some silicon
  endpointKey := ⟨"AAAAAAA7", by decide⟩
  name := ⟨"invoices", by decide⟩
  description := none
  signing := ⟨false, ⟨.hmacSha256, text "body", text "signature", .hex, .utf8, none⟩, none⟩
  timeZone := ⟨"UTC"⟩
  isAccountsDefault := false
  createdBy := .account .silicon silicon
  createdAt := 0
  disabledAt := none
  deletedAt := none
  lastReceivedAt := none
  lastBlockedAt := none
  endpointRotatedAt := none

def hook : Hook := ⟨row.snapshot, by decide, by decide, by decide, by decide⟩

def command : AcceptEvent :=
  ⟨some "hook", ⟨7⟩, hook, ⟨"POST", "/", [], Encoding.utf8 "\x7b\x7d", "192.0.2.1", 0⟩⟩

def summary : SummaryRenderer := fun name _ _ => name.value ++ " triggered"

def accepted : EventRecord := .accept summary ⟨7⟩ hook command.request ⟨1, by decide⟩

/-- Hashes a text to itself, and parses nothing. -/
def renderer : DeliveryCodec := ⟨id, fun _ => .ok "1970-01-01T00:00:00Z", fun _ => none⟩

def send (recipient : AccountUuid) (delivery : TingDeliveryMode) : Json :=
  renderer.sendRequest "hook" accepted ⟨silicon.value, none⟩ ⟨recipient.value, none⟩ delivery
    "1970-01-01T00:00:00Z"

def codec (sends : List Json) : DeliveryCodec :=
  { renderer with fromSlice := fun body => sends.find? (·.toVec = body) }

def database : Store := { Store.empty with hooks := ⟨[row], by decide⟩ }

def queued : Store := run (codec [send silicon .required]).fanOutStep .empty
  [.elsewhere database, .accepted summary command 1 id 0]

/-- The hook as it was before 1.0, under its Silicon's old id. -/
def legacyRow : HookRow := { row with
  siliconId := ⟨"si:billing", by decide⟩
  siliconUuid := none
  createdBy := ⟨.silicon, ⟨"si:billing", by decide⟩, none⟩ }

def legacyHook : Hook := ⟨legacyRow.snapshot, by decide, by decide, by decide, by decide⟩

def mapping : IdentityMapping where
  rows := [⟨⟨"si:billing", .silicon, by decide⟩, none, some silicon⟩]
  sha256 := "b111"

/-- The hook is linked while a request routed to it is on its way. -/
def linked : Store := run (codec []).fanOutStep .empty
  [.elsewhere { Store.empty with hooks := ⟨[legacyRow], by decide⟩ }, .linked mapping false 0 []]

def acceptedLate : Store :=
  (codec []).fanOutStep linked (.accepted summary { command with hook := legacyHook } 1 id 0)

/-- Its event is stored as the Silicon's and sent to nobody. And two weeks after an event
that was sent the same send is refused, the event having expired. -/
theorem unsent_and_refused :
    ((linked.hooks.find row.id).bind HookRow.siliconUuid = some silicon ∧
      acceptedLate.events.rows.map EventRow.siliconUuid = [some silicon] ∧
      acceptedLate.tingOutbox.rows = []) ∧
    ∃ send ∈ queued.tingOutbox.rows, accepted.id = send.eventId ∧
      (codec [BillingHook.send silicon .required]).enqueueTing 2 accepted send.recipientId
        send.requestBody send.observerSubscriptionId (Instant.days 14) queued =
          .error (.notFound "event") := by
  decide +kernel

end BillingHook

end SiliconHook
