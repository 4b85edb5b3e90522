import SiliconHook.Properties.FanOut

/-!
# Acceptance while observers leave

One acceptance, a statement or a few at a time, and the transactions that remove
observers committing in between. A statement sees what the others have committed
by then beside the acceptance's own writes. Row locks only delay a removal, so
every order they leave is among those here; the advisory lock of a Silicon's
observers holds up its unsubscriptions while copies are queued.
-/

namespace SiliconHook

-- -----------------------------------------------------------------------------
-- The acceptance
-- -----------------------------------------------------------------------------

structure Acceptance where
  codec : DeliveryCodec
  deliverySummary : SummaryRenderer
  command : AcceptEvent
  sendId : Uuid
  sendIds : Uuid → Uuid
  now : Instant

structure CopyTarget where
  appId : String
  siliconUuid : AccountUuid
  silicon : ReferencedSilicon

/-- Where an acceptance stands, with the store as its transaction sees it. -/
inductive AcceptanceStage
  | begun
  | opened (event : EventRecord) (target : CopyTarget) (view : Store)
  | copying (event : EventRecord) (target : CopyTarget) (rest : List ObserverRow) (view : Store)
  | closing (event : EventRecord) (view : Store)
  | committed (event : EventRecord)
  | failed (error : StoreError)

namespace Acceptance

/-- The event appended and the Silicon's own send queued; no observer is read yet. -/
def begin (acceptance : Acceptance) (db : Store) : AcceptanceStage :=
  match appendEvent acceptance.deliverySummary acceptance.command db with
  | .error e => .failed e
  | .ok (event, view) =>
    match acceptance.command.delivery, event.siliconUuid with
    | some appId, some siliconUuid =>
      let publicId := (view.accounts.find siliconUuid).bind AccountRow.publicId
      let silicon : ReferencedSilicon := ⟨siliconUuid.value, publicId.map PublicId.value⟩
      match acceptance.codec.enqueueSend appId acceptance.sendId event silicon siliconUuid publicId
          .required none acceptance.now view with
      | .error e => .failed e
      | .ok view => .opened event ⟨appId, siliconUuid, silicon⟩ view
    | _, _ => .closing event view

/-- The observers, read under the shared advisory lock. -/
def select (event : EventRecord) (target : CopyTarget) (view : Store) : AcceptanceStage :=
  let observers := view.observerRows target.siliconUuid
  if maxObserversPerSilicon < observers.length then
    .failed (.corruptData "observer_subscriptions" "observer limit exceeded")
  else .copying event target observers view

def copy (acceptance : Acceptance) (event : EventRecord) (target : CopyTarget)
    (observer : ObserverRow) (rest : List ObserverRow) (view : Store) : AcceptanceStage :=
  match acceptance.codec.enqueueSend target.appId (acceptance.sendIds observer.id) event
      target.silicon observer.recipientUuid observer.publicId .ordinary (some observer.id)
      acceptance.now view with
  | .error e => .failed e
  | .ok view => .copying event target rest view

def perform (acceptance : Acceptance) (db : Store) : AcceptanceStage → Store × AcceptanceStage
  | .begun => (db, acceptance.begin db)
  | .opened event target view => (db, select event target view)
  | .copying event _ [] view => (db, .closing event view)
  | .copying event target (observer :: rest) view =>
    (db, acceptance.copy event target observer rest view)
  | .closing event view => (view, .committed event)
  | .committed event => (db, .committed event)
  | .failed e => (db, .failed e)

def ended (db : Store) : Except StoreError (EventRecord × Store) → Store × AcceptanceStage
  | .ok made => (made.2, .committed made.1)
  | .error e => (db, .failed e)

def next (acceptance : Acceptance) (made : Store × AcceptanceStage) : Store × AcceptanceStage :=
  acceptance.perform made.1 made.2

variable {acceptance : Acceptance} {event : EventRecord} {target : CopyTarget} {db : Store}

theorem next_ended (result : Except StoreError (EventRecord × Store)) (n : Nat) :
    acceptance.next^[n] (ended db result) = ended db result := by
  refine Function.iterate_fixed ?_ n
  cases result <;> rfl

theorem next_copying (rest : List ObserverRow) (view : Store) (n : Nat) :
    acceptance.next^[n + rest.length + 2] (db, .copying event target rest view) =
      ended db ((acceptance.codec.enqueueCopies target.appId acceptance.sendIds event
        target.silicon acceptance.now rest view).map fun view => (event, view)) := by
  induction rest generalizing view with
  | nil => exact next_ended (.ok (event, view)) n
  | cons observer rest ih =>
    have hnext : acceptance.next (db, .copying event target (observer :: rest) view) =
        (db, acceptance.copy event target observer rest view) := rfl
    rw [List.length_cons, ← Nat.add_assoc, Nat.add_right_comm, Function.iterate_succ_apply, hnext]
    unfold copy DeliveryCodec.enqueueCopies
    cases acceptance.codec.enqueueSend target.appId (acceptance.sendIds observer.id) event
        target.silicon observer.recipientUuid observer.publicId .ordinary (some observer.id)
        acceptance.now view with
    | error e => exact next_ended (.error e) _
    | ok view => exact ih view

/-- With nothing in between, the statements are those of `accept_event`. -/
theorem next_accepts :
    acceptance.next^[maxObserversPerSilicon + 4] (db, .begun) =
      ended db (acceptance.codec.acceptEvent acceptance.deliverySummary acceptance.command
        acceptance.sendId acceptance.sendIds acceptance.now db) := by
  have hbegin : acceptance.next (db, .begun) = (db, acceptance.begin db) := rfl
  rw [Function.iterate_succ_apply, hbegin]
  unfold begin DeliveryCodec.acceptEvent
  cases happend : appendEvent acceptance.deliverySummary acceptance.command db with
  | error e => exact next_ended (.error e) _
  | ok made =>
    cases hdelivery : acceptance.command.delivery with
    | none =>
      rw [Function.iterate_succ_apply]
      exact next_ended (.ok made) _
    | some appId =>
      cases hsilicon : made.1.siliconUuid with
      | none =>
        simp only [hsilicon]
        rw [Function.iterate_succ_apply]
        exact next_ended (.ok made) _
      | some siliconUuid =>
        simp only [hsilicon, DeliveryCodec.queueSends]
        cases acceptance.codec.enqueueSend appId acceptance.sendId made.1
            ⟨siliconUuid.value, ((made.2.accounts.find siliconUuid).bind
              AccountRow.publicId).map PublicId.value⟩ siliconUuid
            ((made.2.accounts.find siliconUuid).bind AccountRow.publicId) .required none
            acceptance.now made.2 with
        | error e => exact next_ended (.error e) _
        | ok view =>
          have hopened (target : CopyTarget) : acceptance.next (db, .opened made.1 target view) =
              (db, select made.1 target view) := rfl
          simp only
          rw [Function.iterate_succ_apply, hopened]
          unfold select DeliveryCodec.enqueueObservers
          dsimp only
          split
          · exact next_ended (.error _) _
          · rename_i hlimit
            obtain ⟨n, hn⟩ := Nat.exists_eq_add_of_le' (Nat.le_of_not_lt hlimit)
            rw [hn, next_copying]
            cases acceptance.codec.enqueueCopies appId acceptance.sendIds made.1 _ acceptance.now
              (view.observerRows siliconUuid) view <;> rfl

end Acceptance

-- -----------------------------------------------------------------------------
-- Removals
-- -----------------------------------------------------------------------------

inductive Removal
  | unsubscribed (silicon recipient : AccountUuid)
  | ungranted (silicon grantee : AccountUuid) (granteeKeepsAccess : Bool)
  | delivered (event : AccountsEvent) (clock : Instant)

def Removal.apply (db : Store) : Removal → Store
  | .unsubscribed silicon recipient => (unsubscribe silicon recipient db).2
  | .ungranted silicon grantee granteeKeepsAccess =>
    (deleteGrant silicon grantee granteeKeepsAccess db).2
  | .delivered event clock => deliver event clock db

/-- The observers' lock is asked for by an unsubscription alone, and held by the
acceptance from its select on. -/
def Removal.waits (removal : Removal) (stage : AcceptanceStage) : Bool :=
  match removal, stage with
  | .unsubscribed silicon _, .copying _ target _ _ => silicon = target.siliconUuid
  | _, _ => false

/-- What others commit shows in the next statements of an open transaction. -/
def AcceptanceStage.beside (removal : Removal) : AcceptanceStage → AcceptanceStage
  | .opened event target view => .opened event target (removal.apply view)
  | .copying event target rest view => .copying event target rest (removal.apply view)
  | .closing event view => .closing event (removal.apply view)
  | .begun => .begun
  | .committed event => .committed event
  | .failed e => .failed e

structure AcceptanceWorld where
  db : Store
  stage : AcceptanceStage

inductive AcceptanceLabel
  | performed
  | removed (removal : Removal)

namespace AcceptanceWorld

def start (db : Store) : AcceptanceWorld := ⟨db, .begun⟩

def step (acceptance : Acceptance) (world : AcceptanceWorld) : AcceptanceLabel → AcceptanceWorld
  | .performed =>
    let made := acceptance.perform world.db world.stage
    ⟨made.1, made.2⟩
  | .removed removal =>
    if removal.waits world.stage then world
    else ⟨removal.apply world.db, world.stage.beside removal⟩

end AcceptanceWorld

-- -----------------------------------------------------------------------------
-- What is claimed
-- -----------------------------------------------------------------------------

def subscriptionGone : StoreError := .database "ting_outbox_observer_subscription_id_fkey"

def Store.Observed (db : Store) (observers : List ObserverRow) : Prop :=
  ∀ observer ∈ observers, ∃ row ∈ db.observerSubscriptions.rows, row.id = observer.id

instance {db : Store} {observers : List ObserverRow} : Decidable (db.Observed observers) :=
  inferInstanceAs (Decidable (∀ observer ∈ observers,
    ∃ row ∈ db.observerSubscriptions.rows, row.id = observer.id))

namespace AcceptanceWorld

/-- No removal has failed the acceptance, and once it has committed the event is
stored. -/
structure Unharmed (world : AcceptanceWorld) : Prop where
  kept : world.stage ≠ .failed subscriptionGone
  stored : ∀ event, world.stage = .committed event → ∃ row, world.db.events.find event.id = some row

/-- A removal that does not wait takes no subscription away between the select that
found it and the copy that refers to it. -/
def Spares (world : AcceptanceWorld) : AcceptanceLabel → Prop
  | .removed removal => removal.waits world.stage = false →
    match world.stage with
    | .copying _ _ rest view => (removal.apply view).Observed rest
    | _ => True
  | .performed => True

instance {world : AcceptanceWorld} {label : AcceptanceLabel} : Decidable (world.Spares label) := by
  cases label with
  | performed => exact isTrue trivial
  | removed removal =>
    unfold Spares
    dsimp only
    cases world.stage <;> dsimp only <;> infer_instance

end AcceptanceWorld

-- -----------------------------------------------------------------------------
-- The foreign key
-- -----------------------------------------------------------------------------

section

variable {codec : DeliveryCodec} {event : EventRecord} {db db' view : Store} {id : Uuid}
  {delivery : TingDeliveryMode} {observer : Option Uuid}

theorem OutboxRow.check_gone {row : OutboxRow} (h : row.check db = .error subscriptionGone) :
    ∃ subscription ∈ row.observerSubscriptionId,
      ∀ other ∈ db.observerSubscriptions.rows, other.id ≠ subscription := by
  simp only [OutboxRow.check, Except.bind_error, ensure_error, ensure_ok, subscriptionGone] at h
  obtain ⟨-, h⟩ | ⟨-, -, ⟨-, h⟩ | ⟨-, -, h, -⟩⟩ := h
  · simp at h
  · simp at h
  · cases hs : row.observerSubscriptionId with
    | none => simp [hs] at h
    | some subscription =>
      refine ⟨subscription, rfl, ?_⟩
      simpa [hs] using h

theorem existingSend_ne {e : EventId} {body : List UInt8} :
    existingSend e recipient body observer now db ≠ .error subscriptionGone := by
  unfold existingSend
  split
  · simp [subscriptionGone]
  · split <;> simp [subscriptionGone]

theorem enqueueSend_gone
    (h : codec.enqueueSend appId id event silicon recipient publicId delivery observer now db =
      .error subscriptionGone) :
    ∃ subscription ∈ observer, ∀ other ∈ db.observerSubscriptions.rows, other.id ≠ subscription := by
  unfold DeliveryCodec.enqueueSend at h
  split at h
  · simp [subscriptionGone] at h
  · split at h
    · rename_i e henqueue
      cases h
      unfold DeliveryCodec.enqueueTing at henqueue
      split at henqueue
      · rename_i hkey
        cases henqueue
        exact absurd (preparedKey_error hkey) (by decide)
      · split at henqueue
        · exact absurd henqueue existingSend_ne
        · simp only at henqueue
          split at henqueue
          · exact absurd henqueue existingSend_ne
          · split at henqueue
            · rename_i hcheck
              cases henqueue
              exact OutboxRow.check_gone hcheck
            · cases henqueue
    · cases h

theorem enqueueSend_tables
    (h : codec.enqueueSend appId id event silicon recipient publicId delivery observer now db =
      .ok db') : db'.events = db.events ∧ db'.observerSubscriptions = db.observerSubscriptions := by
  obtain ⟨outbox, rfl⟩ := enqueueSend_frame h
  exact ⟨rfl, rfl⟩

theorem appendEvent_stored {deliverySummary : SummaryRenderer} {command : AcceptEvent}
    (h : appendEvent deliverySummary command db = .ok (event, db')) :
    ∃ row, db'.events.find event.id = some row := by
  obtain ⟨hook, events, -, hins, -, rfl⟩ := (appendEvent_ok h).stored
  have hid : Keyed.key (event.row hook) = event.id := rfl
  exact ⟨event.row hook, by rw [Table.find_insert hins, hid, if_pos rfl]⟩

theorem Removal.apply_removes (removal : Removal) (db : Store) :
    ∃ p, Store.Removes p db (removal.apply db) := by
  cases removal with
  | unsubscribed silicon recipient => exact ⟨_, rfl, rfl, rfl⟩
  | ungranted silicon grantee keeps =>
    have hnone : Store.Removes (fun _ => false) db db := Store.OnlyAccounts.refl.removes
    simp only [Removal.apply, deleteGrant]
    split
    · exact ⟨_, hnone⟩
    · split
      · exact ⟨_, hnone.subscriptions, hnone.outbox, rfl⟩
      · exact ⟨_, rfl, rfl, rfl⟩
  | delivered event clock => exact deliver_removes event clock db

theorem Removal.apply_events (removal : Removal) (db : Store) :
    (removal.apply db).events = db.events := by
  obtain ⟨p, h⟩ := removal.apply_removes db
  exact h.events

end

-- -----------------------------------------------------------------------------
-- Runs
-- -----------------------------------------------------------------------------

/-- The event is in the view and its observers are still subscribed. -/
def AcceptanceStage.Sheltered (db : Store) : AcceptanceStage → Prop
  | .begun => True
  | .opened event _ view | .closing event view => ∃ row, view.events.find event.id = some row
  | .copying event _ rest view =>
    (∃ row, view.events.find event.id = some row) ∧ view.Observed rest
  | .committed event => ∃ row, db.events.find event.id = some row
  | .failed e => e ≠ subscriptionGone

section

variable {acceptance : Acceptance} {db : Store} {stage : AcceptanceStage}

theorem Acceptance.begin_sheltered : (acceptance.begin db).Sheltered db := by
  unfold Acceptance.begin
  split
  · rename_i happend
    exact fun heq => absurd (appendEvent_error (heq ▸ happend)) (by decide)
  · rename_i event view happend
    have hstored := appendEvent_stored happend
    split
    · dsimp only
      split
      · rename_i hsend
        intro heq
        obtain ⟨subscription, hnone, -⟩ := enqueueSend_gone (heq ▸ hsend)
        cases hnone
      · rename_i hsend
        show ∃ row, _
        rw [(enqueueSend_tables hsend).1]
        exact hstored
    · exact hstored

theorem Acceptance.select_sheltered {event : EventRecord} {target : CopyTarget} {view : Store}
    (h : ∃ row, view.events.find event.id = some row) :
    (Acceptance.select event target view).Sheltered db := by
  unfold Acceptance.select
  dsimp only
  split
  · simp [AcceptanceStage.Sheltered, subscriptionGone]
  · refine ⟨h, ?_⟩
    intro observer hm
    obtain ⟨row, hrow, rfl⟩ := List.mem_map.mp hm
    have hrow := (List.mem_insertionSort _).mp (List.mem_of_mem_take hrow)
    exact ⟨row, (List.mem_filter.mp (List.mem_filter.mp hrow).1).1, rfl⟩

theorem Acceptance.copy_sheltered {event : EventRecord} {target : CopyTarget}
    {observer : ObserverRow} {rest : List ObserverRow} {view : Store}
    (h : ∃ row, view.events.find event.id = some row) (ho : view.Observed (observer :: rest)) :
    (acceptance.copy event target observer rest view).Sheltered db := by
  unfold Acceptance.copy
  split
  · rename_i hsend
    intro heq
    obtain ⟨subscription, hsome, hgone⟩ := enqueueSend_gone (heq ▸ hsend)
    obtain rfl : observer.id = subscription := Option.some.inj hsome
    obtain ⟨row, hm, hid⟩ := ho observer (List.mem_cons_self ..)
    exact hgone row hm hid
  · rename_i hsend
    obtain ⟨hevents, hsubscriptions⟩ := enqueueSend_tables hsend
    refine ⟨?_, ?_⟩
    · rw [hevents]
      exact h
    · intro other hm
      rw [hsubscriptions]
      exact ho other (List.mem_cons_of_mem _ hm)

theorem Acceptance.perform_sheltered (h : stage.Sheltered db) :
    (acceptance.perform db stage).2.Sheltered (acceptance.perform db stage).1 := by
  cases stage with
  | begun => exact begin_sheltered
  | opened event target view => exact select_sheltered h
  | copying event target rest view =>
    cases rest with
    | nil => exact h.1
    | cons observer rest => exact copy_sheltered h.1 h.2
  | closing event view => exact h
  | committed event => exact h
  | failed e => exact h

theorem AcceptanceStage.Sheltered.beside (h : stage.Sheltered db) {removal : Removal}
    (hspares : ∀ event target rest view, stage = .copying event target rest view →
      (removal.apply view).Observed rest) :
    (stage.beside removal).Sheltered (removal.apply db) := by
  have hkept : ∀ {view : Store} {event : EventRecord},
      (∃ row, view.events.find event.id = some row) →
        ∃ row, (removal.apply view).events.find event.id = some row := by
    intro view event hstored
    rw [removal.apply_events]
    exact hstored
  cases stage with
  | begun => trivial
  | opened event target view => exact hkept h
  | copying event target rest view => exact ⟨hkept h.1, hspares event target rest view rfl⟩
  | closing event view => exact hkept h
  | committed event => exact hkept h
  | failed e => exact h

def AcceptanceStage.remaining : AcceptanceStage → Nat
  | .begun => maxObserversPerSilicon + 4
  | .opened .. => maxObserversPerSilicon + 3
  | .copying _ _ rest _ => rest.length + 2
  | .closing .. => 1
  | .committed _ | .failed _ => 0

theorem Acceptance.perform_remaining :
    (acceptance.perform db stage).2.remaining ≤ stage.remaining - 1 := by
  cases stage with
  | begun =>
    show (acceptance.begin db).remaining ≤ maxObserversPerSilicon + 3
    unfold Acceptance.begin
    split
    · exact Nat.zero_le _
    · split
      · dsimp only
        split
        · exact Nat.zero_le _
        · exact Nat.le_refl _
      · exact Nat.le_add_left _ _
  | opened event target view =>
    show (Acceptance.select event target view).remaining ≤ maxObserversPerSilicon + 2
    unfold Acceptance.select
    dsimp only
    split
    · exact Nat.zero_le _
    · rename_i hlimit
      exact Nat.add_le_add_right (Nat.le_of_not_lt hlimit) 2
  | copying event target rest view =>
    cases rest with
    | nil => exact Nat.le_refl 1
    | cons observer rest =>
      show (acceptance.copy event target observer rest view).remaining ≤ rest.length + 2
      unfold Acceptance.copy
      split
      · exact Nat.zero_le _
      · exact Nat.le_refl _
  | closing event view => exact Nat.le_refl 0
  | committed event => exact Nat.le_refl 0
  | failed e => exact Nat.le_refl 0

theorem AcceptanceStage.beside_remaining {removal : Removal} :
    (stage.beside removal).remaining = stage.remaining := by
  cases stage <;> rfl

end

namespace AcceptanceWorld

variable {acceptance : Acceptance} {world : AcceptanceWorld}

theorem sheltered_unharmed (h : world.stage.Sheltered world.db) : world.Unharmed := by
  refine ⟨?_, ?_⟩
  · intro heq
    rw [heq] at h
    exact h rfl
  · intro event heq
    rw [heq] at h
    exact h

theorem step_sheltered (h : world.stage.Sheltered world.db) (label : AcceptanceLabel)
    (hspares : world.Spares label) :
    (world.step acceptance label).stage.Sheltered (world.step acceptance label).db := by
  cases label with
  | performed => exact Acceptance.perform_sheltered h
  | removed removal =>
    simp only [AcceptanceWorld.step]
    split
    · exact h
    · rename_i hwaits
      refine h.beside fun event target rest view hstage => ?_
      have hspared := hspares (by simpa using hwaits)
      rw [hstage] at hspared
      exact hspared

theorem step_remaining (label : AcceptanceLabel) :
    (world.step acceptance label).stage.remaining ≤ world.stage.remaining := by
  cases label with
  | performed => exact Acceptance.perform_remaining.trans (Nat.sub_le _ _)
  | removed removal =>
    simp only [AcceptanceWorld.step]
    split
    · exact Nat.le_refl _
    · exact AcceptanceStage.beside_remaining.le

theorem run_remaining (acceptance : Acceptance) (world : AcceptanceWorld)
    (labels : List AcceptanceLabel) :
    (run (step acceptance) world labels).stage.remaining ≤ world.stage.remaining := by
  induction labels generalizing world with
  | nil => exact Nat.le_refl _
  | cons label rest ih => exact (ih _).trans (step_remaining label)

theorem run_performed (acceptance : Acceptance) (world : AcceptanceWorld) (n : Nat) :
    (run (step acceptance) world (List.replicate n .performed)).stage.remaining ≤
      world.stage.remaining - n := by
  induction n generalizing world with
  | zero => exact Nat.le_refl _
  | succ n ih =>
    have hstep : (world.step acceptance .performed).stage.remaining ≤ world.stage.remaining - 1 :=
      Acceptance.perform_remaining
    have hrest := ih (world.step acceptance .performed)
    rw [List.replicate_succ, run_cons]
    omega

theorem performed_spared (n : Nat) :
    Along (step acceptance) Spares world (List.replicate n .performed) := by
  induction n generalizing world with
  | zero => trivial
  | succ n ih => exact ⟨trivial, ih⟩

/-- An acceptance with nothing left to do has committed its event or failed, and
then not for a removal. -/
theorem sheltered_settled (h : world.stage.Sheltered world.db)
    (hdone : world.stage.remaining = 0) :
    (∃ event row, world.stage = .committed event ∧ world.db.events.find event.id = some row) ∨
      ∃ e, world.stage = .failed e ∧ e ≠ subscriptionGone := by
  cases hstage : world.stage with
  | committed event =>
    rw [hstage] at h
    obtain ⟨row, hrow⟩ := h
    exact .inl ⟨event, row, rfl, hrow⟩
  | failed e =>
    rw [hstage] at h
    exact .inr ⟨e, rfl, h⟩
  | _ =>
    rw [hstage] at hdone
    cases hdone

/-- Where no removal takes a subscription away between the select and the copy that
refers to it, no removal fails the acceptance, and once its statements are through
its event is stored or it failed for another reason. -/
theorem acceptance_unharmed (acceptance : Acceptance) (db : Store)
    (labels : List AcceptanceLabel) (h : Along (step acceptance) Spares (start db) labels) :
    Always (step acceptance) Unharmed (start db) labels ∧
      let ended := run (step acceptance) (start db)
        (labels ++ List.replicate (maxObserversPerSilicon + 4) .performed)
      (∃ event row, ended.stage = .committed event ∧ ended.db.events.find event.id = some row) ∨
        ∃ e, ended.stage = .failed e ∧ e ≠ subscriptionGone := by
  have hstep : ∀ (world : AcceptanceWorld) label, world.stage.Sheltered world.db →
      world.Spares label → (world.step acceptance label).stage.Sheltered
        (world.step acceptance label).db :=
    fun _ label hs hspares => step_sheltered hs label hspares
  refine ⟨always_of_invariant hstep (fun _ hs => sheltered_unharmed hs) trivial h, ?_⟩
  have hend := run_invariant (I := fun world => world.stage.Sheltered world.db) hstep trivial
    (along_append.mpr ⟨h, performed_spared (maxObserversPerSilicon + 4)⟩)
  refine sheltered_settled hend ?_
  have hrun := run_remaining acceptance (start db) labels
  have hrest := run_performed acceptance (run (step acceptance) (start db) labels)
    (maxObserversPerSilicon + 4)
  have hbegun : (start db).stage.remaining = maxObserversPerSilicon + 4 := rfl
  rw [run_append]
  omega

end AcceptanceWorld

namespace LeavingMidway

def recipient : AccountUuid := ⟨"CaDeparts", by decide⟩

def database : Store :=
  { BillingHook.database with
    siliconGrants := ⟨[⟨BillingHook.silicon, recipient, .view, BillingHook.silicon⟩], by decide⟩
    observerSubscriptions := ⟨[⟨5, BillingHook.silicon, recipient⟩], by decide⟩ }

def acceptance : Acceptance where
  codec := BillingHook.codec
    [BillingHook.send BillingHook.silicon .required, BillingHook.send recipient .ordinary]
  deliverySummary := BillingHook.summary
  command := BillingHook.command
  sendId := 1
  sendIds := fun _ => 2
  now := 0

def ungranted : AcceptanceLabel := .removed (.ungranted BillingHook.silicon recipient false)

/-- The grant goes between the select and the copy. -/
def crossed : List AcceptanceLabel := [.performed, .performed, ungranted, .performed]

def failure : AcceptanceStage → Option StoreError
  | .failed e => some e
  | _ => none

/-- An observer that leaves fails the acceptance, and the event is lost. -/
theorem departure_fails :
    ¬ (run (AcceptanceWorld.step acceptance) (.start database) crossed).Unharmed := by
  intro h
  have hfailure : failure (run (AcceptanceWorld.step acceptance) (.start database) crossed).stage =
      some subscriptionGone := by
    decide +kernel
  cases hstage : (run (AcceptanceWorld.step acceptance) (.start database) crossed).stage with
  | failed e =>
    rw [hstage] at hfailure
    exact h.kept (hstage.trans (congrArg _ (Option.some.inj hfailure)))
  | _ =>
    rw [hstage] at hfailure
    cases hfailure

/-- An unsubscription waits for the copy, and a grant goes after the commit. -/
def waited : List AcceptanceLabel :=
  [.performed, .performed, .removed (.unsubscribed BillingHook.silicon recipient), .performed,
    .performed, .performed, ungranted]

theorem waited_unharmed : Always (AcceptanceWorld.step acceptance) AcceptanceWorld.Unharmed
    (.start database) waited :=
  (AcceptanceWorld.acceptance_unharmed acceptance database waited (by decide +kernel)).1

end LeavingMidway

end SiliconHook
