import SiliconHook.Application.Lifecycle
import SiliconHook.Library.Transition
import SiliconHook.Store.Events
import SiliconHook.Store.IdentityLinks

/-!
# Stored identities

Namespace keys are written once, when a hook is created, and copied to the
records of the hook. A record keeps the key of its hook, no key is a Carbon's
public id, and no uuid is linked to two ids.
-/

namespace SiliconHook

structure CreateHook.Owned (command : CreateHook) (owner : AccountUuid) : Prop where
  siliconId : command.hook.siliconId = .fromAccountUuid owner
  siliconUuid : command.hook.siliconUuid = some owner

/-- The commands of the use case are owned as the label of a creation asks. -/
theorem HookApplication.createCommand_owned {app : HookApplication} {parts : CreateHookParts}
    {secret : Option SigningSecret} {draw : CreationDraw} {command : CreateHook}
    (h : app.createCommand parts secret draw now = .ok command) :
    command.Owned parts.siliconUuid := by
  obtain ⟨encrypted, -, h⟩ := Except.bind_ok.mp h
  cases h
  exact ⟨rfl, rfl⟩

/-- A transaction on the tables that hold identities, or a change elsewhere. -/
inductive StoredLabel
  | created (command : CreateHook) (owner : AccountUuid) (owned : command.Owned owner)
  | updated (command : UpdateHook) (actor : ActorRef) (occurredAt : Instant)
  | activated (command : BatchHookActivation) (actor : ActorRef)
  | rotatedSecret (command : RotateSecret)
  | rotatedEndpoint (command : RotateEndpoint)
  | deleted (command : HookMutation) (actor : ActorRef)
  | restored (command : RestoreHook)
  | granted (silicon grantee : AccountUuid) (level : GrantLevel) (actor : Actor) (clock : Instant)
  | ungranted (silicon grantee : AccountUuid) (actor : Actor) (keepsAccess : Bool)
      (clock : Instant)
  | allowed (silicon account : AccountUuid) (actor : Actor) (clock : Instant)
  | disallowed (silicon account : AccountUuid) (actor : Actor) (clock : Instant)
  | accepted (codec : DeliveryCodec) (deliverySummary : SummaryRenderer) (command : AcceptEvent)
      (sendId : Uuid) (sendIds : Uuid → Uuid) (now : Instant)
  | blocked (command : RecordBlockedRequest)
  | purgedHooks (batchSize : Nat) (clock : Instant)
  | purgedRecords (events : EventRow → Bool) (blocked : BlockedRequestRow → Bool)
  | linked (mapping : IdentityMapping) (distinct : IdentityMapping.Distinct mapping.rows)
      (dryRun : Bool) (clock : Instant)
  | elsewhere (other : Store)

def Store.deleteBlocked (db : Store) (p : BlockedRequestRow → Bool) : Store :=
  { db with blockedRequests := db.blockedRequests.delete p }

def storedStep (database : Database) : StoredLabel → Database
  | .created command _ _ => commit database (database.createHook command)
  | .updated command actor occurredAt => commit database (database.updateHook command actor occurredAt)
  | .activated command actor => commit database (database.setHooksEnabled command actor)
  | .rotatedSecret command => commit database (database.rotateHookSecret command)
  | .rotatedEndpoint command => commit database (database.rotateHookEndpoint command)
  | .deleted command actor => commit database (database.deleteHook command actor)
  | .restored command => commit database (database.restoreHook command)
  | .granted silicon grantee level actor clock =>
    commit database (database.putGrant silicon grantee level actor clock)
  | .ungranted silicon grantee actor keepsAccess clock =>
    commit database (database.deleteGrant silicon grantee actor keepsAccess clock)
  | .allowed silicon account actor clock =>
    commit database (database.putAllowance silicon account actor clock)
  | .disallowed silicon account actor clock =>
    commit database (database.deleteAllowance silicon account actor clock)
  | .accepted codec deliverySummary command sendId sendIds now =>
    { database with
      db := commit database.db
        (codec.acceptEvent deliverySummary command sendId sendIds now database.db) }
  | .blocked command =>
    { database with db := commit database.db (recordBlockedRequest command database.db) }
  | .purgedHooks batchSize clock =>
    { database with db := purgeExpiredHooks batchSize clock database.db }
  | .purgedRecords events blocked =>
    { database with db := (database.db.deleteEvents events).deleteBlocked blocked }
  | .linked mapping _ dryRun clock => (linkIdentities mapping dryRun clock database).2
  | .elsewhere other => { database with db := { other with
      hooks := database.db.hooks
      events := database.db.events
      blockedRequests := database.db.blockedRequests
      retiredEndpointKeys := database.db.retiredEndpointKeys
      identityLinks := database.db.identityLinks } }

-- -----------------------------------------------------------------------------
-- The invariant
-- -----------------------------------------------------------------------------

def Store.HasHook (db : Store) (hookId : HookId) (siliconId : SiliconId) : Prop :=
  ∃ hook, db.hooks.find hookId = some hook ∧ hook.siliconId = siliconId

structure StoredKeys (db : Store) : Prop where
  hooks : ∀ row ∈ db.hooks.rows, row.siliconId.namesCarbon = false
  retired : ∀ row ∈ db.retiredEndpointKeys.rows, row.siliconId.namesCarbon = false
  events : ∀ row ∈ db.events.rows, db.HasHook row.hookId row.siliconId
  blocked : ∀ row ∈ db.blockedRequests.rows, db.HasHook row.hookId row.siliconId
  kinds : KindsOfIds db.identityLinks
  oneLink : OneLink db.identityLinks

structure StoredIdentities (database : Database) : Prop where
  keys : StoredKeys database.db
  audit : ∀ row ∈ database.auditLog, row.siliconId.namesCarbon = false

namespace StoredKeys

variable {db db' : Store} {p : HookRow → Bool} {f : HookRow → HookRow}

theorem of_same (h : StoredKeys db) (hhooks : db'.hooks = db.hooks)
    (hretired : db'.retiredEndpointKeys = db.retiredEndpointKeys) (hevents : db'.events = db.events)
    (hblocked : db'.blockedRequests = db.blockedRequests)
    (hlinks : db'.identityLinks = db.identityLinks) : StoredKeys db' := by
  obtain ⟨h₁, h₂, h₃, h₄, h₅, h₆⟩ := h
  refine ⟨hhooks ▸ h₁, hretired ▸ h₂, ?_, ?_, hlinks ▸ h₅, hlinks ▸ h₆⟩
  · intro row hm
    rw [Store.HasHook, hhooks]
    exact h₃ row (hevents ▸ hm)
  · intro row hm
    rw [Store.HasHook, hhooks]
    exact h₄ row (hblocked ▸ hm)

theorem hasHook_update (hf : ∀ row, Keyed.key (f row) = Keyed.key row)
    (hkeep : ∀ row, (f row).siliconId = row.siliconId)
    (hhooks : db'.hooks = db.hooks.update p f hf) {hookId : HookId} {siliconId : SiliconId}
    (h : db.HasHook hookId siliconId) : db'.HasHook hookId siliconId := by
  obtain ⟨hook, hfind, hid⟩ := h
  refine ⟨if p hook then f hook else hook, ?_, ?_⟩
  · rw [hhooks, Table.find_update, hfind]
    rfl
  · split
    · rw [hkeep, hid]
    · exact hid

theorem hooks_update (h : StoredKeys db) (hf : ∀ row, Keyed.key (f row) = Keyed.key row)
    (hkeep : ∀ row, (f row).siliconId = row.siliconId)
    (hhooks : db'.hooks = db.hooks.update p f hf) :
    ∀ row ∈ db'.hooks.rows, row.siliconId.namesCarbon = false := by
  intro row hm
  rw [hhooks] at hm
  obtain ⟨old, hold, rfl⟩ := (Table.mem_update _).mp hm
  split
  · rw [hkeep]
    exact h.hooks old hold
  · exact h.hooks old hold

theorem of_update (h : StoredKeys db) (hf : ∀ row, Keyed.key (f row) = Keyed.key row)
    (hkeep : ∀ row, (f row).siliconId = row.siliconId)
    (hhooks : db'.hooks = db.hooks.update p f hf)
    (hretired : db'.retiredEndpointKeys = db.retiredEndpointKeys) (hevents : db'.events = db.events)
    (hblocked : db'.blockedRequests = db.blockedRequests)
    (hlinks : db'.identityLinks = db.identityLinks) : StoredKeys db' := by
  refine ⟨h.hooks_update hf hkeep hhooks, hretired ▸ h.retired, ?_, ?_, hlinks ▸ h.kinds,
    hlinks ▸ h.oneLink⟩
  · intro row hm
    exact hasHook_update hf hkeep hhooks (h.events row (hevents ▸ hm))
  · intro row hm
    exact hasHook_update hf hkeep hhooks (h.blocked row (hblocked ▸ hm))

theorem inserted {command : CreateHook} {owner : AccountUuid} {hooks : Table HookRow}
    {keys : Table IdempotencyRow} (h : StoredKeys db) (howned : command.Owned owner)
    (hins : db.hooks.insert (command.hook.row command.isAccountsDefault) = some hooks) :
    StoredKeys { db with hooks := hooks, managementIdempotency := keys } := by
  have hkept : ∀ {hookId siliconId}, db.HasHook hookId siliconId →
      ∃ hook, hooks.find hookId = some hook ∧ hook.siliconId = siliconId := by
    rintro hookId siliconId ⟨hook, hfind, hid⟩
    refine ⟨hook, ?_, hid⟩
    rw [Table.find_insert hins, if_neg]
    · exact hfind
    · rintro rfl
      rw [Table.insert_fresh hins] at hfind
      cases hfind
  refine ⟨?_, h.retired, fun row hm => hkept (h.events row hm),
    fun row hm => hkept (h.blocked row hm), h.kinds, h.oneLink⟩
  intro row hm
  obtain hm | rfl := (Table.mem_insert hins).mp hm
  · exact h.hooks row hm
  · show command.hook.siliconId.namesCarbon = false
    rw [howned.siliconId]
    exact fromAccountUuid_namesCarbon owner

theorem created {command : CreateHook} {owner : AccountUuid} (h : StoredKeys db)
    (howned : command.Owned owner) (hc : createHookRow command db = .ok (outcome, db')) :
    StoredKeys db' := by
  obtain ⟨-, siliconUuid, -, ⟨response, keys, hook, -, -, -, -, -, rfl⟩ |
    ⟨keys, keys', hooks, -, -, hins, -, -, rfl⟩⟩ := createHookRow_ok hc
  · exact h.of_same rfl rfl rfl rfl rfl
  · exact h.inserted howned hins

theorem rotatedEndpoint {command : RotateEndpoint} (h : StoredKeys db)
    (hc : rotateHookEndpointRow command db = .ok (outcome, db')) : StoredKeys db' := by
  obtain ⟨-, ⟨response, keys, hook, -, -, -, -, rfl⟩ |
    ⟨keys, keys', row, retiredKeys, rotated, -, hr, -, -, -, hins, -, -, rfl⟩⟩ :=
      rotateHookEndpointRow_ok hc
  · exact h.of_same rfl rfl rfl rfl rfl
  · have hkeep : ∀ row : HookRow, (HookRow.withEndpoint command.replacement command.occurredAt
        row).siliconId = row.siliconId := fun _ => rfl
    have hid := HookRow.withEndpoint_id command.replacement command.occurredAt
    refine ⟨h.hooks_update hid hkeep rfl, ?_,
      fun row hm => hasHook_update hid hkeep rfl (h.events row hm),
      fun row hm => hasHook_update hid hkeep rfl (h.blocked row hm), h.kinds, h.oneLink⟩
    intro retired hm
    obtain hm | rfl := (Table.mem_insert hins).mp hm
    · exact h.retired retired hm
    · obtain ⟨hfind, -⟩ := Store.scopedHook_some.mp hr
      exact h.hooks row (Table.find_some.mp hfind).1

theorem appended {deliverySummary : SummaryRenderer} {command : AcceptEvent} {event : EventRecord}
    (h : StoredKeys db) (ha : Appended deliverySummary command db event db') : StoredKeys db' := by
  obtain ⟨hook, events, hfind, hins, -, rfl⟩ := ha.stored
  have hkeep : ∀ row : HookRow, (row.received command.request.receivedAt).siliconId =
      row.siliconId := fun _ => rfl
  have hkey : ∀ row : HookRow, Keyed.key (row.received command.request.receivedAt) =
      Keyed.key row := fun _ => rfl
  refine ⟨h.hooks_update hkey hkeep rfl, h.retired, ?_,
    fun row hm => hasHook_update hkey hkeep rfl (h.blocked row hm), h.kinds, h.oneLink⟩
  intro row hm
  obtain hm | rfl := (Table.mem_insert hins).mp hm
  · exact hasHook_update hkey hkeep rfl (h.events row hm)
  · obtain ⟨old, hold, rfl⟩ := Option.map_eq_some_iff.mp hfind
    have hid : old.id = command.hook.id := Table.find_key hold
    have hhas : db.HasHook old.id old.siliconId := ⟨old, hid ▸ hold, rfl⟩
    exact hasHook_update hkey hkeep rfl hhas

theorem accepted {codec : DeliveryCodec} {deliverySummary : SummaryRenderer}
    {command : AcceptEvent} {event : EventRecord} {sendIds : Uuid → Uuid} (h : StoredKeys db)
    (hc : codec.acceptEvent deliverySummary command sendId sendIds now db = .ok (event, db')) :
    StoredKeys db' := by
  obtain ⟨mid, happended, hqueued⟩ := acceptEvent_ok hc
  have hmid := h.appended happended
  split at hqueued
  · obtain ⟨_, rfl⟩ := queueSends_frame hqueued
    exact hmid.of_same rfl rfl rfl rfl rfl
  · exact hqueued ▸ hmid

theorem recorded {command : RecordBlockedRequest} {made : BlockedRequest} (h : StoredKeys db)
    (hc : recordBlockedRequest command db = .ok (made, db')) : StoredKeys db' := by
  have hkeep : ∀ row : HookRow, (HookRow.blocked command.request.receivedAt row).siliconId =
      row.siliconId := fun _ => rfl
  have hkey := HookRow.blocked_id command.request.receivedAt
  unfold recordBlockedRequest at hc
  split at hc
  · cases hc
  · dsimp only at hc
    split at hc
    · cases hc
    · rename_i inserted hinserted
      cases hc
      unfold insertBlockedRequest at hinserted
      split at hinserted
      · cases hinserted
      · rename_i hook hfind
        split at hinserted
        · cases hinserted
        · rename_i blockedRequests hins
          cases hinserted
          refine ⟨h.hooks_update hkey hkeep rfl, h.retired,
            fun row hm => hasHook_update hkey hkeep rfl (h.events row hm), ?_, h.kinds, h.oneLink⟩
          intro row hm
          obtain hm | rfl := (Table.mem_insert hins).mp hm
          · exact hasHook_update hkey hkeep rfl (h.blocked row hm)
          · exact ⟨hook, Table.mem_rows.mp (Table.find_some.mp hfind).1, rfl⟩

theorem purged (h : StoredKeys db) (expired : List HookId) : StoredKeys (db.purgeHooks expired) := by
  have hkept : ∀ {hookId siliconId}, db.HasHook hookId siliconId →
      expired.contains hookId = false → (db.purgeHooks expired).HasHook hookId siliconId := by
    rintro hookId siliconId ⟨hook, hfind, hid⟩ hnot
    have hkey : hook.id = hookId := Table.find_key hfind
    refine ⟨hook, ?_, hid⟩
    show (db.hooks.delete _).find hookId = _
    rw [Table.find_delete, hfind, Option.filter_some, if_pos]
    rw [hkey, hnot]
    rfl
  refine ⟨fun row hm => h.hooks row (Table.mem_delete.mp hm).1, h.retired, ?_, ?_, h.kinds,
    h.oneLink⟩
  · intro row hm
    obtain ⟨hm, hnot⟩ := Table.mem_delete.mp hm
    exact hkept (h.events row hm) hnot
  · intro row hm
    obtain ⟨hm, hnot⟩ := Table.mem_delete.mp hm
    exact hkept (h.blocked row hm) hnot

end StoredKeys

-- -----------------------------------------------------------------------------
-- Linking
-- -----------------------------------------------------------------------------

theorem HookRow.ownerColumn_siliconId (target : HookRow → Option (Option AccountUuid))
    (row : HookRow) : (HookRow.ownerColumn.assign target row).siliconId = row.siliconId := by
  unfold Column.assign
  cases target row <;> rfl

theorem HookRow.creatorColumn_siliconId (target : HookRow → Option (Option AccountUuid))
    (row : HookRow) : (HookRow.creatorColumn.assign target row).siliconId = row.siliconId := by
  unfold Column.assign
  cases target row <;> rfl

theorem RetiredKeyRow.ownerColumn_siliconId
    (target : RetiredKeyRow → Option (Option AccountUuid)) (row : RetiredKeyRow) :
    (RetiredKeyRow.ownerColumn.assign target row).siliconId = row.siliconId := by
  unfold Column.assign
  cases target row <;> rfl

theorem EventRow.ownerColumn_hook (target : EventRow → Option (Option AccountUuid))
    (row : EventRow) : (EventRow.ownerColumn.assign target row).hookId = row.hookId ∧
      (EventRow.ownerColumn.assign target row).siliconId = row.siliconId := by
  unfold Column.assign
  cases target row <;> exact ⟨rfl, rfl⟩

theorem BlockedRequestRow.ownerColumn_hook
    (target : BlockedRequestRow → Option (Option AccountUuid)) (row : BlockedRequestRow) :
    (BlockedRequestRow.ownerColumn.assign target row).hookId = row.hookId ∧
      (BlockedRequestRow.ownerColumn.assign target row).siliconId = row.siliconId := by
  unfold Column.assign
  cases target row <;> exact ⟨rfl, rfl⟩

theorem AuditRow.columns_siliconId (owner actor : AuditRow → Option (Option AccountUuid))
    (row : AuditRow) : (AuditRow.actorColumn.assign actor
      (AuditRow.ownerColumn.assign owner row)).siliconId = row.siliconId := by
  unfold Column.assign
  cases owner row <;> cases actor _ <;> rfl

theorem StoredIdentities.linked {mapping : IdentityMapping} {clock : Instant}
    {database after : Database} (h : StoredIdentities database)
    (hd : IdentityMapping.Distinct mapping.rows)
    (hok : applyMapping mapping clock database = .ok (rekeyed, after)) :
    StoredIdentities after := by
  obtain ⟨-, links, hlinks, -, -, rfl⟩ := applyMapping_ok.mp hok
  have hkept : ∀ {hookId siliconId}, database.db.HasHook hookId siliconId →
      ((database.withLinks links).rekeyed links mapping.ids).db.HasHook hookId siliconId := by
    rintro hookId siliconId ⟨hook, hfind, hid⟩
    have hrekeyed := find_rekeyHooks links mapping.ids database.db.hooks hookId
    rw [hfind, Option.map_some] at hrekeyed
    refine ⟨_, hrekeyed, ?_⟩
    rw [HookRow.creatorColumn_siliconId, HookRow.ownerColumn_siliconId, hid]
  refine ⟨⟨?_, ?_, ?_, ?_, h.keys.kinds.write hd hlinks, h.keys.oneLink.write hlinks⟩, ?_⟩
  · intro row hm
    obtain ⟨old, hold, rfl⟩ := List.mem_map.mp
      (rekeyHooks_rows links mapping.ids database.db.hooks ▸ hm)
    rw [HookRow.creatorColumn_siliconId, HookRow.ownerColumn_siliconId]
    exact h.keys.hooks old hold
  · intro row hm
    have hrows := rekeyRetired_rows links mapping.ids database.db.retiredEndpointKeys
    obtain ⟨old, hold, rfl⟩ := List.mem_map.mp (hrows ▸ hm)
    rw [RetiredKeyRow.ownerColumn_siliconId]
    exact h.keys.retired old hold
  · intro row hm
    have hrows := rekeyEvents_rows mapping.ids
      (rekeyHooks links mapping.ids database.db.hooks) database.db.events
    obtain ⟨old, hold, rfl⟩ := List.mem_map.mp (hrows ▸ hm)
    rw [(EventRow.ownerColumn_hook _ _).1, (EventRow.ownerColumn_hook _ _).2]
    exact hkept (h.keys.events old hold)
  · intro row hm
    have hrows := rekeyBlocked_rows mapping.ids
      (rekeyHooks links mapping.ids database.db.hooks) database.db.blockedRequests
    obtain ⟨old, hold, rfl⟩ := List.mem_map.mp (hrows ▸ hm)
    rw [(BlockedRequestRow.ownerColumn_hook _ _).1, (BlockedRequestRow.ownerColumn_hook _ _).2]
    exact hkept (h.keys.blocked old hold)
  · intro row hm
    obtain ⟨owned, howned, rfl⟩ := List.mem_map.mp hm
    obtain ⟨old, hold, rfl⟩ := List.mem_map.mp howned
    rw [AuditRow.columns_siliconId]
    exact h.audit old hold

-- -----------------------------------------------------------------------------
-- Runs
-- -----------------------------------------------------------------------------

theorem StoredIdentities.audited {call : Store → Except StoreError (α × Store)}
    {audit : Store → α → List AuditRow} {database : Database} (h : StoredIdentities database)
    (hcall : ∀ answer db', call database.db = .ok (answer, db') → StoredKeys db' ∧
      ∀ row ∈ audit database.db answer, row.siliconId.namesCarbon = false) :
    StoredIdentities (commit database (database.audited call audit)) := by
  refine commit_keeps h ?_
  intro answer after hok
  unfold Database.audited at hok
  split at hok
  · cases hok
  · rename_i hmade
    cases hok
    obtain ⟨hkeys, haudit⟩ := hcall _ _ hmade
    refine ⟨hkeys, ?_⟩
    intro row hm
    obtain hm | hm := List.mem_append.mp hm
    · exact h.audit row hm
    · exact haudit row hm

variable {db db' : Store}

theorem hookAudit_namesCarbon (h : StoredKeys db) {hook : Hook} {row : HookRow}
    (hr : db.scopedHook u k = some row) (hs : hook.siliconId = row.siliconId) (action : AuditAction)
    (actor : ActorRef) (t : Instant) :
    ∀ made ∈ [hookAudit action hook actor t], made.siliconId.namesCarbon = false := by
  intro made hm
  obtain rfl := List.mem_singleton.mp hm
  show hook.siliconId.namesCarbon = false
  rw [hs]
  exact h.hooks row (Table.find_some.mp (Store.scopedHook_some.mp hr).1).1

theorem accessAudit_namesCarbon {action : AuditAction} {silicon : AccountUuid} {actor : Actor}
    {t : Instant} : ∀ made ∈ [accessAudit action silicon actor t],
      made.siliconId.namesCarbon = false := by
  intro made hm
  obtain rfl := List.mem_singleton.mp hm
  exact fromAccountUuid_namesCarbon silicon

namespace StoredKeys

theorem updated {command : UpdateHook} {hook : Hook} (h : StoredKeys db) (actor : ActorRef)
    (t : Instant) (hc : updateHookRow command db = .ok (hook, db')) : StoredKeys db' ∧
      ∀ made ∈ [hookAudit .updated hook actor t], made.siliconId.namesCarbon = false := by
  obtain ⟨row, _, hr, -, -, hs, rfl⟩ := updateHookRow_ok.mp hc
  have hid : hook.siliconId = row.siliconId := by
    rw [Hook.siliconId, hs]
    rfl
  refine ⟨h.of_update ?_ ?_ rfl rfl rfl rfl rfl, hookAudit_namesCarbon h hr hid _ _ _⟩
  · exact fun _ => rfl
  · exact fun _ => rfl

theorem deleted {command : HookMutation} {hook : Hook} (h : StoredKeys db) (actor : ActorRef)
    (hc : deleteHookRow command db = .ok (hook, db')) : StoredKeys db' ∧
      ∀ made ∈ [hookAudit .deleted hook actor command.occurredAt],
        made.siliconId.namesCarbon = false := by
  obtain ⟨row, hr, -, hs, rfl⟩ := deleteHookRow_ok hc
  have hid : hook.siliconId = row.siliconId := by
    rw [Hook.siliconId, hs]
    rfl
  exact ⟨h.of_update (HookRow.delete_id command.occurredAt) (fun _ => rfl) rfl rfl rfl rfl rfl,
    hookAudit_namesCarbon h hr hid _ _ _⟩

theorem rotatedSecret {command : RotateSecret} (h : StoredKeys db)
    (hc : rotateHookSecretRow command db = .ok (outcome, db')) : StoredKeys db' ∧
      ∀ hook : Hook, outcome = .rotated hook →
        ∀ made ∈ [hookAudit .secretRotated hook command.auditActor command.occurredAt],
          made.siliconId.namesCarbon = false := by
  obtain ⟨-, ⟨response, keys, hook, -, -, -, -, rfl, rfl⟩ |
    ⟨keys, keys', row, _, rotated, -, hr, -, -, hs, -, rfl, rfl⟩⟩ := rotateHookSecretRow_ok.mp hc
  · exact ⟨h.of_same rfl rfl rfl rfl rfl, fun hook heq => by cases heq⟩
  · refine ⟨h.of_update (HookRow.withSecret_id command.encryptedSecret) (fun _ => rfl) rfl rfl rfl
      rfl rfl, fun hook heq => ?_⟩
    cases heq
    have hid : rotated.siliconId = row.siliconId := by
      rw [Hook.siliconId, hs]
      rfl
    exact hookAudit_namesCarbon h hr hid _ _ _

theorem restored {command : RestoreHook} (h : StoredKeys db)
    (hc : restoreHookRow command db = .ok (outcome, db')) : StoredKeys db' ∧
      ∀ hook : Hook, outcome = .restored hook →
        ∀ made ∈ [hookAudit .restored hook command.auditActor command.occurredAt],
          made.siliconId.namesCarbon = false := by
  obtain ⟨-, ⟨response, keys, hook, -, -, -, rfl, rfl⟩ |
    ⟨keys, keys', row, restored, -, hr, -, hs, -, rfl, rfl⟩⟩ := restoreHookRow_ok hc
  · exact ⟨h.of_same rfl rfl rfl rfl rfl, fun hook heq => by cases heq⟩
  · refine ⟨h.of_update HookRow.restore_id (fun _ => rfl) rfl rfl rfl rfl rfl, fun hook heq => ?_⟩
    cases heq
    have hid : restored.siliconId = row.siliconId := by
      rw [Hook.siliconId, hs]
      rfl
    exact hookAudit_namesCarbon h hr hid _ _ _

theorem rotatedEndpoint_audit {command : RotateEndpoint} (h : StoredKeys db)
    (hc : rotateHookEndpointRow command db = .ok (outcome, db')) :
    ∀ hook : Hook, outcome = .rotated hook →
      ∀ made ∈ [hookAudit .endpointRotated hook command.auditActor command.occurredAt],
        made.siliconId.namesCarbon = false := by
  obtain ⟨-, ⟨response, keys, hook, -, -, -, rfl, rfl⟩ |
    ⟨keys, keys', row, retiredKeys, rotated, -, hr, -, -, hs, -, -, rfl, rfl⟩⟩ :=
      rotateHookEndpointRow_ok hc
  · exact fun hook heq => by cases heq
  · intro hook heq
    cases heq
    have hid : rotated.siliconId = row.siliconId := by
      rw [Hook.siliconId, hs]
      rfl
    exact hookAudit_namesCarbon h hr hid _ _ _

end StoredKeys

theorem StoredIdentities.step {database : Database} (h : StoredIdentities database)
    (label : StoredLabel) : StoredIdentities (storedStep database label) := by
  cases label with
  | created command owner owned =>
    refine h.audited fun outcome db' hc => ⟨h.keys.created owned hc, ?_⟩
    cases outcome with
    | replayed => exact List.forall_mem_nil _
    | created hook =>
      intro made hm
      obtain rfl := List.mem_singleton.mp hm
      show hook.siliconId.namesCarbon = false
      obtain ⟨-, _, -, ⟨_, _, _, -, -, -, -, heq, -⟩ | ⟨_, _, _, -, -, -, -, heq, -⟩⟩ :=
        createHookRow_ok hc
      · cases heq
      · cases heq
        rw [owned.siliconId]
        exact fromAccountUuid_namesCarbon owner
  | updated command actor t => exact h.audited fun _ _ hc => h.keys.updated actor t hc
  | activated command actor =>
    refine h.audited fun _ _ hc => ⟨?_, ?_⟩
    · obtain ⟨ids, -, rfl⟩ := setHooksEnabled_ok hc
      exact h.keys.of_update command.activate_key (fun _ => rfl) rfl rfl rfl rfl rfl
    · intro made hm
      obtain ⟨row, hrow, rfl⟩ := List.mem_map.mp hm
      exact h.keys.hooks row (List.mem_filter.mp hrow).1
  | rotatedSecret command =>
    refine h.audited fun outcome _ hc => ⟨(h.keys.rotatedSecret hc).1, ?_⟩
    cases outcome with
    | rotated hook => exact (h.keys.rotatedSecret hc).2 hook rfl
    | replayed => exact List.forall_mem_nil _
  | rotatedEndpoint command =>
    refine h.audited fun outcome _ hc => ⟨h.keys.rotatedEndpoint hc, ?_⟩
    cases outcome with
    | rotated hook => exact h.keys.rotatedEndpoint_audit hc hook rfl
    | replayed => exact List.forall_mem_nil _
  | deleted command actor => exact h.audited fun _ _ hc => h.keys.deleted actor hc
  | restored command =>
    refine h.audited fun outcome _ hc => ⟨(h.keys.restored hc).1, ?_⟩
    cases outcome with
    | restored hook => exact (h.keys.restored hc).2 hook rfl
    | replayed => exact List.forall_mem_nil _
  | granted silicon grantee level actor clock =>
    refine h.audited fun _ _ hc => ⟨?_, accessAudit_namesCarbon⟩
    obtain ⟨db', hdb, heq⟩ := Except.map_ok.mp hc
    cases heq
    unfold putGrant at hdb
    split at hdb <;> cases hdb
    exact h.keys.of_same rfl rfl rfl rfl rfl
  | ungranted silicon grantee actor keeps clock =>
    show StoredIdentities (commit database (database.audited
      (fun db => .ok (deleteGrant silicon grantee keeps db)) fun _ removed =>
        if removed then [accessAudit .accessRevoked silicon actor clock] else []))
    refine h.audited fun removed db' hc => ⟨?_, ?_⟩
    · have hdb : (deleteGrant silicon grantee keeps database.db).2 = db' :=
        congrArg Prod.snd (Except.ok.inj hc)
      rw [← hdb]
      unfold deleteGrant
      dsimp only
      split
      · exact h.keys
      · split <;> exact h.keys.of_same rfl rfl rfl rfl rfl
    · cases removed
      · exact List.forall_mem_nil _
      · exact accessAudit_namesCarbon
  | allowed silicon account actor clock =>
    refine h.audited fun _ _ hc => ⟨?_, accessAudit_namesCarbon⟩
    obtain ⟨db', hdb, heq⟩ := Except.map_ok.mp hc
    cases heq
    unfold putAllowance at hdb
    split at hdb <;> cases hdb
    exact h.keys.of_same rfl rfl rfl rfl rfl
  | disallowed silicon account actor clock =>
    show StoredIdentities (commit database (database.audited
      (fun db => .ok (deleteAllowance silicon account db)) fun _ removed =>
        if removed then [accessAudit .allowListRemoved silicon actor clock] else []))
    refine h.audited fun removed db' hc => ⟨?_, ?_⟩
    · have hdb : (deleteAllowance silicon account database.db).2 = db' :=
        congrArg Prod.snd (Except.ok.inj hc)
      rw [← hdb]
      unfold deleteAllowance
      split
      · exact h.keys
      · exact h.keys.of_same rfl rfl rfl rfl rfl
    · cases removed
      · exact List.forall_mem_nil _
      · exact accessAudit_namesCarbon
  | accepted codec deliverySummary command sendId sendIds now =>
    exact ⟨commit_keeps h.keys fun _ _ hc => h.keys.accepted hc, h.audit⟩
  | blocked command => exact ⟨commit_keeps h.keys fun _ _ hc => h.keys.recorded hc, h.audit⟩
  | purgedHooks batchSize clock => exact ⟨h.keys.purged _, h.audit⟩
  | purgedRecords events blocked =>
    refine ⟨⟨h.keys.hooks, h.keys.retired, ?_, ?_, h.keys.kinds, h.keys.oneLink⟩, h.audit⟩
    · exact fun row hm => h.keys.events row (Table.mem_delete.mp hm).1
    · exact fun row hm => h.keys.blocked row (Table.mem_delete.mp hm).1
  | linked mapping distinct dryRun clock =>
    unfold storedStep linkIdentities
    dsimp only
    split
    · exact h
    · rename_i hok
      dsimp only
      split
      · exact h
      · exact h.linked distinct hok
  | elsewhere other => exact ⟨h.keys.of_same rfl rfl rfl rfl rfl, h.audit⟩

theorem StoredIdentities.run {database : Database} (h : StoredIdentities database)
    (labels : List StoredLabel) : StoredIdentities (run storedStep database labels) :=
  run_invariant (P := fun _ _ => True) (fun _ label h _ => h.step label) h along_true

end SiliconHook
