import SiliconHook.Store.Idempotency
import Mathlib.Data.List.Sort

/-!
# Hook persistence

The transactions on hooks: each reads the row it locks, lets the aggregate
decide, and writes the columns its statement names.
-/

namespace SiliconHook

-- -----------------------------------------------------------------------------
-- Rows and aggregates
-- -----------------------------------------------------------------------------

def HookRow.status (row : HookRow) : HookStatus :=
  if row.deletedAt.isSome then .deleted else if row.disabledAt.isSome then .disabled else .active

def HookRow.snapshot (row : HookRow) : HookSnapshot where
  id := row.id
  siliconId := row.siliconId
  siliconUuid := row.siliconUuid
  name := row.name
  description := row.description
  endpointKey := row.endpointKey
  signing := row.signing
  timeZone := row.timeZone
  status := row.status
  createdBy := row.createdBy
  createdAt := row.createdAt
  disabledAt := row.disabledAt
  deletedAt := row.deletedAt
  lastReceivedAt := row.lastReceivedAt
  lastBlockedAt := row.lastBlockedAt
  endpointRotatedAt := row.endpointRotatedAt

def HookRow.toHook (row : HookRow) : Except StoreError Hook :=
  match Hook.rehydrate row.snapshot with
  | .ok hook => .ok hook
  | .error _ => .error (.corruptData "hook" "lifecycle")

def Store.scopedHook (db : Store) (siliconUuid : AccountUuid) (hookId : HookId) :
    Option HookRow :=
  (db.hooks.find hookId).filter fun row => row.siliconUuid = some siliconUuid

def getHook (siliconUuid : AccountUuid) (hookId : HookId) (db : Store) :
    Except StoreError (Option Hook) :=
  match db.scopedHook siliconUuid hookId with
  | none => .ok none
  | some row => row.toHook.map some

def selectScopedHookForUpdate (siliconUuid : AccountUuid) (hookId : HookId) (db : Store) :
    Except StoreError Hook := do
  match ← getHook siliconUuid hookId db with
  | none => throw (.notFound "hook")
  | some hook => return hook

def selectReplayedScopedHook (siliconUuid : AccountUuid) (response : PersistedResponse)
    (db : Store) : Except StoreError Hook := do
  match response.resourceId with
  | none => throw (.corruptData "management idempotency" "missing hook resource ID")
  | some hookId =>
    match ← getHook siliconUuid hookId db with
    | none => throw (.corruptData "management idempotency"
        "replayed hook no longer exists in its owner scope")
    | some hook => return hook

def liveHook (hookId : HookId) (row : HookRow) : Bool :=
  row.id = hookId && row.deletedAt.isNone

/-- `UPDATE hook.hooks SET … WHERE id = $1 AND deleted_at IS NULL`, one row. -/
def Store.updateLiveHook (db : Store) (hookId : HookId) (f : HookRow → HookRow)
    (hf : ∀ row, (f row).id = row.id) : Except StoreError Store :=
  if (db.hooks.select (liveHook hookId)).length ≠ 1 then .error (.stateConflict "hook")
  else .ok { db with hooks := db.hooks.update (liveHook hookId) f hf }

-- -----------------------------------------------------------------------------
-- Activation
-- -----------------------------------------------------------------------------

def maxHookActivationBatchSize : Nat := 1000

structure BatchHookActivation where
  siliconUuid : AccountUuid
  hookIds : List HookId
  enabled : Bool
  occurredAt : Instant

def sortIds (ids : List HookId) : List HookId := ids.insertionSort fun a b => a.uuid ≤ b.uuid

def activationHookIds (command : BatchHookActivation) : Except StoreError (List HookId) :=
  if command.hookIds.isEmpty || maxHookActivationBatchSize < command.hookIds.length then
    .error (.invalidArgument "hook_ids" "must contain between one and 1000 hooks")
  else if ¬ command.hookIds.Nodup then
    .error (.invalidArgument "hook_ids" "must not contain duplicates")
  else .ok (sortIds command.hookIds)

def lockHooksForActivation (command : BatchHookActivation) (ids : List HookId) (db : Store) :
    Except StoreError (List Hook) :=
  let rows := ids.filterMap (db.scopedHook command.siliconUuid)
  if rows.length ≠ ids.length then .error (.notFound "hook") else rows.mapM HookRow.toHook

def activationTransition (command : BatchHookActivation) (hook : Hook) : Except StoreError Hook :=
  match if command.enabled then hook.enable command.occurredAt
    else hook.disable command.occurredAt with
  | .ok hook => .ok hook
  | .error (.timestampOutOfOrder ..) => .error (.invalidArgument "occurred_at"
      "must not precede the prior lifecycle transition")
  | .error _ => .error (.stateConflict "hook")

/-- The rows an activation changes: live, and in the other state. -/
def BatchHookActivation.changes (command : BatchHookActivation) (ids : List HookId)
    (row : HookRow) : Bool :=
  row.siliconUuid = some command.siliconUuid && ids.contains row.id && row.deletedAt.isNone &&
    (row.disabledAt.isSome == command.enabled)

def BatchHookActivation.activate (command : BatchHookActivation) (row : HookRow) : HookRow :=
  { row with disabledAt := if command.enabled then none else some command.occurredAt }

theorem BatchHookActivation.activate_key (command : BatchHookActivation) (row : HookRow) :
    Keyed.key (command.activate row) = Keyed.key row := rfl

def setHooksEnabled (command : BatchHookActivation) (db : Store) :
    Except StoreError (List Hook × Store) := do
  let ids ← activationHookIds command
  let hooks ← lockHooksForActivation command ids db
  let transitioned ← hooks.mapM (activationTransition command)
  let expectedChanges := (hooks.filter fun hook => hook.isEnabled ≠ command.enabled).map Hook.id
  let changedIds := sortIds ((db.hooks.select (command.changes ids)).map HookRow.id)
  ensure (changedIds = expectedChanges) (.stateConflict "hook")
  return (transitioned, { db with
    hooks := db.hooks.update (command.changes ids) command.activate command.activate_key })

-- -----------------------------------------------------------------------------
-- Update
-- -----------------------------------------------------------------------------

structure UpdateHook where
  siliconUuid : AccountUuid
  hookId : HookId
  update : HookUpdate

def updateHookRow (command : UpdateHook) (db : Store) : Except StoreError (Hook × Store) := do
  let hook ← selectScopedHookForUpdate command.siliconUuid command.hookId db
  match hook.update command.update with
  | .error _ => throw (.stateConflict "hook")
  | .ok hook =>
    let db ← db.updateLiveHook command.hookId (fun row => { row with
      name := hook.snapshot.name
      description := hook.snapshot.description
      timeZone := hook.snapshot.timeZone
      signing := hook.signing }) fun _ => rfl
    return (hook, db)

-- -----------------------------------------------------------------------------
-- Secret rotation
-- -----------------------------------------------------------------------------

structure RotateSecret where
  siliconUuid : AccountUuid
  hookId : HookId
  encryptedSecret : EncryptedSecret
  idempotency : IdempotencyScope
  response : PersistedResponse
  auditActor : ActorRef
  occurredAt : Instant

inductive RotateSecretOutcome
  | rotated (hook : Hook)
  | replayed (hook : Hook) (response : PersistedResponse)

def validateMutationScope (hookId : HookId) (idempotency : IdempotencyScope)
    (response : PersistedResponse) (auditActor : ActorRef) : Except StoreError Unit :=
  if idempotency.actor ≠ auditActor then
    .error (.invalidArgument "audit.actor" "must match the idempotency actor")
  else if response.resourceId ≠ some hookId then
    .error (.invalidArgument "response.resource_id" "must identify the mutated hook")
  else .ok ()

def validateRotateCommand (command : RotateSecret) : Except StoreError Unit := do
  validateMutationScope command.hookId command.idempotency command.response command.auditActor
  ensure (command.response.encryptedSecret = some command.encryptedSecret ∧
      command.response.secretReplayUntil = some (command.occurredAt + secretReplayWindow))
    (.invalidArgument "response.encrypted_secret"
      "must contain the rotated secret and a replay deadline")

def rotateHookSecretRow (command : RotateSecret) (db : Store) :
    Except StoreError (RotateSecretOutcome × Store) := do
  validateRotateCommand command
  let (reservation, keys) ←
    reserveManagementKey command.idempotency command.occurredAt db.managementIdempotency
  match reservation with
  | .replayed response =>
    let hook ← selectReplayedScopedHook command.siliconUuid response db
    ensure (hook.status ≠ .deleted) (.stateConflict "hook")
    ensure (response.encryptedSecret = hook.signing.encryptedSecret) .secretSuperseded
    return (.replayed hook response, { db with managementIdempotency := keys })
  | .reserved =>
    let hook ← selectScopedHookForUpdate command.siliconUuid command.hookId db
    match hook.rotateSecret command.encryptedSecret with
    | .error _ => throw (.stateConflict "hook")
    | .ok hook =>
      let db ← db.updateLiveHook command.hookId (fun row => { row with
        signing := { row.signing with encryptedSecret := some command.encryptedSecret } })
        fun _ => rfl
      let keys ← finishManagementKey command.idempotency command.response keys
      return (.rotated hook, { db with managementIdempotency := keys })

-- -----------------------------------------------------------------------------
-- Endpoint rotation
-- -----------------------------------------------------------------------------

structure RotateEndpoint where
  siliconUuid : AccountUuid
  hookId : HookId
  replacement : EndpointKey
  idempotency : IdempotencyScope
  response : PersistedResponse
  auditActor : ActorRef
  occurredAt : Instant

inductive RotateEndpointOutcome
  | rotated (hook : Hook)
  | replayed (hook : Hook) (response : PersistedResponse)

def validateEndpointRotationCommand (command : RotateEndpoint) : Except StoreError Unit := do
  validateMutationScope command.hookId command.idempotency command.response command.auditActor
  ensure (command.response.encryptedSecret = none ∧ command.response.secretReplayUntil = none)
    (.invalidArgument "response.encrypted_secret"
      "endpoint rotation responses must not contain secret material")

/-- Rejects a key that is live for any hook or was retired by any rotation. -/
def ensureEndpointKeyUnused (key : EndpointKey) (db : Store) : Except StoreError Unit :=
  if (db.retiredEndpointKeys.find key).isSome ||
      db.hooks.rows.any fun row => row.endpointKey = key then
    .error .endpointKeyConflict
  else .ok ()

def rotateHookEndpointRow (command : RotateEndpoint) (db : Store) :
    Except StoreError (RotateEndpointOutcome × Store) := do
  validateEndpointRotationCommand command
  let (reservation, keys) ←
    reserveManagementKey command.idempotency command.occurredAt db.managementIdempotency
  match reservation with
  | .replayed response =>
    let hook ← selectReplayedScopedHook command.siliconUuid response db
    ensure (hook.status ≠ .deleted) (.stateConflict "hook")
    return (.replayed hook response, { db with managementIdempotency := keys })
  | .reserved =>
    let hook ← selectScopedHookForUpdate command.siliconUuid command.hookId db
    ensureEndpointKeyUnused command.replacement db
    match hook.rotateEndpoint command.replacement command.occurredAt with
    | .error .hookAlreadyDeleted => throw (.stateConflict "hook")
    | .error _ => throw (.invalidArgument "occurred_at" "must not precede hook creation")
    | .ok (hook, retired) =>
      let db ← db.updateLiveHook command.hookId (fun row => { row with
        endpointKey := hook.endpointKey
        endpointRotatedAt := some command.occurredAt }) fun _ => rfl
      match db.retiredEndpointKeys.insert
          ⟨retired, hook.siliconId, hook.siliconUuid, command.hookId, command.occurredAt⟩ with
      | none => throw (.database "retired_endpoint_keys_global")
      | some retiredKeys =>
        let keys ← finishManagementKey command.idempotency command.response keys
        return (.rotated hook, { db with
          retiredEndpointKeys := retiredKeys, managementIdempotency := keys })

-- -----------------------------------------------------------------------------
-- What the statements do
-- -----------------------------------------------------------------------------

theorem HookRow.toHook_ok {row : HookRow} :
    row.toHook = .ok hook ↔ hook.snapshot = row.snapshot := by
  rw [← Hook.rehydrate_ok]
  unfold toHook
  split <;> simp_all

theorem HookRow.status_ne_deleted {row : HookRow} :
    row.status ≠ .deleted ↔ row.deletedAt = none := by
  unfold status
  cases row.deletedAt with
  | none =>
    simp only [Option.isSome_none, Bool.false_eq_true, if_false, iff_true]
    split <;> simp
  | some t => simp

theorem Store.scopedHook_some {db : Store} {row : HookRow} :
    db.scopedHook u k = some row ↔ db.hooks.find k = some row ∧ row.siliconUuid = some u := by
  simp [scopedHook, Option.filter_eq_some_iff]

theorem getHook_some {db : Store} :
    getHook u k db = .ok (some hook) ↔
      ∃ row, db.scopedHook u k = some row ∧ hook.snapshot = row.snapshot := by
  unfold getHook
  cases h : db.scopedHook u k with
  | none => simp
  | some row =>
    simp only [Option.some.injEq, exists_eq_left', ← HookRow.toHook_ok]
    cases row.toHook <;> simp [Except.map]

theorem selectScopedHookForUpdate_ok {db : Store} :
    selectScopedHookForUpdate u k db = .ok hook ↔
      ∃ row, db.scopedHook u k = some row ∧ hook.snapshot = row.snapshot := by
  rw [← getHook_some]
  simp only [selectScopedHookForUpdate, Except.bind_ok]
  constructor
  · rintro ⟨found, hg, h⟩
    cases found with
    | none => cases h
    | some hook' =>
      cases h
      exact hg
  · intro hg
    exact ⟨_, hg, rfl⟩

theorem selectReplayedScopedHook_ok {db : Store} :
    selectReplayedScopedHook u response db = .ok hook ↔
      ∃ k, response.resourceId = some k ∧
        ∃ row, db.scopedHook u k = some row ∧ hook.snapshot = row.snapshot := by
  unfold selectReplayedScopedHook
  cases response.resourceId with
  | none => simp
  | some k =>
    simp only [Option.some.injEq, exists_eq_left', ← getHook_some, Except.bind_ok]
    constructor
    · rintro ⟨found, hg, h⟩
      cases found with
      | none => cases h
      | some hook' =>
        cases h
        exact hg
    · intro hg
      exact ⟨_, hg, rfl⟩

theorem select_liveHook {hooks : Table HookRow} :
    (hooks.select (liveHook k)).length = 1 ↔
      ∃ row, hooks.find k = some row ∧ row.deletedAt = none := by
  have hs := Table.select_key (t := hooks) (k := k) (q := fun row => row.deletedAt.isNone)
  have he : hooks.select (liveHook k) = (hooks.find k).toList.filter (·.deletedAt.isNone) := hs
  rw [he]
  cases hooks.find k with
  | none => simp
  | some row => cases hd : row.deletedAt <;> simp [hd]

theorem Store.updateLiveHook_ok {db db' : Store} {f : HookRow → HookRow}
    {hf : ∀ row, (f row).id = row.id} :
    db.updateLiveHook k f hf = .ok db' ↔
      (∃ row, db.hooks.find k = some row ∧ row.deletedAt = none) ∧
        db' = { db with hooks := db.hooks.update (liveHook k) f hf } := by
  rw [← select_liveHook]
  unfold updateLiveHook
  split
  · simp_all
  · simp_all [eq_comm]

theorem find_updateLive {hooks : Table HookRow} {f : HookRow → HookRow}
    {hf : ∀ row, (f row).id = row.id} (hr : hooks.find k = some row)
    (hd : row.deletedAt = none) :
    (hooks.update (liveHook k) f hf).find k = some (f row) := by
  have hk : row.id = k := Table.find_key hr
  simp [Table.find_update, hr, liveHook, hk, hd]

theorem find_updateLive_ne {hooks : Table HookRow} {f : HookRow → HookRow}
    {hf : ∀ row, (f row).id = row.id} (hk : k' ≠ k) :
    (hooks.update (liveHook k) f hf).find k' = hooks.find k' := by
  rw [Table.find_update]
  cases hr : hooks.find k' with
  | none => rfl
  | some row =>
    have hid : row.id = k' := Table.find_key hr
    simp [liveHook, hid, hk]

-- -----------------------------------------------------------------------------
-- Update and secret rotation, row by row
-- -----------------------------------------------------------------------------

def HookRow.apply (row : HookRow) (update : HookUpdate) : HookRow :=
  { row with
    name := update.name.getD row.name
    description := update.description.getD row.description
    timeZone := update.timeZone.getD row.timeZone
    signing := update.signing.getD row.signing }

def HookRow.withSecret (row : HookRow) (secret : EncryptedSecret) : HookRow :=
  { row with signing := { row.signing with encryptedSecret := some secret } }

theorem HookRow.withSecret_id (secret : EncryptedSecret) (row : HookRow) :
    (row.withSecret secret).id = row.id := rfl

theorem updateHookRow_ok {db db' : Store} {command : UpdateHook} {updated : Hook} :
    updateHookRow command db = .ok (updated, db') ↔
      ∃ row, ∃ hook : Hook, db.scopedHook command.siliconUuid command.hookId = some row ∧
        hook.snapshot = row.snapshot ∧ row.deletedAt = none ∧
        updated.snapshot = (row.apply command.update).snapshot ∧
        db' = { db with
          hooks := db.hooks.update (liveHook command.hookId) (fun row => { row with
            name := updated.snapshot.name
            description := updated.snapshot.description
            timeZone := updated.snapshot.timeZone
            signing := updated.signing }) fun _ => rfl } := by
  simp only [updateHookRow, Except.bind_ok, selectScopedHookForUpdate_ok]
  constructor
  · rintro ⟨hook, ⟨row, hr, hs⟩, h⟩
    split at h
    · cases h
    · rename_i hook' hu
      simp only [Except.bind_ok] at h
      obtain ⟨db'', hl, he⟩ := h
      cases he
      obtain ⟨hne, hs'⟩ := Hook.update_ok.mp hu
      rw [Hook.status, hs] at hne
      refine ⟨row, hook, hr, hs, HookRow.status_ne_deleted.mp hne, ?_,
        (Store.updateLiveHook_ok.mp hl).2⟩
      rw [hs', hs]
      rfl
  · rintro ⟨row, hook, hr, hs, hd, hu, rfl⟩
    have hup : hook.update command.update = .ok updated := by
      refine Hook.update_ok.mpr ⟨?_, ?_⟩
      · rw [Hook.status, hs]
        exact HookRow.status_ne_deleted.mpr hd
      · rw [hu, hs]
        rfl
    refine ⟨hook, ⟨row, hr, hs⟩, ?_⟩
    simp only [hup, Except.bind_ok]
    exact ⟨_, Store.updateLiveHook_ok.mpr
      ⟨⟨row, (Store.scopedHook_some.mp hr).1, hd⟩, rfl⟩, rfl⟩

theorem updateHookRow_find {db db' : Store} {command : UpdateHook} {updated : Hook}
    (h : updateHookRow command db = .ok (updated, db'))
    (hr : db.hooks.find command.hookId = some row) :
    db'.hooks.find command.hookId = some (row.apply command.update) := by
  obtain ⟨row', hook, hr', -, hd, hu, rfl⟩ := updateHookRow_ok.mp h
  cases hr.symm.trans (Store.scopedHook_some.mp hr').1
  rw [find_updateLive hr hd, Hook.signing, hu]
  rfl

/-- A replayed rotation answers from the key's row; another writes the secret. -/
theorem rotateHookSecretRow_ok {db db' : Store} {command : RotateSecret} :
    rotateHookSecretRow command db = .ok (outcome, db') ↔
      validateRotateCommand command = .ok () ∧
        ((∃ response keys, ∃ hook : Hook,
          reserveManagementKey command.idempotency command.occurredAt db.managementIdempotency =
            .ok (.replayed response, keys) ∧
          selectReplayedScopedHook command.siliconUuid response db = .ok hook ∧
          hook.status ≠ .deleted ∧ response.encryptedSecret = hook.signing.encryptedSecret ∧
          outcome = .replayed hook response ∧ db' = { db with managementIdempotency := keys }) ∨
        (∃ keys keys' row, ∃ hook rotated : Hook,
          reserveManagementKey command.idempotency command.occurredAt db.managementIdempotency =
            .ok (.reserved, keys) ∧
          db.scopedHook command.siliconUuid command.hookId = some row ∧
          hook.snapshot = row.snapshot ∧ row.deletedAt = none ∧
          rotated.snapshot = (row.withSecret command.encryptedSecret).snapshot ∧
          finishManagementKey command.idempotency command.response keys = .ok keys' ∧
          outcome = .rotated rotated ∧
          db' = { db with
            hooks := db.hooks.update (liveHook command.hookId)
              (·.withSecret command.encryptedSecret)
              (HookRow.withSecret_id command.encryptedSecret)
            managementIdempotency := keys' })) := by
  simp only [rotateHookSecretRow, Except.bind_ok]
  constructor
  · rintro ⟨⟨⟩, hv, ⟨reservation, keys⟩, hres, h⟩
    refine ⟨hv, ?_⟩
    cases reservation with
    | replayed response =>
      simp only [Except.bind_ok, ensure_ok] at h
      obtain ⟨hook, hsel, _, hne, _, heq, h⟩ := h
      cases h
      exact .inl ⟨response, keys, hook, hres, hsel, hne, heq, rfl, rfl⟩
    | reserved =>
      simp only [Except.bind_ok, selectScopedHookForUpdate_ok] at h
      obtain ⟨hook, ⟨row, hr, hs⟩, h⟩ := h
      split at h
      · cases h
      · rename_i rotated hrot
        simp only [Except.bind_ok] at h
        obtain ⟨db'', hl, keys', hfin, h⟩ := h
        cases h
        obtain ⟨hne, hs'⟩ := Hook.rotateSecret_ok.mp hrot
        rw [Hook.status, hs] at hne
        obtain ⟨-, rfl⟩ := Store.updateLiveHook_ok.mp hl
        refine .inr ⟨keys, keys', row, hook, rotated, hres, hr, hs,
          HookRow.status_ne_deleted.mp hne, ?_, hfin, rfl, rfl⟩
        rw [hs', hs]
        rfl
  · rintro ⟨hv, ⟨response, keys, hook, hres, hsel, hne, heq, rfl, rfl⟩ |
      ⟨keys, keys', row, hook, rotated, hres, hr, hs, hd, hrot, hfin, rfl, rfl⟩⟩
    · refine ⟨(), hv, (.replayed response, keys), hres, ?_⟩
      simp only [Except.bind_ok, ensure_ok]
      exact ⟨hook, hsel, (), hne, (), heq, rfl⟩
    · refine ⟨(), hv, (.reserved, keys), hres, ?_⟩
      have hup : hook.rotateSecret command.encryptedSecret = .ok rotated := by
        refine Hook.rotateSecret_ok.mpr ⟨?_, ?_⟩
        · rw [Hook.status, hs]
          exact HookRow.status_ne_deleted.mpr hd
        · rw [hrot, hs]
          rfl
      simp only [Except.bind_ok, selectScopedHookForUpdate_ok]
      refine ⟨hook, ⟨row, hr, hs⟩, ?_⟩
      simp only [hup, Except.bind_ok]
      exact ⟨_, Store.updateLiveHook_ok.mpr
        ⟨⟨row, (Store.scopedHook_some.mp hr).1, hd⟩, rfl⟩, keys', hfin, rfl⟩

theorem rotateHookSecretRow_reserves {db db' : Store} {command : RotateSecret}
    (h : rotateHookSecretRow command db = .ok (outcome, db')) :
    ∃ reservation keys, reserveManagementKey command.idempotency command.occurredAt
      db.managementIdempotency = .ok (reservation, keys) := by
  simp only [rotateHookSecretRow, Except.bind_ok] at h
  obtain ⟨-, -, ⟨reservation, keys⟩, hres, -⟩ := h
  exact ⟨reservation, keys, hres⟩

-- -----------------------------------------------------------------------------
-- Activation of one hook
-- -----------------------------------------------------------------------------

theorem setHooksEnabled_ok {db db' : Store} {command : BatchHookActivation} {updated : List Hook}
    (h : setHooksEnabled command db = .ok (updated, db')) :
    ∃ ids, activationHookIds command = .ok ids ∧ db' = { db with
      hooks := db.hooks.update (command.changes ids) command.activate command.activate_key } := by
  simp only [setHooksEnabled, Except.bind_ok] at h
  obtain ⟨ids, hids, hooks, -, transitioned, -, -, -, h⟩ := h
  cases h
  exact ⟨ids, hids, rfl⟩

theorem activationHookIds_single (u : AccountUuid) (k : HookId) (enabled : Bool) (t : Instant) :
    activationHookIds ⟨u, [k], enabled, t⟩ = .ok [k] := by
  simp [activationHookIds, maxHookActivationBatchSize, sortIds]

theorem find_activate_ne {hooks : Table HookRow} {command : BatchHookActivation} (hk : k ≠ k') :
    (hooks.update (command.changes [k']) command.activate command.activate_key).find k =
      hooks.find k := by
  rw [Table.find_update]
  cases hr : hooks.find k with
  | none => rfl
  | some row =>
    have hid : row.id = k := Table.find_key hr
    simp [BatchHookActivation.changes, hid, hk]

/-- An activation changes at most when its hook was disabled. -/
theorem find_activate_self {hooks : Table HookRow} (command : BatchHookActivation)
    (hr : hooks.find k = some row) :
    ∃ t, (hooks.update (command.changes [k]) command.activate command.activate_key).find k =
      some { row with disabledAt := t } := by
  rw [Table.find_update, hr, Option.map_some]
  split
  · exact ⟨_, rfl⟩
  · exact ⟨row.disabledAt, rfl⟩

theorem HookRow.rehydrate_disabledAt {row : HookRow} {hook : Hook} {disabledAt : Option Instant}
    (hs : hook.snapshot = row.snapshot) (hd : row.deletedAt = none)
    (ht : ∀ t ∈ disabledAt, row.createdAt ≤ t) :
    ∃ hook' : Hook, hook'.snapshot = { row with disabledAt := disabledAt : HookRow }.snapshot := by
  have hrot := hook.rotated
  rw [hs] at hrot
  refine ⟨⟨{ row with disabledAt := disabledAt : HookRow }.snapshot, ?_, ?_, ?_, hrot⟩, rfl⟩
  · cases disabledAt <;>
      simp [HookRow.snapshot, HookSnapshot.lifecycleIsConsistent, HookRow.status, hd]
  · cases disabledAt with
    | none => rfl
    | some t => exact decide_eq_true (ht t rfl)
  · simp [HookRow.snapshot, HookSnapshot.follows, hd]

theorem isEnabled_eq {row : HookRow} {hook : Hook} (hs : hook.snapshot = row.snapshot)
    (hd : row.deletedAt = none) : hook.isEnabled = row.disabledAt.isNone := by
  have he : hook.status = row.status := by rw [Hook.status, hs]; rfl
  rw [Hook.isEnabled, he, HookRow.status, hd]
  cases row.disabledAt <;> simp

theorem activationTransition_ok {row : HookRow} {hook : Hook} (command : BatchHookActivation)
    (hs : hook.snapshot = row.snapshot) (hd : row.deletedAt = none)
    (hc : row.createdAt ≤ command.occurredAt)
    (ht : ∀ t ∈ row.disabledAt, t ≤ command.occurredAt) :
    ∃ updated, activationTransition command hook = .ok updated := by
  have he : hook.status = row.status := by rw [Hook.status, hs]; rfl
  have hcreated : hook.snapshot.createdAt = row.createdAt := by rw [hs]; rfl
  have hdisabled : hook.snapshot.disabledAt = row.disabledAt := by rw [hs]; rfl
  unfold activationTransition
  cases hen : command.enabled with
  | true =>
    cases hda : row.disabledAt with
    | none => simp [Hook.enable, he, HookRow.status, hd, hda]
    | some t =>
      have := ht t hda
      simp [Hook.enable, he, HookRow.status, hd, hdisabled, hda, Int.not_lt.mpr this]
  | false =>
    cases hda : row.disabledAt with
    | none => simp [Hook.disable, he, HookRow.status, hd, hda, hcreated, Int.not_lt.mpr hc]
    | some t => simp [Hook.disable, he, HookRow.status, hd, hda]

theorem select_changes_single {hooks : Table HookRow} {command : BatchHookActivation}
    (hr : hooks.find k = some row) (hu : row.siliconUuid = some command.siliconUuid)
    (hd : row.deletedAt = none) :
    hooks.select (command.changes [k]) =
      if row.disabledAt.isSome == command.enabled then [row] else [] := by
  have hq : command.changes [k] = fun r => decide (Keyed.key r = k) &&
      (decide (r.siliconUuid = some command.siliconUuid) && r.deletedAt.isNone &&
        (r.disabledAt.isSome == command.enabled)) := by
    funext r
    have hkey : Keyed.key r = r.id := rfl
    rw [hkey, BatchHookActivation.changes]
    by_cases hk : r.id = k <;> simp [hk]
  rw [hq, Table.select_key, hr]
  simp [List.filter_cons, hu, hd]

theorem setHooksEnabled_single {db : Store} {row : HookRow} {hook : Hook}
    (hr : db.scopedHook u k = some row) (hs : hook.snapshot = row.snapshot)
    (hd : row.deletedAt = none) (hc : row.createdAt ≤ t) (ht : ∀ t' ∈ row.disabledAt, t' ≤ t)
    (enabled : Bool) :
    ∃ updated, setHooksEnabled ⟨u, [k], enabled, t⟩ db = .ok ([updated], { db with
      hooks := db.hooks.update (BatchHookActivation.changes ⟨u, [k], enabled, t⟩ [k])
        (BatchHookActivation.activate ⟨u, [k], enabled, t⟩) (BatchHookActivation.activate_key _) }) := by
  obtain ⟨hfind, hu⟩ := Store.scopedHook_some.mp hr
  obtain ⟨updated, htr⟩ :=
    activationTransition_ok ⟨u, [k], enabled, t⟩ hs hd hc ht
  have hid : hook.id = k := by
    rw [Hook.id, hs]
    exact Table.find_key hfind
  have hrow : row.id = k := Table.find_key hfind
  have hlock : lockHooksForActivation ⟨u, [k], enabled, t⟩ [k] db = .ok [hook] := by
    simp [lockHooksForActivation, hr, HookRow.toHook_ok.mpr hs, pure, Except.pure, bind,
      Except.bind]
  refine ⟨updated, ?_⟩
  simp only [setHooksEnabled, Except.bind_ok, ensure_ok]
  refine ⟨[k], activationHookIds_single .., [hook], hlock, [updated], ?_, (), ?_, rfl⟩
  · simp [htr, pure, Except.pure, bind, Except.bind]
  · rw [select_changes_single hfind hu hd]
    simp only [List.filter_cons, isEnabled_eq hs hd, List.filter_nil]
    cases row.disabledAt <;> cases enabled <;> simp [sortIds, hid, hrow]

end SiliconHook
