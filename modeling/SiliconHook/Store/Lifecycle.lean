import SiliconHook.Store.Hooks

/-!
# Creation, deletion, restoration and routing

The transactions that begin and end a hook, the purge that removes it for good,
and the public routing of its endpoint key.
-/

namespace SiliconHook

-- -----------------------------------------------------------------------------
-- Creation
-- -----------------------------------------------------------------------------

def maxRetainedHooksPerSilicon : Nat := 1000

structure CreateHook where
  hook : Hook
  isAccountsDefault : Bool
  idempotency : IdempotencyScope
  response : PersistedResponse
  auditActor : ActorRef
  recordedAt : Instant

inductive CreateHookOutcome
  | created (hook : Hook)
  | replayed (hook : Hook) (response : PersistedResponse)

def hasNormativeSecretDeadline (response : PersistedResponse) (operationTime : Instant) : Bool :=
  response.secretReplayUntil = some (operationTime + secretReplayWindow)

def validateCreateCommand (command : CreateHook) : Except StoreError Unit := do
  ensure (command.hook.status = .active)
    (.invalidArgument "hook.status" "new hooks must be active")
  ensure (command.idempotency.actor = command.auditActor ∧
      command.auditActor = command.hook.snapshot.createdBy)
    (.invalidArgument "audit.actor" "must match the creator and idempotency actor")
  ensure (command.response.resourceId = some command.hook.id)
    (.invalidArgument "response.resource_id" "must identify the created hook")
  ensure (command.response.encryptedSecret = command.hook.signing.encryptedSecret)
    (.invalidArgument "response.encrypted_secret" "must match the created hook secret")
  ensure (command.response.encryptedSecret.isSome =
      hasNormativeSecretDeadline command.response command.recordedAt)
    (.invalidArgument "response.secret_replay_until"
      "must accompany exactly a secret-bearing response")

def recoveryCutoff (retainedAt : Instant) : Instant := retainedAt - Instant.days hookRecoveryDays

/-- A hook of the Silicon that still takes a slot: recoverable at its exact
deadline, and no longer. -/
def retainedHook (siliconUuid : AccountUuid) (retainedAt : Instant) (row : HookRow) : Bool :=
  row.siliconUuid = some siliconUuid &&
    row.deletedAt.all fun deletedAt => decide (recoveryCutoff retainedAt ≤ deletedAt)

def reserveRetainedHookSlot (siliconUuid : AccountUuid) (retainedAt : Instant) (db : Store) :
    Except StoreError Unit :=
  ensure ((db.hooks.select (retainedHook siliconUuid retainedAt)).length <
    maxRetainedHooksPerSilicon) .hookLimitReached

def Hook.row (hook : Hook) (isAccountsDefault : Bool) : HookRow where
  id := hook.id
  siliconId := hook.siliconId
  siliconUuid := hook.siliconUuid
  endpointKey := hook.endpointKey
  name := hook.snapshot.name
  description := hook.snapshot.description
  signing := hook.signing
  timeZone := hook.snapshot.timeZone
  isAccountsDefault := isAccountsDefault
  createdBy := hook.snapshot.createdBy
  createdAt := hook.snapshot.createdAt
  disabledAt := none
  deletedAt := none
  lastReceivedAt := none
  lastBlockedAt := none
  endpointRotatedAt := none

/-- `INSERT INTO hook.hooks`, with the constraints it can violate. -/
def insertHook (row : HookRow) (db : Store) : Except StoreError Store :=
  match db.hooks.insert row with
  | none => .error (.database "hooks_pkey")
  | some hooks =>
    if db.hooks.rows.any fun other => other.endpointKey = row.endpointKey then
      .error .endpointKeyConflict
    else if row.isAccountsDefault && db.hooks.rows.any fun other =>
        other.isAccountsDefault && other.siliconUuid = row.siliconUuid then
      .error .defaultHookExists
    else .ok { db with hooks := hooks }

def createHookRow (command : CreateHook) (db : Store) :
    Except StoreError (CreateHookOutcome × Store) := do
  validateCreateCommand command
  match command.hook.siliconUuid with
  | none => throw (.invalidArgument "hook.silicon_uuid"
      "new hooks belong to a Silicon Accounts account")
  | some siliconUuid =>
    let (reservation, keys) ←
      reserveManagementKey command.idempotency command.recordedAt db.managementIdempotency
    match reservation with
    | .replayed response =>
      let hook ← selectReplayedScopedHook siliconUuid response db
      ensure (hook.status ≠ .deleted) (.stateConflict "hook")
      ensure (response.encryptedSecret = hook.signing.encryptedSecret) .secretSuperseded
      return (.replayed hook response, { db with managementIdempotency := keys })
    | .reserved =>
      reserveRetainedHookSlot siliconUuid command.recordedAt db
      ensureEndpointKeyUnused command.hook.endpointKey db
      let db ← insertHook (command.hook.row command.isAccountsDefault) db
      let keys ← finishManagementKey command.idempotency command.response keys
      return (.created command.hook, { db with managementIdempotency := keys })

-- -----------------------------------------------------------------------------
-- Deletion and restoration
-- -----------------------------------------------------------------------------

structure HookMutation where
  siliconUuid : AccountUuid
  hookId : HookId
  occurredAt : Instant

def deleteHookRow (command : HookMutation) (db : Store) : Except StoreError (Hook × Store) := do
  let hook ← selectScopedHookForUpdate command.siliconUuid command.hookId db
  match hook.delete command.occurredAt with
  | .error _ => throw (.stateConflict "hook")
  | .ok hook =>
    let db ← db.updateLiveHook command.hookId (fun row => { row with
      disabledAt := none
      deletedAt := some command.occurredAt }) fun _ => rfl
    return (hook, db)

structure RestoreHook where
  siliconUuid : AccountUuid
  hookId : HookId
  idempotency : IdempotencyScope
  response : PersistedResponse
  auditActor : ActorRef
  occurredAt : Instant

inductive RestoreHookOutcome
  | restored (hook : Hook)
  | replayed (hook : Hook) (response : PersistedResponse)

def validateRestoreCommand (command : RestoreHook) : Except StoreError Unit := do
  validateMutationScope command.hookId command.idempotency command.response command.auditActor
  ensure (command.response.encryptedSecret = none ∧ command.response.secretReplayUntil = none)
    (.invalidArgument "response.encrypted_secret"
      "restore responses must not contain secret material")

def deletedHook (hookId : HookId) (row : HookRow) : Bool :=
  row.id = hookId && row.deletedAt.isSome

/-- `UPDATE hook.hooks SET deleted_at = NULL WHERE id = $1 AND deleted_at IS NOT NULL`. -/
def Store.undeleteHook (db : Store) (hookId : HookId) : Except StoreError Store :=
  if (db.hooks.select (deletedHook hookId)).length ≠ 1 then .error (.stateConflict "hook")
  else .ok { db with
    hooks := db.hooks.update (deletedHook hookId) (fun row => { row with deletedAt := none })
      fun _ => rfl }

def restoreHookRow (command : RestoreHook) (db : Store) :
    Except StoreError (RestoreHookOutcome × Store) := do
  validateRestoreCommand command
  let (reservation, keys) ←
    reserveManagementKey command.idempotency command.occurredAt db.managementIdempotency
  match reservation with
  | .replayed response =>
    let hook ← selectReplayedScopedHook command.siliconUuid response db
    ensure (hook.status ≠ .deleted) (.stateConflict "hook")
    return (.replayed hook response, { db with managementIdempotency := keys })
  | .reserved =>
    let hook ← selectScopedHookForUpdate command.siliconUuid command.hookId db
    match hook.restore command.occurredAt with
    | .error _ => throw (.stateConflict "hook")
    | .ok hook =>
      let db ← db.undeleteHook command.hookId
      let keys ← finishManagementKey command.idempotency command.response keys
      return (.restored hook, { db with managementIdempotency := keys })

-- -----------------------------------------------------------------------------
-- Listing
-- -----------------------------------------------------------------------------

def listedHook (siliconUuid : AccountUuid) (includeDeleted : Bool) (retainedAt : Instant)
    (row : HookRow) : Bool :=
  row.siliconUuid = some siliconUuid && row.deletedAt.all fun deletedAt =>
    includeDeleted && decide (recoveryCutoff retainedAt ≤ deletedAt)

/-- What a listing answers when it reads more rows than can be retained. -/
def tooManyHooks : StoreError :=
  .corruptData "hook collection" "retained hook count exceeds the enforced limit"

def listHooks (siliconUuid : AccountUuid) (includeDeleted : Bool) (retainedAt : Instant)
    (db : Store) : Except StoreError (List Hook) :=
  let rows := ((db.hooks.select (listedHook siliconUuid includeDeleted retainedAt)).insertionSort
    fun a b => b.createdAt < a.createdAt ∨ b.createdAt = a.createdAt ∧ b.id.uuid ≤ a.id.uuid).take
      (maxRetainedHooksPerSilicon + 1)
  if maxRetainedHooksPerSilicon < rows.length then .error tooManyHooks
  else rows.mapM HookRow.toHook

-- -----------------------------------------------------------------------------
-- Purge
-- -----------------------------------------------------------------------------

def HookRow.expired (clock : Instant) (row : HookRow) : Bool :=
  row.deletedAt.any fun deletedAt => decide (deletedAt < clock - Instant.days hookRecoveryDays)

/-- `DELETE FROM hook.hooks`, with what its foreign keys cascade to. -/
def Store.purgeHooks (db : Store) (victims : List HookId) : Store :=
  let events := (db.events.select fun row => victims.contains row.hookId).map EventRow.id
  { db with
    hooks := db.hooks.delete fun row => victims.contains row.id
    events := db.events.delete fun row => victims.contains row.hookId
    tingOutbox := db.tingOutbox.delete fun row => events.contains row.eventId
    blockedRequests := db.blockedRequests.delete fun row => victims.contains row.hookId
    ipBlocks := db.ipBlocks.delete fun row => victims.contains row.hookId }

def Store.expiredHooks (db : Store) (batchSize : Nat) (clock : Instant) : List HookId :=
  (((db.hooks.select (·.expired clock)).insertionSort fun a b =>
    a.deletedAt.getD 0 < b.deletedAt.getD 0 ∨
      a.deletedAt = b.deletedAt ∧ a.id.uuid ≤ b.id.uuid).take batchSize).map HookRow.id

def purgeExpiredHooks (batchSize : Nat) (clock : Instant) (db : Store) : Store :=
  db.purgeHooks (db.expiredHooks batchSize clock)

-- -----------------------------------------------------------------------------
-- Routing
-- -----------------------------------------------------------------------------

/-- The URL segment names the owner: the namespace key, the uuid, or a public id
Hook has seen the owner use. -/
def Store.namesOwner (db : Store) (segment : String) (siliconId : SiliconId)
    (siliconUuid : Option AccountUuid) : Bool :=
  siliconId.value = segment || siliconUuid.any fun uuid => uuid.value = segment ||
    db.accountIds.rows.any fun seen => seen.accountUuid = uuid && seen.publicId.value = segment

inductive EndpointResolution
  | active (hook : Hook) (databaseTime : Instant)
  | inactive
  | accountDeleted
  | retired
  | unknown
  deriving DecidableEq

def resolveEndpoint (segment : String) (key : EndpointKey) (databaseTime : Instant) (db : Store) :
    Except StoreError EndpointResolution :=
  match db.hooks.rows.find? fun row => row.endpointKey = key with
  | some row =>
    if !db.namesOwner segment row.siliconId row.siliconUuid then .ok .unknown
    else if row.siliconUuid.any fun uuid => (db.accounts.find uuid).any (·.deletedAt.isSome) then
      .ok .accountDeleted
    else match row.toHook with
      | .error e => .error e
      | .ok hook => .ok (if hook.isEnabled then .active hook databaseTime else .inactive)
  | none =>
    if (db.retiredEndpointKeys.find key).any fun retired =>
        db.namesOwner segment retired.siliconId retired.siliconUuid then .ok .retired
    else .ok .unknown

-- -----------------------------------------------------------------------------
-- What the statements do
-- -----------------------------------------------------------------------------

variable {db db' : Store} {hook : Hook} {row : HookRow}

theorem ensureEndpointKeyUnused_ok {key : EndpointKey} :
    ensureEndpointKeyUnused key db = .ok u ↔
      db.retiredEndpointKeys.find key = none ∧ ∀ row ∈ db.hooks.rows, row.endpointKey ≠ key := by
  unfold ensureEndpointKeyUnused
  split
  · rename_i h
    simp only [reduceCtorEq, false_iff, not_and]
    intro hnone hall
    rw [hnone, Option.isSome_none, Bool.false_or] at h
    obtain ⟨row, hm, hk⟩ := List.any_eq_true.mp h
    exact hall row hm (of_decide_eq_true hk)
  · rename_i h
    simp only [Bool.or_eq_true, not_or, Option.not_isSome_iff_eq_none, List.any_eq_true,
      decide_eq_true_eq, not_exists, not_and] at h
    simpa using h

theorem insertHook_ok :
    insertHook row db = .ok db' ↔ ∃ hooks, db.hooks.insert row = some hooks ∧
      (∀ other ∈ db.hooks.rows, other.endpointKey ≠ row.endpointKey) ∧
      (row.isAccountsDefault = true → ∀ other ∈ db.hooks.rows, other.isAccountsDefault = true →
        other.siliconUuid ≠ row.siliconUuid) ∧ db' = { db with hooks := hooks } := by
  unfold insertHook
  cases hi : db.hooks.insert row with
  | none => simp
  | some hooks =>
    simp only [Option.some.injEq, exists_eq_left']
    split
    · rename_i hany
      obtain ⟨other, hm, hk⟩ := List.any_eq_true.mp hany
      simp only [reduceCtorEq, false_iff]
      rintro ⟨hfree, -⟩
      exact hfree other hm (of_decide_eq_true hk)
    · rename_i hkeys
      have hfree : ∀ other ∈ db.hooks.rows, other.endpointKey ≠ row.endpointKey := by
        intro other hm he
        exact hkeys (List.any_eq_true.mpr ⟨other, hm, decide_eq_true he⟩)
      split
      · rename_i hdefault
        simp only [Bool.and_eq_true, List.any_eq_true, decide_eq_true_eq] at hdefault
        obtain ⟨hd, other, hm, ho, hu⟩ := hdefault
        simp only [reduceCtorEq, false_iff]
        rintro ⟨-, hone, -⟩
        exact hone hd other hm ho hu
      · rename_i hdefault
        simp only [Bool.and_eq_true, List.any_eq_true, decide_eq_true_eq, not_and,
          not_exists] at hdefault
        constructor
        · intro h
          cases h
          exact ⟨hfree, hdefault, rfl⟩
        · rintro ⟨-, -, rfl⟩
          rfl

theorem resolveEndpoint_active {segment : String}
    (h : resolveEndpoint segment endpoint clock db = .ok (.active hook now)) :
    now = clock ∧ hook.isEnabled = true ∧
      ∃ row ∈ db.hooks.rows, row.endpointKey = endpoint ∧ hook.snapshot = row.snapshot ∧
        db.namesOwner segment row.siliconId row.siliconUuid = true := by
  unfold resolveEndpoint at h
  split at h
  · rename_i row hrow
    split at h
    · cases h
    · rename_i hnames
      split at h
      · cases h
      · split at h
        · cases h
        · rename_i found hfound
          split at h
          · rename_i henabled
            cases h
            exact ⟨rfl, henabled, row, List.mem_of_find?_eq_some hrow,
              by simpa using List.find?_some hrow, HookRow.toHook_ok.mp hfound,
              by simpa using hnames⟩
          · cases h
  · split at h <;> cases h

/-- A replayed creation answers from the key's row; another inserts the hook. -/
theorem createHookRow_ok {command : CreateHook}
    (h : createHookRow command db = .ok (outcome, db')) :
    validateCreateCommand command = .ok () ∧
      ∃ siliconUuid, command.hook.siliconUuid = some siliconUuid ∧
        ((∃ response keys, ∃ hook : Hook,
          reserveManagementKey command.idempotency command.recordedAt db.managementIdempotency =
            .ok (.replayed response, keys) ∧
          selectReplayedScopedHook siliconUuid response db = .ok hook ∧
          hook.status ≠ .deleted ∧ response.encryptedSecret = hook.signing.encryptedSecret ∧
          outcome = .replayed hook response ∧ db' = { db with managementIdempotency := keys }) ∨
        (∃ keys keys' hooks,
          reserveManagementKey command.idempotency command.recordedAt db.managementIdempotency =
            .ok (.reserved, keys) ∧
          ensureEndpointKeyUnused command.hook.endpointKey db = .ok () ∧
          db.hooks.insert (command.hook.row command.isAccountsDefault) = some hooks ∧
          finishManagementKey command.idempotency command.response keys = .ok keys' ∧
          outcome = .created command.hook ∧
          db' = { db with hooks := hooks, managementIdempotency := keys' })) := by
  simp only [createHookRow, Except.bind_ok] at h
  obtain ⟨⟨⟩, hv, h⟩ := h
  refine ⟨hv, ?_⟩
  split at h
  · cases h
  · rename_i siliconUuid hu
    refine ⟨siliconUuid, hu, ?_⟩
    simp only [Except.bind_ok] at h
    obtain ⟨⟨reservation, keys⟩, hres, h⟩ := h
    cases reservation with
    | replayed response =>
      simp only [Except.bind_ok, ensure_ok] at h
      obtain ⟨hook, hsel, -, hne, -, heq, h⟩ := h
      cases h
      exact .inl ⟨response, keys, hook, hres, hsel, hne, heq, rfl, rfl⟩
    | reserved =>
      simp only [Except.bind_ok] at h
      obtain ⟨-, -, ⟨⟩, hunused, mid, hmid, keys', hfin, h⟩ := h
      obtain ⟨hooks, hins, -, -, rfl⟩ := insertHook_ok.mp hmid
      cases h
      exact .inr ⟨keys, keys', hooks, hres, hunused, hins, hfin, rfl, rfl⟩

/-- A creation up to its count: it is no replay, and its Silicon has a slot left. -/
def countCreation (command : CreateHook) (siliconUuid : AccountUuid) (db : Store) :
    Except StoreError ManagementReservation := do
  validateCreateCommand command
  let (reservation, _) ←
    reserveManagementKey command.idempotency command.recordedAt db.managementIdempotency
  match reservation with
  | .replayed response => return .replayed response
  | .reserved =>
    reserveRetainedHookSlot siliconUuid command.recordedAt db
    return .reserved

/-- The rest of a creation that has counted, under the key it reserved. -/
def insertCreation (command : CreateHook) (db : Store) : Except StoreError Store := do
  let (_, keys) ←
    reserveManagementKey command.idempotency command.recordedAt db.managementIdempotency
  ensureEndpointKeyUnused command.hook.endpointKey db
  let db ← insertHook (command.hook.row command.isAccountsDefault) db
  let keys ← finishManagementKey command.idempotency command.response keys
  return { db with managementIdempotency := keys }

/-- A creation is its count and its insertion with nothing in between. -/
theorem createHookRow_created {command : CreateHook} {siliconUuid : AccountUuid}
    (hu : command.hook.siliconUuid = some siliconUuid) :
    createHookRow command db = .ok (.created hook, db') ↔
      hook = command.hook ∧ countCreation command siliconUuid db = .ok .reserved ∧
        insertCreation command db = .ok db' := by
  simp only [createHookRow, countCreation, insertCreation, Except.bind_ok, hu]
  constructor
  · rintro ⟨⟨⟩, hv, ⟨reservation, keys⟩, hres, h⟩
    cases reservation with
    | replayed response =>
      simp only [Except.bind_ok] at h
      obtain ⟨_, -, _, -, _, -, h⟩ := h
      cases h
    | reserved =>
      simp only [Except.bind_ok] at h
      obtain ⟨⟨⟩, hslot, ⟨⟩, hunused, mid, hmid, keys', hfin, h⟩ := h
      cases h
      exact ⟨rfl, ⟨(), hv, ⟨.reserved, keys⟩, hres, Except.bind_ok.mpr ⟨(), hslot, rfl⟩⟩,
        ⟨.reserved, keys⟩, hres, (), hunused, mid, hmid, keys', hfin, rfl⟩
  · rintro ⟨rfl, ⟨⟨⟩, hv, ⟨reservation, keys⟩, hres, h⟩, ⟨_, keys₂⟩, hres₂, ⟨⟩, hunused, mid, hmid,
      keys', hfin, hdb⟩
    cases reservation with
    | replayed response => cases h
    | reserved =>
      obtain ⟨⟨⟩, hslot, -⟩ := Except.bind_ok.mp h
      obtain ⟨-, rfl⟩ := Prod.mk.inj (Except.ok.inj (hres.symm.trans hres₂))
      exact ⟨(), hv, ⟨.reserved, keys⟩, hres, Except.bind_ok.mpr ⟨(), hslot, Except.bind_ok.mpr
        ⟨(), hunused, Except.bind_ok.mpr ⟨mid, hmid, Except.bind_ok.mpr ⟨keys', hfin, by
          cases hdb
          rfl⟩⟩⟩⟩⟩

theorem insertCreation_ok {command : CreateHook} (h : insertCreation command db = .ok db') :
    ∃ keys hooks, db.hooks.insert (command.hook.row command.isAccountsDefault) = some hooks ∧
      db' = { db with hooks := hooks, managementIdempotency := keys } := by
  simp only [insertCreation, Except.bind_ok] at h
  obtain ⟨-, -, ⟨⟩, -, mid, hmid, keys, -, h⟩ := h
  cases h
  obtain ⟨hooks, hins, -, -, rfl⟩ := insertHook_ok.mp hmid
  exact ⟨keys, hooks, hins, rfl⟩

theorem Hook.delete_ok {hook hook' : Hook} (h : hook.delete t = .ok hook') :
    hook.status ≠ .deleted ∧ hook'.snapshot = { hook.snapshot with
      status := .deleted, disabledAt := none, deletedAt := some t } := by
  unfold delete at h
  split at h
  · cases h
  · rename_i hs
    split at h
    · cases h
    · split at h
      · cases h
      · cases h
        exact ⟨hs, rfl⟩

theorem Hook.restore_ok {hook hook' : Hook} (h : hook.restore t = .ok hook') :
    hook.status = .deleted ∧ hook'.snapshot = { hook.snapshot with
      status := .active, disabledAt := none, deletedAt := none } := by
  unfold restore at h
  split at h
  · cases h
  · rename_i hs
    rw [not_not] at hs
    split at h
    · cases h
    · split at h
      · cases h
      · split at h
        · cases h
        · cases h
          exact ⟨hs, rfl⟩

def HookRow.delete (deletedAt : Instant) (row : HookRow) : HookRow :=
  { row with disabledAt := none, deletedAt := some deletedAt }

theorem HookRow.delete_id (t : Instant) (row : HookRow) : (row.delete t).id = row.id := rfl

theorem deleteHookRow_ok {command : HookMutation} {deleted : Hook}
    (h : deleteHookRow command db = .ok (deleted, db')) :
    ∃ row, db.scopedHook command.siliconUuid command.hookId = some row ∧ row.deletedAt = none ∧
      deleted.snapshot = (row.delete command.occurredAt).snapshot ∧
      db' = { db with
        hooks := db.hooks.update (liveHook command.hookId) (HookRow.delete command.occurredAt)
          (HookRow.delete_id command.occurredAt) } := by
  simp only [deleteHookRow, Except.bind_ok, selectScopedHookForUpdate_ok] at h
  obtain ⟨hook, ⟨row, hr, hs⟩, h⟩ := h
  split at h
  · cases h
  · rename_i hook' hdel
    simp only [Except.bind_ok] at h
    obtain ⟨mid, hl, h⟩ := h
    cases h
    obtain ⟨hne, hs'⟩ := Hook.delete_ok hdel
    obtain ⟨-, rfl⟩ := Store.updateLiveHook_ok.mp hl
    rw [Hook.status, hs] at hne
    refine ⟨row, hr, HookRow.status_ne_deleted.mp hne, ?_, rfl⟩
    rw [hs', hs]
    rfl

theorem HookRow.status_deleted : row.status = .deleted ↔ row.deletedAt.isSome = true := by
  rw [← not_iff_not, ← ne_eq, HookRow.status_ne_deleted, Option.not_isSome_iff_eq_none]

def HookRow.restore (row : HookRow) : HookRow := { row with deletedAt := none }

theorem HookRow.restore_id (row : HookRow) : row.restore.id = row.id := rfl

theorem Store.undeleteHook_ok (h : db.undeleteHook k = .ok db') :
    db' = { db with
      hooks := db.hooks.update (deletedHook k) HookRow.restore HookRow.restore_id } := by
  unfold undeleteHook at h
  split at h
  · cases h
  · cases h
    rfl

theorem find_undelete {hooks : Table HookRow} (hr : hooks.find k = some row)
    (hd : row.deletedAt.isSome = true) :
    (hooks.update (deletedHook k) HookRow.restore HookRow.restore_id).find k =
      some row.restore := by
  have hid : row.id = k := Table.find_key hr
  rw [Table.find_update, hr]
  simp [deletedHook, hid, hd]

theorem find_undelete_ne {hooks : Table HookRow} (hk : k' ≠ k) :
    (hooks.update (deletedHook k) HookRow.restore HookRow.restore_id).find k' =
      hooks.find k' := by
  rw [Table.find_update]
  cases hr : hooks.find k' with
  | none => rfl
  | some row =>
    have hid : row.id = k' := Table.find_key hr
    simp [deletedHook, hid, hk]

theorem disabledAt_of_deleted (hs : hook.snapshot = row.snapshot)
    (hd : row.deletedAt.isSome = true) : row.disabledAt = none := by
  have hl := hook.lifecycle
  rw [hs] at hl
  cases h : row.disabledAt with
  | none => rfl
  | some t => simp [HookRow.snapshot, HookSnapshot.lifecycleIsConsistent, HookRow.status, hd, h] at hl

theorem restoreHookRow_ok {command : RestoreHook}
    (h : restoreHookRow command db = .ok (outcome, db')) :
    validateRestoreCommand command = .ok () ∧
      ((∃ response keys, ∃ hook : Hook,
        reserveManagementKey command.idempotency command.occurredAt db.managementIdempotency =
          .ok (.replayed response, keys) ∧
        selectReplayedScopedHook command.siliconUuid response db = .ok hook ∧
        hook.status ≠ .deleted ∧
        outcome = .replayed hook response ∧ db' = { db with managementIdempotency := keys }) ∨
      (∃ keys keys' row, ∃ restored : Hook,
        reserveManagementKey command.idempotency command.occurredAt db.managementIdempotency =
          .ok (.reserved, keys) ∧
        db.scopedHook command.siliconUuid command.hookId = some row ∧
        row.deletedAt.isSome = true ∧ restored.snapshot = row.restore.snapshot ∧
        finishManagementKey command.idempotency command.response keys = .ok keys' ∧
        outcome = .restored restored ∧
        db' = { db with
          hooks := db.hooks.update (deletedHook command.hookId) HookRow.restore HookRow.restore_id
          managementIdempotency := keys' })) := by
  simp only [restoreHookRow, Except.bind_ok] at h
  obtain ⟨⟨⟩, hv, ⟨reservation, keys⟩, hres, h⟩ := h
  refine ⟨hv, ?_⟩
  cases reservation with
  | replayed response =>
    simp only [Except.bind_ok, ensure_ok] at h
    obtain ⟨hook, hsel, -, hne, h⟩ := h
    cases h
    exact .inl ⟨response, keys, hook, hres, hsel, hne, rfl, rfl⟩
  | reserved =>
    simp only [Except.bind_ok, selectScopedHookForUpdate_ok] at h
    obtain ⟨hook, ⟨row, hr, hs⟩, h⟩ := h
    split at h
    · cases h
    · rename_i restored hrest
      simp only [Except.bind_ok] at h
      obtain ⟨mid, hl, keys', hfin, h⟩ := h
      cases h
      obtain ⟨hdel, hs'⟩ := Hook.restore_ok hrest
      obtain rfl := Store.undeleteHook_ok hl
      rw [Hook.status, hs] at hdel
      have hd := HookRow.status_deleted.mp hdel
      refine .inr ⟨keys, keys', row, restored, hres, hr, hd, ?_, hfin, rfl, rfl⟩
      rw [hs', hs]
      have hnone := disabledAt_of_deleted hs hd
      simp [HookRow.snapshot, HookRow.restore, HookRow.status, hnone]

def HookRow.withEndpoint (key : EndpointKey) (rotatedAt : Instant) (row : HookRow) : HookRow :=
  { row with endpointKey := key, endpointRotatedAt := some rotatedAt }

theorem HookRow.withEndpoint_id (key : EndpointKey) (t : Instant) (row : HookRow) :
    (row.withEndpoint key t).id = row.id := rfl

theorem Hook.rotateEndpoint_ok {hook hook' : Hook} {key retired : EndpointKey}
    (h : hook.rotateEndpoint key t = .ok (hook', retired)) :
    hook.status ≠ .deleted ∧ retired = hook.endpointKey ∧ hook'.snapshot = { hook.snapshot with
      endpointKey := key, endpointRotatedAt := some t } := by
  unfold rotateEndpoint at h
  split at h
  · cases h
  · rename_i hs
    split at h
    · cases h
    · cases h
      exact ⟨hs, rfl, rfl⟩

/-- A replayed rotation answers from the key's row; another retires the key the
hook had and gives it the new one. -/
theorem rotateHookEndpointRow_ok {command : RotateEndpoint}
    (h : rotateHookEndpointRow command db = .ok (outcome, db')) :
    validateEndpointRotationCommand command = .ok () ∧
      ((∃ response keys, ∃ hook : Hook,
        reserveManagementKey command.idempotency command.occurredAt db.managementIdempotency =
          .ok (.replayed response, keys) ∧
        selectReplayedScopedHook command.siliconUuid response db = .ok hook ∧
        hook.status ≠ .deleted ∧
        outcome = .replayed hook response ∧ db' = { db with managementIdempotency := keys }) ∨
      (∃ keys keys' row retiredKeys, ∃ rotated : Hook,
        reserveManagementKey command.idempotency command.occurredAt db.managementIdempotency =
          .ok (.reserved, keys) ∧
        db.scopedHook command.siliconUuid command.hookId = some row ∧ row.deletedAt = none ∧
        ensureEndpointKeyUnused command.replacement db = .ok () ∧
        rotated.snapshot = (row.withEndpoint command.replacement command.occurredAt).snapshot ∧
        db.retiredEndpointKeys.insert ⟨row.endpointKey, row.siliconId, row.siliconUuid,
          command.hookId, command.occurredAt⟩ = some retiredKeys ∧
        finishManagementKey command.idempotency command.response keys = .ok keys' ∧
        outcome = .rotated rotated ∧
        db' = { db with
          hooks := db.hooks.update (liveHook command.hookId)
            (HookRow.withEndpoint command.replacement command.occurredAt)
            (HookRow.withEndpoint_id command.replacement command.occurredAt)
          retiredEndpointKeys := retiredKeys
          managementIdempotency := keys' })) := by
  simp only [rotateHookEndpointRow, Except.bind_ok] at h
  obtain ⟨⟨⟩, hv, ⟨reservation, keys⟩, hres, h⟩ := h
  refine ⟨hv, ?_⟩
  cases reservation with
  | replayed response =>
    simp only [Except.bind_ok, ensure_ok] at h
    obtain ⟨hook, hsel, -, hne, h⟩ := h
    cases h
    exact .inl ⟨response, keys, hook, hres, hsel, hne, rfl, rfl⟩
  | reserved =>
    simp only [Except.bind_ok, selectScopedHookForUpdate_ok] at h
    obtain ⟨hook, ⟨row, hr, hs⟩, ⟨⟩, hunused, h⟩ := h
    split at h
    · cases h
    · cases h
    · rename_i rotated retired hrot
      simp only [Except.bind_ok] at h
      obtain ⟨mid, hl, h⟩ := h
      obtain ⟨hne, rfl, hs'⟩ := Hook.rotateEndpoint_ok hrot
      obtain ⟨-, rfl⟩ := Store.updateLiveHook_ok.mp hl
      rw [Hook.status, hs] at hne
      have hkey : hook.endpointKey = row.endpointKey := by
        rw [Hook.endpointKey, hs]
        rfl
      have hsnap : rotated.snapshot =
          (row.withEndpoint command.replacement command.occurredAt).snapshot := by
        rw [hs', hs]
        rfl
      split at h
      · cases h
      · rename_i retiredKeys hins
        simp only [Except.bind_ok] at h
        obtain ⟨keys', hfin, h⟩ := h
        cases h
        refine .inr ⟨keys, keys', row, retiredKeys, rotated, hres, hr,
          HookRow.status_ne_deleted.mp hne, hunused, hsnap, ?_, hfin, rfl, ?_⟩
        · rw [← hins, Hook.siliconId, Hook.siliconUuid, hsnap, hkey]
          rfl
        · rw [Hook.endpointKey, hsnap]
          rfl

end SiliconHook
