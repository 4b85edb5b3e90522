import SiliconHook.Store.Access
import SiliconHook.Store.Lifecycle

/-!
# The audit log

Every change of a hook or of its sharing appends its audit row in the
transaction that makes it. A replay and a removal that finds nothing append none.
-/

namespace SiliconHook

inductive AuditAction
  | created
  | updated
  | disabled
  | enabled
  | deleted
  | restored
  | secretRotated
  | endpointRotated
  | accountsConnected
  | accessGranted
  | accessRevoked
  | allowListAdded
  | allowListRemoved
  deriving DecidableEq, Repr

structure AuditRow where
  occurredAt : Instant
  action : AuditAction
  siliconId : SiliconId
  siliconUuid : Option AccountUuid
  hookId : Option HookId
  actor : ActorRef
  deriving DecidableEq

structure Database where
  db : Store
  auditLog : List AuditRow
  deriving DecidableEq

/-- A transaction with the audit rows it appends, given the store it began in. -/
def Database.audited (call : Store → Except StoreError (α × Store))
    (audit : Store → α → List AuditRow) (database : Database) :
    Except StoreError (α × Database) :=
  match call database.db with
  | .error e => .error e
  | .ok (answer, db) => .ok (answer, ⟨db, database.auditLog ++ audit database.db answer⟩)

/-- `insert_audit`. -/
def hookAudit (action : AuditAction) (hook : Hook) (actor : ActorRef) (occurredAt : Instant) :
    AuditRow :=
  ⟨occurredAt, action, hook.siliconId, hook.siliconUuid, some hook.id, actor⟩

/-- `insert_access_audit`. -/
def accessAudit (action : AuditAction) (silicon : AccountUuid) (actor : Actor)
    (occurredAt : Instant) : AuditRow :=
  ⟨occurredAt, action, .fromAccountUuid silicon, some silicon, none, .account actor.kind actor.uuid⟩

namespace Database

-- -----------------------------------------------------------------------------
-- Hooks
-- -----------------------------------------------------------------------------

def createHook (command : CreateHook) : Database → Except StoreError (CreateHookOutcome × Database) :=
  audited (createHookRow command) fun _ outcome =>
    match outcome with
    | .created hook => [hookAudit (if command.isAccountsDefault then .accountsConnected else .created)
        hook command.auditActor command.recordedAt]
    | .replayed .. => []

def deleteHook (command : HookMutation) (actor : ActorRef) :
    Database → Except StoreError (Hook × Database) :=
  audited (deleteHookRow command) fun _ hook =>
    [hookAudit .deleted hook actor command.occurredAt]

def updateHook (command : UpdateHook) (actor : ActorRef) (occurredAt : Instant) :
    Database → Except StoreError (Hook × Database) :=
  audited (updateHookRow command) fun _ hook => [hookAudit .updated hook actor occurredAt]

def restoreHook (command : RestoreHook) :
    Database → Except StoreError (RestoreHookOutcome × Database) :=
  audited (restoreHookRow command) fun _ outcome =>
    match outcome with
    | .restored hook => [hookAudit .restored hook command.auditActor command.occurredAt]
    | .replayed .. => []

def rotateHookSecret (command : RotateSecret) :
    Database → Except StoreError (RotateSecretOutcome × Database) :=
  audited (rotateHookSecretRow command) fun _ outcome =>
    match outcome with
    | .rotated hook => [hookAudit .secretRotated hook command.auditActor command.occurredAt]
    | .replayed .. => []

def rotateHookEndpoint (command : RotateEndpoint) :
    Database → Except StoreError (RotateEndpointOutcome × Database) :=
  audited (rotateHookEndpointRow command) fun _ outcome =>
    match outcome with
    | .rotated hook => [hookAudit .endpointRotated hook command.auditActor command.occurredAt]
    | .replayed .. => []

/-- One row for each hook that changed its state. -/
def setHooksEnabled (command : BatchHookActivation) (actor : ActorRef) :
    Database → Except StoreError (List Hook × Database) :=
  audited (SiliconHook.setHooksEnabled command) fun db _ =>
    (db.hooks.select (command.changes command.hookIds)).map fun row =>
      ⟨command.occurredAt, if command.enabled then .enabled else .disabled, row.siliconId,
        row.siliconUuid, some row.id, actor⟩

-- -----------------------------------------------------------------------------
-- Sharing
-- -----------------------------------------------------------------------------

def putGrant (silicon grantee : AccountUuid) (level : GrantLevel) (actor : Actor)
    (clock : Instant) : Database → Except StoreError (Unit × Database) :=
  audited (fun db => ((), ·) <$> SiliconHook.putGrant silicon grantee level actor db) fun _ _ =>
    [accessAudit .accessGranted silicon actor clock]

def deleteGrant (silicon grantee : AccountUuid) (actor : Actor) (granteeKeepsAccess : Bool)
    (clock : Instant) : Database → Except StoreError (Bool × Database) :=
  audited (fun db => .ok (SiliconHook.deleteGrant silicon grantee granteeKeepsAccess db))
    fun _ removed => if removed then [accessAudit .accessRevoked silicon actor clock] else []

def putAllowance (silicon allowed : AccountUuid) (actor : Actor) (clock : Instant) :
    Database → Except StoreError (Unit × Database) :=
  audited (fun db => ((), ·) <$> SiliconHook.putAllowance silicon allowed actor db) fun _ _ =>
    [accessAudit .allowListAdded silicon actor clock]

def deleteAllowance (silicon allowed : AccountUuid) (actor : Actor) (clock : Instant) :
    Database → Except StoreError (Bool × Database) :=
  audited (fun db => .ok (SiliconHook.deleteAllowance silicon allowed db))
    fun _ removed => if removed then [accessAudit .allowListRemoved silicon actor clock] else []

end Database

theorem Database.audited_ok {call : Store → Except StoreError (α × Store)}
    {audit : Store → α → List AuditRow} {database database' : Database}
    (h : database.audited call audit = .ok (answer, database')) :
    call database.db = .ok (answer, database'.db) := by
  unfold audited at h
  split at h
  · cases h
  · rename_i hcall
    cases h
    exact hcall

end SiliconHook
