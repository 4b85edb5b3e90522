import SiliconHook.Store.Lifecycle
import SiliconHook.Store.Safety

/-!
# Retention

Each maintenance statement selects a bounded batch of victims, oldest first, on its
snapshot, and deletes each of them in its latest version.
-/

namespace SiliconHook

def victims [Keyed α κ] (table : Table α) (eligible : α → Bool) (before : α → α → Bool)
    (batchSize : Nat) : List κ :=
  (((table.select eligible).insertionSort fun a b => before a b).take batchSize).map Keyed.key

theorem victims_eligible [Keyed α κ] {table : Table α} {eligible : α → Bool}
    {before : α → α → Bool} (h : k ∈ victims table eligible before batchSize) :
    ∃ row ∈ table.rows, Keyed.key row = k ∧ eligible row = true := by
  obtain ⟨row, hrow, rfl⟩ := List.mem_map.mp h
  have hsel := (List.mem_insertionSort _).mp (List.mem_of_mem_take hrow)
  obtain ⟨hm, he⟩ := List.mem_filter.mp hsel
  exact ⟨row, hm, rfl, he⟩

def IdempotencyRow.expired (clock : Instant) (row : IdempotencyRow) : Bool := row.expiresAt ≤ clock

/-- The statement where no other transaction overlaps it. -/
def purgeExpiredIdempotency (batchSize : Nat) (clock : Instant) (db : Store) : Store :=
  let keys := victims db.managementIdempotency (·.expired clock)
    (fun a b => decide (a.expiresAt ≤ b.expiresAt)) batchSize
  { db with managementIdempotency := db.managementIdempotency.delete fun row =>
      keys.contains row.scope }

theorem find_purgeExpiredIdempotency (batchSize : Nat) (clock : Instant) (db : Store)
    (k : ManagementKey) :
    (purgeExpiredIdempotency batchSize clock db).managementIdempotency.find k =
        db.managementIdempotency.find k ∨
      (purgeExpiredIdempotency batchSize clock db).managementIdempotency.find k = none ∧
        ∃ row, db.managementIdempotency.find k = some row ∧ row.expiresAt ≤ clock := by
  simp only [purgeExpiredIdempotency, Table.find_delete]
  cases hr : db.managementIdempotency.find k with
  | none => exact .inl rfl
  | some row =>
    have hk : row.scope = k := Table.find_key hr
    by_cases hv : k ∈ victims db.managementIdempotency (·.expired clock)
        (fun a b => decide (a.expiresAt ≤ b.expiresAt)) batchSize
    · right
      obtain ⟨other, hm, hk', he⟩ := victims_eligible hv
      obtain rfl : other = row := Table.eq_of_key hm (Table.find_some.mp hr).1 (hk'.trans hk.symm)
      refine ⟨?_, other, rfl, of_decide_eq_true he⟩
      simp [Option.filter, hk, hv]
    · left
      simp [Option.filter, hk, hv]

-- -----------------------------------------------------------------------------
-- Statements
-- -----------------------------------------------------------------------------

/-- Inactive temporary blocks are forgotten after this many days without a new
strike, so a provider that fixed its configuration starts clean. -/
def staleIpBlockDays : Int := 30

def accountsEventDays : Int := 30

def maxMaintenanceBatch : Nat := 10000

inductive MaintenanceTask
  | expiredEvents
  | expiredBlockedRequests
  | expiredHooks
  | expiredIdempotency
  | staleIpBlocks
  | expiredAccountsEvents
  deriving DecidableEq, Repr

/-- What a statement deletes by: a key, or the place of one version of a row. -/
inductive Victim
  | event (id : EventId)
  | blockedRequest (id : BlockedRequestId)
  | hook (id : HookId)
  | idempotency (version : IdempotencyRow)
  | ipBlock (hookId : HookId) (remoteIp : String)
  | accountsEvent (id : String)
  deriving DecidableEq

/-- A row of a table with a retention; an Accounts event with its `received_at`. -/
inductive RetainedRow
  | event (row : EventRow)
  | blockedRequest (row : BlockedRequestRow)
  | hook (row : HookRow)
  | idempotency (row : IdempotencyRow)
  | ipBlock (row : IpBlockRow)
  | accountsEvent (row : AccountsEventRow) (receivedAt : Instant)
  deriving DecidableEq

def EventRow.expired (clock : Instant) (row : EventRow) : Bool := row.expiresAt ≤ clock

def BlockedRequestRow.expired (clock : Instant) (row : BlockedRequestRow) : Bool :=
  row.expiresAt ≤ clock

def IpBlockRow.stale (clock : Instant) (row : IpBlockRow) : Bool :=
  row.blockedUntil.all (fun blockedUntil => decide (blockedUntil ≤ clock)) &&
    decide (row.updatedAt < clock - Instant.days staleIpBlockDays)

def AccountsEventRow.expired (clock receivedAt : Instant) : Bool :=
  receivedAt < clock - Instant.days accountsEventDays

namespace RetainedRow

def victim : RetainedRow → Victim
  | event row => .event row.id
  | blockedRequest row => .blockedRequest row.id
  | hook row => .hook row.id
  | idempotency row => .idempotency row
  | ipBlock row => .ipBlock row.hookId row.remoteIp
  | accountsEvent row _ => .accountsEvent row.eventId

def eligible (clock : Instant) : RetainedRow → Bool
  | event row => row.expired clock
  | blockedRequest row => row.expired clock
  | hook row => row.expired clock
  | idempotency row => row.expired clock
  | ipBlock row => row.stale clock
  | accountsEvent _ receivedAt => AccountsEventRow.expired clock receivedAt

/-- What a statement orders its victims by, and then their id where it names one. -/
def order : RetainedRow → Instant × Nat
  | event row => (row.expiresAt, row.id.uuid.toNat)
  | blockedRequest row => (row.expiresAt, row.id.uuid.toNat)
  | hook row => (row.deletedAt.getD 0, row.id.uuid.toNat)
  | idempotency row => (row.expiresAt, 0)
  | ipBlock row => (row.updatedAt, 0)
  | accountsEvent _ receivedAt => (receivedAt, 0)

end RetainedRow

def Store.retainedRows (db : Store) (received : String → Instant) :
    MaintenanceTask → List RetainedRow
  | .expiredEvents => db.events.rows.map .event
  | .expiredBlockedRequests => db.blockedRequests.rows.map .blockedRequest
  | .expiredHooks => db.hooks.rows.map .hook
  | .expiredIdempotency => db.managementIdempotency.rows.map .idempotency
  | .staleIpBlocks => db.ipBlocks.rows.map .ipBlock
  | .expiredAccountsEvents =>
    db.accountsEvents.rows.map fun row => .accountsEvent row (received row.eventId)

def Store.victims (db : Store) (received : String → Instant) (task : MaintenanceTask)
    (batchSize : Nat) (clock : Instant) : List Victim :=
  ((((db.retainedRows received task).filter (·.eligible clock)).insertionSort fun a b =>
    a.order.1 < b.order.1 ∨ a.order.1 = b.order.1 ∧ a.order.2 ≤ b.order.2).take
      batchSize).map RetainedRow.victim

/-- The deletion of one victim, in whatever version it has. -/
def Store.purge (db : Store) : Victim → Store
  | .event id => db.deleteEvents fun row => row.id = id
  | .blockedRequest id =>
    { db with blockedRequests := db.blockedRequests.delete fun row => row.id = id }
  | .hook id => db.purgeHooks [id]
  | .idempotency version =>
    { db with managementIdempotency := db.managementIdempotency.delete fun row => row = version }
  | .ipBlock hookId remoteIp =>
    { db with ipBlocks := db.ipBlocks.delete (addressRow hookId remoteIp) }
  | .accountsEvent id =>
    { db with accountsEvents := db.accountsEvents.delete fun row => row.eventId = id }

def Store.aging (db : Store) (received : String → Instant) : List RetainedRow :=
  [MaintenanceTask.expiredEvents, .expiredBlockedRequests, .expiredHooks, .expiredIdempotency,
    .staleIpBlocks, .expiredAccountsEvents].flatMap (db.retainedRows received)

end SiliconHook
