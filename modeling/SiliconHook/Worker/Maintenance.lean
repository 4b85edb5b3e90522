import SiliconHook.Library.RoundRobin
import SiliconHook.Store.Maintenance

/-!
# The maintenance cycle

The worker gives each retention class a bounded batch in turn, until no class reports
more work or the cycle's batches are used up. A class whose statement fails is left out
of the rest of the cycle.
-/

namespace SiliconHook

def maxMaintenanceBatchesPerCycle : Nat := 1000

structure MaintenanceSettings where
  batchSize : Nat
  batchesPerCycle : Nat
  batchSize_pos : 0 < batchSize
  batchSize_le : batchSize ≤ maxMaintenanceBatch
  batchesPerCycle_pos : 0 < batchesPerCycle
  batchesPerCycle_le : batchesPerCycle ≤ maxMaintenanceBatchesPerCycle

/-- Fair scheduling order used for every maintenance cycle. -/
def MaintenanceTask.all : List MaintenanceTask :=
  [.expiredEvents, .expiredBlockedRequests, .expiredHooks, .expiredIdempotency, .staleIpBlocks,
    .expiredAccountsEvents]

structure MaintenanceBatch where
  rowsAffected : Nat
  moreWork : Bool
  deriving DecidableEq, Repr

def Store.purgeVictims (db : Store) (received : String → Instant) (task : MaintenanceTask)
    (batchSize : Nat) (clock : Instant) : Store :=
  (db.victims received task batchSize clock).foldl Store.purge db

def Store.runMaintenanceTask (db : Store) (received : String → Instant) (task : MaintenanceTask)
    (batchSize : Nat) (clock : Instant) : Except StoreError (MaintenanceBatch × Store) :=
  if batchSize = 0 ∨ maxMaintenanceBatch < batchSize then
    .error (.invalidArgument "batch_size" "must be between 1 and 10000")
  else
    let purged := db.purgeVictims received task batchSize clock
    let rowsAffected :=
      (db.retainedRows received task).length - (purged.retainedRows received task).length
    .ok (⟨rowsAffected, rowsAffected = batchSize⟩, purged)

structure MaintenanceResult where
  eventsPurged : Nat := 0
  blockedRequestsPurged : Nat := 0
  hooksPurged : Nat := 0
  idempotencyRowsPurged : Nat := 0
  ipBlocksPurged : Nat := 0
  accountsEventsPurged : Nat := 0
  deriving DecidableEq, Repr

/-- `u64::saturating_add`. -/
def saturatingAdd (a b : Nat) : Nat := min (a + b) (2 ^ 64 - 1)

namespace MaintenanceResult

def addBatch (result : MaintenanceResult) (batch : MaintenanceBatch) :
    MaintenanceTask → MaintenanceResult
  | .expiredEvents =>
    { result with eventsPurged := saturatingAdd result.eventsPurged batch.rowsAffected }
  | .expiredBlockedRequests =>
    { result with
      blockedRequestsPurged := saturatingAdd result.blockedRequestsPurged batch.rowsAffected }
  | .expiredHooks =>
    { result with hooksPurged := saturatingAdd result.hooksPurged batch.rowsAffected }
  | .expiredIdempotency =>
    { result with
      idempotencyRowsPurged := saturatingAdd result.idempotencyRowsPurged batch.rowsAffected }
  | .staleIpBlocks =>
    { result with ipBlocksPurged := saturatingAdd result.ipBlocksPurged batch.rowsAffected }
  | .expiredAccountsEvents =>
    { result with
      accountsEventsPurged := saturatingAdd result.accountsEventsPurged batch.rowsAffected }

def count (result : MaintenanceResult) : MaintenanceTask → Nat
  | .expiredEvents => result.eventsPurged
  | .expiredBlockedRequests => result.blockedRequestsPurged
  | .expiredHooks => result.hooksPurged
  | .expiredIdempotency => result.idempotencyRowsPurged
  | .staleIpBlocks => result.ipBlocksPurged
  | .expiredAccountsEvents => result.accountsEventsPurged

theorem count_addBatch (result : MaintenanceResult) (batch : MaintenanceBatch)
    (task other : MaintenanceTask) :
    (result.addBatch batch task).count other =
      if task = other then saturatingAdd (result.count other) batch.rowsAffected
      else result.count other := by
  cases task <;> cases other <;> rfl

end MaintenanceResult

-- -----------------------------------------------------------------------------
-- The cycle
-- -----------------------------------------------------------------------------

/-- What a statement meets: what other transactions did since the one before, the
database's clock, and whether it fails. -/
structure SweepDraw where
  elsewhere : Store → Store
  clock : Instant
  failed : Bool

/-- A statement of a cycle: the store it ran on, the rows it removed, none where it
failed, and the store it left. -/
structure SweepStatement where
  task : MaintenanceTask
  clock : Instant
  before : Store
  rows : Option Nat
  after : Store

structure Sweep where
  db : Store
  result : MaintenanceResult
  failedTasks : Nat
  statements : List SweepStatement

def Sweep.start (db : Store) : Sweep := ⟨db, {}, 0, []⟩

namespace MaintenanceSettings

variable (settings : MaintenanceSettings) (received : String → Instant) (draws : Nat → SweepDraw)

/-- The turn of one class: its batch counted, and whether it is left with more work. -/
def sweep (task : MaintenanceTask) (s : Sweep) : Sweep × Bool :=
  let draw := draws s.statements.length
  let db := draw.elsewhere s.db
  let outcome := if draw.failed then .error (.database "")
    else db.runMaintenanceTask received task settings.batchSize draw.clock
  match outcome with
  | .ok (batch, purged) =>
    ({ s with
      db := purged
      result := s.result.addBatch batch task
      statements := s.statements ++
        [⟨task, draw.clock, db, some batch.rowsAffected, purged⟩] }, batch.moreWork)
  | .error _ =>
    ({ s with
      db
      failedTasks := min (s.failedTasks + 1) 255
      statements := s.statements ++ [⟨task, draw.clock, db, none, db⟩] }, false)

def runMaintenanceCycle (db : Store) : Rota MaintenanceTask Sweep :=
  (Rota.start (Sweep.start db)).cycle (settings.sweep received draws) MaintenanceTask.all
    settings.batchesPerCycle

end MaintenanceSettings

/-- What the cycle logs: whether a class was left at work. -/
def Rota.cycleLimitReached (c : Rota MaintenanceTask Sweep) : Bool :=
  MaintenanceTask.all.any c.active

end SiliconHook
