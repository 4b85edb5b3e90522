import SiliconHook.Store.Events

/-!
# Abuse control

The abuse state of one client address on one hook, and its two store calls: the
check a request makes and the strike an unverified one leaves.
-/

namespace SiliconHook

def unverifiedRequestsPerBlock : Nat := 20

def blockDuration : Int := Instant.days 1

def maxU32 : Nat := 4294967295
def maxI32 : Nat := 2147483647

structure IpBlockState where
  strikes : Nat
  blockedUntil : Option Instant
  deriving DecidableEq, Repr

inductive BlockCheck
  | allowed
  | blockedUntil (instant : Instant)
  deriving DecidableEq, Repr

inductive StrikeOutcome
  | counted (strikes : Nat)
  | blocked (instant : Instant)
  deriving DecidableEq, Repr

namespace IpBlockState

def default : IpBlockState := ⟨0, none⟩

def check (state : IpBlockState) (now : Instant) : BlockCheck :=
  match state.blockedUntil with
  | some instant => if now < instant then .blockedUntil instant else .allowed
  | none => .allowed

/-- An expired block is cleared before counting. -/
def cleared (state : IpBlockState) (now : Instant) : Option Instant :=
  state.blockedUntil.filter fun instant => decide (now < instant)

def recordUnverified (state : IpBlockState) (now : Instant) : StrikeOutcome × IpBlockState :=
  let strikes := min (state.strikes + 1) maxU32
  if strikes < unverifiedRequestsPerBlock then
    (.counted strikes, ⟨strikes, state.cleared now⟩)
  else (.blocked (now + blockDuration), ⟨0, some (now + blockDuration)⟩)

end IpBlockState

def IpBlockRow.state (row : IpBlockRow) : IpBlockState := ⟨row.strikes, row.blockedUntil⟩

def IpBlockRow.blank (hookId : HookId) (remoteIp : String) (now : Instant) : IpBlockRow :=
  ⟨hookId, remoteIp, 0, none, 0, now⟩

def IpBlockRow.rejected (now : Instant) (row : IpBlockRow) : IpBlockRow :=
  { row with rejectedRequests := row.rejectedRequests + 1, updatedAt := now }

theorem IpBlockRow.rejected_key (now : Instant) (row : IpBlockRow) :
    Keyed.key (row.rejected now) = Keyed.key row := rfl

def IpBlockRow.struck (state : IpBlockState) (now : Instant) (row : IpBlockRow) : IpBlockRow :=
  { row with
    strikes := min state.strikes maxI32, blockedUntil := state.blockedUntil, updatedAt := now }

theorem IpBlockRow.struck_key (state : IpBlockState) (now : Instant) (row : IpBlockRow) :
    Keyed.key (row.struck state now) = Keyed.key row := rfl

def addressRow (hookId : HookId) (remoteIp : String) (row : IpBlockRow) : Bool :=
  row.hookId = hookId && row.remoteIp = remoteIp

def checkIpBlock (hookId : HookId) (remoteIp : String) (now : Instant) (db : Store) :
    BlockCheck × Store :=
  match db.ipBlocks.find (hookId, remoteIp) with
  | none => (.allowed, db)
  | some row =>
    match row.state.check now with
    | .allowed => (.allowed, db)
    | .blockedUntil instant => (.blockedUntil instant, { db with
        ipBlocks := db.ipBlocks.update (addressRow hookId remoteIp) (IpBlockRow.rejected now)
          (IpBlockRow.rejected_key now) })

def recordUnverifiedRequest (hookId : HookId) (remoteIp : String) (now : Instant) (db : Store) :
    Except StoreError (StrikeOutcome × Store) :=
  match db.hooks.find hookId with
  | none => .error (.database "ip_blocks_hook_id_fkey")
  | some _ =>
    let ipBlocks := db.ipBlocks.insertOrKeep (.blank hookId remoteIp now)
    match ipBlocks.find (hookId, remoteIp) with
    | none => .error (.database "no rows returned")
    | some row =>
      let (outcome, state) := row.state.recordUnverified now
      .ok (outcome, { db with
        ipBlocks := ipBlocks.update (addressRow hookId remoteIp) (IpBlockRow.struck state now)
          (IpBlockRow.struck_key state now) })

def Store.addressState (db : Store) (hookId : HookId) (remoteIp : String) : IpBlockState :=
  (db.ipBlocks.find (hookId, remoteIp)).elim .default IpBlockRow.state

-- -----------------------------------------------------------------------------
-- What the calls do to the states
-- -----------------------------------------------------------------------------

variable {db db' : Store} {hookId hookId' : HookId} {remoteIp remoteIp' : String}

namespace IpBlockState

variable {state : IpBlockState}

theorem check_allowed : state.check now = .allowed ↔
    ∀ instant, state.blockedUntil = some instant → instant ≤ now := by
  unfold check
  split
  · rename_i instant h
    split
    · rename_i hlt
      simp only [reduceCtorEq, h, Option.some.injEq, forall_eq', false_iff]
      exact fun hle => absurd hlt (Int.not_lt.mpr hle)
    · rename_i hlt
      simp only [h, Option.some.injEq, forall_eq', true_iff]
      exact Int.not_lt.mp hlt
  · rename_i h
    simp [h]

theorem cleared_some : state.cleared now = some instant ↔
    state.blockedUntil = some instant ∧ now < instant := by
  simp [cleared, Option.filter_eq_some_iff]

theorem recordUnverified_counted (h : state.strikes + 1 < unverifiedRequestsPerBlock) :
    state.recordUnverified now =
      (.counted (state.strikes + 1), ⟨state.strikes + 1, state.cleared now⟩) := by
  have hmin : min (state.strikes + 1) maxU32 = state.strikes + 1 :=
    Nat.min_eq_left (Nat.le_trans (Nat.le_of_lt h) (by decide))
  simp only [recordUnverified, hmin, if_pos h]

theorem recordUnverified_blocked (h : unverifiedRequestsPerBlock ≤ state.strikes + 1) :
    state.recordUnverified now =
      (.blocked (now + blockDuration), ⟨0, some (now + blockDuration)⟩) := by
  have hmin : ¬ min (state.strikes + 1) maxU32 < unverifiedRequestsPerBlock := by
    simp only [unverifiedRequestsPerBlock, maxU32] at h ⊢
    omega
  simp only [recordUnverified, if_neg hmin]

theorem recordUnverified_strikes (state : IpBlockState) (now : Instant) :
    (state.recordUnverified now).2.strikes < unverifiedRequestsPerBlock := by
  simp only [recordUnverified]
  split
  · assumption
  · exact Nat.zero_lt_succ _

end IpBlockState

theorem find_addressRow {rows : Table IpBlockRow} {f : IpBlockRow → IpBlockRow}
    (hf : ∀ row, Keyed.key (f row) = Keyed.key row) (k : HookId × String) :
    (rows.update (addressRow hookId remoteIp) f hf).find k =
      if k = (hookId, remoteIp) then (rows.find k).map f else rows.find k := by
  rw [Table.find_update]
  cases hr : rows.find k with
  | none => simp
  | some row =>
    have hk : (row.hookId, row.remoteIp) = k := Table.find_key hr
    subst hk
    by_cases h : row.hookId = hookId ∧ row.remoteIp = remoteIp
    · simp [addressRow, h]
    · simp [addressRow, h]

theorem checkIpBlock_check (hookId : HookId) (remoteIp : String) (now : Instant) (db : Store) :
    (checkIpBlock hookId remoteIp now db).1 = (db.addressState hookId remoteIp).check now := by
  unfold checkIpBlock Store.addressState
  split
  · rename_i h
    rw [h]
    rfl
  · rename_i row h
    rw [h]
    show _ = row.state.check now
    split
    · rename_i hcheck
      exact hcheck.symm
    · rename_i instant hcheck
      exact hcheck.symm

theorem checkIpBlock_state (hookId hookId' : HookId) (remoteIp remoteIp' : String) (now : Instant)
    (db : Store) : (checkIpBlock hookId remoteIp now db).2.addressState hookId' remoteIp' =
      db.addressState hookId' remoteIp' := by
  unfold checkIpBlock
  split
  · rfl
  · split
    · rfl
    · simp only [Store.addressState, find_addressRow]
      split
      · cases db.ipBlocks.find (hookId', remoteIp') <;> rfl
      · rfl

theorem checkIpBlock_hooks (hookId : HookId) (remoteIp : String) (now : Instant) (db : Store) :
    (checkIpBlock hookId remoteIp now db).2.hooks = db.hooks := by
  unfold checkIpBlock
  split
  · rfl
  · split <;> rfl

theorem recordUnverifiedRequest_hooks
    (h : recordUnverifiedRequest hookId remoteIp now db = .ok (outcome, db')) :
    db'.hooks = db.hooks := by
  unfold recordUnverifiedRequest at h
  split at h
  · cases h
  · simp only at h
    split at h <;> cases h
    rfl

theorem find_blank (rows : Table IpBlockRow) (k : HookId × String) :
    (rows.insertOrKeep (.blank hookId remoteIp now)).find k =
      if k = (hookId, remoteIp) then some ((rows.find k).getD (.blank hookId remoteIp now))
      else rows.find k :=
  Table.find_insertOrKeep

theorem addressState_getD (db : Store) (hookId : HookId) (remoteIp : String) (now : Instant) :
    ((db.ipBlocks.find (hookId, remoteIp)).getD (.blank hookId remoteIp now)).state =
      db.addressState hookId remoteIp := by
  unfold Store.addressState
  cases db.ipBlocks.find (hookId, remoteIp) <;> rfl

theorem IpBlockRow.struck_state (row : IpBlockRow) (state : IpBlockState)
    (h : state.strikes < unverifiedRequestsPerBlock) : (row.struck state now).state = state := by
  have hmin : min state.strikes maxI32 = state.strikes :=
    Nat.min_eq_left (Nat.le_trans (Nat.le_of_lt h) (by decide))
  simp only [IpBlockRow.state, IpBlockRow.struck, hmin]

theorem recordUnverifiedRequest_state
    (h : recordUnverifiedRequest hookId remoteIp now db = .ok (outcome, db')) :
    (db.addressState hookId remoteIp).recordUnverified now =
        (outcome, db'.addressState hookId remoteIp) ∧
      ∀ hookId' remoteIp', (hookId', remoteIp') ≠ (hookId, remoteIp) →
        db'.addressState hookId' remoteIp' = db.addressState hookId' remoteIp' := by
  unfold recordUnverifiedRequest at h
  split at h
  · cases h
  · simp only [find_blank, if_pos] at h
    cases h
    rw [addressState_getD]
    have hbound := (db.addressState hookId remoteIp).recordUnverified_strikes now
    refine ⟨Prod.ext rfl ?_, fun k ip hne => ?_⟩
    · simp only [Store.addressState, find_addressRow, find_blank, if_pos, Option.map_some,
        Option.elim_some]
      exact (IpBlockRow.struck_state _ _ hbound).symm
    · simp only [Store.addressState, find_addressRow, find_blank, if_neg hne]

end SiliconHook
