import SiliconHook.Store.Schema

/-!
# Management idempotency

A management operation reserves its key inside its own transaction and fills in
the response before it commits, so a later call with the key replays it.
-/

namespace SiliconHook

def secretReplayWindow : Int := Instant.minutes 10

structure IdempotencyScope where
  operation : String
  actor : ActorRef
  targetId : String
  key : String
  requestDigest : List UInt8
  deriving DecidableEq

def IdempotencyScope.managementKey (scope : IdempotencyScope) : ManagementKey :=
  ⟨scope.operation, scope.actor.kind, scope.actor.id, scope.targetId, scope.key⟩

inductive ManagementReservation
  | reserved
  | replayed (response : PersistedResponse)
  deriving DecidableEq

def replayFromRow (row : IdempotencyRow) (scope : IdempotencyScope) (now : Instant) :
    Except StoreError PersistedResponse :=
  if row.requestDigest ≠ scope.requestDigest then .error .idempotencyConflict
  else match row.response with
    | none => .error (.corruptData "management idempotency" "missing response status")
    | some response =>
      if response.secretReplayUntil.any fun replayUntil => decide (replayUntil < now) then
        .error .secretReplayExpired
      else .ok response

def unexpired (scope : IdempotencyScope) (now : Instant) (table : Table IdempotencyRow) :
    Table IdempotencyRow :=
  table.delete fun row => row.scope = scope.managementKey && decide (row.expiresAt ≤ now)

def reserveManagementKey (scope : IdempotencyScope) (now : Instant)
    (keys : Table IdempotencyRow) :
    Except StoreError (ManagementReservation × Table IdempotencyRow) :=
  let live := unexpired scope now keys
  match live.insert ⟨scope.managementKey, scope.requestDigest, now + Instant.hours 24, none⟩ with
  | some inserted => .ok (.reserved, inserted)
  | none =>
    match live.find scope.managementKey with
    | none => .error (.corruptData "management idempotency" "conflict row disappeared")
    | some existing =>
      match replayFromRow existing scope now with
      | .error e => .error e
      | .ok response => .ok (.replayed response, live)

/-- The scope's reservation, still without a response. -/
def unfinished (scope : IdempotencyScope) (row : IdempotencyRow) : Bool :=
  row.scope = scope.managementKey && row.requestDigest = scope.requestDigest && row.response.isNone

def finishManagementKey (scope : IdempotencyScope) (response : PersistedResponse)
    (keys : Table IdempotencyRow) : Except StoreError (Table IdempotencyRow) :=
  if response.status < 100 ∨ 599 < response.status then
    .error (.invalidArgument "status" "must be between 100 and 599")
  else if (keys.select (unfinished scope)).length ≠ 1 then
    .error (.stateConflict "management idempotency reservation")
  else .ok (keys.update (unfinished scope)
    (fun row => { row with response := some response }) fun _ => rfl)

-- -----------------------------------------------------------------------------
-- What the statements do
-- -----------------------------------------------------------------------------

/-- How long a finished key is replayed. -/
def managementKeyRetention : Int := Instant.hours 24

def IdempotencyScope.finished (scope : IdempotencyScope) (now : Instant)
    (response : PersistedResponse) : IdempotencyRow :=
  ⟨scope.managementKey, scope.requestDigest, now + managementKeyRetention, some response⟩

variable {scope : IdempotencyScope} {keys keys' : Table IdempotencyRow} {now : Instant}

theorem find_unexpired :
    (unexpired scope now keys).find k =
      (keys.find k).filter fun row => !(row.scope = scope.managementKey && row.expiresAt ≤ now) := by
  rw [unexpired, Table.find_delete]

theorem find_unexpired_ne (h : k ≠ scope.managementKey) :
    (unexpired scope now keys).find k = keys.find k := by
  rw [find_unexpired]
  cases hr : keys.find k with
  | none => rfl
  | some row =>
    have hk : row.scope = k := Table.find_key hr
    simp [Option.filter, hk, h]

theorem reserveManagementKey_reserved
    (h : reserveManagementKey scope now keys = .ok (.reserved, keys')) :
    (unexpired scope now keys).insert
      ⟨scope.managementKey, scope.requestDigest, now + managementKeyRetention, none⟩ =
        some keys' := by
  simp only [reserveManagementKey] at h
  split at h
  · rename_i inserted hins
    cases h
    exact hins
  · split at h
    · cases h
    · split at h <;> cases h

theorem reserveManagementKey_replayed
    (h : reserveManagementKey scope now keys = .ok (.replayed response, keys')) :
    keys' = keys ∧ ∃ row, keys.find scope.managementKey = some row ∧
      row.requestDigest = scope.requestDigest ∧ row.response = some response ∧
      ∀ replayUntil, response.secretReplayUntil = some replayUntil → now ≤ replayUntil := by
  simp only [reserveManagementKey] at h
  split at h
  · cases h
  · split at h
    · cases h
    · rename_i row hrow
      split at h
      · cases h
      · rename_i found hreplay
        cases h
        rw [find_unexpired] at hrow
        have hr := (Option.filter_eq_some_iff.mp hrow).1
        have hlive := (Option.filter_eq_some_iff.mp hrow).2
        refine ⟨?_, row, hr, ?_⟩
        · refine Table.delete_eq_self.mpr fun other hm => ?_
          by_cases hk : other.scope = scope.managementKey
          · obtain ⟨hm', hk'⟩ := Table.find_some.mp hr
            obtain rfl := Table.eq_of_key hm hm' (hk.trans hk'.symm)
            simp only [hk, decide_true, Bool.true_and] at hlive ⊢
            simpa using hlive
          · simp [hk]
        · unfold replayFromRow at hreplay
          split at hreplay
          · cases hreplay
          · rename_i hdigest
            split at hreplay
            · cases hreplay
            · rename_i stored hstored
              split at hreplay
              · cases hreplay
              · rename_i huntil
                cases hreplay
                refine ⟨not_not.mp hdigest, hstored, fun replayUntil hu => ?_⟩
                simpa [hu] using huntil

theorem reserveManagementKey_conflict (hr : keys.find scope.managementKey = some row)
    (hlive : now < row.expiresAt) (hd : row.requestDigest ≠ scope.requestDigest) :
    reserveManagementKey scope now keys = .error .idempotencyConflict := by
  have hfind : (unexpired scope now keys).find scope.managementKey = some row := by
    rw [find_unexpired, hr]
    simp [Option.filter, Int.not_le.mpr hlive]
  have hins : (unexpired scope now keys).insert ⟨scope.managementKey, scope.requestDigest,
      now + Instant.hours 24, none⟩ = none := Table.insert_eq_none.mpr ⟨row, hfind⟩
  simp only [reserveManagementKey, hins, hfind, replayFromRow, if_pos hd]

/-- What a reservation and its completion leave: the finished row under the key,
every other key as it was. -/
theorem find_finished
    (hres : reserveManagementKey scope now keys = .ok (.reserved, reserved))
    (hfin : finishManagementKey scope response reserved = .ok keys') :
    keys'.find k = if k = scope.managementKey then some (scope.finished now response)
      else keys.find k := by
  have hins := reserveManagementKey_reserved hres
  unfold finishManagementKey at hfin
  split at hfin
  · cases hfin
  · split at hfin
    · cases hfin
    · cases hfin
      rw [Table.find_update, Table.find_insert hins]
      change Option.map _ (if k = scope.managementKey then _ else _) = _
      by_cases hk : k = scope.managementKey
      · subst hk
        rw [if_pos rfl, if_pos rfl]
        simp [unfinished, IdempotencyScope.finished]
      · rw [if_neg hk, if_neg hk, find_unexpired_ne hk]
        cases hr : keys.find k with
        | none => rfl
        | some row =>
          have hk' : row.scope = k := Table.find_key hr
          simp [unfinished, hk', hk]

theorem expired_of_reserved
    (hres : reserveManagementKey scope now keys = .ok (.reserved, reserved))
    (hr : keys.find scope.managementKey = some row) : row.expiresAt ≤ now := by
  have hfresh := Table.insert_fresh (reserveManagementKey_reserved hres)
  by_contra hlive
  change (unexpired scope now keys).find scope.managementKey = none at hfresh
  rw [find_unexpired, hr] at hfresh
  simp [Option.filter, hlive] at hfresh

end SiliconHook
