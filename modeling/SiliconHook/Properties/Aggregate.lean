import SiliconHook.Library.Transition
import SiliconHook.Store.AccountsEvents
import SiliconHook.Store.Events
import SiliconHook.Store.Lifecycle

/-!
# Rows refine the aggregate

Every statement on a hook computes the same next state as the aggregate's own
transition: reading the rows back gives the hooks the call returned. The rows
every run leaves are therefore well formed.
-/

namespace SiliconHook

-- -----------------------------------------------------------------------------
-- Operations
-- -----------------------------------------------------------------------------

/-- A store operation that moves existing hooks through their lifecycle. -/
inductive HookOperation
  | update (command : UpdateHook)
  | delete (command : HookMutation)
  | restore (command : RestoreHook)
  | rotateSecret (command : RotateSecret)
  | rotateEndpoint (command : RotateEndpoint)
  | setEnabled (command : BatchHookActivation)

def RestoreHookOutcome.hook : RestoreHookOutcome → Hook
  | .restored hook | .replayed hook _ => hook

def RotateSecretOutcome.hook : RotateSecretOutcome → Hook
  | .rotated hook | .replayed hook _ => hook

def RotateEndpointOutcome.hook : RotateEndpointOutcome → Hook
  | .rotated hook | .replayed hook _ => hook

def HookOperation.call (operation : HookOperation) (db : Store) :
    Except StoreError (List Hook × Store) :=
  match operation with
  | .update command => (fun (hook, db) => ([hook], db)) <$> updateHookRow command db
  | .delete command => (fun (hook, db) => ([hook], db)) <$> deleteHookRow command db
  | .restore command => (fun (outcome, db) => ([outcome.hook], db)) <$> restoreHookRow command db
  | .rotateSecret command =>
    (fun (outcome, db) => ([outcome.hook], db)) <$> rotateHookSecretRow command db
  | .rotateEndpoint command =>
    (fun (outcome, db) => ([outcome.hook], db)) <$> rotateHookEndpointRow command db
  | .setEnabled command => setHooksEnabled command db

/-- Reading the rows back gives the hooks; every other row is as it was. -/
structure ReadsBack (hooks : List Hook) (db db' : Store) : Prop where
  returned : ∀ hook ∈ hooks, ∃ row, db'.hooks.find hook.id = some row ∧ row.toHook = .ok hook
  others : ∀ hookId, (∀ hook ∈ hooks, hook.id ≠ hookId) →
    db'.hooks.find hookId = db.hooks.find hookId

variable {db db' : Store} {hook : Hook} {row : HookRow}

theorem ReadsBack.single (hfind : db'.hooks.find k = some row) (hs : hook.snapshot = row.snapshot)
    (hothers : ∀ k', k' ≠ k → db'.hooks.find k' = db.hooks.find k') : ReadsBack [hook] db db' := by
  have hid : hook.id = k := by
    rw [Hook.id, hs]
    exact Table.find_key hfind
  constructor
  · intro found hm
    obtain rfl := List.mem_singleton.mp hm
    exact ⟨row, hid ▸ hfind, HookRow.toHook_ok.mpr hs⟩
  · intro k' hne
    exact hothers k' fun he => hne hook (List.mem_singleton_self _) (hid.trans he.symm)

theorem ReadsBack.replayed (hsel : selectReplayedScopedHook u response db = .ok hook) :
    ReadsBack [hook] db { db with managementIdempotency := keys } := by
  obtain ⟨k, -, row, hr, hs⟩ := selectReplayedScopedHook_ok.mp hsel
  exact .single (Store.scopedHook_some.mp hr).1 hs fun _ _ => rfl

theorem ReadsBack.updated {f : HookRow → HookRow} (hf : ∀ row, (f row).id = row.id)
    (hr : db.scopedHook u k = some row) (hd : row.deletedAt = none)
    (hs : hook.snapshot = (f row).snapshot)
    (hhooks : db'.hooks = db.hooks.update (liveHook k) f hf) : ReadsBack [hook] db db' := by
  have hfind : db'.hooks.find k = some (f row) := by
    rw [hhooks, find_updateLive (Store.scopedHook_some.mp hr).1 hd]
  refine .single hfind hs fun k' hne => ?_
  rw [hhooks, find_updateLive_ne hne]

theorem updateHookRow_reads {command : UpdateHook}
    (h : updateHookRow command db = .ok (hook, db')) : ReadsBack [hook] db db' := by
  obtain ⟨row, _, hr, -, -, hu, hdb⟩ := updateHookRow_ok.mp h
  refine .single (updateHookRow_find h (Store.scopedHook_some.mp hr).1) hu fun k' hne => ?_
  rw [hdb, find_updateLive_ne hne]

theorem deleteHookRow_reads {command : HookMutation}
    (h : deleteHookRow command db = .ok (hook, db')) : ReadsBack [hook] db db' := by
  obtain ⟨row, hr, hd, hs, rfl⟩ := deleteHookRow_ok h
  exact .updated (HookRow.delete_id _) hr hd hs rfl

theorem restoreHookRow_reads {command : RestoreHook}
    (h : restoreHookRow command db = .ok (outcome, db')) : ReadsBack [outcome.hook] db db' := by
  obtain ⟨-, ⟨_, _, hook, -, hsel, -, rfl, rfl⟩ |
    ⟨_, _, row, restored, -, hr, hd, hs, -, rfl, rfl⟩⟩ := restoreHookRow_ok h
  · exact .replayed hsel
  · have hfind := (Store.scopedHook_some.mp hr).1
    exact .single (find_undelete hfind hd) hs fun k' hne => find_undelete_ne hne

theorem rotateHookSecretRow_reads {command : RotateSecret}
    (h : rotateHookSecretRow command db = .ok (outcome, db')) :
    ReadsBack [outcome.hook] db db' := by
  obtain ⟨-, ⟨_, _, hook, -, hsel, -, -, rfl, rfl⟩ |
    ⟨_, _, row, _, rotated, -, hr, -, hd, hs, -, rfl, rfl⟩⟩ := rotateHookSecretRow_ok.mp h
  · exact .replayed hsel
  · exact .updated (HookRow.withSecret_id _) hr hd hs rfl

theorem rotateHookEndpointRow_reads {command : RotateEndpoint}
    (h : rotateHookEndpointRow command db = .ok (outcome, db')) :
    ReadsBack [outcome.hook] db db' := by
  obtain ⟨-, ⟨_, _, hook, -, hsel, -, rfl, rfl⟩ |
    ⟨_, _, row, _, rotated, -, hr, hd, -, hs, -, -, rfl, rfl⟩⟩ := rotateHookEndpointRow_ok h
  · exact .replayed hsel
  · exact .updated (HookRow.withEndpoint_id _ _) hr hd hs rfl

-- -----------------------------------------------------------------------------
-- Batches
-- -----------------------------------------------------------------------------

/-- What the batch statement makes of one row of its owner. -/
def BatchHookActivation.next (command : BatchHookActivation) (row : HookRow) : HookRow :=
  if row.deletedAt.isNone && (row.disabledAt.isSome == command.enabled) then command.activate row
  else row

/-- The transition of a hook and the statement on its row agree. -/
theorem activationTransition_next {command : BatchHookActivation} {hook' : Hook}
    (hs : hook.snapshot = row.snapshot) (h : activationTransition command hook = .ok hook') :
    hook'.snapshot = (command.next row).snapshot := by
  have hstatus : hook.status = row.status := by rw [Hook.status, hs]; rfl
  have hdisabled : hook.snapshot.disabledAt = row.disabledAt := by rw [hs]; rfl
  unfold activationTransition at h
  split at h
  · rename_i found hfound
    cases h
    cases hd : row.deletedAt with
    | some t =>
      have hdel : hook.status = .deleted := by simp [hstatus, HookRow.status, hd]
      split at hfound <;> simp [Hook.enable, Hook.disable, hdel] at hfound
    | none =>
      cases ha : row.disabledAt with
      | none =>
        have hactive : hook.status = .active := by simp [hstatus, HookRow.status, hd, ha]
        split at hfound
        · rename_i he
          simp only [Hook.enable, hactive, Except.ok.injEq] at hfound
          simp [← hfound, hs, BatchHookActivation.next, hd, ha, he]
        · rename_i he
          simp only [Hook.disable, hactive] at hfound
          split at hfound
          · cases hfound
          · cases hfound
            simp [hs, BatchHookActivation.next, BatchHookActivation.activate, hd, ha, he,
              HookRow.snapshot, HookRow.status]
      | some t =>
        have hoff : hook.status = .disabled := by simp [hstatus, HookRow.status, hd, ha]
        split at hfound
        · rename_i he
          simp only [Hook.enable, hoff, hdisabled, ha] at hfound
          split at hfound
          · cases hfound
          · cases hfound
            simp [hs, BatchHookActivation.next, BatchHookActivation.activate, hd, ha, he,
              HookRow.snapshot, HookRow.status]
        · rename_i he
          simp only [Hook.disable, hoff, Except.ok.injEq] at hfound
          simp [← hfound, hs, BatchHookActivation.next, hd, ha, he]
  · cases h
  · cases h

theorem lockHooksForActivation_ok {command : BatchHookActivation} {ids : List HookId}
    {hooks : List Hook} (h : lockHooksForActivation command ids db = .ok hooks) :
    List.Forall₂ (fun hookId hook => ∃ row, db.scopedHook command.siliconUuid hookId = some row ∧
      hook.snapshot = row.snapshot) ids hooks := by
  unfold lockHooksForActivation at h
  simp only at h
  split at h
  · cases h
  · rename_i hlength
    rw [not_not] at hlength
    refine (forall₂_trans (forall₂_filterMap hlength) (Except.mapM_ok.mp h)).imp ?_
    rintro hookId hook ⟨row, hrow, hhook⟩
    exact ⟨row, hrow, HookRow.toHook_ok.mp hhook⟩

theorem find_activate {hooks : Table HookRow} {command : BatchHookActivation} {ids : List HookId}
    (hr : hooks.find k = some row) (hu : row.siliconUuid = some command.siliconUuid)
    (hm : k ∈ ids) :
    (hooks.update (command.changes ids) command.activate command.activate_key).find k =
      some (command.next row) := by
  have hid : row.id = k := Table.find_key hr
  rw [Table.find_update, hr, Option.map_some]
  simp [BatchHookActivation.changes, BatchHookActivation.next, hid, hm, hu]

theorem find_activate_other {hooks : Table HookRow} {command : BatchHookActivation}
    {ids : List HookId} (hm : k ∉ ids) :
    (hooks.update (command.changes ids) command.activate command.activate_key).find k =
      hooks.find k := by
  rw [Table.find_update]
  cases hr : hooks.find k with
  | none => rfl
  | some row =>
    have hid : row.id = k := Table.find_key hr
    simp [BatchHookActivation.changes, hid, hm]

theorem setHooksEnabled_reads {command : BatchHookActivation} {hooks : List Hook}
    (h : setHooksEnabled command db = .ok (hooks, db')) : ReadsBack hooks db db' := by
  simp only [setHooksEnabled, Except.bind_ok] at h
  obtain ⟨ids, -, locked, hlock, transitioned, htrans, -, -, h⟩ := h
  cases h
  -- one row, one locked hook and one returned hook for each id
  have hall : List.Forall₂ (fun hookId (hook : Hook) => ∃ row : HookRow, row.id = hookId ∧
      (db.hooks.update (command.changes ids) command.activate command.activate_key).find hookId =
        some (command.next row) ∧ hook.snapshot = (command.next row).snapshot) ids hooks := by
    have hpairs := forall₂_trans (lockHooksForActivation_ok hlock) (Except.mapM_ok.mp htrans)
    refine List.forall₂_iff_get.mpr ⟨hpairs.length_eq, fun i hi hj => ?_⟩
    obtain ⟨before, ⟨row, hr, hs⟩, ht⟩ := hpairs.get hi hj
    obtain ⟨hfind, hu⟩ := Store.scopedHook_some.mp hr
    exact ⟨row, Table.find_key hfind, find_activate hfind hu (List.get_mem ..),
      activationTransition_next hs ht⟩
  have hid : ∀ {hookId : HookId} {hook : Hook} {row : HookRow}, row.id = hookId →
      hook.snapshot = (command.next row).snapshot → hook.id = hookId := by
    intro hookId hook row hrow hs
    rw [Hook.id, hs, ← hrow]
    unfold BatchHookActivation.next
    split <;> rfl
  constructor
  · intro hook hm
    obtain ⟨hookId, -, row, hrow, hfind, hs⟩ := exists_mem_of_forall₂ hall.flip hm
    exact ⟨_, (hid hrow hs) ▸ hfind, HookRow.toHook_ok.mpr hs⟩
  · intro hookId hne
    refine find_activate_other fun hm => ?_
    obtain ⟨hook, hhook, row, hrow, -, hs⟩ := exists_mem_of_forall₂ hall hm
    exact hne hook hhook (hid hrow hs)

theorem HookOperation.reads {operation : HookOperation} {hooks : List Hook}
    (h : operation.call db = .ok (hooks, db')) : ReadsBack hooks db db' := by
  cases operation with
  | update command =>
    obtain ⟨⟨hook, store⟩, hc, he⟩ := Except.map_ok.mp h
    cases he
    exact updateHookRow_reads hc
  | delete command =>
    obtain ⟨⟨hook, store⟩, hc, he⟩ := Except.map_ok.mp h
    cases he
    exact deleteHookRow_reads hc
  | restore command =>
    obtain ⟨⟨outcome, store⟩, hc, he⟩ := Except.map_ok.mp h
    cases he
    exact restoreHookRow_reads hc
  | rotateSecret command =>
    obtain ⟨⟨outcome, store⟩, hc, he⟩ := Except.map_ok.mp h
    cases he
    exact rotateHookSecretRow_reads hc
  | rotateEndpoint command =>
    obtain ⟨⟨outcome, store⟩, hc, he⟩ := Except.map_ok.mp h
    cases he
    exact rotateHookEndpointRow_reads hc
  | setEnabled command => exact setHooksEnabled_reads h

-- -----------------------------------------------------------------------------
-- Runs
-- -----------------------------------------------------------------------------

/-- A step that writes hook rows, or one that leaves them alone. -/
inductive HookLabel
  | operated (operation : HookOperation)
  | created (command : CreateHook)
  | accepted (deliverySummary : SummaryRenderer) (command : AcceptEvent) (sendId : Uuid)
      (sendIds : Uuid → Uuid) (now : Instant)
  | blocked (command : RecordBlockedRequest)
  | accountDeleted (uuid : AccountUuid) (at' clock : Instant)
  | purged (batchSize : Nat) (clock : Instant)
  | elsewhere (other : Store)

def hookStep (codec : DeliveryCodec) (db : Store) : HookLabel → Store
  | .operated operation => commit db (operation.call db)
  | .created command => commit db (createHookRow command db)
  | .accepted deliverySummary command sendId sendIds now =>
    commit db (codec.acceptEvent deliverySummary command sendId sendIds now db)
  | .blocked command => commit db (recordBlockedRequest command db)
  | .accountDeleted uuid at' clock => deleted uuid at' clock db
  | .purged batchSize clock => purgeExpiredHooks batchSize clock db
  | .elsewhere other => { other with hooks := db.hooks }

/-- Every row is accepted by `Hook::rehydrate`. -/
def RowsRehydrate (db : Store) : Prop :=
  ∀ row ∈ db.hooks.rows, ∃ hook, Hook.rehydrate row.snapshot = .ok hook

namespace RowsRehydrate

theorem operated {hooks : List Hook} (h : RowsRehydrate db) (hr : ReadsBack hooks db db') :
    RowsRehydrate db' := by
  intro row hm
  by_cases hreturned : ∃ hook ∈ hooks, hook.id = row.id
  · obtain ⟨hook, hook_mem, hid⟩ := hreturned
    obtain ⟨stored, hfind, hread⟩ := hr.returned hook hook_mem
    obtain rfl : stored = row := by
      rw [hid] at hfind
      exact Option.some.inj (hfind.symm.trans (Table.mem_rows.mp hm))
    exact ⟨hook, Hook.rehydrate_ok.mpr (HookRow.toHook_ok.mp hread)⟩
  · have hsame := hr.others row.id fun hook hm he => hreturned ⟨hook, hm, he⟩
    rw [show db'.hooks.find row.id = some row from Table.mem_rows.mp hm] at hsame
    exact h row (Table.find_some.mp hsame.symm).1

theorem of_update (h : RowsRehydrate db) {p : HookRow → Bool} {f : HookRow → HookRow}
    (hf : ∀ row, Keyed.key (f row) = Keyed.key row) (hhooks : db'.hooks = db.hooks.update p f hf)
    (hkeep : ∀ row hook, Hook.rehydrate row.snapshot = .ok hook → p row = true →
      ∃ hook', Hook.rehydrate (f row).snapshot = .ok hook') : RowsRehydrate db' := by
  intro row hm
  rw [hhooks] at hm
  obtain ⟨old, hold, rfl⟩ := (Table.mem_update hf).mp hm
  obtain ⟨hook, hhook⟩ := h old hold
  split
  · rename_i hp
    exact hkeep old hook hhook hp
  · exact ⟨hook, hhook⟩

theorem created {command : CreateHook} (h : RowsRehydrate db)
    (hc : createHookRow command db = .ok (outcome, db')) : RowsRehydrate db' := by
  obtain ⟨-, _, -, ⟨_, _, _, -, -, -, -, -, rfl⟩ | ⟨_, _, hooks, -, -, hins, -, -, rfl⟩⟩ :=
    createHookRow_ok hc
  · exact h
  · intro row hm
    obtain hm | rfl := (Table.mem_insert hins).mp hm
    · exact h row hm
    · exact ⟨⟨(command.hook.row command.isAccountsDefault).snapshot, rfl, rfl, rfl, rfl⟩,
        Hook.rehydrate_ok.mpr rfl⟩

theorem touched (h : RowsRehydrate db) {p : HookRow → Bool} {f : HookRow → HookRow}
    (hf : ∀ row, Keyed.key (f row) = Keyed.key row) (hhooks : db'.hooks = db.hooks.update p f hf)
    (hsnap : ∀ row, ∃ received blocked, (f row).snapshot =
      { row.snapshot with lastReceivedAt := received, lastBlockedAt := blocked }) :
    RowsRehydrate db' := by
  refine h.of_update hf hhooks fun row hook hhook _ => ?_
  obtain ⟨received, blocked, hs⟩ := hsnap row
  rw [Hook.rehydrate_ok] at hhook
  refine ⟨⟨(f row).snapshot, ?_, ?_, ?_, ?_⟩, Hook.rehydrate_ok.mpr rfl⟩
  · rw [hs, ← hhook]
    exact hook.lifecycle
  · rw [hs, ← hhook]
    exact hook.disabled
  · rw [hs, ← hhook]
    exact hook.deleted
  · rw [hs, ← hhook]
    exact hook.rotated

theorem accountDeleted (h : RowsRehydrate db) (uuid : AccountUuid) (at' clock : Instant) :
    RowsRehydrate (SiliconHook.deleted uuid at' clock db) := by
  unfold SiliconHook.deleted
  simp only
  split
  · exact h
  · refine h.of_update ?_ rfl fun row hook hhook _ => ?_
    · exact fun _ => rfl
    rw [Hook.rehydrate_ok] at hhook
    refine ⟨⟨HookRow.snapshot { row with
        disabledAt := none, deletedAt := some (max row.createdAt clock) }, rfl, rfl, ?_, ?_⟩,
      Hook.rehydrate_ok.mpr rfl⟩
    · simp [HookRow.snapshot, HookSnapshot.follows]
    · have hrotated := hook.rotated
      rw [hhook] at hrotated
      exact hrotated

theorem step (h : RowsRehydrate db) (codec : DeliveryCodec) (label : HookLabel) :
    RowsRehydrate (hookStep codec db label) := by
  cases label with
  | operated operation => exact commit_keeps h fun _ _ hc => h.operated (HookOperation.reads hc)
  | created command => exact commit_keeps h fun _ _ hc => h.created hc
  | accepted deliverySummary command sendId sendIds now =>
    refine commit_keeps h fun _ _ hc => ?_
    exact h.touched _ (acceptEvent_hooks hc) fun row => ⟨_, row.lastBlockedAt, rfl⟩
  | blocked command =>
    refine commit_keeps h fun _ _ hc => ?_
    obtain ⟨-, -, _, _, -, -, rfl⟩ := recordBlockedRequest_ok hc
    exact h.touched (HookRow.blocked_id _) rfl fun row => ⟨row.lastReceivedAt, _, rfl⟩
  | accountDeleted uuid at' clock => exact h.accountDeleted uuid at' clock
  | purged batchSize clock => exact fun row hm => h row (Table.mem_delete.mp hm).1
  | elsewhere other => exact h

end RowsRehydrate

/-- In every reachable state each row is a hook, and an operation that answers
leaves the rows of the hooks it returned and no other row changed. One that
fails leaves every row alone. -/
theorem rows_refine_aggregate (codec : DeliveryCodec) (labels : List HookLabel) :
    RowsRehydrate (run (hookStep codec) .empty labels) ∧
      ∀ operation : HookOperation,
        (∀ hooks db', operation.call (run (hookStep codec) .empty labels) = .ok (hooks, db') →
          ReadsBack hooks (run (hookStep codec) .empty labels) db') ∧
        (∀ e, operation.call (run (hookStep codec) .empty labels) = .error e →
          run (hookStep codec) .empty (labels ++ [.operated operation]) =
            run (hookStep codec) .empty labels) := by
  have hempty : RowsRehydrate .empty := fun _ hm => nomatch hm
  refine ⟨run_invariant (P := fun _ _ => True) (fun _ label h _ => h.step codec label) hempty
    along_true, fun operation => ⟨fun hooks db' h => HookOperation.reads h, fun e he => ?_⟩⟩
  rw [run_append, run_cons, run_nil, hookStep, he]
  rfl

end SiliconHook
