import SiliconHook.Library.Transition
import SiliconHook.Properties.PolicyUpdates
import SiliconHook.Properties.StoredIdentities
import SiliconHook.Store.AccountsEvents
import SiliconHook.Store.Maintenance

/-!
# Purges

A maintenance statement selects its victims on a snapshot and deletes them one by
one while other transactions commit. It deletes only rows that are still eligible
where no transaction in between renews a row that it has selected.
-/

namespace SiliconHook

/-- A statement under way: its clock, and the victims it has not reached. -/
structure PurgeStatement where
  clock : Instant
  victims : List Victim
  deriving DecidableEq

/-- A row as it was deleted, and the clock of the statement that deleted it. -/
structure PurgedRow where
  row : RetainedRow
  clock : Instant
  deriving DecidableEq

/-- The database with the times at which its Accounts events were recorded, the
statements under way, and the rows that statements have deleted. -/
structure Purging where
  database : Database
  received : String → Instant
  statements : List PurgeStatement
  purged : List PurgedRow

inductive PurgeLabel
  | began (task : MaintenanceTask) (batchSize : Nat) (clock : Instant)
  | deleted (statement : Nat) (victim : Victim)
  | stored (label : StoredLabel)
  | struck (hookId : HookId) (remoteIp : String) (now : Instant)
  | checked (hookId : HookId) (remoteIp : String) (now : Instant)
  | delivered (event : AccountsEvent) (clock : Instant)
  | elsewhere (other : Store)

def StoredLabel.isElsewhere : StoredLabel → Bool
  | .elsewhere _ => true
  | _ => false

namespace Purging

abbrev db (w : Purging) : Store := w.database.db

def withDb (w : Purging) (db : Store) : Purging :=
  { w with database := { w.database with db := db } }

def rows (w : Purging) : List RetainedRow := w.db.aging w.received

def reach (w : Purging) (i : Nat) (statement : PurgeStatement) (victim : Victim) : Purging where
  database := { w.database with db := w.db.purge victim }
  received := w.received
  statements := w.statements.set i { statement with victims := statement.victims.erase victim }
  purged := w.purged ++
    (w.rows.filter fun row => row.victim = victim).map fun row => ⟨row, statement.clock⟩

def step (w : Purging) : PurgeLabel → Purging
  | .began task batchSize clock =>
    if batchSize = 0 ∨ maxMaintenanceBatch < batchSize then w
    else { w with
      statements := w.statements ++ [⟨clock, w.db.victims w.received task batchSize clock⟩] }
  | .deleted i victim =>
    match w.statements[i]? with
    | none => w
    | some statement =>
      if victim ∈ statement.victims then w.reach i statement victim else w
  | .stored label =>
    if label.isElsewhere then w else { w with database := storedStep w.database label }
  | .struck hookId remoteIp now =>
    w.withDb (commit w.db (recordUnverifiedRequest hookId remoteIp now w.db))
  | .checked hookId remoteIp now => w.withDb (checkIpBlock hookId remoteIp now w.db).2
  | .delivered event clock =>
    { w.withDb (deliver event clock w.db) with
      received := if (w.db.accountsEvents.find event.eventId).isSome then w.received
        else Function.update w.received event.eventId clock }
  | .elsewhere other => w.withDb { other with
      hooks := w.db.hooks
      events := w.db.events
      blockedRequests := w.db.blockedRequests
      managementIdempotency := w.db.managementIdempotency
      ipBlocks := w.db.ipBlocks
      accountsEvents := w.db.accountsEvents }

-- -----------------------------------------------------------------------------
-- The contract
-- -----------------------------------------------------------------------------

/-- Every row that a statement deleted met the condition of its task. -/
def OnlyEligible (w : Purging) : Prop :=
  ∀ purged ∈ w.purged, purged.row.eligible purged.clock = true

def Selected (w : Purging) (victim : Victim) (clock : Instant) : Prop :=
  ∃ statement ∈ w.statements, statement.clock = clock ∧ victim ∈ statement.victims

/-- No transaction renews a selected row: none restores a selected hook within its
window, counts a strike or a rejection of a selected address less than thirty days
before the statement, or inserts a row under a key that is selected and free. -/
def Meets (w : Purging) : PurgeLabel → Prop
  | .stored (.restored command) => ∀ clock, w.Selected (.hook command.hookId) clock →
      (w.db.hooks.find command.hookId).all (·.expired command.occurredAt) = true
  | .stored (.created command _ _) => ∀ clock, w.Selected (.hook command.hook.id) clock →
      (w.db.hooks.find command.hook.id).isSome = true
  | .stored (.accepted _ _ command _ _ _) => ∀ clock, w.Selected (.event command.eventId) clock →
      (w.db.events.find command.eventId).isSome = true
  | .stored (.blocked command) => ∀ clock, w.Selected (.blockedRequest command.id) clock →
      (w.db.blockedRequests.find command.id).isSome = true
  | .struck hookId remoteIp now => ∀ clock, w.Selected (.ipBlock hookId remoteIp) clock →
      now < clock - Instant.days staleIpBlockDays
  | .checked hookId remoteIp now => ∀ clock, w.Selected (.ipBlock hookId remoteIp) clock →
      now < clock - Instant.days staleIpBlockDays ∨
        (w.db.addressState hookId remoteIp).check now = .allowed
  | .delivered event now => ∀ clock, w.Selected (.accountsEvent event.eventId) clock →
      (w.db.accountsEvents.find event.eventId).isSome = true ∨
        now < clock - Instant.days accountsEventDays
  | _ => True

end Purging

-- -----------------------------------------------------------------------------
-- What a transaction does to the rows with a retention
-- -----------------------------------------------------------------------------

/-- Every row after is a new one, or carries on one of the rows before. -/
def Carried (rel : α → α → Prop) (new : α → Prop) (before after : List α) : Prop :=
  ∀ row' ∈ after, new row' ∨ ∃ row ∈ before, rel row row'

theorem Carried.refl {rel : α → α → Prop} {new : α → Prop} {rows : List α}
    (h : ∀ row, rel row row) : Carried rel new rows rows := fun row hm => .inr ⟨row, hm, h row⟩

theorem Carried.update [Keyed α κ] {rel : α → α → Prop} {new : α → Prop} {table : Table α}
    {p : α → Bool} {f : α → α} (hf : ∀ row, Keyed.key (f row) = Keyed.key row)
    (hrefl : ∀ row, rel row row) (h : ∀ row, p row = true → rel row (f row)) :
    Carried rel new table.rows (table.update p f hf).rows := by
  intro row' hm
  obtain ⟨row, hrow, rfl⟩ := (Table.mem_update hf).mp hm
  refine .inr ⟨row, hrow, ?_⟩
  split
  · exact h row ‹_›
  · exact hrefl row

theorem Carried.delete [Keyed α κ] {rel : α → α → Prop} {new : α → Prop} {table : Table α}
    {p : α → Bool} (hrefl : ∀ row, rel row row) :
    Carried rel new table.rows (table.delete p).rows :=
  fun row hm => .inr ⟨row, (Table.mem_delete.mp hm).1, hrefl row⟩

theorem Carried.insert [Keyed α κ] [DecidableEq κ] {rel : α → α → Prop} {new : α → Prop}
    {table table' : Table α} {row : α} (hins : table.insert row = some table')
    (hrefl : ∀ row, rel row row) (hnew : new row) : Carried rel new table.rows table'.rows := by
  intro row' hm
  obtain hm | rfl := (Table.mem_insert hins).mp hm
  · exact .inr ⟨row', hm, hrefl row'⟩
  · exact .inl hnew

theorem Carried.map {rel : α → α → Prop} {new : α → Prop} {before after : List α} {f : α → α}
    (hrows : after = before.map f) (h : ∀ row, rel row (f row)) : Carried rel new before after := by
  intro row' hm
  obtain ⟨row, hrow, rfl⟩ := List.mem_map.mp (hrows ▸ hm)
  exact .inr ⟨row, hrow, h row⟩

def EventRow.SameAge (row row' : EventRow) : Prop :=
  row.id = row'.id ∧ row.expiresAt = row'.expiresAt

def BlockedRequestRow.SameAge (row row' : BlockedRequestRow) : Prop :=
  row.id = row'.id ∧ row.expiresAt = row'.expiresAt

def HookRow.StaysDeleted (row row' : HookRow) : Prop :=
  row.id = row'.id ∧ (row.deletedAt.isSome = true → row'.deletedAt = row.deletedAt)

theorem EventRow.SameAge.refl (row : EventRow) : row.SameAge row := ⟨rfl, rfl⟩

theorem BlockedRequestRow.SameAge.refl (row : BlockedRequestRow) : row.SameAge row := ⟨rfl, rfl⟩

theorem HookRow.StaysDeleted.refl (row : HookRow) : row.StaysDeleted row := ⟨rfl, fun _ => rfl⟩

/-- A change that makes no row younger but those of the renewed keys. -/
structure Spares (renewed : Victim → Prop) (db db' : Store) : Prop where
  events : Carried EventRow.SameAge (fun row => renewed (.event row.id)) db.events.rows
    db'.events.rows
  blockedRequests : Carried BlockedRequestRow.SameAge (fun row => renewed (.blockedRequest row.id))
    db.blockedRequests.rows db'.blockedRequests.rows
  hooks : Carried HookRow.StaysDeleted (fun row => renewed (.hook row.id)) db.hooks.rows
    db'.hooks.rows
  ipBlocks : Carried Eq (fun row => renewed (.ipBlock row.hookId row.remoteIp)) db.ipBlocks.rows
    db'.ipBlocks.rows
  accountsEvents : Carried Eq (fun row => renewed (.accountsEvent row.eventId))
    db.accountsEvents.rows db'.accountsEvents.rows

namespace Spares

variable {db db' : Store} {renewed : Victim → Prop}

theorem refl (db : Store) : Spares renewed db db :=
  ⟨.refl EventRow.SameAge.refl, .refl BlockedRequestRow.SameAge.refl,
    .refl HookRow.StaysDeleted.refl, .refl fun _ => rfl, .refl fun _ => rfl⟩

theorem of_hooks (hhooks : Carried HookRow.StaysDeleted (fun row => renewed (.hook row.id))
      db.hooks.rows db'.hooks.rows)
    (hevents : db'.events = db.events) (hblocked : db'.blockedRequests = db.blockedRequests)
    (hipBlocks : db'.ipBlocks = db.ipBlocks)
    (haccounts : db'.accountsEvents = db.accountsEvents) : Spares renewed db db' :=
  ⟨hevents ▸ .refl EventRow.SameAge.refl, hblocked ▸ .refl BlockedRequestRow.SameAge.refl, hhooks,
    hipBlocks ▸ .refl fun _ => rfl, haccounts ▸ .refl fun _ => rfl⟩

theorem of_same (hhooks : db'.hooks = db.hooks) (hevents : db'.events = db.events)
    (hblocked : db'.blockedRequests = db.blockedRequests) (hipBlocks : db'.ipBlocks = db.ipBlocks)
    (haccounts : db'.accountsEvents = db.accountsEvents) : Spares renewed db db' :=
  of_hooks (hhooks ▸ .refl HookRow.StaysDeleted.refl) hevents hblocked hipBlocks haccounts

end Spares

namespace Purging

variable {w w' : Purging}

-- -----------------------------------------------------------------------------
-- The invariant
-- -----------------------------------------------------------------------------

theorem mem_rows_event {row : EventRow} : .event row ∈ w.rows ↔ row ∈ w.db.events.rows := by
  simp [rows, Store.aging, Store.retainedRows]

theorem mem_rows_blocked {row : BlockedRequestRow} :
    .blockedRequest row ∈ w.rows ↔ row ∈ w.db.blockedRequests.rows := by
  simp [rows, Store.aging, Store.retainedRows]

theorem mem_rows_hook {row : HookRow} : .hook row ∈ w.rows ↔ row ∈ w.db.hooks.rows := by
  simp [rows, Store.aging, Store.retainedRows]

theorem mem_rows_ipBlock {row : IpBlockRow} : .ipBlock row ∈ w.rows ↔ row ∈ w.db.ipBlocks.rows := by
  simp [rows, Store.aging, Store.retainedRows]

theorem mem_rows_accountsEvent {row : AccountsEventRow} {receivedAt : Instant} :
    .accountsEvent row receivedAt ∈ w.rows ↔
      row ∈ w.db.accountsEvents.rows ∧ w.received row.eventId = receivedAt := by
  simp [rows, Store.aging, Store.retainedRows]

theorem eq_of_victim {row row' : RetainedRow} (hm : row ∈ w.rows) (hm' : row' ∈ w.rows)
    (h : row.victim = row'.victim) : row = row' := by
  cases row <;> cases row' <;> simp only [RetainedRow.victim, reduceCtorEq, Victim.event.injEq,
    Victim.blockedRequest.injEq, Victim.hook.injEq, Victim.idempotency.injEq,
    Victim.ipBlock.injEq, Victim.accountsEvent.injEq] at h
  case event => rw [Table.eq_of_key (mem_rows_event.mp hm) (mem_rows_event.mp hm') h]
  case blockedRequest =>
    rw [Table.eq_of_key (mem_rows_blocked.mp hm) (mem_rows_blocked.mp hm') h]
  case hook => rw [Table.eq_of_key (mem_rows_hook.mp hm) (mem_rows_hook.mp hm') h]
  case idempotency => rw [h]
  case ipBlock =>
    rw [Table.eq_of_key (mem_rows_ipBlock.mp hm) (mem_rows_ipBlock.mp hm') (Prod.ext h.1 h.2)]
  case accountsEvent =>
    obtain ⟨hrow, rfl⟩ := mem_rows_accountsEvent.mp hm
    obtain ⟨hrow', rfl⟩ := mem_rows_accountsEvent.mp hm'
    rw [Table.eq_of_key hrow hrow' h]

/-- Every selected row is eligible in its latest version; a version that was
selected by its place stays what it was. -/
structure Due (w : Purging) : Prop where
  rows : ∀ row ∈ w.rows, ∀ clock, w.Selected row.victim clock → row.eligible clock = true
  versions : ∀ version clock, w.Selected (.idempotency version) clock →
    version.expired clock = true
  purged : w.OnlyEligible

theorem Due.spares (h : w.Due) {renewed : Victim → Prop} (hspares : Spares renewed w.db w'.db)
    (hreceived : ∀ row ∈ w'.db.accountsEvents.rows,
      renewed (.accountsEvent row.eventId) ∨ w'.received row.eventId = w.received row.eventId)
    (hselected : ∀ victim clock, w'.Selected victim clock → w.Selected victim clock)
    (hrenewed : ∀ row ∈ w'.rows, renewed row.victim → ∀ clock, w.Selected row.victim clock →
      row.eligible clock = true)
    (hpurged : w'.OnlyEligible) : w'.Due := by
  refine ⟨fun row' hm clock hs => ?_, fun version clock hs => h.versions version clock
    (hselected _ clock hs), hpurged⟩
  have hs := hselected _ clock hs
  cases row' with
  | event row' =>
    obtain hnew | ⟨row, hrow, hid, hage⟩ := hspares.events row' (mem_rows_event.mp hm)
    · exact hrenewed _ hm hnew clock hs
    · have hdue := h.rows (.event row) (mem_rows_event.mpr hrow) clock (by
        rw [RetainedRow.victim, hid]
        exact hs)
      simpa [RetainedRow.eligible, EventRow.expired, hage] using hdue
  | blockedRequest row' =>
    obtain hnew | ⟨row, hrow, hid, hage⟩ := hspares.blockedRequests row' (mem_rows_blocked.mp hm)
    · exact hrenewed _ hm hnew clock hs
    · have hdue := h.rows (.blockedRequest row) (mem_rows_blocked.mpr hrow) clock (by
        rw [RetainedRow.victim, hid]
        exact hs)
      simpa [RetainedRow.eligible, BlockedRequestRow.expired, hage] using hdue
  | hook row' =>
    obtain hnew | ⟨row, hrow, hid, hage⟩ := hspares.hooks row' (mem_rows_hook.mp hm)
    · exact hrenewed _ hm hnew clock hs
    · have hdue := h.rows (.hook row) (mem_rows_hook.mpr hrow) clock (by
        rw [RetainedRow.victim, hid]
        exact hs)
      simp only [RetainedRow.eligible, HookRow.expired] at hdue ⊢
      rw [hage]
      · exact hdue
      · cases hd : row.deletedAt with
        | none =>
          rw [hd] at hdue
          cases hdue
        | some deletedAt => rfl
  | idempotency version => exact h.versions version clock hs
  | ipBlock row' =>
    obtain hnew | ⟨row, hrow, rfl⟩ := hspares.ipBlocks row' (mem_rows_ipBlock.mp hm)
    · exact hrenewed _ hm hnew clock hs
    · exact h.rows _ (mem_rows_ipBlock.mpr hrow) clock hs
  | accountsEvent row' receivedAt =>
    obtain ⟨hrow', hreceivedAt⟩ := mem_rows_accountsEvent.mp hm
    obtain hnew | ⟨row, hrow, rfl⟩ := hspares.accountsEvents row' hrow'
    · exact hrenewed _ hm hnew clock hs
    · obtain hnew | hsame := hreceived row hrow'
      · exact hrenewed _ hm hnew clock hs
      · exact h.rows _ (mem_rows_accountsEvent.mpr ⟨hrow, hsame.symm.trans hreceivedAt⟩) clock hs

end Purging

-- -----------------------------------------------------------------------------
-- The transactions
-- -----------------------------------------------------------------------------

/-- The keys under which a transaction puts rows that are not due. -/
def StoredLabel.renews (db : Store) : StoredLabel → Victim → Prop
  | .created command _ _, victim =>
    victim = .hook command.hook.id ∧ db.hooks.find command.hook.id = none
  | .restored command, victim => victim = .hook command.hookId ∧
      (db.hooks.find command.hookId).all (·.expired command.occurredAt) = false
  | .accepted _ _ command _ _ _, victim =>
    victim = .event command.eventId ∧ db.events.find command.eventId = none
  | .blocked command, victim =>
    victim = .blockedRequest command.id ∧ db.blockedRequests.find command.id = none
  | _, _ => False

theorem restoreHookRow_within {command : RestoreHook} {restored : Hook} {db db' : Store}
    (h : restoreHookRow command db = .ok (.restored restored, db')) :
    (db.hooks.find command.hookId).all (·.expired command.occurredAt) = false := by
  simp only [restoreHookRow, Except.bind_ok] at h
  obtain ⟨⟨⟩, -, ⟨reservation, keys⟩, -, h⟩ := h
  cases reservation with
  | replayed response =>
    simp only [Except.bind_ok] at h
    obtain ⟨_, -, _, -, h⟩ := h
    cases h
  | reserved =>
    simp only [Except.bind_ok, selectScopedHookForUpdate_ok] at h
    obtain ⟨hook, ⟨row, hrow, hs⟩, h⟩ := h
    rw [(Store.scopedHook_some.mp hrow).1, Option.all_some]
    split at h
    · cases h
    · rename_i restored hrestored
      have hd : hook.snapshot.deletedAt = row.deletedAt := by
        rw [hs]
        rfl
      unfold Hook.restore at hrestored
      rw [hd] at hrestored
      unfold HookRow.expired
      split at hrestored
      · cases hrestored
      · cases hdeleted : row.deletedAt with
        | none => rfl
        | some deletedAt =>
          rw [hdeleted] at hrestored
          dsimp only at hrestored
          split at hrestored
          · cases hrestored
          · rename_i hwindow
            rw [Option.any_some, decide_eq_false_iff_not]
            unfold Instant at *
            omega

theorem EventRow.ownerColumn_age (target : EventRow → Option (Option AccountUuid))
    (row : EventRow) : row.SameAge (EventRow.ownerColumn.assign target row) := by
  unfold Column.assign
  cases target row <;> exact ⟨rfl, rfl⟩

theorem BlockedRequestRow.ownerColumn_age
    (target : BlockedRequestRow → Option (Option AccountUuid)) (row : BlockedRequestRow) :
    row.SameAge (BlockedRequestRow.ownerColumn.assign target row) := by
  unfold Column.assign
  cases target row <;> exact ⟨rfl, rfl⟩

theorem HookRow.columns_stays (owner creator : HookRow → Option (Option AccountUuid))
    (row : HookRow) : row.StaysDeleted (HookRow.creatorColumn.assign creator
      (HookRow.ownerColumn.assign owner row)) := by
  unfold Column.assign
  cases owner row <;> cases creator _ <;> exact ⟨rfl, fun _ => rfl⟩

namespace Spares

variable {db db' : Store} {renewed : Victim → Prop}

theorem updateHooks {p : HookRow → Bool} {f : HookRow → HookRow}
    (hf : ∀ row, Keyed.key (f row) = Keyed.key row)
    (hkeep : ∀ row, p row = true → row.StaysDeleted (f row))
    (hhooks : db'.hooks = db.hooks.update p f hf) (hevents : db'.events = db.events)
    (hblocked : db'.blockedRequests = db.blockedRequests) (hipBlocks : db'.ipBlocks = db.ipBlocks)
    (haccounts : db'.accountsEvents = db.accountsEvents) : Spares renewed db db' :=
  of_hooks (hhooks ▸ .update hf HookRow.StaysDeleted.refl hkeep) hevents hblocked hipBlocks
    haccounts

theorem stays_of_live {row row' : HookRow} (hid : row.id = row'.id) (hlive : row.deletedAt = none) :
    row.StaysDeleted row' := ⟨hid, fun h => by rw [hlive] at h; cases h⟩

theorem created {command : CreateHook} (h : createHookRow command db = .ok (outcome, db')) :
    Spares (fun victim => victim = .hook command.hook.id ∧ db.hooks.find command.hook.id = none)
      db db' := by
  obtain ⟨-, _, -, ⟨_, _, _, -, -, -, -, -, rfl⟩ | ⟨_, _, _, -, -, hins, -, -, rfl⟩⟩ :=
    createHookRow_ok h
  · exact of_same rfl rfl rfl rfl rfl
  · exact of_hooks (.insert hins HookRow.StaysDeleted.refl ⟨rfl, Table.insert_fresh hins⟩) rfl rfl
      rfl rfl

theorem restored {command : RestoreHook} (h : restoreHookRow command db = .ok (outcome, db')) :
    Spares (fun victim => victim = .hook command.hookId ∧
      (db.hooks.find command.hookId).all (·.expired command.occurredAt) = false) db db' := by
  obtain ⟨-, ⟨_, _, _, -, -, -, -, rfl⟩ | ⟨_, _, row, _, -, -, -, -, -, rfl, rfl⟩⟩ :=
    restoreHookRow_ok h
  · exact of_same rfl rfl rfl rfl rfl
  · refine of_hooks (fun row' hm => ?_) rfl rfl rfl rfl
    have hupdated : row' ∈ (db.hooks.update (deletedHook command.hookId) HookRow.restore
        HookRow.restore_id).rows := hm
    obtain ⟨row, hrow, rfl⟩ := (Table.mem_update _).mp hupdated
    split
    · rename_i hp
      refine .inl ⟨?_, restoreHookRow_within h⟩
      have hid : row.id = command.hookId := of_decide_eq_true (Bool.and_eq_true_iff.mp hp).1
      rw [HookRow.restore_id, hid]
    · exact .inr ⟨row, hrow, .refl row⟩

theorem rotatedEndpoint {command : RotateEndpoint}
    (h : rotateHookEndpointRow command db = .ok (outcome, db')) : Spares renewed db db' := by
  obtain ⟨-, ⟨_, _, _, -, -, -, -, rfl⟩ | ⟨_, _, _, _, _, -, -, -, -, -, -, -, -, rfl⟩⟩ :=
    rotateHookEndpointRow_ok h
  · exact of_same rfl rfl rfl rfl rfl
  · exact updateHooks (HookRow.withEndpoint_id command.replacement command.occurredAt)
      (fun _ _ => ⟨rfl, fun _ => rfl⟩) rfl rfl rfl rfl rfl

theorem accepted {codec : DeliveryCodec} {deliverySummary : SummaryRenderer}
    {command : AcceptEvent} {event : EventRecord} {sendIds : Uuid → Uuid}
    (h : codec.acceptEvent deliverySummary command sendId sendIds now db = .ok (event, db')) :
    Spares (fun victim => victim = .event command.eventId ∧ db.events.find command.eventId = none)
      db db' := by
  obtain ⟨mid, happended, hqueued⟩ := acceptEvent_ok h
  have hmid : Spares (fun victim => victim = .event command.eventId ∧
      db.events.find command.eventId = none) db mid := by
    obtain ⟨hook, events, -, hins, -, rfl⟩ := happended.stored
    have hid : event.id = command.eventId := by
      rw [happended.record]
      rfl
    have hkey : ∀ row : HookRow,
        Keyed.key (row.received command.request.receivedAt) = Keyed.key row := fun _ => rfl
    refine ⟨.insert hins EventRow.SameAge.refl ⟨?_, ?_⟩, .refl BlockedRequestRow.SameAge.refl,
      .update hkey HookRow.StaysDeleted.refl fun _ _ => ⟨rfl, fun _ => rfl⟩, .refl fun _ => rfl,
      .refl fun _ => rfl⟩
    · exact congrArg Victim.event hid
    · rw [← hid]
      exact Table.insert_fresh hins
  split at hqueued
  · obtain ⟨_, rfl⟩ := queueSends_frame hqueued
    exact ⟨hmid.events, hmid.blockedRequests, hmid.hooks, hmid.ipBlocks, hmid.accountsEvents⟩
  · exact hqueued ▸ hmid

theorem recorded {command : RecordBlockedRequest} {made : BlockedRequest}
    (h : recordBlockedRequest command db = .ok (made, db')) :
    Spares (fun victim => victim = .blockedRequest command.id ∧
      db.blockedRequests.find command.id = none) db db' := by
  obtain ⟨rfl, -, _, _, hins, -, rfl⟩ := recordBlockedRequest_ok h
  have hkey : ∀ row : HookRow,
      Keyed.key (row.blocked command.request.receivedAt) = Keyed.key row := fun _ => rfl
  exact ⟨.refl EventRow.SameAge.refl,
    .insert hins BlockedRequestRow.SameAge.refl ⟨rfl, Table.insert_fresh hins⟩,
    .update hkey HookRow.StaysDeleted.refl fun _ _ => ⟨rfl, fun _ => rfl⟩,
    .refl fun _ => rfl, .refl fun _ => rfl⟩

theorem linked {mapping : IdentityMapping} {clock : Instant} {database after : Database}
    (h : applyMapping mapping clock database = .ok (rekeyed, after)) :
    Spares renewed database.db after.db := by
  obtain ⟨-, links, -, -, -, rfl⟩ := applyMapping_ok.mp h
  exact ⟨.map (rekeyEvents_rows mapping.ids
      (rekeyHooks links mapping.ids database.db.hooks) database.db.events)
      (EventRow.ownerColumn_age _),
    .map (rekeyBlocked_rows mapping.ids
      (rekeyHooks links mapping.ids database.db.hooks) database.db.blockedRequests)
      (BlockedRequestRow.ownerColumn_age _),
    .map (rekeyHooks_rows links mapping.ids database.db.hooks) (HookRow.columns_stays _ _),
    .refl fun _ => rfl, .refl fun _ => rfl⟩

theorem audited {call : Store → Except StoreError (α × Store)}
    {audit : Store → α → List AuditRow} {database : Database}
    (h : ∀ answer db', call database.db = .ok (answer, db') → Spares renewed database.db db') :
    Spares renewed database.db (commit database (database.audited call audit)).db := by
  refine commit_keeps (P := fun after : Database => Spares renewed database.db after.db)
    (refl database.db) ?_
  exact fun answer after hok => h answer after.db (Database.audited_ok hok)

end Spares

theorem storedStep_spares (database : Database) (label : StoredLabel)
    (helsewhere : label.isElsewhere = false) :
    Spares (label.renews database.db) database.db (storedStep database label).db := by
  cases label with
  | created command owner owned => exact .audited fun _ _ hc => .created hc
  | updated command actor occurredAt =>
    refine .audited fun updated db' hc => ?_
    obtain ⟨_, _, -, -, -, -, rfl⟩ := updateHookRow_ok.mp hc
    have hkey : ∀ row : HookRow, Keyed.key { row with
        name := updated.snapshot.name
        description := updated.snapshot.description
        timeZone := updated.snapshot.timeZone
        signing := updated.signing } = Keyed.key row := fun _ => rfl
    exact .updateHooks hkey (fun _ _ => ⟨rfl, fun _ => rfl⟩) rfl rfl rfl rfl rfl
  | activated command actor =>
    refine .audited fun updated db' hc => ?_
    obtain ⟨_, -, rfl⟩ := setHooksEnabled_ok hc
    exact .updateHooks command.activate_key (fun _ _ => ⟨rfl, fun _ => rfl⟩) rfl rfl rfl rfl rfl
  | rotatedSecret command =>
    refine .audited fun outcome db' hc => ?_
    obtain ⟨-, ⟨_, _, _, -, -, -, -, -, rfl⟩ | ⟨_, _, _, _, _, -, -, -, -, -, -, -, rfl⟩⟩ :=
      rotateHookSecretRow_ok.mp hc
    · exact .of_same rfl rfl rfl rfl rfl
    · exact .updateHooks (HookRow.withSecret_id command.encryptedSecret)
        (fun _ _ => ⟨rfl, fun _ => rfl⟩) rfl rfl rfl rfl rfl
  | rotatedEndpoint command => exact .audited fun _ _ hc => .rotatedEndpoint hc
  | deleted command actor =>
    refine .audited fun deleted db' hc => ?_
    obtain ⟨_, -, -, -, rfl⟩ := deleteHookRow_ok hc
    refine .updateHooks (HookRow.delete_id command.occurredAt) (fun row hp => ?_) rfl rfl rfl rfl
      rfl
    simp only [liveHook, Bool.and_eq_true, Option.isNone_iff_eq_none] at hp
    exact Spares.stays_of_live rfl hp.2
  | restored command => exact .audited fun _ _ hc => .restored hc
  | granted silicon grantee level actor clock =>
    refine .audited fun answer db' hc => ?_
    obtain ⟨made, hmade, heq⟩ := Except.map_ok.mp hc
    cases heq
    unfold putGrant at hmade
    split at hmade <;> cases hmade
    exact .of_same rfl rfl rfl rfl rfl
  | ungranted silicon grantee actor keeps clock =>
    refine .audited fun removed db' hc => ?_
    have hdb : (deleteGrant silicon grantee keeps database.db).2 = db' :=
      congrArg Prod.snd (Except.ok.inj hc)
    rw [← hdb]
    unfold deleteGrant
    dsimp only
    split
    · exact .refl database.db
    · split <;> exact .of_same rfl rfl rfl rfl rfl
  | allowed silicon account actor clock =>
    refine .audited fun answer db' hc => ?_
    obtain ⟨made, hmade, heq⟩ := Except.map_ok.mp hc
    cases heq
    unfold putAllowance at hmade
    split at hmade <;> cases hmade
    exact .of_same rfl rfl rfl rfl rfl
  | disallowed silicon account actor clock =>
    refine .audited fun removed db' hc => ?_
    have hdb : (deleteAllowance silicon account database.db).2 = db' :=
      congrArg Prod.snd (Except.ok.inj hc)
    rw [← hdb]
    unfold deleteAllowance
    split <;> exact .of_same rfl rfl rfl rfl rfl
  | accepted codec deliverySummary command sendId sendIds now =>
    exact commit_keeps (P := fun after => Spares _ database.db after) (.refl database.db)
      fun event db' hc => .accepted hc
  | blocked command =>
    exact commit_keeps (P := fun after => Spares _ database.db after) (.refl database.db)
      fun made db' hc => .recorded hc
  | purgedHooks batchSize clock =>
    exact ⟨.delete EventRow.SameAge.refl, .delete BlockedRequestRow.SameAge.refl,
      .delete HookRow.StaysDeleted.refl, .delete fun _ => rfl, .refl fun _ => rfl⟩
  | purgedRecords events blocked =>
    exact ⟨.delete EventRow.SameAge.refl, .delete BlockedRequestRow.SameAge.refl,
      .refl HookRow.StaysDeleted.refl, .refl fun _ => rfl, .refl fun _ => rfl⟩
  | linked mapping distinct dryRun clock =>
    unfold storedStep linkIdentities
    dsimp only
    split
    · exact .refl database.db
    · split
      · exact .refl database.db
      · exact .linked ‹_›
  | elsewhere other => cases helsewhere

namespace Spares

variable {db db' : Store} {renewed : Victim → Prop}

theorem onlyAccounts (h : Store.OnlyAccounts db db') : Spares renewed db db' := by
  obtain ⟨_, _, rfl⟩ := h
  exact of_same rfl rfl rfl rfl rfl

theorem applied {change : AccountsChange} (h : change.apply at' clock db = .ok db') :
    Spares renewed db db' := by
  cases change with
  | idChanged uuid kind oldId newId =>
    cases h
    exact onlyAccounts (.idChanged ..)
  | updated profile => exact onlyAccounts (.updated h)
  | custodianChanged uuid from' to' =>
    cases h
    obtain ⟨accounts, ids, hknown⟩ : Store.OnlyAccounts db
        (upsertCustodian to' at' (ensureAccount uuid .silicon db)) :=
      .trans ⟨_, _, rfl⟩ (Store.OnlyAccounts.upsertCustodian ..)
    simp only [SiliconHook.custodianChanged, hknown]
    split <;> exact of_same rfl rfl rfl rfl rfl
  | signedOut uuid reason =>
    simp only [AccountsChange.apply] at h
    split at h <;> cases h
    · exact refl db
    · exact of_same rfl rfl rfl rfl rfl
  | accessRemoved uuid =>
    cases h
    exact of_same rfl rfl rfl rfl rfl
  | deleted uuid =>
    cases h
    simp only [SiliconHook.deleted]
    split
    · exact of_same rfl rfl rfl rfl rfl
    · have hkey : ∀ row : HookRow, Keyed.key { row with
          disabledAt := none
          deletedAt := some (max row.createdAt clock) } = Keyed.key row := fun _ => rfl
      refine updateHooks hkey (fun row hp => stays_of_live rfl ?_) rfl rfl rfl rfl rfl
      exact Option.isNone_iff_eq_none.mp (Bool.and_eq_true_iff.mp hp).2
  | nothing =>
    cases h
    exact refl db

theorem delivered (event : AccountsEvent) (clock : Instant) (db : Store) :
    Spares (fun victim => victim = .accountsEvent event.eventId ∧
      db.accountsEvents.find event.eventId = none) db (deliver event clock db) := by
  unfold deliver applyAccountsEvent
  cases event.check with
  | error e => exact refl db
  | ok _ =>
    cases hi : db.accountsEvents.insert (event.dedupeRow db) with
    | none => exact refl db
    | some recorded =>
      have hrecorded : Carried Eq (fun row : AccountsEventRow =>
          Victim.accountsEvent row.eventId = .accountsEvent event.eventId ∧
            db.accountsEvents.find event.eventId = none) db.accountsEvents.rows recorded.rows :=
        .insert hi (fun _ => rfl) ⟨rfl, Table.insert_fresh hi⟩
      cases event.retired db with
      | true =>
        exact ⟨.refl EventRow.SameAge.refl, .refl BlockedRequestRow.SameAge.refl,
          .refl HookRow.StaysDeleted.refl, .refl fun _ => rfl, hrecorded⟩
      | false =>
        simp only [Bool.false_eq_true, if_false]
        cases ha : event.change.apply event.occurredAt clock
            { db with accountsEvents := recorded } with
        | error e => exact refl db
        | ok db' =>
          have happlied : Spares (fun victim => victim = .accountsEvent event.eventId ∧
              db.accountsEvents.find event.eventId = none)
              { db with accountsEvents := recorded } db' := applied ha
          refine ⟨happlied.events, happlied.blockedRequests, happlied.hooks, happlied.ipBlocks, ?_⟩
          show Carried _ _ _ db'.accountsEvents.rows
          rw [(AccountsChange.apply_frame ha).1]
          exact hrecorded

theorem of_address {hookId : HookId} {remoteIp : String}
    (h : ∀ key ≠ (hookId, remoteIp), db'.ipBlocks.find key = db.ipBlocks.find key)
    (hhooks : db'.hooks = db.hooks) (hevents : db'.events = db.events)
    (hblocked : db'.blockedRequests = db.blockedRequests)
    (haccounts : db'.accountsEvents = db.accountsEvents) :
    Spares (· = .ipBlock hookId remoteIp) db db' := by
  refine ⟨hevents ▸ .refl EventRow.SameAge.refl, hblocked ▸ .refl BlockedRequestRow.SameAge.refl,
    hhooks ▸ .refl HookRow.StaysDeleted.refl, fun row hm => ?_, haccounts ▸ .refl fun _ => rfl⟩
  by_cases hkey : (row.hookId, row.remoteIp) = (hookId, remoteIp)
  · obtain ⟨rfl, rfl⟩ := Prod.mk.inj hkey
    exact .inl rfl
  · have hfind : db'.ipBlocks.find (row.hookId, row.remoteIp) = some row := Table.mem_rows.mp hm
    rw [h _ hkey] at hfind
    exact .inr ⟨row, (Table.find_some.mp hfind).1, rfl⟩

end Spares

section

variable {db db' : Store} {hookId : HookId} {remoteIp : String} {now : Instant}

/-- A strike touches the row of its address: it is updated now, and blocked as
before or for a day from now. -/
theorem recordUnverifiedRequest_row
    (h : recordUnverifiedRequest hookId remoteIp now db = .ok (outcome, db')) :
    (∀ key ≠ (hookId, remoteIp), db'.ipBlocks.find key = db.ipBlocks.find key) ∧
      db' = { db with ipBlocks := db'.ipBlocks } ∧
      ∀ row, db'.ipBlocks.find (hookId, remoteIp) = some row → row.updatedAt = now ∧
        ∀ blockedUntil ∈ row.blockedUntil, blockedUntil = now + blockDuration ∨
          ∃ before, db.ipBlocks.find (hookId, remoteIp) = some before ∧
            before.blockedUntil = some blockedUntil := by
  unfold recordUnverifiedRequest at h
  split at h
  · cases h
  · simp only [find_blank, if_pos] at h
    cases h
    refine ⟨fun key hne => ?_, rfl, fun row hrow => ?_⟩
    · simp only [find_addressRow, find_blank, if_neg hne]
    · simp only [find_addressRow, find_blank, if_pos, Option.map_some, Option.some.injEq] at hrow
      subst hrow
      refine ⟨rfl, fun blockedUntil hblocked => ?_⟩
      simp only [IpBlockRow.struck, IpBlockState.recordUnverified] at hblocked
      split at hblocked
      · right
        have hstate := (IpBlockState.cleared_some.mp hblocked).1
        cases hfind : db.ipBlocks.find (hookId, remoteIp) with
        | none =>
          rw [hfind] at hstate
          cases hstate
        | some before =>
          rw [hfind] at hstate
          exact ⟨before, rfl, hstate⟩
      · exact .inl (Option.some.inj hblocked).symm

theorem checkIpBlock_row (hookId : HookId) (remoteIp : String) (now : Instant) (db : Store) :
    (∀ key ≠ (hookId, remoteIp),
      (checkIpBlock hookId remoteIp now db).2.ipBlocks.find key = db.ipBlocks.find key) ∧
      (checkIpBlock hookId remoteIp now db).2 =
        { db with ipBlocks := (checkIpBlock hookId remoteIp now db).2.ipBlocks } ∧
      ((db.addressState hookId remoteIp).check now = .allowed →
        (checkIpBlock hookId remoteIp now db).2 = db) ∧
      ∀ row, (checkIpBlock hookId remoteIp now db).2.ipBlocks.find (hookId, remoteIp) = some row →
        ∃ before, db.ipBlocks.find (hookId, remoteIp) = some before ∧
          (row = before ∨ row = before.rejected now) := by
  unfold checkIpBlock Store.addressState
  cases hfind : db.ipBlocks.find (hookId, remoteIp) with
  | none =>
    refine ⟨fun _ _ => rfl, rfl, fun _ => rfl, fun row hrow => ?_⟩
    rw [hfind] at hrow
    cases hrow
  | some before =>
    dsimp only [Option.elim_some]
    cases hcheck : before.state.check now with
    | allowed =>
      refine ⟨fun _ _ => rfl, rfl, fun _ => rfl, fun row hrow => ⟨before, rfl, .inl ?_⟩⟩
      exact Option.some.inj (hrow.symm.trans hfind)
    | blockedUntil instant =>
      refine ⟨fun key hne => ?_, rfl, fun h => (by cases h),
        fun row hrow => ⟨before, rfl, .inr ?_⟩⟩
      · simp only [find_addressRow, if_neg hne]
      · simp only [find_addressRow, if_pos, hfind, Option.map_some, Option.some.injEq] at hrow
        exact hrow.symm

end

-- -----------------------------------------------------------------------------
-- Steps
-- -----------------------------------------------------------------------------

namespace Purging

variable {w w' : Purging}

/-- Another transaction keeps the selected rows eligible where it renews none. -/
theorem Due.transact (h : w.Due) {renewed : Victim → Prop} (hspares : Spares renewed w.db w'.db)
    (hreceived : w'.received = w.received) (hstatements : w'.statements = w.statements)
    (hpurged : w'.purged = w.purged)
    (hrenewed : ∀ row ∈ w'.rows, renewed row.victim → ∀ clock, w.Selected row.victim clock →
      row.eligible clock = true) : w'.Due := by
  refine h.spares hspares (fun row _ => .inr (congrFun hreceived _)) (fun victim clock hs => ?_)
    hrenewed ?_
  · unfold Selected at hs ⊢
    rwa [hstatements] at hs
  · unfold OnlyEligible
    rw [hpurged]
    exact h.purged

theorem Due.began (h : w.Due) (task : MaintenanceTask) (batchSize : Nat) (clock : Instant) :
    (w.step (.began task batchSize clock)).Due := by
  unfold step
  dsimp only
  split
  · exact h
  · have hvictims : ∀ victim ∈ w.db.victims w.received task batchSize clock,
        ∃ row ∈ w.rows, row.victim = victim ∧ row.eligible clock = true := by
      intro victim hm
      obtain ⟨row, hrow, rfl⟩ := List.mem_map.mp hm
      have hselected := (List.mem_insertionSort _).mp (List.mem_of_mem_take hrow)
      obtain ⟨hin, heligible⟩ := List.mem_filter.mp hselected
      refine ⟨row, List.mem_flatMap.mpr ⟨task, ?_, hin⟩, rfl, heligible⟩
      cases task <;> simp
    have hselected : ∀ victim t, Selected { w with
        statements := w.statements ++ [⟨clock, w.db.victims w.received task batchSize clock⟩] }
        victim t → w.Selected victim t ∨
          ∃ row ∈ w.rows, row.victim = victim ∧ row.eligible t = true := by
      rintro victim t ⟨statement, hm, rfl, hv⟩
      rcases List.mem_append.mp hm with hm | hm
      · exact .inl ⟨statement, hm, rfl, hv⟩
      · obtain rfl := List.mem_singleton.mp hm
        exact .inr (hvictims victim hv)
    refine ⟨fun row hm t hs => ?_, fun version t hs => ?_, h.purged⟩
    · rcases hselected _ t hs with hs | ⟨other, hother, hvictim, heligible⟩
      · exact h.rows row hm t hs
      · rwa [eq_of_victim hother hm hvictim] at heligible
    · rcases hselected _ t hs with hs | ⟨other, hother, hvictim, heligible⟩
      · exact h.versions version t hs
      · cases other <;> simp only [RetainedRow.victim, reduceCtorEq, Victim.idempotency.injEq]
          at hvictim
        subst hvictim
        exact heligible

theorem purge_spares (db : Store) (victim : Victim) :
    Spares (fun _ => False) db (db.purge victim) := by
  cases victim with
  | event id =>
    exact ⟨.delete EventRow.SameAge.refl, .refl BlockedRequestRow.SameAge.refl,
      .refl HookRow.StaysDeleted.refl, .refl fun _ => rfl, .refl fun _ => rfl⟩
  | blockedRequest id =>
    exact ⟨.refl EventRow.SameAge.refl, .delete BlockedRequestRow.SameAge.refl,
      .refl HookRow.StaysDeleted.refl, .refl fun _ => rfl, .refl fun _ => rfl⟩
  | hook id =>
    exact ⟨.delete EventRow.SameAge.refl, .delete BlockedRequestRow.SameAge.refl,
      .delete HookRow.StaysDeleted.refl, .delete fun _ => rfl, .refl fun _ => rfl⟩
  | idempotency version => exact .of_same rfl rfl rfl rfl rfl
  | ipBlock hookId remoteIp =>
    exact ⟨.refl EventRow.SameAge.refl, .refl BlockedRequestRow.SameAge.refl,
      .refl HookRow.StaysDeleted.refl, .delete fun _ => rfl, .refl fun _ => rfl⟩
  | accountsEvent id =>
    exact ⟨.refl EventRow.SameAge.refl, .refl BlockedRequestRow.SameAge.refl,
      .refl HookRow.StaysDeleted.refl, .refl fun _ => rfl, .delete fun _ => rfl⟩

theorem Due.reached (h : w.Due) {i : Nat} {statement : PurgeStatement} {victim : Victim}
    (hi : w.statements[i]? = some statement) (hv : victim ∈ statement.victims) :
    (w.reach i statement victim).Due := by
  have hstatement : statement ∈ w.statements := List.mem_of_getElem? hi
  refine h.spares (purge_spares w.db victim) (fun row _ => .inr rfl) ?_
    (fun row _ hno => hno.elim) ?_
  · rintro other clock ⟨found, hm, rfl, hother⟩
    rcases List.mem_or_eq_of_mem_set hm with hm | rfl
    · exact ⟨found, hm, rfl, hother⟩
    · exact ⟨statement, hstatement, rfl, List.mem_of_mem_erase hother⟩
  · intro purged hm
    rcases List.mem_append.mp hm with hm | hm
    · exact h.purged purged hm
    · obtain ⟨row, hrow, rfl⟩ := List.mem_map.mp hm
      obtain ⟨hrow, hvictim⟩ := List.mem_filter.mp hrow
      refine h.rows row hrow statement.clock ⟨statement, hstatement, rfl, ?_⟩
      rw [of_decide_eq_true hvictim]
      exact hv

/-- A selected address row that a transaction touches long before the statement's
clock is still stale. -/
theorem stale_of_touched {row : IpBlockRow} {now clock : Instant}
    (hnow : now < clock - Instant.days staleIpBlockDays) (hupdated : row.updatedAt = now)
    (hblocked : ∀ blockedUntil ∈ row.blockedUntil, blockedUntil ≤ clock) :
    row.stale clock = true := by
  rw [IpBlockRow.stale, hupdated, decide_eq_true hnow, Bool.and_true, Option.all_eq_true]
  exact fun blockedUntil hm => decide_eq_true (hblocked blockedUntil hm)

theorem Due.unblocked (h : w.Due) {hookId : HookId} {remoteIp : String} {clock : Instant}
    {row : IpBlockRow} (hs : w.Selected (.ipBlock hookId remoteIp) clock)
    (hrow : w.db.ipBlocks.find (hookId, remoteIp) = some row) :
    ∀ blockedUntil ∈ row.blockedUntil, blockedUntil ≤ clock := by
  obtain ⟨hm, hkey⟩ := Table.find_some.mp hrow
  obtain ⟨rfl, rfl⟩ := Prod.mk.inj hkey
  have hstale : row.stale clock = true := h.rows (.ipBlock row) (mem_rows_ipBlock.mpr hm) clock hs
  intro blockedUntil hb
  have hall := (Bool.and_eq_true_iff.mp hstale).1
  exact of_decide_eq_true ((Option.all_eq_true _ _).mp hall blockedUntil hb)

theorem Due.struck (h : w.Due) {hookId : HookId} {remoteIp : String} {now : Instant}
    (hmeets : w.Meets (.struck hookId remoteIp now)) :
    (w.step (.struck hookId remoteIp now)).Due := by
  show (w.withDb _).Due
  refine commit_keeps (P := fun db => (w.withDb db).Due) (by exact h) fun outcome db' hok => ?_
  obtain ⟨hother, hsame, hrow⟩ := recordUnverifiedRequest_row hok
  have hspares : Spares (· = .ipBlock hookId remoteIp) w.db db' :=
    .of_address hother (by rw [hsame]) (by rw [hsame]) (by rw [hsame]) (by rw [hsame])
  refine h.transact hspares rfl rfl rfl fun row hm hvictim clock hs => ?_
  cases row <;> simp only [RetainedRow.victim, reduceCtorEq, Victim.ipBlock.injEq] at hvictim
  rename_i row
  obtain ⟨rfl, rfl⟩ := hvictim
  have hfind : db'.ipBlocks.find (row.hookId, row.remoteIp) = some row :=
    Table.mem_rows.mp (mem_rows_ipBlock.mp hm)
  obtain ⟨hupdated, hblocked⟩ := hrow row hfind
  have hnow : now < clock - Instant.days staleIpBlockDays := hmeets clock hs
  refine stale_of_touched hnow hupdated fun blockedUntil hb => ?_
  rcases hblocked blockedUntil hb with rfl | ⟨before, hbefore, huntil⟩
  · unfold blockDuration Instant.days staleIpBlockDays Instant.hours Instant.minutes
      Instant.second Instant at *
    omega
  · exact h.unblocked hs hbefore blockedUntil huntil

theorem Due.checked (h : w.Due) {hookId : HookId} {remoteIp : String} {now : Instant}
    (hmeets : w.Meets (.checked hookId remoteIp now)) :
    (w.step (.checked hookId remoteIp now)).Due := by
  obtain ⟨hother, hsame, hallowed, hrow⟩ := checkIpBlock_row hookId remoteIp now w.db
  have hspares : Spares (· = .ipBlock hookId remoteIp) w.db
      (checkIpBlock hookId remoteIp now w.db).2 :=
    .of_address hother (by rw [hsame]) (by rw [hsame]) (by rw [hsame]) (by rw [hsame])
  refine h.transact hspares rfl rfl rfl fun row hm hvictim clock hs => ?_
  cases row <;> simp only [RetainedRow.victim, reduceCtorEq, Victim.ipBlock.injEq] at hvictim
  rename_i row
  obtain ⟨rfl, rfl⟩ := hvictim
  have hfind : (checkIpBlock row.hookId row.remoteIp now w.db).2.ipBlocks.find
      (row.hookId, row.remoteIp) = some row := Table.mem_rows.mp (mem_rows_ipBlock.mp hm)
  obtain ⟨before, hbefore, hchange⟩ := hrow row hfind
  have hin : RetainedRow.ipBlock before ∈ w.rows :=
    mem_rows_ipBlock.mpr (Table.find_some.mp hbefore).1
  rcases hchange with rfl | hrejected
  · exact h.rows _ hin clock hs
  · rcases hmeets clock hs with hnow | hallow
    · subst hrejected
      have hblocked := h.unblocked hs hbefore
      exact stale_of_touched hnow rfl hblocked
    · rw [hallowed hallow, hbefore] at hfind
      obtain rfl := Option.some.inj hfind
      exact h.rows _ hin clock hs

theorem Due.delivered (h : w.Due) {event : AccountsEvent} {now : Instant}
    (hmeets : w.Meets (.delivered event now)) : (w.step (.delivered event now)).Due := by
  have hspares := Spares.delivered event now w.db
  refine h.spares hspares (fun row hm => ?_) (fun _ _ hs => hs) (fun row hm hrenewed clock hs => ?_)
    h.purged
  · show _ ∨ (if (w.db.accountsEvents.find event.eventId).isSome then w.received
      else Function.update w.received event.eventId now) row.eventId = _
    split
    · exact .inr rfl
    · rename_i hnone
      by_cases hid : row.eventId = event.eventId
      · exact .inl ⟨congrArg Victim.accountsEvent hid, Option.not_isSome_iff_eq_none.mp hnone⟩
      · exact .inr (Function.update_of_ne hid _ _)
  · obtain ⟨hvictim, hfree⟩ := hrenewed
    rw [hvictim] at hs
    cases row <;> simp only [RetainedRow.victim, reduceCtorEq, Victim.accountsEvent.injEq]
      at hvictim
    rename_i row receivedAt
    obtain ⟨-, hreceivedAt⟩ := mem_rows_accountsEvent.mp hm
    rcases hmeets clock hs with hstored | hnow
    · rw [hfree] at hstored
      cases hstored
    · have hsome : (w.db.accountsEvents.find event.eventId).isSome = false := by rw [hfree]; rfl
      have hreceived : (w.step (.delivered event now)).received row.eventId = now := by
        show (if (w.db.accountsEvents.find event.eventId).isSome then w.received
          else Function.update w.received event.eventId now) row.eventId = now
        rw [hsome, if_neg Bool.false_ne_true, hvictim, Function.update_self]
      rw [RetainedRow.eligible, ← hreceivedAt, hreceived]
      exact decide_eq_true hnow

theorem Due.stored (h : w.Due) {label : StoredLabel} (hmeets : w.Meets (.stored label)) :
    (w.step (.stored label)).Due := by
  unfold step
  dsimp only
  cases helsewhere : label.isElsewhere with
  | true => exact h
  | false =>
    refine h.transact (storedStep_spares w.database label helsewhere) rfl rfl rfl
      fun row hm hrenewed clock hs => ?_
    -- What the condition of the step excludes.
    have hexcluded : ∀ victim, label.renews w.db victim → ¬ w.Selected victim clock := by
      intro victim hvictim hselected
      cases label with
      | created | restored | accepted | blocked =>
        obtain ⟨rfl, hfree⟩ := hvictim
        have hstored := hmeets clock hselected
        rw [hfree] at hstored
        cases hstored
      | _ => exact hvictim
    exact absurd hs (hexcluded _ hrenewed)

theorem Due.step (h : w.Due) {label : PurgeLabel} (hmeets : w.Meets label) :
    (w.step label).Due := by
  cases label with
  | began task batchSize clock => exact h.began task batchSize clock
  | deleted i victim =>
    unfold Purging.step
    dsimp only
    cases hi : w.statements[i]? with
    | none => exact h
    | some statement =>
      dsimp only
      split
      · exact h.reached hi ‹_›
      · exact h
  | stored label => exact h.stored hmeets
  | struck hookId remoteIp now => exact h.struck hmeets
  | checked hookId remoteIp now => exact h.checked hmeets
  | delivered event clock => exact h.delivered hmeets
  | elsewhere other =>
    have hspares : Spares (fun _ => False) w.db (w.step (.elsewhere other)).db :=
      .of_same rfl rfl rfl rfl rfl
    exact h.transact hspares rfl rfl rfl fun row _ hno => hno.elim

instance : Decidable w.OnlyEligible :=
  inferInstanceAs (Decidable (∀ purged ∈ w.purged, purged.row.eligible purged.clock = true))

/-- In every run in which no transaction renews a row that a statement has selected
and not reached, the statements delete only rows that are eligible in their latest
version. -/
theorem eligible_along {labels : List PurgeLabel} (hstatements : w.statements = [])
    (hpurged : w.purged = []) (h : Along Purging.step Meets w labels) :
    Always Purging.step OnlyEligible w labels := by
  have hnone : ∀ victim clock, ¬ w.Selected victim clock := by
    rintro victim clock ⟨statement, hm, -⟩
    rw [hstatements] at hm
    cases hm
  have hdue : w.Due := by
    refine ⟨fun row _ clock hs => absurd hs (hnone _ clock),
      fun version clock hs => absurd hs (hnone _ clock), ?_⟩
    rw [OnlyEligible, hpurged]
    exact List.forall_mem_nil _
  exact always_of_invariant (fun w label h hm => h.step hm) (fun w h => h.purged) hdue h

end Purging

-- -----------------------------------------------------------------------------
-- A hook restored and an address struck while they are purged
-- -----------------------------------------------------------------------------

namespace LateRestore

def deletedAt : Instant := Instant.hours 2

def deadline : Instant := deletedAt + Instant.days hookRecoveryDays

def row : HookRow := { StaleUpdate.row with deletedAt := some deletedAt }

def event : EventRow where
  id := ⟨1⟩
  hookId := StaleUpdate.hookId
  siliconId := row.siliconId
  siliconUuid := row.siliconUuid
  provider := row.name
  summary := "received"
  deliverySequence := 1
  request := ⟨"POST", "https://hook/", [], [], "192.0.2.1", deadline⟩
  receivedAt := deadline
  expiresAt := deadline + Instant.days logRetentionDays

/-- One strike short of a block, and quiet for thirty days. -/
def address : IpBlockRow :=
  ⟨StaleUpdate.hookId, "192.0.2.1", unverifiedRequestsPerBlock - 1, none, 0, 0⟩

def initial : Purging where
  database := ⟨{ Store.empty with
    hooks := ⟨[row], by decide⟩
    events := ⟨[event], by decide⟩
    ipBlocks := ⟨[address], by decide⟩ }, []⟩
  received _ := 0
  statements := []
  purged := []

def restore (occurredAt : Instant) : PurgeLabel := .stored (.restored {
  siliconUuid := StaleUpdate.silicon
  hookId := StaleUpdate.hookId
  idempotency := ⟨"hook.restore", row.createdBy, StaleUpdate.hookId.uuid.hyphenated, "k1", []⟩
  response := ⟨200, some StaleUpdate.hookId, none, none⟩
  auditActor := row.createdBy
  occurredAt := occurredAt })

/-- A restoration at the last instant commits before the purge reaches the hook. -/
def restoring : List PurgeLabel :=
  [.began .expiredHooks 1 (deadline + 1), restore deadline,
    .deleted 0 (.hook StaleUpdate.hookId)]

/-- The strike that blocks the address commits before the purge reaches its row. -/
def restriking : List PurgeLabel :=
  [.began .staleIpBlocks 1 (deadline + 1), .struck StaleUpdate.hookId "192.0.2.1" (deadline + 1),
    .deleted 0 (.ipBlock StaleUpdate.hookId "192.0.2.1")]

/-- A restoration past the window is refused. -/
theorem refused_along : Always Purging.step Purging.OnlyEligible initial
    [.began .expiredHooks 1 (deadline + 1), restore (deadline + 1),
      .deleted 0 (.hook StaleUpdate.hookId)] :=
  Purging.eligible_along rfl rfl ⟨trivial, fun _ _ => by decide +kernel, trivial, trivial⟩

end LateRestore

open LateRestore in
theorem renewed_rows_purged :
    ((run Purging.step initial (restoring.take 2)).db.hooks.find StaleUpdate.hookId).map
        HookRow.deletedAt = some none ∧
      (run Purging.step initial restoring).db.hooks.find StaleUpdate.hookId = none ∧
      (run Purging.step initial restoring).db.events.find event.id = none ∧
      ¬ Always Purging.step Purging.OnlyEligible initial restoring ∧
      (run Purging.step initial (restriking.take 2)).db.addressState StaleUpdate.hookId
        "192.0.2.1" = ⟨0, some (deadline + 1 + blockDuration)⟩ ∧
      (run Purging.step initial restriking).db.addressState StaleUpdate.hookId "192.0.2.1" =
        .default ∧
      ¬ Always Purging.step Purging.OnlyEligible initial restriking := by
  refine ⟨by decide +kernel, by decide +kernel, by decide +kernel, fun h => ?_, by decide +kernel,
    by decide +kernel, fun h => ?_⟩
  · have hnot : ¬ (run Purging.step initial restoring).OnlyEligible := by decide +kernel
    exact hnot h.run
  · have hnot : ¬ (run Purging.step initial restriking).OnlyEligible := by decide +kernel
    exact hnot h.run

end SiliconHook
