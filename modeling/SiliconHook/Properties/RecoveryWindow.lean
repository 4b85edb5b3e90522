import SiliconHook.Application.Lifecycle
import SiliconHook.Store.History
import SiliconHook.Properties.PolicyUpdates

/-!
# The recovery window

The comparisons that say whether a deleted hook can still be recovered, forwards
from its deletion and backwards from now, put every instant on the same side.
-/

namespace SiliconHook

variable {hook : Hook} {row : HookRow} {t : Instant} {owner : AccountUuid} {db : Store}

theorem cutoff_le_iff {deletedAt : Instant} :
    t - Instant.days hookRecoveryDays ≤ deletedAt ↔ t ≤ deletedAt + Instant.days hookRecoveryDays :=
  ⟨Int.le_add_of_sub_right_le, Int.sub_right_le_of_le_add⟩

theorem isRetainedAt_row (hs : hook.snapshot = row.snapshot) :
    hook.isRetainedAt t = row.deletedAt.all fun deletedAt =>
      decide (t - Instant.days hookRecoveryDays ≤ deletedAt) := by
  have hdeleted : hook.snapshot.deletedAt = row.deletedAt := congrArg HookSnapshot.deletedAt hs
  rw [Hook.isRetainedAt, hdeleted]
  exact congrArg (row.deletedAt.all ·) (funext fun deletedAt =>
    decide_eq_decide.mpr cutoff_le_iff.symm)

theorem retainedHook_eq (hs : hook.snapshot = row.snapshot) (ho : row.siliconUuid = some owner) :
    retainedHook owner t row = hook.isRetainedAt t := by
  rw [isRetainedAt_row hs, retainedHook, ho, decide_eq_true rfl, Bool.true_and]
  rfl

theorem listedHook_eq (hs : hook.snapshot = row.snapshot) (ho : row.siliconUuid = some owner) :
    listedHook owner true t row = hook.isRetainedAt t := by
  rw [← retainedHook_eq hs ho]
  simp only [listedHook, retainedHook, Bool.true_and]

theorem historyHook_eq (hs : hook.snapshot = row.snapshot) (ho : row.siliconUuid = some owner) :
    historyHook owner t row = hook.isRetainedAt t := by
  rw [isRetainedAt_row hs, historyHook, ho, decide_eq_true rfl, Bool.true_and]

theorem expired_eq (hs : hook.snapshot = row.snapshot) :
    row.expired t = !hook.isRetainedAt t := by
  rw [isRetainedAt_row hs, HookRow.expired]
  cases row.deletedAt with
  | none => rfl
  | some deletedAt =>
    show decide _ = !decide _
    rw [← decide_not]
    exact decide_eq_decide.mpr Int.not_le.symm

theorem mem_expiredHooks {k : HookId} {batchSize : Nat}
    (hbatch : (db.hooks.select (·.expired t)).length ≤ batchSize) :
    k ∈ db.expiredHooks batchSize t ↔ ∃ row ∈ db.hooks.rows, row.id = k ∧ row.expired t = true := by
  unfold Store.expiredHooks
  rw [List.take_of_length_le (by rwa [List.length_insertionSort]), List.mem_map]
  constructor
  · rintro ⟨row, hm, rfl⟩
    obtain ⟨hrow, hexpired⟩ := List.mem_filter.mp ((List.mem_insertionSort _).mp hm)
    exact ⟨row, hrow, rfl, hexpired⟩
  · rintro ⟨row, hrow, rfl, hexpired⟩
    exact ⟨row, (List.mem_insertionSort _).mpr (List.mem_filter.mpr ⟨hrow, hexpired⟩), rfl⟩

theorem expired_of_mem {k : HookId} {batchSize : Nat} (h : k ∈ db.expiredHooks batchSize t) :
    ∃ row ∈ db.hooks.rows, row.id = k ∧ row.expired t = true := by
  unfold Store.expiredHooks at h
  obtain ⟨row, hm, rfl⟩ := List.mem_map.mp h
  obtain ⟨hrow, hexpired⟩ := List.mem_filter.mp
    ((List.mem_insertionSort _).mp (List.mem_of_mem_take hm))
  exact ⟨row, hrow, rfl, hexpired⟩

theorem mem_listHooks {includeDeleted : Bool} {hooks : List Hook}
    (h : listHooks owner includeDeleted t db = .ok hooks) :
    hook ∈ hooks ↔ ∃ row ∈ db.hooks.rows, row.toHook = .ok hook ∧
      listedHook owner includeDeleted t row = true := by
  unfold listHooks at h
  dsimp only at h
  split at h
  · cases h
  · rename_i hcount
    rw [List.length_take, List.length_insertionSort] at hcount
    have hall : (db.hooks.select (listedHook owner includeDeleted t)).length ≤
        maxRetainedHooksPerSilicon + 1 := by omega
    rw [List.take_of_length_le (by rwa [List.length_insertionSort]), Except.mapM_ok] at h
    constructor
    · intro hm
      obtain ⟨row, hrow, hlisted⟩ := exists_mem_of_forall₂ h.flip hm
      obtain ⟨hstored, hselected⟩ := List.mem_filter.mp ((List.mem_insertionSort _).mp hrow)
      exact ⟨row, hstored, hlisted, hselected⟩
    · rintro ⟨row, hstored, hlisted, hselected⟩
      have hrow := (List.mem_insertionSort (r := fun a b : HookRow => b.createdAt < a.createdAt ∨
        b.createdAt = a.createdAt ∧ b.id.uuid ≤ a.id.uuid)).mpr
          (List.mem_filter.mpr ⟨hstored, hselected⟩)
      obtain ⟨listed, hm, heq⟩ := exists_mem_of_forall₂ h hrow
      cases heq.symm.trans hlisted
      exact hm

-- -----------------------------------------------------------------------------
-- Restoration
-- -----------------------------------------------------------------------------

theorem status_of_deletedAt {deletedAt : Instant} (h : hook.snapshot.deletedAt = some deletedAt) :
    hook.status = .deleted := by
  have hlife := hook.lifecycle
  rw [HookSnapshot.lifecycleIsConsistent, h] at hlife
  rw [Hook.status]
  split at hlife <;> simp_all

theorem restore_iff {deletedAt : Instant} (h : hook.snapshot.deletedAt = some deletedAt)
    (hpast : deletedAt ≤ t) :
    (∃ restored, hook.restore t = .ok restored) ↔ hook.isRetainedAt t = true := by
  have hinside : hook.isRetainedAt t = true ↔ ¬ deletedAt + Instant.days hookRecoveryDays < t := by
    rw [Hook.isRetainedAt, h, Option.all_some, decide_eq_true_eq]
    exact Int.not_lt.symm
  rw [hinside, Hook.restore, if_neg (not_not.mpr (status_of_deletedAt h))]
  simp only [h]
  constructor
  · rintro ⟨restored, hrestored⟩ hexpired
    rw [if_pos hexpired] at hrestored
    cases hrestored
  · intro hopen
    rw [if_neg hopen, if_neg (Int.not_lt.mpr hpast)]
    exact ⟨_, rfl⟩

theorem mapStoreError_ne_recoveryExpired (e : StoreError) :
    mapStoreError e ≠ .recoveryExpired := by
  cases e <;> exact ApplicationError.noConfusion

theorem storeCall_ne_recoveryExpired {α : Type} {call : Database → Except StoreError (α × Database)}
    {database : Database} : (storeCall call database).1 ≠ .error .recoveryExpired := by
  intro h
  unfold storeCall Program.transact liftStore at h
  dsimp only at h
  cases hc : call database with
  | ok written =>
    rw [hc] at h
    cases h
  | error e =>
    rw [hc] at h
    exact mapStoreError_ne_recoveryExpired e (Except.error.inj h)

/-- The application says that the recovery has expired exactly for a hook past its window. -/
theorem restoreHook_expired_iff {command : HookMutationCommand} {database : Database}
    (hload : loadForMutation command.context.authorization command.hookId .restoreHook database.db =
      .ok hook) :
    (HookApplication.restoreHook command t database).1 = .error .recoveryExpired ↔
      hook.isRetainedAt t = false := by
  have hquery : query (loadForMutation command.context.authorization command.hookId .restoreHook)
      database = (.ok hook, database) := congrArg (·, database) hload
  rw [HookApplication.restoreHook, Program.bind_answers hquery]
  constructor
  · intro hexpired
    rcases Program.bind_error (Prod.ext hexpired rfl) with hcheck | ⟨_, _, -, hstored⟩
    · obtain ⟨hpast, -⟩ := ensure_error.mp (Program.lift_eq hcheck).1
      exact eq_false_of_ne_true hpast
    · rcases Program.bind_error hstored with hcall | ⟨outcome, _, -, hanswer⟩
      · exact absurd (congrArg Prod.fst hcall) storeCall_ne_recoveryExpired
      · cases outcome <;> cases hanswer
  · intro hpast
    have hcheck : ensure (hook.snapshot.deletedAt.all fun deletedAt =>
        decide (t ≤ deletedAt + Instant.days hookRecoveryDays)) ApplicationError.recoveryExpired =
          .error .recoveryExpired := by
      rw [Hook.isRetainedAt] at hpast
      rw [ensure_error, hpast]
      exact ⟨Bool.false_ne_true, rfl⟩
    rw [hcheck]
    rfl

-- -----------------------------------------------------------------------------
-- All of them
-- -----------------------------------------------------------------------------

/-- What every part of the service decides about a stored hook: `retained` says whether
it can still be recovered at the instant. -/
structure WindowDecisions (db : Store) (row : HookRow) (hook : Hook) (t : Instant)
    (retained : Prop) : Prop where
  /-- The hook itself. -/
  domain : hook.isRetainedAt t = true ↔ retained
  /-- A purge takes no retained hook, and every other one it has room for. -/
  spared : ∀ batchSize, row.id ∈ db.expiredHooks batchSize t → ¬ retained
  purged : ∀ batchSize, (db.hooks.select (·.expired t)).length ≤ batchSize →
    (row.id ∉ db.expiredHooks batchSize t ↔ retained)
  listed : ∀ siliconUuid, row.siliconUuid = some siliconUuid →
    ∀ hooks, listHooks siliconUuid true t db = .ok hooks → (hook ∈ hooks ↔ retained)
  counted : ∀ siliconUuid, row.siliconUuid = some siliconUuid →
    (row ∈ db.hooks.select (retainedHook siliconUuid t) ↔ retained)
  /-- The histories, for a request that is not expired. -/
  events : ∀ siliconUuid, row.siliconUuid = some siliconUuid →
    ∀ event ∈ db.events.rows, event.hookId = row.id → t < event.expiresAt →
      ∀ record, event.toRecord = .ok record → ∀ size,
        Shows (fun request => listEvents size request t db) siliconUuid record ↔ retained
  blockedRequests : ∀ siliconUuid, row.siliconUuid = some siliconUuid →
    ∀ blocked ∈ db.blockedRequests.rows, blocked.hookId = row.id → t < blocked.expiresAt →
      ∀ record, blocked.toRecord = .ok record → ∀ size,
        Shows (fun request => listBlockedRequests size request t db) siliconUuid record ↔ retained
  event : ∀ siliconUuid, row.siliconUuid = some siliconUuid →
    ∀ event ∈ db.events.rows, event.hookId = row.id → t < event.expiresAt →
      ∀ record, event.toRecord = .ok record →
        (getEvent siliconUuid event.id t db = .ok (some record) ↔ retained)
  /-- The two checks of a restoration, once the hook is deleted. -/
  restored : ∀ deletedAt, hook.snapshot.deletedAt = some deletedAt → deletedAt ≤ t →
    ((∃ restored, hook.restore t = .ok restored) ↔ retained)
  allowed : ∀ deletedAt, hook.snapshot.deletedAt = some deletedAt → deletedAt ≤ t →
    ∀ (command : HookMutationCommand) (database : Database), database.db = db →
      loadForMutation command.context.authorization command.hookId .restoreHook db = .ok hook →
        ((HookApplication.restoreHook command t database).1 ≠ .error .recoveryExpired ↔ retained)

/-- At every instant every part of the service puts a hook on the same side of the window. -/
theorem recovery_window_agrees (hrow : row ∈ db.hooks.rows) (hstored : row.toHook = .ok hook)
    (t : Instant) : WindowDecisions db row hook t (hook.isRetainedAt t = true) := by
  have hs : hook.snapshot = row.snapshot := HookRow.toHook_ok.mp hstored
  have hfind : db.hooks.find row.id = some row := Table.find_some.mpr ⟨hrow, rfl⟩
  have hvictim : ∀ {other : HookRow}, other ∈ db.hooks.rows → other.id = row.id → other = row :=
    fun hother hid => Table.eq_of_key hother hrow hid
  have hjoined : ∀ {owner}, row.siliconUuid = some owner → ∀ {k}, k = row.id →
      ((db.hooks.find k).any (historyHook owner t) = true ↔ hook.isRetainedAt t = true) := by
    rintro owner ho _ rfl
    rw [hfind, Option.any_some, historyHook_eq hs ho]
  refine {
    domain := Iff.rfl
    spared := ?_
    purged := ?_
    listed := ?_
    counted := ?_
    events := ?_
    blockedRequests := ?_
    event := ?_
    restored := fun _ hdeleted hpast => restore_iff hdeleted hpast
    allowed := ?_ }
  · intro batchSize hm hretained
    obtain ⟨other, hother, hid, hexpired⟩ := expired_of_mem hm
    rw [hvictim hother hid, expired_eq hs, hretained] at hexpired
    cases hexpired
  · intro batchSize hbatch
    rw [mem_expiredHooks hbatch]
    constructor
    · intro hspared
      by_contra hpast
      refine hspared ⟨row, hrow, rfl, ?_⟩
      rw [expired_eq hs, eq_false_of_ne_true hpast]
      rfl
    · rintro hretained ⟨other, hother, hid, hexpired⟩
      rw [hvictim hother hid, expired_eq hs, hretained] at hexpired
      cases hexpired
  · intro owner ho hooks hlist
    rw [mem_listHooks hlist]
    constructor
    · rintro ⟨other, hother, hsame, hlisted⟩
      have hsnapshot := HookRow.toHook_ok.mp hsame
      have hid : other.id = row.id :=
        congrArg HookSnapshot.id (hsnapshot.symm.trans hs)
      rwa [hvictim hother hid, listedHook_eq hs ho] at hlisted
    · intro hretained
      exact ⟨row, hrow, hstored, (listedHook_eq hs ho).trans hretained⟩
  · intro owner ho
    rw [Table.select, List.mem_filter, retainedHook_eq hs ho]
    exact and_iff_right hrow
  · intro owner ho event hevent hhook hlive record hrecord size
    rw [← hjoined ho hhook]
    refine shows_iff hevent hrecord hlive ?_ ?_
    · intro other hother hid
      exact Table.eq_of_key hother hevent (congrArg EventId.mk hid)
    · intro other _ hsame
      exact (EventRow.hookId_toRecord hsame).symm.trans (EventRow.hookId_toRecord hrecord)
  · intro owner ho blocked hblocked hhook hlive record hrecord size
    rw [← hjoined ho hhook]
    refine shows_iff hblocked hrecord hlive ?_ ?_
    · intro other hother hid
      exact Table.eq_of_key hother hblocked (congrArg BlockedRequestId.mk hid)
    · intro other _ hsame
      cases hrecord
      exact congrArg BlockedRequest.hookId (Except.ok.inj hsame)
  · intro owner ho event hevent hhook hlive record hrecord
    have hfound : db.events.find event.id = some event := Table.find_some.mpr ⟨hevent, rfl⟩
    rw [← hjoined ho hhook, getEvent, hfound, Option.filter_some, decide_eq_true hlive, Bool.and_true]
    cases hany : (db.hooks.find event.hookId).any (historyHook owner t) with
    | false => exact iff_of_false (fun h => by cases h) Bool.false_ne_true
    | true => exact iff_of_true (congrArg (Except.map some) hrecord) rfl
  · rintro deletedAt hdeleted hpast command database rfl hload
    rw [Ne, restoreHook_expired_iff hload, Bool.not_eq_false]

namespace LastInstant

def expiring : HookRow :=
  { StaleUpdate.row with createdAt := 10, deletedAt := some (Instant.hours 1) }

def remembered : Hook := ⟨expiring.snapshot, rfl, rfl, by decide, rfl⟩

def database : Store := { Store.empty with hooks := ⟨[expiring], by decide⟩ }

/-- The last instant of the window. -/
theorem still_retained : WindowDecisions database expiring remembered
    (Instant.hours 1 + Instant.days hookRecoveryDays)
    (remembered.isRetainedAt (Instant.hours 1 + Instant.days hookRecoveryDays) = true) :=
  recovery_window_agrees List.mem_cons_self (HookRow.toHook_ok.mpr rfl) _

end LastInstant

end SiliconHook
