import SiliconHook.Store.AccountsEvents

/-!
# Learning of a deletion

An account's deletion reaches Hook as an `account.deleted` event or as the
answer of a lookup. The lookup marks the account's row and leaves the rest as it
was: the two agree exactly where there is nothing else to remove.
-/

namespace SiliconHook

variable {db : Store} {uuid : AccountUuid}

def Store.lifecycle (db : Store) (hook : HookId) : Option (Option Instant × Option Instant) :=
  (db.hooks.find hook).map fun row => (row.disabledAt, row.deletedAt)

structure Store.Unmentioned (db : Store) (uuid : AccountUuid) : Prop where
  grants : ∀ row ∈ db.siliconGrants.rows, row.siliconUuid ≠ uuid ∧ row.granteeUuid ≠ uuid
  allowances : ∀ row ∈ db.siliconAllowances.rows, row.siliconUuid ≠ uuid ∧ row.allowedUuid ≠ uuid
  subscriptions : ∀ row ∈ db.observerSubscriptions.rows,
    row.siliconUuid ≠ uuid ∧ row.recipientUuid ≠ uuid

/-- The account's row is a deleted one without personal details. -/
def Store.Erased (db : Store) (uuid : AccountUuid) : Prop :=
  ∃ row, db.accounts.find uuid = some row ∧ row.deletedAt.isSome ∧ row.publicId = none ∧
    row.displayName = none ∧ row.pfpUrl = none

structure DeletionsAgree (uuid : AccountUuid) (byLookup byEvent : Store) : Prop where
  account : byLookup.accounts.find uuid = byEvent.accounts.find uuid
  grants : byLookup.siliconGrants = byEvent.siliconGrants
  allowances : byLookup.siliconAllowances = byEvent.siliconAllowances
  subscriptions : byLookup.observerSubscriptions = byEvent.observerSubscriptions
  sends : byLookup.tingOutbox = byEvent.tingOutbox
  hooks : ∀ hook, byLookup.lifecycle hook = byEvent.lifecycle hook
  erased : byLookup.Erased uuid ∧ byEvent.Erased uuid
  unmentioned : byLookup.Unmentioned uuid ∧ byEvent.Unmentioned uuid

/-- There is nothing to remove but the account's public id: no name or picture
is stored, nothing mentions it, and it is a Carbon or has no live hook. -/
structure Store.Bare (db : Store) (uuid : AccountUuid) : Prop where
  displayName : (db.accountRow uuid).displayName = none
  pfpUrl : (db.accountRow uuid).pfpUrl = none
  unmentioned : db.Unmentioned uuid
  hooks : (db.accountRow uuid).kind ≠ some .carbon → ∀ row ∈ db.hooks.rows,
    row.siliconUuid = some uuid → row.deletedAt.isSome

-- -----------------------------------------------------------------------------
-- The two answers
-- -----------------------------------------------------------------------------

theorem find_recordAccountDeletedByLookup (db : Store) (u v : AccountUuid) (at' : Instant) :
    (recordAccountDeletedByLookup u at' db).accounts.find v =
      if v = u then some { (db.accountRow u).revokeBefore at' with
        deletedAt := (db.accountRow u).deletedAt <|> some at', publicId := none }
      else db.accounts.find v :=
  find_upsert_blank (f := fun row => { row.revokeBefore at' with
    deletedAt := row.deletedAt <|> some at', publicId := none })

theorem deleted_eq (db : Store) (uuid : AccountUuid) (at' clock : Instant) :
    deleted uuid at' clock db =
      if (db.accountRow uuid).kind = some .carbon then
        deleteAccess uuid (deleteAccountRow uuid at' db)
      else deleteHooks uuid clock (deleteAccess uuid (deleteAccountRow uuid at' db)) := by
  have hfind : (deleteAccess uuid (deleteAccountRow uuid at' db)).accounts.find uuid =
      some ((db.accountRow uuid).markDeleted at') := by
    have h := find_deleted db uuid uuid at' clock
    rw [if_pos rfl, deleted_accounts] at h
    exact h
  have hkind : ((db.accountRow uuid).markDeleted at').kind = (db.accountRow uuid).kind := rfl
  simp only [deleted, hfind, Option.any_some, decide_eq_true_eq, hkind]

theorem deleteHooks_lifecycle (clock : Instant) (hook : HookId) :
    (deleteHooks uuid clock db).lifecycle hook = (db.hooks.find hook).map fun row =>
      if row.siliconUuid = some uuid ∧ row.deletedAt = none then
        (none, some (max row.createdAt clock))
      else (row.disabledAt, row.deletedAt) := by
  simp only [Store.lifecycle, deleteHooks, Table.find_update, Option.map_map]
  congr 1
  funext row
  by_cases h : row.siliconUuid = some uuid ∧ row.deletedAt = none
  · simp [h]
  · simp only [Function.comp, Bool.and_eq_true, decide_eq_true_eq, Option.isNone_iff_eq_none, h,
      if_false]

/-- The event deletes no hook exactly where every hook of the account already is. -/
theorem deleteHooks_lifecycle_iff (clock : Instant) :
    (∀ hook, db.lifecycle hook = (deleteHooks uuid clock db).lifecycle hook) ↔
      ∀ row ∈ db.hooks.rows, row.siliconUuid = some uuid → row.deletedAt.isSome := by
  simp only [deleteHooks_lifecycle]
  simp only [Store.lifecycle]
  constructor
  · intro h row hm hs
    have hrow := h row.id
    have hfind : db.hooks.find row.id = some row := Table.mem_rows.mp hm
    rw [hfind] at hrow
    by_contra hn
    simp only [Bool.not_eq_true, Option.isSome_eq_false_iff, Option.isNone_iff_eq_none] at hn
    simp [hs, hn] at hrow
  · intro h hook
    cases hf : db.hooks.find hook with
    | none => rfl
    | some row =>
      have hrow := h row (Table.find_some.mp hf).1
      have hkeeps : ¬(row.siliconUuid = some uuid ∧ row.deletedAt = none) := by
        rintro ⟨hs, hd⟩
        simp [hd] at hrow
        exact hrow hs
      simp [hkeeps]

theorem deleteAccess_eq (h : db.Unmentioned uuid) : deleteAccess uuid db = db := by
  have hgrants : (db.siliconGrants.delete fun row =>
      row.siliconUuid = uuid || row.granteeUuid = uuid) = db.siliconGrants :=
    Table.delete_eq_self.mpr fun row hm => by simp [h.grants row hm]
  have hallowances : (db.siliconAllowances.delete fun row =>
      row.siliconUuid = uuid || row.allowedUuid = uuid) = db.siliconAllowances :=
    Table.delete_eq_self.mpr fun row hm => by simp [h.allowances row hm]
  unfold deleteAccess
  rw [hgrants, hallowances]
  refine Store.deleteSubscriptions_none fun row hm => ?_
  simp [h.subscriptions row hm]

-- -----------------------------------------------------------------------------
-- Agreement
-- -----------------------------------------------------------------------------

/-- The event path after its dedupe row; the lookup path has none. -/
theorem deletions_agree (at' clock : Instant) (recorded : Table AccountsEventRow) :
    DeletionsAgree uuid (recordAccountDeletedByLookup uuid at' db)
      (deleted uuid at' clock { db with accountsEvents := recorded }) ↔ db.Bare uuid := by
  have hlookup := find_recordAccountDeletedByLookup db uuid uuid at'
  have hevent := find_deleted { db with accountsEvents := recorded } uuid uuid at' clock
  rw [if_pos rfl] at hlookup hevent
  have hrow : Store.accountRow { db with accountsEvents := recorded } uuid =
      db.accountRow uuid := rfl
  rw [hrow] at hevent
  have heq := deleted_eq { db with accountsEvents := recorded } uuid at' clock
  rw [hrow] at heq
  constructor
  · intro h
    have haccount := h.account
    rw [hlookup, hevent, Option.some.injEq] at haccount
    obtain ⟨⟨hgrants, hallowances, hsubscriptions⟩, -⟩ := h.unmentioned
    refine ⟨?_, ?_, ⟨hgrants, hallowances, hsubscriptions⟩, ?_⟩
    · exact congrArg AccountRow.displayName haccount
    · exact congrArg AccountRow.pfpUrl haccount
    · intro hkind
      have hhooks := h.hooks
      rw [heq, if_neg hkind] at hhooks
      exact (deleteHooks_lifecycle_iff clock).mp hhooks
  · intro h
    -- the rows of nobody are removed, so only the account's own row changes
    have haccess : deleteAccess uuid
        (deleteAccountRow uuid at' { db with accountsEvents := recorded }) =
          deleteAccountRow uuid at' { db with accountsEvents := recorded } :=
      deleteAccess_eq ⟨h.unmentioned.grants, h.unmentioned.allowances, h.unmentioned.subscriptions⟩
    rw [haccess] at heq
    have hsame : { (db.accountRow uuid).revokeBefore at' with
        deletedAt := (db.accountRow uuid).deletedAt <|> some at', publicId := none } =
        (db.accountRow uuid).markDeleted at' := by
      simp only [AccountRow.markDeleted, AccountRow.revokeBefore, h.displayName, h.pfpUrl]
    have hdeleted : ((db.accountRow uuid).markDeleted at').deletedAt.isSome := by
      simp [AccountRow.markDeleted]
    have herased : (deleted uuid at' clock { db with accountsEvents := recorded }).Erased uuid :=
      ⟨_, hevent, hdeleted, rfl, rfl, rfl⟩
    have hunmentioned :
        (deleted uuid at' clock { db with accountsEvents := recorded }).Unmentioned uuid := by
      rw [heq]
      split <;> exact ⟨h.unmentioned.grants, h.unmentioned.allowances,
        h.unmentioned.subscriptions⟩
    have hhooks : ∀ hook, (recordAccountDeletedByLookup uuid at' db).lifecycle hook =
        (deleted uuid at' clock { db with accountsEvents := recorded }).lifecycle hook := by
      rw [heq]
      split
      · exact fun hook => rfl
      · rename_i hkind
        exact (deleteHooks_lifecycle_iff clock).mpr (h.hooks hkind)
    rw [hsame] at hlookup
    refine ⟨hlookup.trans hevent.symm, ?_, ?_, ?_, ?_, hhooks, ⟨?_, herased⟩, ?_, hunmentioned⟩
    · rw [heq]
      split <;> rfl
    · rw [heq]
      split <;> rfl
    · rw [heq]
      split <;> rfl
    · rw [heq]
      split <;> rfl
    · exact ⟨_, hlookup, hdeleted, rfl, rfl, rfl⟩
    · exact ⟨h.unmentioned.grants, h.unmentioned.allowances, h.unmentioned.subscriptions⟩

/-- A deletion found by a lookup leaves what an applied `account.deleted` event
leaves exactly where the account had nothing else for the event to remove. -/
theorem deletion_paths_agree_iff {event : AccountsEvent} (clock : Instant)
    (hchange : event.change = .deleted uuid) (ha : event.Admitted db) :
    DeletionsAgree uuid (recordAccountDeletedByLookup uuid event.occurredAt db)
      (deliver event clock db) ↔ db.Bare uuid := by
  obtain ⟨recorded, -, heq⟩ := deliver_admitted clock ha
  rw [heq, hchange]
  exact deletions_agree event.occurredAt clock recorded

namespace SharedSilicon

def silicon : AccountUuid := ⟨"SiShared", by decide⟩
def grantee : AccountUuid := ⟨"CaGuest", by decide⟩

def event : AccountsEvent := ⟨"evt-1", "account.deleted", 10, .deleted silicon⟩

def shared : Store :=
  { Store.empty with siliconGrants := ⟨[⟨silicon, grantee, .manage, grantee⟩], by decide⟩ }

/-- The lookup leaves the Carbon's grant on the deleted Silicon. -/
theorem lookup_keeps_grant :
    event.Admitted shared ∧ ¬ DeletionsAgree silicon
      (recordAccountDeletedByLookup silicon 10 shared) (deliver event 11 shared) := by
  refine ⟨by decide, fun h => ?_⟩
  have hgrants := h.grants
  revert hgrants
  decide

def deletedHook : HookRow where
  id := ⟨1⟩
  siliconId := .fromAccountUuid silicon
  siliconUuid := some silicon
  endpointKey := ⟨"AAAAAAA8", by decide⟩
  name := ⟨"closed", by decide⟩
  description := none
  signing := ⟨false, .default, none⟩
  timeZone := ⟨"UTC"⟩
  isAccountsDefault := false
  createdBy := .account .silicon silicon
  createdAt := 0
  disabledAt := none
  deletedAt := some 5
  lastReceivedAt := none
  lastBlockedAt := none
  endpointRotatedAt := none

def other : AccountUuid := ⟨"SiOther", by decide⟩

/-- The Silicon's one hook is deleted, and the Carbon's grant is on another Silicon. -/
def unshared : Store := { Store.empty with
  accounts := ⟨[{ AccountRow.blank silicon with
    kind := some .silicon
    publicId := some ⟨"si:shared", .silicon, by decide⟩
    publicIdAt := some 1 }], by decide⟩
  hooks := ⟨[deletedHook], by decide⟩
  siliconGrants := ⟨[⟨other, grantee, .manage, grantee⟩], by decide⟩
  siliconAllowances := ⟨[⟨other, grantee, grantee⟩], by decide⟩ }

theorem unshared_bare : unshared.Bare silicon := by
  refine ⟨rfl, rfl, ⟨?_, ?_, ?_⟩, ?_⟩
  · intro row hm
    obtain rfl := List.mem_singleton.mp hm
    decide
  · intro row hm
    obtain rfl := List.mem_singleton.mp hm
    decide
  · intro row hm
    cases hm
  · intro _ row hm _
    obtain rfl := List.mem_singleton.mp hm
    rfl

theorem unshared_agree : DeletionsAgree silicon
    (recordAccountDeletedByLookup silicon 10 unshared) (deliver event 11 unshared) :=
  (deletion_paths_agree_iff 11 rfl (show event.Admitted unshared by decide)).mpr unshared_bare

end SharedSilicon

end SiliconHook
