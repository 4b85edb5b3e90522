import SiliconHook.Store.Access
import SiliconHook.Library.LastWriter

/-!
# Cached accounts

What Hook records about Silicon Accounts accounts from verified tokens and from
lookups. Every statement inserts the account it names or updates its row.
-/

namespace SiliconHook

structure AccountView where
  uuid : AccountUuid
  kind : ActorKind
  publicId : Option PublicId
  custodian : Option (AccountUuid × Option PublicId)
  deriving DecidableEq

def Store.account (db : Store) (uuid : AccountUuid) : Option AccountRow :=
  (db.accounts.find uuid).filter fun row => row.kind.isSome

/-- A public id stays usable in URLs once seen. -/
def rememberPublicId (uuid : AccountUuid) (publicId : PublicId) (db : Store) : Store :=
  { db with accountIds := db.accountIds.insertOrKeep ⟨uuid, publicId⟩ }

def rememberPublicId? (uuid : AccountUuid) (publicId : Option PublicId) (db : Store) : Store :=
  match publicId with
  | none => db
  | some publicId => rememberPublicId uuid publicId db

-- -----------------------------------------------------------------------------
-- Columns
-- -----------------------------------------------------------------------------

/-- The kind, where none is stored. -/
def AccountRow.learnKind (row : AccountRow) (kind : ActorKind) : AccountRow :=
  { row with kind := row.kind <|> some kind }

/-- The public id, where it is later than the stored one. -/
def AccountRow.advancePublicId (row : AccountRow) (publicId : Option PublicId) (at' : Instant) :
    AccountRow :=
  if row.deletedAt.isNone && publicId.isSome && row.publicIdAt.all (· < at') then
    { row with publicId := publicId, publicIdAt := some at' }
  else row

/-- Tokens issued before the instant are refused from now on. -/
def AccountRow.revokeBefore (row : AccountRow) (at' : Instant) : AccountRow :=
  { row with revokedBefore := HighWater.raise row.revokedBefore at' }

def AccountRow.known (uuid : AccountUuid) (kind : ActorKind) (publicId : Option PublicId)
    (at' : Instant) : AccountRow :=
  { AccountRow.blank uuid with
    kind := some kind, publicId := publicId, publicIdAt := publicId.map fun _ => at' }

variable {row : AccountRow}

@[simp]
theorem AccountRow.advancePublicId_uuid (publicId : Option PublicId) (at' : Instant) :
    (row.advancePublicId publicId at').uuid = row.uuid := by
  unfold advancePublicId
  split <;> rfl

theorem AccountRow.observe_key (kind : ActorKind) (publicId : Option PublicId) (at' : Instant)
    (row : AccountRow) :
    Keyed.key ((row.learnKind kind).advancePublicId publicId at') = Keyed.key row :=
  advancePublicId_uuid publicId at'

-- -----------------------------------------------------------------------------
-- Statements
-- -----------------------------------------------------------------------------

/-- Makes sure a referenced account exists; a stored public id only moves
forward in time. -/
def upsertKnownAccount (uuid : AccountUuid) (kind : ActorKind) (publicId : Option PublicId)
    (at' : Instant) (db : Store) : Store :=
  rememberPublicId? uuid publicId { db with
    accounts := db.accounts.upsert (.known uuid kind publicId at')
      (fun row => (row.learnKind kind).advancePublicId publicId at')
      (AccountRow.observe_key kind publicId at') }

/-- Reference to a custodian, always a Carbon. -/
def upsertCustodian (custodian : Option (AccountUuid × Option PublicId)) (at' : Instant)
    (db : Store) : Store :=
  match custodian with
  | none => db
  | some (custodian, custodianId) => upsertKnownAccount custodian .carbon custodianId at' db

def observeTokenAccount (uuid : AccountUuid) (kind : ActorKind) (publicId : Option PublicId)
    (issuedAt : Instant) (db : Store) : AccountRow × Store :=
  (db.accounts.upserted (.known uuid kind publicId issuedAt)
    (fun row => (row.learnKind kind).advancePublicId publicId issuedAt),
    upsertKnownAccount uuid kind publicId issuedAt db)

def AccountRow.ofView (view : AccountView) (at' : Instant) : AccountRow :=
  { AccountRow.blank view.uuid with
    kind := some view.kind
    publicId := view.publicId
    publicIdAt := some at'
    custodianUuid := view.custodian.map Prod.fst
    custodianCheckedAt := if view.kind = .silicon then some at' else none }

/-- A stored row after a lookup answer: all but a deletion and the kind is
overwritten, whatever its age. -/
def AccountRow.applyView (row : AccountRow) (view : AccountView) (at' : Instant) : AccountRow :=
  if row.deletedAt.isSome then row.learnKind view.kind
  else
    let row := { row.learnKind view.kind with
      publicId := view.publicId <|> row.publicId
      publicIdAt := if view.publicId.isSome then some at' else row.publicIdAt }
    if row.kind = some .silicon then
      { row with
        custodianUuid := view.custodian.map Prod.fst
        custodianCheckedAt := some at' }
    else { row with custodianUuid := none, custodianCheckedAt := none }

theorem AccountRow.applyView_key (view : AccountView) (at' : Instant) (row : AccountRow) :
    Keyed.key (row.applyView view at') = Keyed.key row := by
  unfold applyView
  split
  · rfl
  · simp only
    split <;> rfl

def recordAccountView (view : AccountView) (at' : Instant) (db : Store) :
    Except StoreError (AccountRow × Store) :=
  let db := upsertCustodian view.custodian at' db
  -- the row proposed for insertion is checked before a conflict is looked for
  if view.kind ≠ .silicon ∧ view.custodian.isSome then
    .error (.database "accounts_only_silicons_have_custodians")
  else .ok
    (db.accounts.upserted (.ofView view at') (·.applyView view at'),
      rememberPublicId? view.uuid view.publicId { db with
        accounts := db.accounts.upsert (.ofView view at') (·.applyView view at')
          (AccountRow.applyView_key view at') })

def recordAccountDeletedByLookup (uuid : AccountUuid) (at' : Instant) (db : Store) : Store :=
  { db with
    accounts := db.accounts.upsert
      { AccountRow.blank uuid with deletedAt := some at', revokedBefore := some at' }
      (fun row => { row.revokeBefore at' with
        deletedAt := row.deletedAt <|> some at', publicId := none }) fun _ => rfl }

-- -----------------------------------------------------------------------------
-- The row of one account
-- -----------------------------------------------------------------------------

/-- The row of an account, blank where none is stored: a statement that inserts
a row leaves what it would make of the blank one. -/
def Store.accountRow (db : Store) (uuid : AccountUuid) : AccountRow :=
  (db.accounts.find uuid).getD (.blank uuid)

variable {db : Store} {u v : AccountUuid}

theorem Store.accountRow_of_find (h : db.accounts.find u = some row) : db.accountRow u = row := by
  rw [accountRow, h]
  rfl

theorem Store.accountRow_congr {db' : Store} (h : db'.accounts = db.accounts) :
    db'.accountRow u = db.accountRow u := by
  rw [accountRow, accountRow, h]

theorem Store.accountRow_uuid : (db.accountRow u).uuid = u := by
  unfold accountRow
  cases h : db.accounts.find u with
  | none => rfl
  | some row => exact Table.find_key h

/-- Columns of an account that a statement inserting or updating one row keeps. -/
theorem Store.columns_of_upsert {π : AccountRow → α} {f : AccountRow → AccountRow} {db' : Store}
    (hf : ∀ row, π (f row) = π row)
    (h : db'.accounts.find u =
      if u = v then some (f (db.accountRow v)) else db.accounts.find u) :
    π (db'.accountRow u) = π (db.accountRow u) := by
  by_cases hu : u = v
  · subst hu
    rw [if_pos rfl] at h
    rw [accountRow_of_find h, hf]
  · rw [if_neg hu] at h
    rw [accountRow, accountRow, h]

theorem Store.columns_of_update {π : AccountRow → α} {f : AccountRow → AccountRow}
    {p : AccountRow → Bool} {db' : Store}
    (h : db'.accounts.find u = (db.accounts.find u).map fun row => if p row then f row else row)
    (hf : ∀ row, π (f row) = π row) : π (db'.accountRow u) = π (db.accountRow u) := by
  rw [accountRow, accountRow, h]
  cases db.accounts.find u with
  | none => rfl
  | some row =>
    simp only [Option.map_some, Option.getD_some]
    split
    · exact hf row
    · rfl

theorem find_upsert_blank {accounts : Table AccountRow} {f : AccountRow → AccountRow}
    {hf : ∀ row, Keyed.key (f row) = Keyed.key row} :
    (accounts.upsert (f (.blank u)) f hf).find v =
      if v = u then some (f ((accounts.find u).getD (.blank u))) else accounts.find v := by
  have hk : Keyed.key (f (.blank u)) = u := hf (.blank u)
  rw [Table.find_upsert, hk]
  by_cases hv : v = u
  · subst hv
    cases accounts.find v <;> simp
  · simp [hv]

theorem AccountRow.known_eq (u : AccountUuid) (kind : ActorKind) (publicId : Option PublicId)
    (at' : Instant) : AccountRow.known u kind publicId at' =
      ((AccountRow.blank u).learnKind kind).advancePublicId publicId at' := by
  cases publicId <;> rfl

@[simp]
theorem rememberPublicId?_accounts : (rememberPublicId? u publicId db).accounts = db.accounts := by
  cases publicId <;> rfl

@[simp]
theorem rememberPublicId?_ledger :
    (rememberPublicId? u publicId db).accountsUuid128Map = db.accountsUuid128Map := by
  cases publicId <;> rfl

@[simp]
theorem upsertKnownAccount_ledger :
    (upsertKnownAccount u kind publicId at' db).accountsUuid128Map = db.accountsUuid128Map := by
  simp [upsertKnownAccount]

@[simp]
theorem upsertCustodian_ledger :
    (upsertCustodian custodian at' db).accountsUuid128Map = db.accountsUuid128Map := by
  cases custodian <;> simp [upsertCustodian]

@[simp]
theorem rememberPublicId?_accountsEvents :
    (rememberPublicId? u publicId db).accountsEvents = db.accountsEvents := by
  cases publicId <;> rfl

@[simp]
theorem upsertKnownAccount_accountsEvents :
    (upsertKnownAccount u kind publicId at' db).accountsEvents = db.accountsEvents := by
  simp [upsertKnownAccount]

@[simp]
theorem upsertCustodian_accountsEvents :
    (upsertCustodian custodian at' db).accountsEvents = db.accountsEvents := by
  cases custodian <;> simp [upsertCustodian]

theorem find_upsertKnownAccount (db : Store) (u v : AccountUuid) (kind : ActorKind)
    (publicId : Option PublicId) (at' : Instant) :
    (upsertKnownAccount u kind publicId at' db).accounts.find v =
      if v = u then some (((db.accountRow u).learnKind kind).advancePublicId publicId at')
      else db.accounts.find v := by
  simp only [upsertKnownAccount, rememberPublicId?_accounts, AccountRow.known_eq]
  exact find_upsert_blank (f := fun row => (row.learnKind kind).advancePublicId publicId at')

theorem find_upsertCustodian_ne (at' : Instant) (h : ∀ c ∈ custodian, c.1 ≠ u) :
    (upsertCustodian custodian at' db).accounts.find u = db.accounts.find u := by
  cases custodian with
  | none => rfl
  | some c =>
    have hne : u ≠ c.1 := (h c rfl).symm
    simp only [upsertCustodian, find_upsertKnownAccount, if_neg hne]

/-- Hook has seen the account use the id. -/
def Store.knows (db : Store) (uuid : AccountUuid) (publicId : PublicId) : Prop :=
  (db.accountIds.find (uuid, publicId)).isSome

theorem knows_rememberPublicId {id p : PublicId} :
    (rememberPublicId u p db).knows v id ↔ db.knows v id ∨ v = u ∧ id = p := by
  have hkey : Keyed.key (AccountIdRow.mk u p) = (u, p) := rfl
  simp only [Store.knows, rememberPublicId, Table.find_insertOrKeep, hkey, Prod.mk.injEq]
  by_cases h : v = u ∧ id = p
  · simp [h]
  · simp [h]

theorem knows_rememberPublicId? {id : PublicId} {p : Option PublicId} :
    (rememberPublicId? u p db).knows v id ↔ db.knows v id ∨ v = u ∧ p = some id := by
  cases p with
  | none => simp [rememberPublicId?]
  | some p => simp [rememberPublicId?, knows_rememberPublicId, eq_comm]

theorem knows_upsertKnownAccount {id : PublicId} {p : Option PublicId} :
    (upsertKnownAccount u kind p at' db).knows v id ↔ db.knows v id ∨ v = u ∧ p = some id := by
  rw [upsertKnownAccount, knows_rememberPublicId?]
  rfl

theorem knows_upsertCustodian_ne {id : PublicId} (at' : Instant) (h : ∀ c ∈ custodian, c.1 ≠ u) :
    (upsertCustodian custodian at' db).knows u id ↔ db.knows u id := by
  cases custodian with
  | none => rfl
  | some c =>
    have hne : u ≠ c.1 := (h c rfl).symm
    simp [upsertCustodian, knows_upsertKnownAccount, hne]

theorem recordAccountView_ok {db' : Store} :
    recordAccountView view at' db = .ok (row, db') →
      (view.kind ≠ .silicon → view.custodian = none) ∧
      db'.accounts.find view.uuid = some row ∧
      row = match (upsertCustodian view.custodian at' db).accounts.find view.uuid with
        | none => .ofView view at'
        | some stored => stored.applyView view at' := by
  unfold recordAccountView
  intro h
  simp only at h
  split at h
  · cases h
  · rename_i hc
    cases h
    refine ⟨fun hk => ?_, ?_, ?_⟩
    · by_contra hn
      exact hc ⟨hk, Option.isSome_iff_ne_none.mpr hn⟩
    · rw [rememberPublicId?_accounts]
      exact Table.find_upserted _
    · unfold Table.upserted
      have hkey : Keyed.key (AccountRow.ofView view at') = view.uuid := rfl
      rw [hkey]
      cases (upsertCustodian view.custodian at' db).accounts.find view.uuid <;> rfl

theorem recordAccountView_accountsEvents {db' : Store}
    (h : recordAccountView view at' db = .ok (row, db')) :
    db'.accountsEvents = db.accountsEvents := by
  unfold recordAccountView at h
  simp only at h
  split at h
  · cases h
  · cases h
    simp

theorem recordAccountView_ledger {db' : Store}
    (h : recordAccountView view at' db = .ok (row, db')) :
    db'.accountsUuid128Map = db.accountsUuid128Map := by
  unfold recordAccountView at h
  simp only at h
  split at h
  · cases h
  · cases h
    simp

-- -----------------------------------------------------------------------------
-- Other tables
-- -----------------------------------------------------------------------------

/-- At most the accounts and the ids they are known by differ. -/
def Store.OnlyAccounts (db db' : Store) : Prop :=
  ∃ accounts ids, db' = { db with accounts := accounts, accountIds := ids }

namespace Store.OnlyAccounts

variable {db db' db'' : Store}

theorem refl : OnlyAccounts db db := ⟨db.accounts, db.accountIds, rfl⟩

theorem trans (h : OnlyAccounts db db') (h' : OnlyAccounts db' db'') : OnlyAccounts db db'' := by
  obtain ⟨_, _, rfl⟩ := h
  obtain ⟨accounts, ids, rfl⟩ := h'
  exact ⟨accounts, ids, rfl⟩

theorem rememberPublicId? (uuid : AccountUuid) (publicId : Option PublicId) (db : Store) :
    OnlyAccounts db (rememberPublicId? uuid publicId db) := by
  cases publicId with
  | none => exact refl
  | some publicId => exact ⟨_, _, rfl⟩

theorem upsertKnownAccount (uuid : AccountUuid) (kind : ActorKind) (publicId : Option PublicId)
    (at' : Instant) (db : Store) :
    OnlyAccounts db (upsertKnownAccount uuid kind publicId at' db) :=
  .trans ⟨_, _, rfl⟩ (rememberPublicId? ..)

theorem upsertCustodian (custodian : Option (AccountUuid × Option PublicId)) (at' : Instant)
    (db : Store) : OnlyAccounts db (upsertCustodian custodian at' db) := by
  cases custodian with
  | none => exact refl
  | some custodian => exact upsertKnownAccount ..

theorem recordAccountView {view : AccountView} {at' : Instant} {row : AccountRow}
    (h : recordAccountView view at' db = .ok (row, db')) : OnlyAccounts db db' := by
  unfold SiliconHook.recordAccountView at h
  simp only at h
  split at h
  · cases h
  · cases h
    exact (upsertCustodian ..).trans (.trans ⟨_, _, rfl⟩ (rememberPublicId? ..))

end Store.OnlyAccounts

end SiliconHook
