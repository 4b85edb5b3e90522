import SiliconHook.Store.Accounts

/-!
# Accounts events

Applying Silicon Accounts webhook events, deduplicated by event id. Events
arrive in any order: ids and custodians move by the time of the event, profiles
by version, and revocation instants only forward.
-/

namespace SiliconHook

/-- An account at one version, as an update event carries it. -/
structure Profile where
  uuid : AccountUuid
  kind : ActorKind
  publicId : Option PublicId
  displayName : Option String
  pfpUrl : Option String
  custodian : Option (AccountUuid × Option PublicId)
  version : Int
  deriving DecidableEq

inductive AccountsChange
  | idChanged (uuid : AccountUuid) (kind : Option ActorKind) (oldId : Option PublicId)
      (newId : PublicId)
  | updated (profile : Profile)
  | custodianChanged (uuid : AccountUuid) (from' : Option AccountUuid)
      (to' : Option (AccountUuid × Option PublicId))
  | signedOut (uuid : AccountUuid) (reason : Option String)
  | accessRemoved (uuid : AccountUuid)
  | deleted (uuid : AccountUuid)
  | nothing
  deriving DecidableEq

structure AccountsEvent where
  eventId : String
  eventType : String
  occurredAt : Instant
  change : AccountsChange
  deriving DecidableEq

inductive EventOutcome
  | applied
  | duplicate
  deriving DecidableEq, Repr

def AccountsChange.account : AccountsChange → Option AccountUuid
  | .idChanged uuid .. | .custodianChanged uuid .. | .signedOut uuid _ | .accessRemoved uuid
  | .deleted uuid => some uuid
  | .updated profile => some profile.uuid
  | .nothing => none

def AccountsChange.identities (change : AccountsChange) : List AccountUuid :=
  change.account.toList ++
    match change with
    | .updated profile => (profile.custodian.map Prod.fst).toList
    | .custodianChanged _ from' to' => from'.toList ++ (to'.map Prod.fst).toList
    | _ => []

-- -----------------------------------------------------------------------------
-- Accounts, ids and profiles
-- -----------------------------------------------------------------------------

theorem AccountRow.learnKind_key (kind : ActorKind) (row : AccountRow) :
    Keyed.key (row.learnKind kind) = Keyed.key row := rfl

theorem AccountRow.advancePublicId_key (publicId : Option PublicId) (at' : Instant)
    (row : AccountRow) : Keyed.key (row.advancePublicId publicId at') = Keyed.key row :=
  advancePublicId_uuid publicId at'

def ensureAccount (uuid : AccountUuid) (kind : ActorKind) (db : Store) : Store :=
  { db with
    accounts := db.accounts.upsert { AccountRow.blank uuid with kind := some kind }
      (·.learnKind kind) (AccountRow.learnKind_key kind) }

/-- `UPDATE accounts SET public_id …`, where the id is later. -/
def writePublicId (uuid : AccountUuid) (publicId : PublicId) (at' : Instant) (db : Store) :
    Store :=
  { db with
    accounts := db.accounts.update (fun row => row.uuid = uuid)
      (·.advancePublicId (some publicId) at')
      (AccountRow.advancePublicId_key (some publicId) at') }

/-- Both ids keep working in URLs a provider already holds. -/
def idChanged (uuid : AccountUuid) (kind : Option ActorKind) (oldId : Option PublicId)
    (newId : PublicId) (at' : Instant) (db : Store) : Store :=
  rememberPublicId? uuid oldId
    (rememberPublicId uuid newId
      (writePublicId uuid newId at' (ensureAccount uuid (kind.getD newId.kind) db)))

def maxDisplayNameLength : Nat := 200
def maxPfpUrlLength : Nat := 2048

/-- The stored profile is older. -/
def AccountRow.takesProfile (row : AccountRow) (version : Int) : Bool :=
  row.deletedAt.isNone && decide (row.profileVersion < version)

def writeProfile (profile : Profile) (db : Store) : Store :=
  { db with
    accounts := db.accounts.update
      (fun row => row.uuid = profile.uuid && row.takesProfile profile.version)
      (fun row => { row with
        displayName := profile.displayName.map fun name =>
          String.ofList (name.toList.take maxDisplayNameLength)
        pfpUrl := profile.pfpUrl.filter fun url => url.utf8ByteSize ≤ maxPfpUrlLength
        profileVersion := profile.version }) fun _ => rfl }

/-- No custodian change later than the profile is applied. -/
def AccountRow.takesProfileCustodian (row : AccountRow) (at' : Instant) : Bool :=
  row.custodianChangedAt.all fun changed => decide (changed ≤ at')

def writeProfileCustodian (profile : Profile) (at' clock : Instant) (db : Store) :
    Except StoreError Store :=
  let matching := fun row : AccountRow =>
    decide (row.uuid = profile.uuid) && row.takesProfileCustodian at'
  if profile.custodian.isSome && (db.accounts.select matching).any (·.kind = some .carbon) then
    .error (.database "accounts_only_silicons_have_custodians")
  else .ok { db with
    accounts := db.accounts.update matching (fun row => { row with
      custodianUuid := profile.custodian.map Prod.fst
      custodianCheckedAt := some clock }) fun _ => rfl }

def updatedPublicId (profile : Profile) (at' : Instant) (db : Store) : Store :=
  match profile.publicId with
  | none => db
  | some publicId => upsertKnownAccount profile.uuid profile.kind (some publicId) at' db

/-- A profile applies with a higher version, its public id by time. -/
def updated (profile : Profile) (at' clock : Instant) (db : Store) : Except StoreError Store :=
  let known := ensureAccount profile.uuid profile.kind db
  let newer := (known.accounts.find profile.uuid).any (·.takesProfile profile.version)
  let written := updatedPublicId profile at' (writeProfile profile known)
  if newer && profile.kind = .silicon then
    writeProfileCustodian profile at' clock (upsertCustodian profile.custodian at' written)
  else .ok written

-- -----------------------------------------------------------------------------
-- Custodians
-- -----------------------------------------------------------------------------

/-- A Silicon whose last applied custodian change is earlier. -/
def AccountRow.takesCustodianChange (row : AccountRow) (at' : Instant) : Bool :=
  decide (row.kind = some .silicon) &&
    row.custodianChangedAt.all fun changed => decide (changed < at')

def writeCustodian (uuid : AccountUuid) (custodian : Option AccountUuid) (at' clock : Instant)
    (db : Store) : Store :=
  { db with
    accounts := db.accounts.update
      (fun row => decide (row.uuid = uuid) && row.takesCustodianChange at')
      (fun row => { row with
        custodianUuid := custodian
        custodianChangedAt := some at'
        custodianCheckedAt := some clock }) fun _ => rfl }

/-- The previous custodian's subscription, unless a grant keeps it. -/
def formerCustodianSubscription (uuid previous : AccountUuid) (custodian : Option AccountUuid)
    (db : Store) (row : SubscriptionRow) : Bool :=
  row.siliconUuid = uuid && row.recipientUuid = previous && !hasGrant uuid previous db &&
    decide (custodian ≠ some previous)

def custodianChanged (uuid : AccountUuid) (from' : Option AccountUuid)
    (to' : Option (AccountUuid × Option PublicId)) (at' clock : Instant) (db : Store) : Store :=
  let known := upsertCustodian to' at' (ensureAccount uuid .silicon db)
  let applied := (known.accounts.find uuid).any (·.takesCustodianChange at')
  let written := writeCustodian uuid (to'.map Prod.fst) at' clock known
  match applied, from' with
  | true, some previous =>
    written.deleteSubscriptions
      (formerCustodianSubscription uuid previous (to'.map Prod.fst) written)
  | _, _ => written

-- -----------------------------------------------------------------------------
-- Sign-out and deletion
-- -----------------------------------------------------------------------------

theorem AccountRow.revokeBefore_key (at' : Instant) (row : AccountRow) :
    Keyed.key (row.revokeBefore at') = Keyed.key row := rfl

/-- Ends the account's sign-ins as of an instant, and its observing. An account
Hook has not met yet is recorded too. -/
def revoke (uuid : AccountUuid) (at' : Instant) (db : Store) : Store :=
  Store.deleteSubscriptions
    { db with
      accounts := db.accounts.upsert { AccountRow.blank uuid with revokedBefore := some at' }
        (·.revokeBefore at') (AccountRow.revokeBefore_key at') }
    fun row => row.recipientUuid = uuid

def AccountRow.markDeleted (row : AccountRow) (at' : Instant) : AccountRow :=
  { row.revokeBefore at' with
    deletedAt := row.deletedAt <|> some at'
    publicId := none
    displayName := none
    pfpUrl := none }

theorem AccountRow.markDeleted_key (at' : Instant) (row : AccountRow) :
    Keyed.key (row.markDeleted at') = Keyed.key row := rfl

def deleteAccountRow (uuid : AccountUuid) (at' : Instant) (db : Store) : Store :=
  { db with
    accounts := db.accounts.upsert
      { AccountRow.blank uuid with deletedAt := some at', revokedBefore := some at' }
      (·.markDeleted at') (AccountRow.markDeleted_key at') }

def deleteAccess (uuid : AccountUuid) (db : Store) : Store :=
  Store.deleteSubscriptions
    { db with
      siliconGrants := db.siliconGrants.delete fun row =>
        row.siliconUuid = uuid || row.granteeUuid = uuid
      siliconAllowances := db.siliconAllowances.delete fun row =>
        row.siliconUuid = uuid || row.allowedUuid = uuid }
    fun row => row.siliconUuid = uuid || row.recipientUuid = uuid

def deleteHooks (uuid : AccountUuid) (clock : Instant) (db : Store) : Store :=
  { db with
    hooks := db.hooks.update (fun row => row.siliconUuid = some uuid && row.deletedAt.isNone)
      (fun row => { row with
        disabledAt := none
        deletedAt := some (max row.createdAt clock) }) fun _ => rfl }

/-- A deleted account never comes back. -/
def deleted (uuid : AccountUuid) (at' clock : Instant) (db : Store) : Store :=
  let marked := deleteAccess uuid (deleteAccountRow uuid at' db)
  if (marked.accounts.find uuid).any (·.kind = some .carbon) then marked
  else deleteHooks uuid clock marked

-- -----------------------------------------------------------------------------
-- Events
-- -----------------------------------------------------------------------------

def AccountsChange.apply (change : AccountsChange) (at' clock : Instant) (db : Store) :
    Except StoreError Store :=
  match change with
  | .idChanged uuid kind oldId newId => .ok (SiliconHook.idChanged uuid kind oldId newId at' db)
  | .updated profile => SiliconHook.updated profile at' clock db
  | .custodianChanged uuid from' to' =>
    .ok (SiliconHook.custodianChanged uuid from' to' at' clock db)
  | .signedOut uuid reason =>
    -- revoking one of Hook's own sign-ins ends only that sign-in, at Accounts
    if reason = some "app_revoked" then .ok db else .ok (revoke uuid at' db)
  | .accessRemoved uuid => .ok (revoke uuid at' db)
  | .deleted uuid => .ok (SiliconHook.deleted uuid at' clock db)
  | .nothing => .ok db

def AccountsEvent.check (event : AccountsEvent) : Except StoreError Unit := do
  ensure (1 ≤ event.eventId.toList.length ∧ event.eventId.toList.length ≤ 200)
    (.database "accounts_events_id_length")
  ensure (1 ≤ event.eventType.toList.length ∧ event.eventType.toList.length ≤ 100)
    (.database "accounts_events_type_length")

/-- The event names an identity the cutover retired. -/
def AccountsEvent.retired (event : AccountsEvent) (db : Store) : Bool :=
  event.change.identities.any db.accountsUuid128Map.contains

def AccountsEvent.dedupeRow (event : AccountsEvent) (db : Store) : AccountsEventRow where
  eventId := event.eventId
  eventType := event.eventType
  accountUuid := if event.retired db then none else event.change.account
  occurredAt := some event.occurredAt

def applyAccountsEvent (event : AccountsEvent) (clock : Instant) (db : Store) :
    Except StoreError (EventOutcome × Store) :=
  match event.check, db.accountsEvents.insert (event.dedupeRow db) with
  | .error e, _ => .error e
  | .ok (), none => .ok (.duplicate, db)
  | .ok (), some recorded =>
    if event.retired db then .ok (.applied, { db with accountsEvents := recorded })
    else
      match event.change.apply event.occurredAt clock { db with accountsEvents := recorded } with
      | .error e => .error e
      | .ok db => .ok (.applied, db)

/-- The store after a delivery; a refused one is rolled back. -/
def deliver (event : AccountsEvent) (clock : Instant) (db : Store) : Store :=
  match applyAccountsEvent event clock db with
  | .ok (_, db) => db
  | .error _ => db

-- -----------------------------------------------------------------------------
-- Deduplication
-- -----------------------------------------------------------------------------

variable {db db' : Store} {row : AccountRow} {u v : AccountUuid}

/-- The delivery is recorded under a new id and names no retired identity. -/
structure AccountsEvent.Admitted (event : AccountsEvent) (db : Store) : Prop where
  check : event.check = .ok ()
  fresh : db.accountsEvents.find event.eventId = none
  live : event.retired db = false

instance (event : AccountsEvent) (db : Store) : Decidable (event.Admitted db) :=
  decidable_of_iff (event.check = .ok () ∧ db.accountsEvents.find event.eventId = none ∧
    event.retired db = false) ⟨fun h => ⟨h.1, h.2.1, h.2.2⟩, fun h => ⟨h.check, h.fresh, h.live⟩⟩

@[simp]
theorem updatedPublicId_accountsEvents :
    (updatedPublicId profile at' db).accountsEvents = db.accountsEvents := by
  unfold updatedPublicId
  split <;> simp

@[simp]
theorem updatedPublicId_ledger :
    (updatedPublicId profile at' db).accountsUuid128Map = db.accountsUuid128Map := by
  unfold updatedPublicId
  split <;> simp

theorem AccountsChange.apply_frame {change : AccountsChange}
    (h : change.apply at' clock db = .ok db') :
    db'.accountsEvents = db.accountsEvents ∧
      db'.accountsUuid128Map = db.accountsUuid128Map := by
  cases change with
  | idChanged uuid kind oldId newId =>
    cases h
    simp [SiliconHook.idChanged, rememberPublicId, writePublicId, ensureAccount]
  | updated profile =>
    simp only [apply, SiliconHook.updated] at h
    split at h
    · unfold writeProfileCustodian at h
      simp only at h
      split at h
      · cases h
      · cases h
        simp [writeProfile, ensureAccount]
    · cases h
      simp [writeProfile, ensureAccount]
  | custodianChanged uuid from' to' =>
    cases h
    simp only [SiliconHook.custodianChanged]
    split <;> simp [writeCustodian, ensureAccount]
  | signedOut uuid reason =>
    simp only [apply] at h
    split at h <;> cases h <;> exact ⟨rfl, rfl⟩
  | accessRemoved uuid =>
    cases h
    exact ⟨rfl, rfl⟩
  | deleted uuid =>
    cases h
    simp only [SiliconHook.deleted]
    split <;> exact ⟨rfl, rfl⟩
  | nothing =>
    cases h
    exact ⟨rfl, rfl⟩

theorem deliver_not_admitted {event : AccountsEvent} (clock : Instant)
    (h : ¬ event.Admitted db) :
    ∃ events, deliver event clock db = { db with accountsEvents := events } := by
  unfold deliver applyAccountsEvent
  cases hc : event.check with
  | error e => exact ⟨db.accountsEvents, rfl⟩
  | ok _ =>
    cases hi : db.accountsEvents.insert (event.dedupeRow db) with
    | none => exact ⟨db.accountsEvents, rfl⟩
    | some recorded =>
      cases hr : event.retired db with
      | true =>
        refine ⟨recorded, ?_⟩
        simp
      | false =>
        have hf : db.accountsEvents.find event.eventId = none := by
          by_contra hne
          obtain ⟨row, hrow⟩ := Option.ne_none_iff_exists'.mp hne
          have hkey : Keyed.key (event.dedupeRow db) = event.eventId := rfl
          have := Table.insert_eq_none.mpr ⟨row, hkey ▸ hrow⟩
          rw [this] at hi
          cases hi
        exact absurd ⟨hc, hf, hr⟩ h

/-- An admitted delivery applies its change, or is rolled back. -/
theorem deliver_admitted {event : AccountsEvent} (clock : Instant) (h : event.Admitted db) :
    ∃ recorded, db.accountsEvents.insert (event.dedupeRow db) = some recorded ∧
      deliver event clock db =
        match event.change.apply event.occurredAt clock
          { db with accountsEvents := recorded } with
        | .ok db => db
        | .error _ => db := by
  have hkey : Keyed.key (event.dedupeRow db) = event.eventId := rfl
  cases hi : db.accountsEvents.insert (event.dedupeRow db) with
  | none =>
    obtain ⟨row, hrow⟩ := Table.insert_eq_none.mp hi
    rw [hkey, h.fresh] at hrow
    cases hrow
  | some recorded =>
    refine ⟨recorded, rfl, ?_⟩
    unfold deliver applyAccountsEvent
    simp only [h.check, hi, h.live, Bool.false_eq_true, if_false]
    cases event.change.apply event.occurredAt clock { db with accountsEvents := recorded } <;> rfl

theorem applyAccountsEvent_duplicate {event : AccountsEvent} (clock : Instant)
    (hc : event.check = .ok ()) (h : (db.accountsEvents.find event.eventId).isSome) :
    applyAccountsEvent event clock db = .ok (.duplicate, db) := by
  obtain ⟨row, hrow⟩ := Option.isSome_iff_exists.mp h
  have hi : db.accountsEvents.insert (event.dedupeRow db) = none :=
    Table.insert_eq_none.mpr ⟨row, hrow⟩
  simp [applyAccountsEvent, hc, hi]

theorem deliver_keeps_recorded (event : AccountsEvent) (clock : Instant)
    (h : (db.accountsEvents.find k).isSome) :
    ((deliver event clock db).accountsEvents.find k).isSome := by
  have hinsert : ∀ recorded, db.accountsEvents.insert (event.dedupeRow db) = some recorded →
      (recorded.find k).isSome := by
    intro recorded hi
    rw [Table.find_insert hi]
    split
    · rfl
    · exact h
  unfold deliver applyAccountsEvent
  cases event.check with
  | error e => exact h
  | ok _ =>
    cases hi : db.accountsEvents.insert (event.dedupeRow db) with
    | none => exact h
    | some recorded =>
      cases event.retired db with
      | true => exact hinsert recorded hi
      | false =>
        simp only [Bool.false_eq_true, if_false]
        cases ha : event.change.apply event.occurredAt clock
            { db with accountsEvents := recorded } with
        | error e => exact h
        | ok db' =>
          simp only [(AccountsChange.apply_frame ha).1]
          exact hinsert recorded hi

theorem deliver_frame (event : AccountsEvent) (clock : Instant) (db : Store) :
    (deliver event clock db).accountsUuid128Map = db.accountsUuid128Map ∧
      ∀ k ≠ event.eventId, (deliver event clock db).accountsEvents.find k =
        db.accountsEvents.find k := by
  unfold deliver applyAccountsEvent
  cases event.check with
  | error e => exact ⟨rfl, fun _ _ => rfl⟩
  | ok _ =>
    cases hi : db.accountsEvents.insert (event.dedupeRow db) with
    | none => exact ⟨rfl, fun _ _ => rfl⟩
    | some recorded =>
      have hother : ∀ k ≠ event.eventId, recorded.find k = db.accountsEvents.find k := by
        intro k hk
        rw [Table.find_insert hi]
        exact if_neg hk
      cases event.retired db with
      | true => exact ⟨rfl, hother⟩
      | false =>
        simp only [Bool.false_eq_true, if_false]
        cases ha : event.change.apply event.occurredAt clock
            { db with accountsEvents := recorded } with
        | error e => exact ⟨rfl, fun _ _ => rfl⟩
        | ok db' =>
          obtain ⟨hevents, hledger⟩ := AccountsChange.apply_frame ha
          refine ⟨hledger, fun k hk => ?_⟩
          simp only [hevents]
          exact hother k hk

theorem deliver_records {event : AccountsEvent} (clock : Instant) (hc : event.check = .ok ())
    (ha : ∀ events, ∃ db', event.change.apply event.occurredAt clock
      { db with accountsEvents := events } = .ok db') :
    ((deliver event clock db).accountsEvents.find event.eventId).isSome := by
  have hkey : Keyed.key (event.dedupeRow db) = event.eventId := rfl
  unfold deliver applyAccountsEvent
  rw [hc]
  cases hi : db.accountsEvents.insert (event.dedupeRow db) with
  | none =>
    obtain ⟨row, hrow⟩ := Table.insert_eq_none.mp hi
    exact Option.isSome_iff_exists.mpr ⟨row, hrow⟩
  | some recorded =>
    have hrec : (recorded.find event.eventId).isSome := by
      rw [Table.find_insert hi, hkey, if_pos rfl]
      rfl
    cases event.retired db with
    | true => exact hrec
    | false =>
      obtain ⟨db', hdb⟩ := ha recorded
      simp only [Bool.false_eq_true, if_false, hdb, (AccountsChange.apply_frame hdb).1]
      exact hrec

-- -----------------------------------------------------------------------------
-- What an event does to the row of its account
-- -----------------------------------------------------------------------------

theorem find_ensureAccount (db : Store) (u v : AccountUuid) (kind : ActorKind) :
    (ensureAccount u kind db).accounts.find v =
      if v = u then some ((db.accountRow u).learnKind kind) else db.accounts.find v :=
  find_upsert_blank (f := fun row => row.learnKind kind)

theorem find_update_account {accounts : Table AccountRow} {q : AccountRow → Bool}
    {f : AccountRow → AccountRow} (hf : ∀ row, Keyed.key (f row) = Keyed.key row)
    (h : accounts.find u = some row) :
    (accounts.update (fun row => decide (row.uuid = u) && q row) f hf).find u =
      some (if q row then f row else row) := by
  have hu : row.uuid = u := Table.find_key h
  simp [Table.find_update, h, hu]

def AccountRow.withProfile (row : AccountRow) (profile : Profile) (at' : Instant) : AccountRow :=
  (if row.takesProfile profile.version then
    { row with
      displayName := profile.displayName.map fun name =>
        String.ofList (name.toList.take maxDisplayNameLength)
      pfpUrl := profile.pfpUrl.filter fun url => url.utf8ByteSize ≤ maxPfpUrlLength
      profileVersion := profile.version }
  else row).advancePublicId profile.publicId at'

theorem find_writeProfile {profile : Profile} (h : db.accounts.find profile.uuid = some row) :
    (writeProfile profile db).accounts.find profile.uuid =
      some (if row.takesProfile profile.version then
        { row with
          displayName := profile.displayName.map fun name =>
            String.ofList (name.toList.take maxDisplayNameLength)
          pfpUrl := profile.pfpUrl.filter fun url => url.utf8ByteSize ≤ maxPfpUrlLength
          profileVersion := profile.version }
      else row) := by
  refine find_update_account ?_ h
  exact fun _ => rfl

theorem AccountRow.advancePublicId_none (at' : Instant) : row.advancePublicId none at' = row := by
  simp [advancePublicId]

theorem AccountRow.learnKind_known (h : row.kind.isSome) (kind : ActorKind) :
    row.learnKind kind = row := by
  obtain ⟨k, hk⟩ := Option.isSome_iff_exists.mp h
  rw [learnKind, hk, Option.orElse_eq_orElse, Option.orElse_some, ← hk]

theorem find_updatedPublicId {profile : Profile} (h : db.accounts.find profile.uuid = some row)
    (hk : row.kind.isSome) (at' : Instant) :
    (updatedPublicId profile at' db).accounts.find profile.uuid =
      some (row.advancePublicId profile.publicId at') := by
  unfold updatedPublicId
  cases hp : profile.publicId with
  | none => rw [AccountRow.advancePublicId_none, h]
  | some publicId =>
    simp only
    rw [find_upsertKnownAccount, if_pos rfl, Store.accountRow_of_find h,
      AccountRow.learnKind_known hk]

theorem find_writeProfileCustodian {profile : Profile}
    (hw : writeProfileCustodian profile at' clock db = .ok db')
    (h : db.accounts.find profile.uuid = some row) :
    db'.accounts.find profile.uuid = some (if row.takesProfileCustodian at' then
      { row with
        custodianUuid := profile.custodian.map Prod.fst, custodianCheckedAt := some clock }
      else row) := by
  unfold writeProfileCustodian at hw
  simp only at hw
  split at hw
  · cases hw
  · cases hw
    refine find_update_account ?_ h
    exact fun _ => rfl

theorem AccountRow.advancePublicId_kind (publicId : Option PublicId) (at' : Instant) :
    (row.advancePublicId publicId at').kind = row.kind := by
  unfold advancePublicId
  split <;> rfl

theorem AccountRow.withProfile_kind (profile : Profile) (at' : Instant) :
    (row.withProfile profile at').kind = row.kind := by
  rw [withProfile, advancePublicId_kind]
  split <;> rfl

def AccountRow.applyProfile (row : AccountRow) (profile : Profile) (at' clock : Instant) :
    AccountRow :=
  let known := row.learnKind profile.kind
  let written := known.withProfile profile at'
  if known.takesProfile profile.version && profile.kind = .silicon &&
      written.takesProfileCustodian at' then
    { written with
      custodianUuid := profile.custodian.map Prod.fst, custodianCheckedAt := some clock }
  else written

theorem find_updated {profile : Profile} (h : updated profile at' clock db = .ok db')
    (hc : profile.kind = .silicon → ∀ c ∈ profile.custodian, c.1 ≠ profile.uuid) :
    db'.accounts.find profile.uuid =
      some ((db.accountRow profile.uuid).applyProfile profile at' clock) := by
  have hknown : (ensureAccount profile.uuid profile.kind db).accounts.find profile.uuid =
      some ((db.accountRow profile.uuid).learnKind profile.kind) := by
    rw [find_ensureAccount, if_pos rfl]
  have hwritten := find_updatedPublicId (find_writeProfile hknown) (by
    split <;> simp [AccountRow.learnKind]) at'
  unfold updated at h
  simp only [hknown, Option.any_some] at h
  unfold AccountRow.applyProfile
  simp only
  split at h
  · rename_i hn
    have hs : profile.kind = .silicon := by simp_all
    have hcust := find_writeProfileCustodian h
      ((find_upsertCustodian_ne at' (hc hs)).trans hwritten)
    rw [hcust]
    simp only [hn, Bool.true_and]
    rfl
  · rename_i hn
    cases h
    rw [hwritten]
    simp only [Bool.not_eq_true] at hn
    simp only [hn, Bool.false_and, Bool.false_eq_true, if_false]
    rfl

/-- A profile of a Silicon is refused only where Hook holds the account for a
Carbon. -/
theorem updated_total {profile : Profile} (at' clock : Instant)
    (hc : profile.kind = .silicon → ∀ c ∈ profile.custodian, c.1 ≠ profile.uuid)
    (hk : profile.kind = .silicon → (db.accountRow profile.uuid).kind ≠ some .carbon) :
    ∃ db', updated profile at' clock db = .ok db' := by
  have hknown : (ensureAccount profile.uuid profile.kind db).accounts.find profile.uuid =
      some ((db.accountRow profile.uuid).learnKind profile.kind) := by
    rw [find_ensureAccount, if_pos rfl]
  have hwritten := find_updatedPublicId (find_writeProfile hknown) (by
    split <;> simp [AccountRow.learnKind]) at'
  unfold updated
  simp only
  split
  · rename_i hn
    have hkind : profile.kind = .silicon := by simp_all
    have hfind := (find_upsertCustodian_ne at' (hc hkind)).trans hwritten
    replace hk := hk hkind
    unfold writeProfileCustodian
    simp only
    rw [if_neg]
    · exact ⟨_, rfl⟩
    · simp only [Bool.and_eq_true, List.any_eq_true, not_and, not_exists, decide_eq_true_eq]
      intro _ row hrow hcarbon
      obtain ⟨hmem, hq⟩ := List.mem_filter.mp hrow
      have hu : row.uuid = profile.uuid := by
        simp only [Bool.and_eq_true, decide_eq_true_eq] at hq
        exact hq.1
      have hrow' := Table.mem_rows.mp hmem
      rw [show Keyed.key row = profile.uuid from hu, hfind] at hrow'
      cases hrow'
      rw [AccountRow.advancePublicId_kind] at hcarbon
      have : ((db.accountRow profile.uuid).learnKind profile.kind).kind = some .carbon := by
        rw [← hcarbon]
        split <;> rfl
      rw [AccountRow.learnKind, hkind] at this
      cases hr : (db.accountRow profile.uuid).kind with
      | none => simp [hr] at this
      | some k =>
        rw [hr] at this hk
        exact hk (by simpa using this)
  · exact ⟨_, rfl⟩

def AccountRow.applyCustodian (row : AccountRow) (custodian : Option AccountUuid)
    (at' clock : Instant) : AccountRow :=
  if (row.learnKind .silicon).takesCustodianChange at' then
    { row.learnKind .silicon with
      custodianUuid := custodian
      custodianChangedAt := some at'
      custodianCheckedAt := some clock }
  else row.learnKind .silicon

theorem find_custodianChanged (db : Store) (from' : Option AccountUuid) (at' clock : Instant)
    (hc : ∀ c ∈ to', c.1 ≠ u) :
    (custodianChanged u from' to' at' clock db).accounts.find u =
      some ((db.accountRow u).applyCustodian (to'.map Prod.fst) at' clock) := by
  have hknown : (ensureAccount u .silicon db).accounts.find u =
      some ((db.accountRow u).learnKind .silicon) := by
    rw [find_ensureAccount, if_pos rfl]
  have hfind := (find_upsertCustodian_ne at' hc).trans hknown
  have hwritten : (writeCustodian u (to'.map Prod.fst) at' clock
      (upsertCustodian to' at' (ensureAccount u .silicon db))).accounts.find u =
      some ((db.accountRow u).applyCustodian (to'.map Prod.fst) at' clock) := by
    refine find_update_account ?_ hfind
    exact fun _ => rfl
  unfold custodianChanged
  simp only
  split <;> exact hwritten

theorem find_idChanged (kind : Option ActorKind) (oldId : Option PublicId) (newId : PublicId)
    (at' : Instant) :
    (idChanged u kind oldId newId at' db).accounts.find u =
      some (((db.accountRow u).learnKind (kind.getD newId.kind)).advancePublicId (some newId) at')
      := by
  have hknown := find_ensureAccount db u u (kind.getD newId.kind)
  rw [if_pos rfl] at hknown
  have hu : (db.accountRow u).uuid = u := Store.accountRow_uuid
  simp only [idChanged, rememberPublicId?_accounts]
  show (writePublicId u newId at' _).accounts.find u = _
  simp [writePublicId, Table.find_update, hknown, hu, AccountRow.learnKind]

theorem find_revoke (db : Store) (u v : AccountUuid) (at' : Instant) :
    (revoke u at' db).accounts.find v =
      if v = u then some ((db.accountRow u).revokeBefore at') else db.accounts.find v :=
  find_upsert_blank (f := fun row => row.revokeBefore at')

theorem deleted_accounts (at' clock : Instant) :
    (deleted u at' clock db).accounts = (deleteAccountRow u at' db).accounts := by
  unfold deleted
  simp only
  split <;> rfl

theorem find_deleted (db : Store) (u v : AccountUuid) (at' clock : Instant) :
    (deleted u at' clock db).accounts.find v =
      if v = u then some ((db.accountRow u).markDeleted at') else db.accounts.find v := by
  rw [deleted_accounts]
  exact find_upsert_blank (f := fun row => row.markDeleted at')

-- -----------------------------------------------------------------------------
-- The ids an event leaves known
-- -----------------------------------------------------------------------------

variable {id : PublicId}

theorem knows_idChanged {oldId : Option PublicId} {newId : PublicId} :
    (idChanged u kind oldId newId at' db).knows u id ↔
      db.knows u id ∨ id ∈ newId :: oldId.toList := by
  rw [idChanged, knows_rememberPublicId?, knows_rememberPublicId]
  have hbase : (writePublicId u newId at' (ensureAccount u (kind.getD newId.kind) db)).knows u id ↔
      db.knows u id := .rfl
  rw [hbase]
  simp [or_assoc, Option.mem_toList]

theorem writeProfileCustodian_knows {profile : Profile}
    (h : writeProfileCustodian profile at' clock db = .ok db') :
    db'.knows u id ↔ db.knows u id := by
  unfold writeProfileCustodian at h
  simp only at h
  split at h
  · cases h
  · cases h
    rfl

theorem knows_updatedPublicId {profile : Profile} :
    (updatedPublicId profile at' db).knows profile.uuid id ↔
      db.knows profile.uuid id ∨ id ∈ profile.publicId.toList := by
  unfold updatedPublicId
  cases profile.publicId with
  | none => simp
  | some p =>
    rw [knows_upsertKnownAccount]
    simp [eq_comm]

theorem knows_updated {profile : Profile} (h : updated profile at' clock db = .ok db')
    (hc : profile.kind = .silicon → ∀ c ∈ profile.custodian, c.1 ≠ profile.uuid) :
    db'.knows profile.uuid id ↔ db.knows profile.uuid id ∨ id ∈ profile.publicId.toList := by
  have hwritten : (updatedPublicId profile at'
      (writeProfile profile (ensureAccount profile.uuid profile.kind db))).knows profile.uuid id ↔
      db.knows profile.uuid id ∨ id ∈ profile.publicId.toList := knows_updatedPublicId
  unfold updated at h
  simp only at h
  split at h
  · rename_i hn
    have hs : profile.kind = .silicon := by simp_all
    rw [writeProfileCustodian_knows h, knows_upsertCustodian_ne at' (hc hs), hwritten]
  · cases h
    exact hwritten

theorem knows_custodianChanged (from' : Option AccountUuid) (at' clock : Instant)
    (hc : ∀ c ∈ to', c.1 ≠ u) :
    (custodianChanged u from' to' at' clock db).knows u id ↔ db.knows u id := by
  have hknown : (upsertCustodian to' at' (ensureAccount u .silicon db)).knows u id ↔
      db.knows u id := knows_upsertCustodian_ne at' hc
  unfold custodianChanged
  simp only
  split <;> exact hknown

theorem knows_deleted (at' clock : Instant) :
    (deleted u at' clock db).knows v id ↔ db.knows v id := by
  unfold deleted
  simp only
  split <;> rfl

-- -----------------------------------------------------------------------------
-- Other tables
-- -----------------------------------------------------------------------------

namespace Store.OnlyAccounts

theorem updatedPublicId (profile : Profile) (at' : Instant) (db : Store) :
    OnlyAccounts db (updatedPublicId profile at' db) := by
  unfold SiliconHook.updatedPublicId
  split
  · exact refl
  · exact upsertKnownAccount ..

theorem updated {profile : Profile} (h : updated profile at' clock db = .ok db') :
    OnlyAccounts db db' := by
  have hwritten : OnlyAccounts db (SiliconHook.updatedPublicId profile at'
      (writeProfile profile (ensureAccount profile.uuid profile.kind db))) :=
    .trans ⟨_, _, rfl⟩ (updatedPublicId ..)
  unfold SiliconHook.updated at h
  simp only at h
  split at h
  · unfold writeProfileCustodian at h
    simp only at h
    split at h
    · cases h
    · cases h
      exact hwritten.trans ((upsertCustodian ..).trans ⟨_, _, rfl⟩)
  · cases h
    exact hwritten

theorem idChanged (uuid : AccountUuid) (kind : Option ActorKind) (oldId : Option PublicId)
    (newId : PublicId) (at' : Instant) (db : Store) :
    OnlyAccounts db (idChanged uuid kind oldId newId at' db) :=
  .trans ⟨_, _, rfl⟩ (rememberPublicId? ..)

end Store.OnlyAccounts

/-- What a delivery does to the subscriptions, the queued sends and the events:
it removes subscriptions, each with its queued copies. -/
structure Store.Removes (p : SubscriptionRow → Bool) (db db' : Store) : Prop where
  subscriptions : db'.observerSubscriptions = (db.deleteSubscriptions p).observerSubscriptions
  outbox : db'.tingOutbox = (db.deleteSubscriptions p).tingOutbox
  events : db'.events = db.events

theorem Store.OnlyAccounts.removes (h : OnlyAccounts db db') :
    Store.Removes (fun _ => false) db db' := by
  obtain ⟨accounts, ids, rfl⟩ := h
  have hdb : db.deleteSubscriptions (fun _ => false) = db :=
    Store.deleteSubscriptions_none fun _ _ => rfl
  exact ⟨by rw [hdb], by rw [hdb], rfl⟩

theorem Store.Removes.of_tables {p : SubscriptionRow → Bool} {mid : Store}
    (h : Store.Removes p mid db') (hs : mid.observerSubscriptions = db.observerSubscriptions)
    (ho : mid.tingOutbox = db.tingOutbox) (he : mid.events = db.events) :
    Store.Removes p db db' := by
  obtain ⟨hsubs, hout, hev⟩ := h
  exact ⟨by rw [hsubs, deleteSubscriptions, deleteSubscriptions, hs],
    by rw [hout, deleteSubscriptions, deleteSubscriptions, hs, ho], hev.trans he⟩

theorem AccountsChange.apply_removes {change : AccountsChange}
    (h : change.apply at' clock db = .ok db') : ∃ p, Store.Removes p db db' := by
  have revoked : ∀ uuid, ∃ p, Store.Removes p db (revoke uuid at' db) :=
    fun uuid => ⟨_, rfl, rfl, rfl⟩
  cases change with
  | idChanged uuid kind oldId newId =>
    cases h
    exact ⟨_, (Store.OnlyAccounts.idChanged ..).removes⟩
  | updated profile => exact ⟨_, (Store.OnlyAccounts.updated h).removes⟩
  | custodianChanged uuid from' to' =>
    cases h
    obtain ⟨accounts, ids, hknown⟩ : Store.OnlyAccounts db
        (upsertCustodian to' at' (ensureAccount uuid .silicon db)) :=
      .trans ⟨_, _, rfl⟩ (Store.OnlyAccounts.upsertCustodian ..)
    simp only [SiliconHook.custodianChanged, hknown]
    split
    · exact ⟨_, rfl, rfl, rfl⟩
    · exact ⟨_, Store.OnlyAccounts.removes ⟨_, _, rfl⟩⟩
  | signedOut uuid reason =>
    simp only [apply] at h
    split at h
    · cases h
      exact ⟨_, Store.OnlyAccounts.refl.removes⟩
    · cases h
      exact revoked uuid
  | accessRemoved uuid =>
    cases h
    exact revoked uuid
  | deleted uuid =>
    cases h
    simp only [SiliconHook.deleted]
    split <;> exact ⟨_, rfl, rfl, rfl⟩
  | nothing =>
    cases h
    exact ⟨_, Store.OnlyAccounts.refl.removes⟩

theorem deliver_removes (event : AccountsEvent) (clock : Instant) (db : Store) :
    ∃ p, Store.Removes p db (deliver event clock db) := by
  by_cases ha : event.Admitted db
  · obtain ⟨recorded, -, heq⟩ := deliver_admitted clock ha
    rw [heq]
    cases hc : event.change.apply event.occurredAt clock
        { db with accountsEvents := recorded } with
    | error e => exact ⟨_, Store.OnlyAccounts.refl.removes⟩
    | ok db' =>
      obtain ⟨p, h⟩ := AccountsChange.apply_removes hc
      exact ⟨p, h.of_tables rfl rfl rfl⟩
  · obtain ⟨events, heq⟩ := deliver_not_admitted clock ha
    obtain ⟨hsubs, hout, -⟩ := (Store.OnlyAccounts.refl : Store.OnlyAccounts db db).removes
    rw [heq]
    exact ⟨_, hsubs, hout, rfl⟩

end SiliconHook
