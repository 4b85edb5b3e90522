import SiliconHook.Delivery.Publisher
import SiliconHook.Properties.Deletion
import SiliconHook.Properties.FanOut

/-!
# Access of observers

A queued copy goes out while its subscription exists. A Carbon has access
through a grant or as the stored custodian, and most that ends either removes
the subscription with it; what does not lets copies queued before go out after.
-/

namespace SiliconHook

section

variable {db db' : Store} {u v : AccountUuid} {row : AccountRow} {at' clock : Instant}

-- -----------------------------------------------------------------------------
-- Custody
-- -----------------------------------------------------------------------------

def AccountRow.custody (row : AccountRow) : Option AccountUuid × Option Instant :=
  (row.custodianUuid, row.custodianChangedAt)

def Store.custody (db : Store) (uuid : AccountUuid) : Option AccountUuid × Option Instant :=
  (db.accountRow uuid).custody

def Store.custodianOf (db : Store) (uuid : AccountUuid) : Option AccountUuid :=
  (db.accountRow uuid).custodianUuid

theorem Store.hasAccess_iff {silicon recipient : AccountUuid} :
    db.hasAccess silicon recipient = true ↔
      hasGrant silicon recipient db = true ∨ db.custodianOf silicon = some recipient := by
  unfold hasAccess custodianOf accountRow
  cases db.accounts.find silicon with
  | none => simp [AccountRow.blank]
  | some row => simp

theorem Store.custody_congr (h : db'.accounts = db.accounts) : db'.custody u = db.custody u := by
  rw [custody, custody, accountRow_congr h]

@[simp]
theorem AccountRow.advancePublicId_custody (publicId : Option PublicId) :
    (row.advancePublicId publicId at').custody = row.custody := by
  unfold advancePublicId
  split <;> rfl

@[simp]
theorem custody_rememberPublicId? (publicId : Option PublicId) :
    (rememberPublicId? v publicId db).custody u = db.custody u :=
  Store.custody_congr rememberPublicId?_accounts

@[simp]
theorem custody_rememberPublicId (publicId : PublicId) :
    (rememberPublicId v publicId db).custody u = db.custody u := rfl

@[simp]
theorem custody_ensureAccount (kind : ActorKind) :
    (ensureAccount v kind db).custody u = db.custody u :=
  Store.columns_of_upsert (f := fun row => row.learnKind kind) (fun _ => rfl)
    (find_ensureAccount db v u kind)

@[simp]
theorem custody_upsertKnownAccount (kind : ActorKind) (publicId : Option PublicId) :
    (upsertKnownAccount v kind publicId at' db).custody u = db.custody u :=
  Store.columns_of_upsert (f := fun row => (row.learnKind kind).advancePublicId publicId at')
    (fun _ => AccountRow.advancePublicId_custody publicId)
    (find_upsertKnownAccount db v u kind publicId at')

@[simp]
theorem custody_upsertCustodian (custodian : Option (AccountUuid × Option PublicId)) :
    (upsertCustodian custodian at' db).custody u = db.custody u := by
  cases custodian with
  | none => rfl
  | some custodian => exact custody_upsertKnownAccount ..

@[simp]
theorem custody_writePublicId (publicId : PublicId) :
    (writePublicId v publicId at' db).custody u = db.custody u :=
  Store.columns_of_update (Table.find_update (AccountRow.advancePublicId_key (some publicId) at'))
    fun _ => AccountRow.advancePublicId_custody (some publicId)

@[simp]
theorem custody_writeProfile (profile : Profile) :
    (writeProfile profile db).custody u = db.custody u :=
  Store.columns_of_update (Table.find_update (by exact fun _ => rfl)) fun _ => rfl

@[simp]
theorem custody_updatedPublicId (profile : Profile) :
    (updatedPublicId profile at' db).custody u = db.custody u := by
  unfold updatedPublicId
  split <;> simp

def Store.KeepsCustody (uuid : AccountUuid) (db db' : Store) : Prop :=
  ∀ row, db.accounts.find uuid = some row → row.kind.isSome →
    ∃ row', db'.accounts.find uuid = some row' ∧ row'.kind = row.kind ∧
      row'.custody = row.custody

namespace Store.KeepsCustody

theorem trans {db'' : Store} (h : KeepsCustody u db db') (h' : KeepsCustody u db' db'') :
    KeepsCustody u db db'' := by
  intro row hrow hk
  obtain ⟨mid, hmid, hkind, hcustody⟩ := h row hrow hk
  obtain ⟨last, hlast, hkind', hcustody'⟩ := h' mid hmid (hkind ▸ hk)
  exact ⟨last, hlast, hkind'.trans hkind, hcustody'.trans hcustody⟩

theorem upsertKnownAccount (kind : ActorKind) (publicId : Option PublicId) :
    KeepsCustody u db (upsertKnownAccount v kind publicId at' db) := by
  intro row hrow hk
  rw [find_upsertKnownAccount]
  by_cases hv : u = v
  · subst hv
    rw [if_pos rfl, Store.accountRow_of_find hrow, AccountRow.learnKind_known hk]
    exact ⟨_, rfl, AccountRow.advancePublicId_kind .., AccountRow.advancePublicId_custody ..⟩
  · rw [if_neg hv]
    exact ⟨row, hrow, rfl, rfl⟩

theorem upsertCustodian (custodian : Option (AccountUuid × Option PublicId)) (at' : Instant) :
    KeepsCustody u db (upsertCustodian custodian at' db) := by
  cases custodian with
  | none => exact fun row hrow _ => ⟨row, hrow, rfl, rfl⟩
  | some custodian => exact upsertKnownAccount _ _

theorem updatedPublicId (profile : Profile) :
    KeepsCustody u db (updatedPublicId profile at' db) := by
  unfold SiliconHook.updatedPublicId
  split
  · exact fun row hrow _ => ⟨row, hrow, rfl, rfl⟩
  · exact upsertKnownAccount _ _

theorem writeProfile (profile : Profile) : KeepsCustody u db (writeProfile profile db) := by
  intro row hrow _
  refine ⟨_, (Table.find_update (by exact fun _ => rfl)).trans (congrArg _ hrow), ?_, ?_⟩
  · simp only
    split <;> rfl
  · simp only
    split <;> rfl

end Store.KeepsCustody

-- -----------------------------------------------------------------------------
-- Changes of custodian
-- -----------------------------------------------------------------------------

def AccountsChange.custodian (change : AccountsChange) (at' : Instant) (db : Store) :
    Option (AccountUuid × Option AccountUuid) :=
  match change with
  | .updated profile =>
    let row := (db.accountRow profile.uuid).learnKind profile.kind
    if row.takesProfile profile.version && profile.kind = .silicon &&
        row.takesProfileCustodian at' then
      some (profile.uuid, profile.custodian.map Prod.fst)
    else none
  | .custodianChanged uuid _ to' =>
    if ((db.accountRow uuid).learnKind .silicon).takesCustodianChange at' then
      some (uuid, to'.map Prod.fst)
    else none
  | _ => none

def AccountsChange.former : AccountsChange → Option AccountUuid
  | .custodianChanged _ from' _ => from'
  | _ => none

def Store.custodianAfter (db : Store) (change : Option (AccountUuid × Option AccountUuid))
    (uuid : AccountUuid) : Option AccountUuid :=
  match change with
  | some (silicon, custodian) => if uuid = silicon then custodian else db.custodianOf uuid
  | none => db.custodianOf uuid

theorem Store.custodianOf_of_custody (h : db'.custody u = db.custody u) :
    db'.custodianOf u = db.custodianOf u :=
  congrArg Prod.fst h

theorem find_ensureAccount_self (db : Store) (u : AccountUuid) (kind : ActorKind) :
    (ensureAccount u kind db).accounts.find u = some ((db.accountRow u).learnKind kind) := by
  rw [find_ensureAccount, if_pos rfl]

theorem custodianOf_update {q : AccountRow → Bool} {f : AccountRow → AccountRow}
    (hf : ∀ row, Keyed.key (f row) = Keyed.key row) (h : db.accounts.find u = some row)
    (hdb : db'.accounts = db.accounts.update (fun row => decide (row.uuid = u) && q row) f hf)
    (s : AccountUuid) : db'.custodianOf s =
      if s = u then if q row then (f row).custodianUuid else row.custodianUuid
      else db.custodianOf s := by
  by_cases hs : s = u
  · subst hs
    have hfind := find_update_account hf h (q := q)
    rw [← hdb] at hfind
    rw [if_pos rfl, Store.custodianOf, Store.accountRow_of_find hfind]
    split <;> rfl
  · have hfind := Table.find_update (t := db.accounts) (k := s)
      (p := fun row => decide (row.uuid = u) && q row) hf
    rw [← hdb] at hfind
    rw [if_neg hs, Store.custodianOf, Store.custodianOf, Store.accountRow, Store.accountRow, hfind]
    cases ho : db.accounts.find s with
    | none => rfl
    | some other =>
      have hne : other.uuid ≠ u := fun he => hs ((Table.find_key ho).symm.trans he)
      simp [hne]

theorem updated_custodianOf {profile : Profile} (h : updated profile at' clock db = .ok db')
    (s : AccountUuid) : db'.custodianOf s =
      db.custodianAfter ((AccountsChange.updated profile).custodian at' db) s := by
  have hwritten : ∀ s, (updatedPublicId profile at'
      (writeProfile profile (ensureAccount profile.uuid profile.kind db))).custody s =
        db.custody s := by simp
  have hknown := find_ensureAccount_self db profile.uuid profile.kind
  unfold updated at h
  simp only [hknown, Option.any_some] at h
  simp only [AccountsChange.custodian]
  split at h
  · rename_i hn
    have hkeeps : Store.KeepsCustody profile.uuid (ensureAccount profile.uuid profile.kind db)
        (upsertCustodian profile.custodian at' (updatedPublicId profile at'
          (writeProfile profile (ensureAccount profile.uuid profile.kind db)))) :=
      ((Store.KeepsCustody.writeProfile profile).trans (.updatedPublicId profile)).trans
        (.upsertCustodian profile.custodian at')
    obtain ⟨row, hrow, -, hcustody⟩ := hkeeps _ hknown (by simp [AccountRow.learnKind])
    have htakes : row.takesProfileCustodian at' =
        ((db.accountRow profile.uuid).learnKind profile.kind).takesProfileCustodian at' :=
      congrArg (fun c => c.2.all fun changed => decide (changed ≤ at')) hcustody
    have hsame : ∀ s, (upsertCustodian profile.custodian at' (updatedPublicId profile at'
        (writeProfile profile (ensureAccount profile.uuid profile.kind db)))).custodianOf s =
          db.custodianOf s := fun s => Store.custodianOf_of_custody (by simp)
    unfold writeProfileCustodian at h
    simp only at h
    split at h
    · cases h
    · cases h
      rw [custodianOf_update (q := (·.takesProfileCustodian at')) (by exact fun _ => rfl) hrow rfl s,
        hsame]
      simp only [Bool.and_eq_true] at hn
      have huuid : row.custodianUuid = db.custodianOf profile.uuid :=
        congrArg Prod.fst hcustody
      simp only [hn, Bool.true_and, htakes]
      by_cases ht : ((db.accountRow profile.uuid).learnKind profile.kind).takesProfileCustodian at' =
        true
      · simp [ht, Store.custodianAfter]
      · simp only [ht, Bool.false_eq_true, if_false, huuid, Store.custodianAfter]
        split
        · rename_i hs
          rw [hs]
        · rfl
  · rename_i hn
    cases h
    have hnone : ¬(((db.accountRow profile.uuid).learnKind profile.kind).takesProfile
        profile.version && profile.kind = .silicon &&
        ((db.accountRow profile.uuid).learnKind profile.kind).takesProfileCustodian at') = true := by
      simp_all
    rw [if_neg hnone]
    exact Store.custodianOf_of_custody (hwritten s)

theorem find_takesCustodianChange (db : Store) (u : AccountUuid)
    (to' : Option (AccountUuid × Option PublicId)) (at' : Instant) :
    ∃ row, (upsertCustodian to' at' (ensureAccount u .silicon db)).accounts.find u = some row ∧
      row.custodianUuid = db.custodianOf u ∧ row.takesCustodianChange at' =
        ((db.accountRow u).learnKind .silicon).takesCustodianChange at' := by
  have hknown := find_ensureAccount_self db u .silicon
  obtain ⟨row, hrow, hkind, hcustody⟩ :=
    Store.KeepsCustody.upsertCustodian to' at' _ hknown (by simp [AccountRow.learnKind])
  have hchanged : row.custodianChangedAt = (db.accountRow u).custodianChangedAt :=
    congrArg Prod.snd hcustody
  refine ⟨row, hrow, congrArg Prod.fst hcustody, ?_⟩
  simp only [AccountRow.takesCustodianChange, hkind, hchanged]
  rfl

theorem custodianChanged_custodianOf (from' : Option AccountUuid)
    (to' : Option (AccountUuid × Option PublicId)) (s : AccountUuid) :
    (custodianChanged u from' to' at' clock db).custodianOf s =
      db.custodianAfter ((AccountsChange.custodianChanged u from' to').custodian at' db) s := by
  obtain ⟨row, hrow, huuid, htakes⟩ := find_takesCustodianChange db u to' at'
  have hsame : ∀ s, (upsertCustodian to' at' (ensureAccount u .silicon db)).custodianOf s =
      db.custodianOf s := fun s => Store.custodianOf_of_custody (by simp)
  have hwritten : (writeCustodian u (to'.map Prod.fst) at' clock
      (upsertCustodian to' at' (ensureAccount u .silicon db))).custodianOf s =
        db.custodianAfter ((AccountsChange.custodianChanged u from' to').custodian at' db) s := by
    rw [custodianOf_update (q := (·.takesCustodianChange at')) (by exact fun _ => rfl) hrow rfl s,
      hsame]
    simp only [AccountsChange.custodian, htakes]
    split
    · rename_i hs
      subst hs
      split
      · simp [Store.custodianAfter]
      · exact huuid
    · rename_i hs
      split
      · simp [Store.custodianAfter, hs]
      · rfl
  unfold custodianChanged
  simp only
  split <;> exact hwritten

theorem AccountsChange.apply_custodianOf {change : AccountsChange}
    (h : change.apply at' clock db = .ok db') (s : AccountUuid) :
    db'.custodianOf s = db.custodianAfter (change.custodian at' db) s := by
  have revoked : ∀ uuid, (revoke uuid at' db).custodianOf s = db.custodianOf s := fun uuid =>
    Store.columns_of_upsert (f := fun row => row.revokeBefore at') (fun _ => rfl)
      (find_revoke db uuid s at')
  cases change with
  | idChanged uuid kind oldId newId =>
    cases h
    exact Store.custodianOf_of_custody (by simp [SiliconHook.idChanged])
  | updated profile => exact updated_custodianOf h s
  | custodianChanged uuid from' to' =>
    cases h
    exact custodianChanged_custodianOf from' to' s
  | signedOut uuid reason =>
    simp only [apply] at h
    split at h
    · cases h
      rfl
    · cases h
      exact revoked uuid
  | accessRemoved uuid =>
    cases h
    exact revoked uuid
  | deleted uuid =>
    cases h
    exact Store.columns_of_upsert (f := fun row => row.markDeleted at') (fun _ => rfl)
      (find_deleted db uuid s at' clock)
  | nothing =>
    cases h
    rfl

theorem hasGrant_of_onlyAccounts {silicon grantee : AccountUuid}
    (h : Store.OnlyAccounts db db') : hasGrant silicon grantee db' = hasGrant silicon grantee db := by
  obtain ⟨accounts, ids, rfl⟩ := h
  rfl

/-- What an applied change removes: with a grant its subscription, and that of
the former custodian it names, where nothing else gives access. -/
theorem AccountsChange.apply_observers {change : AccountsChange}
    (h : change.apply at' clock db = .ok db') : ∃ p, Store.Removes p db db' ∧
      (∀ row, p row = false → hasGrant row.siliconUuid row.recipientUuid db = true →
        hasGrant row.siliconUuid row.recipientUuid db' = true) ∧
      ∀ row c, change.custodian at' db = some (row.siliconUuid, c) →
        change.former = some row.recipientUuid → c ≠ some row.recipientUuid →
          hasGrant row.siliconUuid row.recipientUuid db = false → p row = true := by
  have onlyAccounts : Store.OnlyAccounts db db' → change.former = none → ∃ p,
      Store.Removes p db db' ∧
      (∀ row, p row = false → hasGrant row.siliconUuid row.recipientUuid db = true →
        hasGrant row.siliconUuid row.recipientUuid db' = true) ∧
      ∀ row c, change.custodian at' db = some (row.siliconUuid, c) →
        change.former = some row.recipientUuid → c ≠ some row.recipientUuid →
          hasGrant row.siliconUuid row.recipientUuid db = false → p row = true := by
    intro ho hf
    refine ⟨_, ho.removes, fun row _ hg => (hasGrant_of_onlyAccounts ho).trans hg, ?_⟩
    intro row c _ hformer
    rw [hf] at hformer
    cases hformer
  cases change with
  | idChanged uuid kind oldId newId =>
    cases h
    exact onlyAccounts (.idChanged ..) rfl
  | updated profile => exact onlyAccounts (.updated h) rfl
  | custodianChanged uuid from' to' =>
    cases h
    obtain ⟨row, hrow, -, htakes⟩ := find_takesCustodianChange db uuid to' at'
    obtain ⟨accounts, ids, hknown⟩ : Store.OnlyAccounts db
        (upsertCustodian to' at' (ensureAccount uuid .silicon db)) :=
      .trans ⟨_, _, rfl⟩ (Store.OnlyAccounts.upsertCustodian ..)
    have hcustodian : ∀ s c, (AccountsChange.custodianChanged uuid from' to').custodian at' db =
        some (s, c) → row.takesCustodianChange at' = true ∧ uuid = s ∧ to'.map Prod.fst = c := by
      intro s c hc
      simp only [AccountsChange.custodian] at hc
      split at hc
      · rename_i ht
        cases hc
        exact ⟨htakes.trans ht, rfl, rfl⟩
      · cases hc
    simp only [SiliconHook.custodianChanged, hrow, Option.any_some]
    simp only [hknown]
    split
    · rename_i previous _
      refine ⟨_, ⟨rfl, rfl, rfl⟩, fun _ _ hg => hg, fun sub c hc hformer hne hg => ?_⟩
      obtain ⟨-, rfl, rfl⟩ := hcustodian _ _ hc
      obtain rfl : previous = sub.recipientUuid := Option.some.inj hformer
      have hgrant : hasGrant sub.siliconUuid sub.recipientUuid (writeCustodian sub.siliconUuid
          (to'.map Prod.fst) at' clock { db with accounts := accounts, accountIds := ids }) =
            false := hg
      simp [formerCustodianSubscription, hgrant, hne]
    · rename_i hnone
      refine ⟨_, Store.OnlyAccounts.removes ⟨_, _, rfl⟩, fun _ _ hg => hg, ?_⟩
      intro sub c hc hformer _ _
      exact absurd hformer (hnone _ (hcustodian _ _ hc).1)
  | signedOut uuid reason =>
    simp only [apply] at h
    split at h
    · cases h
      exact onlyAccounts .refl rfl
    · cases h
      exact ⟨_, ⟨rfl, rfl, rfl⟩, fun _ _ hg => hg, fun _ _ hc => by cases hc⟩
  | accessRemoved uuid =>
    cases h
    exact ⟨_, ⟨rfl, rfl, rfl⟩, fun _ _ hg => hg, fun _ _ hc => by cases hc⟩
  | deleted uuid =>
    cases h
    have hgrants : ∀ row : SubscriptionRow, (row.siliconUuid = uuid || row.recipientUuid = uuid) =
        false → hasGrant row.siliconUuid row.recipientUuid db = true →
          ((db.siliconGrants.delete fun grant => grant.siliconUuid = uuid ||
            grant.granteeUuid = uuid).find (row.siliconUuid, row.recipientUuid)).isSome = true := by
      intro row hp hg
      obtain ⟨grant, hfind⟩ := Option.isSome_iff_exists.mp hg
      have hkey := Table.find_key hfind
      simp only [Keyed.key, Prod.mk.injEq] at hkey
      rw [Table.find_delete, hfind]
      simpa [hkey.1, hkey.2] using hp
    simp only [SiliconHook.deleted]
    split
    · exact ⟨_, ⟨rfl, rfl, rfl⟩, hgrants, fun _ _ hc => by cases hc⟩
    · exact ⟨_, ⟨rfl, rfl, rfl⟩, hgrants, fun _ _ hc => by cases hc⟩
  | nothing =>
    cases h
    exact onlyAccounts .refl rfl

def AccountView.custodianIn (view : AccountView) (at' : Instant) (db : Store) :
    Option (AccountUuid × Option AccountUuid) :=
  let row := (upsertCustodian view.custodian at' db).accountRow view.uuid
  if row.deletedAt.isSome then none
  else if (row.learnKind view.kind).kind = some .silicon then
    some (view.uuid, view.custodian.map Prod.fst)
  else some (view.uuid, none)

theorem AccountRow.applyView_custodianUuid (view : AccountView) :
    (row.applyView view at').custodianUuid =
      if row.deletedAt.isSome then row.custodianUuid
      else if (row.learnKind view.kind).kind = some .silicon then view.custodian.map Prod.fst
      else none := by
  unfold applyView
  split
  · rfl
  · simp only
    split <;> rfl

theorem recordAccountView_custodianOf {view : AccountView}
    (h : recordAccountView view at' db = .ok (row, db')) (s : AccountUuid) :
    db'.custodianOf s = db.custodianAfter (view.custodianIn at' db) s := by
  have hsame : ∀ s, (upsertCustodian view.custodian at' db).custodianOf s = db.custodianOf s :=
    fun s => Store.custodianOf_of_custody (by simp)
  unfold recordAccountView at h
  simp only at h
  split at h
  · cases h
  · rename_i hview
    cases h
    unfold AccountView.custodianIn
    simp only
    generalize upsertCustodian view.custodian at' db = known at hsame ⊢
    have hfind := Table.find_upsert (t := known.accounts) (r := AccountRow.ofView view at')
      (k := s) (AccountRow.applyView_key view at')
    have hkey : Keyed.key (AccountRow.ofView view at') = view.uuid := rfl
    rw [hkey] at hfind
    by_cases hs : s = view.uuid
    · subst hs
      rw [if_pos rfl] at hfind
      have hrow : (rememberPublicId? view.uuid view.publicId { known with
          accounts := known.accounts.upsert (.ofView view at') (·.applyView view at')
            (AccountRow.applyView_key view at') }).custodianOf view.uuid =
          ((known.accountRow view.uuid).applyView view at').custodianUuid := by
        rw [Store.custodianOf, Store.accountRow_congr rememberPublicId?_accounts,
          Store.accountRow_of_find hfind, Store.accountRow]
        cases known.accounts.find view.uuid with
        | none =>
          rw [Option.elim_none, Option.getD_none, AccountRow.applyView_custodianUuid]
          -- a Carbon's answer names no custodian
          cases hk : view.kind with
          | silicon => rfl
          | carbon =>
            have hnone : view.custodian = none := by simpa [hk] using hview
            simp [AccountRow.ofView, hnone, AccountRow.blank]
        | some stored => rfl
      rw [hrow, AccountRow.applyView_custodianUuid]
      have huuid : (known.accountRow view.uuid).custodianUuid = db.custodianOf view.uuid :=
        hsame view.uuid
      split
      · exact huuid
      · split <;> simp [Store.custodianAfter]
    · rw [if_neg hs] at hfind
      have hrow : (rememberPublicId? view.uuid view.publicId { known with
          accounts := known.accounts.upsert (.ofView view at') (·.applyView view at')
            (AccountRow.applyView_key view at') }).custodianOf s = db.custodianOf s := by
        rw [← hsame s, Store.custodianOf, Store.accountRow_congr rememberPublicId?_accounts,
          Store.custodianOf, Store.accountRow, hfind]
        rfl
      rw [hrow]
      split
      · rfl
      · split <;> simp [Store.custodianAfter, hs]

end

-- -----------------------------------------------------------------------------
-- Copies waiting to go out
-- -----------------------------------------------------------------------------

def Store.siliconOf (db : Store) (event : EventId) : Option AccountUuid :=
  (db.events.find event).bind EventRow.siliconUuid

def OutboxRow.pending (row : OutboxRow) (now : Instant) : Bool :=
  row.acceptedAt.isNone && decide (now < row.expiresAt)

def Store.waiting (db : Store) (silicon recipient : AccountUuid) (now : Instant) : Bool :=
  db.tingOutbox.rows.any fun row => row.pending now && row.observerSubscriptionId.isSome &&
    decide (row.recipientId = recipient) && decide (db.siliconOf row.eventId = some silicon)

structure AccessWorld where
  db : Store
  clock : Instant
  claims : List TingOutboxClaim

/-- One transaction, or `elsewhere`: any other one, which leaves accounts,
grants, subscriptions, events and sends as they are. -/
inductive AccessLabel
  | accepted (deliverySummary : SummaryRenderer) (command : AcceptEvent) (sendId : Uuid)
      (sendIds : Uuid → Uuid)
  | granted (silicon grantee : AccountUuid) (level : GrantLevel) (actor : Actor)
  | revoked (silicon grantee : AccountUuid) (granteeKeepsAccess : Bool)
  | delivered (event : AccountsEvent)
  | lookedUp (view : AccountView) (at' : Instant)
  | foundDeleted (uuid : AccountUuid) (at' : Instant)
  | subscribed (id : Uuid) (silicon recipient : AccountUuid)
  | unsubscribed (silicon recipient : AccountUuid)
  | claimed (limit : Nat) (leaseDuration : Int) (leaseIds : Uuid → Uuid)
  | completed (claim : TingOutboxClaim) (tingId : String) (silent : Bool)
  | retried (claim : TingOutboxClaim) (failure : TingSendFailure) (retryAt : Instant)
  | purged (expired : EventRow → Bool)
  | advanced (duration : Nat)
  | elsewhere (db : Store)

namespace AccessWorld

abbrev rows (world : AccessWorld) : List OutboxRow := world.db.tingOutbox.rows

/-- The store after a transaction; a refused one is rolled back. A request is
accepted for a hook as it was resolved, with the Silicon its row has. -/
def perform (codec : DeliveryCodec) (world : AccessWorld) : AccessLabel → Store
  | .accepted deliverySummary command sendId sendIds =>
    if (world.db.hooks.find command.hook.id).any (·.siliconUuid = command.hook.siliconUuid) then
      match codec.acceptEvent deliverySummary command sendId sendIds world.clock world.db with
      | .ok (_, db) => db
      | .error _ => world.db
    else world.db
  | .granted silicon grantee level actor =>
    match putGrant silicon grantee level actor world.db with
    | .ok db => db
    | .error _ => world.db
  | .revoked silicon grantee keeps => (deleteGrant silicon grantee keeps world.db).2
  | .delivered event => deliver event world.clock world.db
  | .lookedUp view at' =>
    match recordAccountView view at' world.db with
    | .ok (_, db) => db
    | .error _ => world.db
  | .foundDeleted uuid at' => recordAccountDeletedByLookup uuid at' world.db
  | .subscribed id silicon recipient =>
    match subscribe id silicon recipient world.db with
    | .ok (_, db) => db
    | .error _ => world.db
  | .unsubscribed silicon recipient => (unsubscribe silicon recipient world.db).2
  | .claimed limit leaseDuration leaseIds =>
    match claimTing limit leaseDuration leaseIds world.clock world.db with
    | .ok (_, db) => db
    | .error _ => world.db
  | .completed claim tingId silent =>
    match completeTing claim tingId silent world.clock world.db with
    | .ok (_, db) => db
    | .error _ => world.db
  | .retried claim failure retryAt => (retryTing claim failure retryAt world.clock world.db).2
  | .purged expired => world.db.deleteEvents expired
  | .advanced _ => world.db
  | .elsewhere other => { other with
      accounts := world.db.accounts
      siliconGrants := world.db.siliconGrants
      observerSubscriptions := world.db.observerSubscriptions
      events := world.db.events
      tingOutbox := world.db.tingOutbox }

def made (world : AccessWorld) : AccessLabel → List TingOutboxClaim
  | .claimed limit leaseDuration leaseIds =>
    match claimTing limit leaseDuration leaseIds world.clock world.db with
    | .ok (made, _) => made
    | .error _ => []
  | _ => []

def elapsed : AccessLabel → Nat
  | .advanced duration => duration
  | _ => 0

def step (codec : DeliveryCodec) (world : AccessWorld) (label : AccessLabel) : AccessWorld :=
  ⟨world.perform codec label, world.clock + elapsed label, world.claims ++ world.made label⟩

def Fresh (world : AccessWorld) : AccessLabel → Prop
  | .claimed _ _ leaseIds =>
    ∀ row ∈ world.rows, leaseIds row.id ∉ world.claims.map TingOutboxClaim.leaseId
  | _ => True

instance (world : AccessWorld) : ∀ label, Decidable (world.Fresh label)
  | .claimed _ _ leaseIds => inferInstanceAs (Decidable
      (∀ row ∈ world.rows, leaseIds row.id ∉ world.claims.map TingOutboxClaim.leaseId))
  | .accepted .. | .granted .. | .revoked .. | .delivered _ | .lookedUp .. | .foundDeleted ..
  | .subscribed .. | .unsubscribed .. | .completed .. | .retried .. | .purged _ | .advanced _
  | .elsewhere _ => isTrue trivial

/-- Whenever a publisher sends a copy, its recipient has access to the event's
Silicon in the store in which the claim was found current. -/
def InForce (world : AccessWorld) : Prop :=
  ∀ claim ∈ world.claims, claim.observerSubscriptionId.isSome →
    tingClaimIsCurrent claim world.clock world.db = true →
      ∃ silicon, world.db.siliconOf claim.eventId = some silicon ∧
        world.db.hasAccess silicon claim.recipientId = true

-- -----------------------------------------------------------------------------
-- Steps that end access
-- -----------------------------------------------------------------------------

/-- A change of custodian lets no copy wait for a Carbon it takes access from:
the former custodian stays, is unsubscribed with it, has a grant, or has none
waiting. -/
def passesOn (world : AccessWorld) (change : Option (AccountUuid × Option AccountUuid))
    (unsubscribed : Option AccountUuid) : Bool :=
  change.all fun (silicon, custodian) => (world.db.custodianOf silicon).all fun former =>
    decide (custodian = some former) || decide (unsubscribed = some former) ||
      hasGrant silicon former world.db || !world.db.waiting silicon former world.clock

/-- The step ends nobody's access while a copy of theirs stays queued. -/
def keepsPace (world : AccessWorld) : AccessLabel → Bool
  | .revoked silicon grantee keeps =>
    !keeps || !hasGrant silicon grantee world.db ||
      decide (world.db.custodianOf silicon = some grantee) ||
      !world.db.waiting silicon grantee world.clock
  | .delivered event =>
    !decide (event.Admitted world.db) ||
      world.passesOn (event.change.custodian event.occurredAt world.db) event.change.former
  | .lookedUp view at' =>
    decide (view.kind ≠ .silicon ∧ view.custodian.isSome) ||
      world.passesOn (view.custodianIn at' world.db) none
  | _ => true

-- -----------------------------------------------------------------------------
-- The invariant
-- -----------------------------------------------------------------------------

/-- A queued copy belongs to a subscription of its recipient to its event's
Silicon, and the recipient has access while the copy may still go out. -/
def Covered (world : AccessWorld) (row : OutboxRow) (subscription : Uuid) : Prop :=
  ∃ silicon, ⟨subscription, silicon, row.recipientId⟩ ∈ world.db.observerSubscriptions.rows ∧
    world.db.siliconOf row.eventId = some silicon ∧
    (row.pending world.clock = true → world.db.hasAccess silicon row.recipientId = true)

def Claimed (claim : TingOutboxClaim) (row : OutboxRow) : Prop :=
  row.eventId = claim.eventId ∧ row.recipientId = claim.recipientId ∧
    row.observerSubscriptionId = claim.observerSubscriptionId

structure Inv (codec : DeliveryCodec) (world : AccessWorld) : Prop where
  fanOut : FanOutInv codec world.db
  ids : (world.rows.map OutboxRow.id).Nodup
  copies : ∀ row ∈ world.rows, ∀ subscription ∈ row.observerSubscriptionId,
    world.Covered row subscription
  held : ∀ claim ∈ world.claims, ∀ row ∈ world.rows, row.id = claim.id →
    row.leaseId = some claim.leaseId → Claimed claim row

variable {codec : DeliveryCodec} {world world' : AccessWorld}

theorem Inv.inForce (h : Inv codec world) : world.InForce := by
  intro claim hclaim hobserver hcurrent
  obtain ⟨row, hm, hheld⟩ := List.any_eq_true.mp hcurrent
  simp only [OutboxRow.heldBy, Bool.and_eq_true, decide_eq_true_eq] at hheld
  obtain ⟨⟨⟨⟨hid, hlease⟩, haccepted⟩, -⟩, hexpires⟩ := hheld
  obtain ⟨hevent, hrecipient, hobs⟩ := h.held claim hclaim row hm hid hlease
  obtain ⟨subscription, hs⟩ := Option.isSome_iff_exists.mp hobserver
  obtain ⟨silicon, -, hsilicon, haccess⟩ := h.copies row hm subscription (hobs.trans hs)
  rw [hevent] at hsilicon
  rw [hrecipient] at haccess
  exact ⟨silicon, hsilicon, haccess (by simp [OutboxRow.pending, haccepted, hexpires])⟩

structure Follows (row row' : OutboxRow) : Prop where
  eventId : row'.eventId = row.eventId
  recipientId : row'.recipientId = row.recipientId
  observer : row'.observerSubscriptionId = row.observerSubscriptionId
  pending : ∀ now now', now ≤ now' → row'.pending now' = true → row.pending now = true

theorem Follows.refl {row : OutboxRow} : Follows row row := by
  refine ⟨rfl, rfl, rfl, fun now now' hle hp => ?_⟩
  simp only [OutboxRow.pending, Bool.and_eq_true, decide_eq_true_eq] at hp ⊢
  exact ⟨hp.1, hle.trans_lt hp.2⟩

/-- What a step that queues nothing keeps, where it ends nobody's access. -/
structure Keeps (world world' : AccessWorld) : Prop where
  clock : world.clock ≤ world'.clock
  ids : (world'.rows.map OutboxRow.id).Sublist (world.rows.map OutboxRow.id)
  rows : ∀ row' ∈ world'.rows, ∃ row ∈ world.rows, Follows row row'
  leases : ∀ row' ∈ world'.rows, ∀ lease ∈ row'.leaseId,
    row' ∈ world.rows ∨ lease ∉ world.claims.map TingOutboxClaim.leaseId
  silicon : ∀ row' ∈ world'.rows,
    world'.db.siliconOf row'.eventId = world.db.siliconOf row'.eventId
  subscriptions : ∀ row' ∈ world'.rows, ∀ subscription ∈ world.db.observerSubscriptions.rows,
    row'.observerSubscriptionId = some subscription.id →
      subscription ∈ world'.db.observerSubscriptions.rows
  access : ∀ row' ∈ world'.rows, ∀ subscription ∈ world.db.observerSubscriptions.rows,
    row'.observerSubscriptionId = some subscription.id →
      row'.recipientId = subscription.recipientUuid → row'.pending world'.clock = true →
      world.db.siliconOf row'.eventId = some subscription.siliconUuid →
      world.db.hasAccess subscription.siliconUuid subscription.recipientUuid = true →
        world'.db.hasAccess subscription.siliconUuid subscription.recipientUuid = true

theorem Inv.keeps {made : List TingOutboxClaim} (h : Inv codec world) (hk : Keeps world world')
    (hfan : FanOutInv codec world'.db) (hclaims : world'.claims = world.claims ++ made)
    (hmade : ∀ claim ∈ made, ∀ row ∈ world'.rows, row.id = claim.id → Claimed claim row) :
    Inv codec world' := by
  refine ⟨hfan, hk.ids.nodup h.ids, fun row' hm subscription hs => ?_, ?_⟩
  case refine_2 =>
    intro claim hclaim row hm hid hlease
    rw [hclaims] at hclaim
    obtain hold | hnew := List.mem_append.mp hclaim
    · obtain hrow | hdrawn := hk.leases row hm _ hlease
      · exact h.held claim hold row hrow hid hlease
      · exact absurd (List.mem_map_of_mem hold) hdrawn
    · exact hmade claim hnew row hm hid
  obtain ⟨row, hrow, hf⟩ := hk.rows row' hm
  obtain ⟨silicon, hsub, hsilicon, haccess⟩ := h.copies row hrow subscription (hf.observer ▸ hs)
  rw [← hf.eventId] at hsilicon
  rw [← hf.recipientId] at hsub haccess
  refine ⟨silicon, hk.subscriptions row' hm _ hsub hs, (hk.silicon row' hm).trans hsilicon, ?_⟩
  intro hp
  exact hk.access row' hm _ hsub hs rfl hp hsilicon (haccess (hf.pending _ _ hk.clock hp))

-- -----------------------------------------------------------------------------
-- Steps
-- -----------------------------------------------------------------------------

theorem waiting_of_row {row : OutboxRow} {silicon recipient : AccountUuid}
    (hm : row ∈ world.rows) (hp : row.pending world.clock = true)
    (ho : row.observerSubscriptionId.isSome) (hr : row.recipientId = recipient)
    (hs : world.db.siliconOf row.eventId = some silicon) :
    world.db.waiting silicon recipient world.clock = true :=
  List.any_eq_true.mpr ⟨row, hm, by simp [hp, ho, hr, hs]⟩

/-- A step that removes subscriptions, each with its queued copies, and ends
access for no other observer a copy waits for. -/
theorem Keeps.of_removes {p : SubscriptionRow → Bool} (hr : Store.Removes p world.db world'.db)
    (hclock : world.clock ≤ world'.clock)
    (haccess : ∀ subscription ∈ world.db.observerSubscriptions.rows, p subscription = false →
      world.db.waiting subscription.siliconUuid subscription.recipientUuid world.clock = true →
      world.db.hasAccess subscription.siliconUuid subscription.recipientUuid = true →
        world'.db.hasAccess subscription.siliconUuid subscription.recipientUuid = true) :
    Keeps world world' := by
  have hrows : ∀ row ∈ world'.rows, row ∈ world.rows ∧ row.observerSubscriptionId.any
      ((world.db.observerSubscriptions.select p).map SubscriptionRow.id).contains = false := by
    intro row hm
    rw [AccessWorld.rows, hr.outbox] at hm
    exact Table.mem_delete.mp hm
  have hkept : ∀ row ∈ world'.rows, ∀ subscription ∈ world.db.observerSubscriptions.rows,
      row.observerSubscriptionId = some subscription.id → p subscription = false := by
    intro row hm subscription hsub ho
    by_contra hp
    have hany := (hrows row hm).2
    rw [ho, Option.any_some, ← Bool.not_eq_true, List.contains_iff_mem] at hany
    refine hany (List.mem_map.mpr ⟨subscription, List.mem_filter.mpr ⟨hsub, ?_⟩, rfl⟩)
    simpa using hp
  refine ⟨hclock, ?_, fun row hm => ⟨row, (hrows row hm).1, .refl⟩,
    fun row hm _ _ => .inl (hrows row hm).1, ?_, ?_, ?_⟩
  · rw [AccessWorld.rows, hr.outbox]
    exact List.filter_sublist.map _
  · intro row _
    rw [Store.siliconOf, Store.siliconOf, hr.events]
  · intro row hm subscription hsub ho
    rw [hr.subscriptions]
    exact Table.mem_delete.mpr ⟨hsub, hkept row hm subscription hsub ho⟩
  · intro row hm subscription hsub ho hrecipient hp hsilicon ha
    refine haccess subscription hsub (hkept row hm subscription hsub ho) ?_ ha
    exact waiting_of_row (hrows row hm).1 (Follows.refl.pending _ _ hclock hp) (by simp [ho])
      hrecipient hsilicon

theorem Keeps.of_access (hsubs : world'.db.observerSubscriptions = world.db.observerSubscriptions)
    (hevents : world'.db.events = world.db.events)
    (hrows : world'.db.tingOutbox = world.db.tingOutbox) (hclock : world.clock ≤ world'.clock)
    (haccess : ∀ silicon recipient, world.db.waiting silicon recipient world.clock = true →
      world.db.hasAccess silicon recipient = true →
        world'.db.hasAccess silicon recipient = true) : Keeps world world' := by
  obtain ⟨hs, ho, -⟩ := (Store.OnlyAccounts.refl : Store.OnlyAccounts world.db world.db).removes
  refine Keeps.of_removes ⟨hsubs.trans hs, hrows.trans ho, hevents⟩ hclock ?_
  exact fun subscription _ _ hw ha => haccess _ _ hw ha

theorem Keeps.of_db (hdb : world'.db = world.db) (hclock : world.clock ≤ world'.clock) :
    Keeps world world' := by
  refine Keeps.of_access ?_ ?_ ?_ hclock fun _ _ _ ha => ?_
  · rw [hdb]
  · rw [hdb]
  · rw [hdb]
  · rw [hdb]
    exact ha

theorem access_kept {change : Option (AccountUuid × Option AccountUuid)}
    {former : Option AccountUuid} {silicon recipient : AccountUuid} {db : Store}
    (hp : world.passesOn change former = true)
    (hc : db.custodianOf silicon = world.db.custodianAfter change silicon)
    (hgrant : hasGrant silicon recipient world.db = true → hasGrant silicon recipient db = true)
    (hformer : ∀ c, change = some (silicon, c) → former = some recipient → c ≠ some recipient →
      hasGrant silicon recipient world.db = true)
    (hw : world.db.waiting silicon recipient world.clock = true)
    (ha : world.db.hasAccess silicon recipient = true) :
    db.hasAccess silicon recipient = true := by
  rw [Store.hasAccess_iff] at ha ⊢
  obtain hg | hcustodian := ha
  · exact .inl (hgrant hg)
  cases hchange : change with
  | none =>
    rw [hchange] at hc
    exact .inr (hc.trans hcustodian)
  | some written =>
    obtain ⟨s, c⟩ := written
    rw [hchange] at hc
    by_cases hs : silicon = s
    · subst hs
      rw [Store.custodianAfter, if_pos rfl] at hc
      simp only [passesOn, hchange, Option.all_some, hcustodian, hw, Bool.not_true, Bool.or_false,
        Bool.or_eq_true, decide_eq_true_eq] at hp
      by_cases hstays : c = some recipient
      · exact .inr (hc.trans hstays)
      · obtain (hstays' | hf) | hg := hp
        · exact absurd hstays' hstays
        · exact .inl (hgrant (hformer c hchange hf hstays))
        · exact .inl (hgrant hg)
    · rw [Store.custodianAfter, if_neg hs] at hc
      exact .inr (hc.trans hcustodian)

theorem keeps_delivered {event : AccountsEvent} (hp : world.keepsPace (.delivered event) = true) :
    Keeps world (world.step codec (.delivered event)) := by
  by_cases ha : event.Admitted world.db
  · obtain ⟨recorded, -, heq⟩ := deliver_admitted world.clock ha
    have hdb : (world.step codec (.delivered event)).db = deliver event world.clock world.db := rfl
    rw [heq] at hdb
    cases hc : event.change.apply event.occurredAt world.clock
        { world.db with accountsEvents := recorded } with
    | error e =>
      rw [hc] at hdb
      exact Keeps.of_db hdb (by simp [step, elapsed])
    | ok db =>
      rw [hc] at hdb
      obtain ⟨p, hr, hgrants, hformer⟩ := AccountsChange.apply_observers hc
      have hcustodian := AccountsChange.apply_custodianOf hc
      simp only [keepsPace, ha, decide_true, Bool.not_true, Bool.false_or] at hp
      refine Keeps.of_removes (p := p) ?_ (by simp [step, elapsed]) fun sub _ hkept hw haccess => ?_
      · rw [hdb]
        exact hr.of_tables rfl rfl rfl
      · rw [hdb]
        refine access_kept hp (hcustodian sub.siliconUuid) (hgrants sub hkept) ?_ hw haccess
        intro c hchange hf hne
        by_contra hg
        rw [hformer sub c hchange hf hne (Bool.eq_false_iff.mpr hg)] at hkept
        cases hkept
  · obtain ⟨events, heq⟩ := deliver_not_admitted world.clock ha
    have hdb : (world.step codec (.delivered event)).db = deliver event world.clock world.db := rfl
    rw [heq] at hdb
    refine Keeps.of_access ?_ ?_ ?_ (by simp [step, elapsed]) fun _ _ _ ha => ?_
    · rw [hdb]
    · rw [hdb]
    · rw [hdb]
    · rw [hdb]
      exact ha

theorem keeps_lookedUp {view : AccountView} {at' : Instant}
    (hp : world.keepsPace (.lookedUp view at') = true) :
    Keeps world (world.step codec (.lookedUp view at')) := by
  have hdb : (world.step codec (.lookedUp view at')).db =
    match recordAccountView view at' world.db with
    | .ok (_, db) => db
    | .error _ => world.db := rfl
  cases hv : recordAccountView view at' world.db with
  | error e =>
    rw [hv] at hdb
    exact Keeps.of_db hdb (by simp [step, elapsed])
  | ok answer =>
    obtain ⟨row, db⟩ := answer
    rw [hv] at hdb
    have hcustodian := recordAccountView_custodianOf hv
    obtain ⟨hview, -, -⟩ := recordAccountView_ok hv
    have hvalid : ¬(view.kind ≠ .silicon ∧ view.custodian.isSome) := by
      rintro ⟨hk, hs⟩
      rw [hview hk] at hs
      cases hs
    simp only [keepsPace, hvalid, decide_false, Bool.false_or] at hp
    obtain ⟨accounts, ids, rfl⟩ := Store.OnlyAccounts.recordAccountView hv
    refine Keeps.of_access ?_ ?_ ?_ (by simp [step, elapsed]) fun silicon recipient hw ha => ?_
    · rw [hdb]
    · rw [hdb]
    · rw [hdb]
    · rw [hdb]
      exact access_kept hp (hcustodian silicon) id (fun _ _ hf => nomatch hf) hw ha

theorem keeps_revoked {silicon grantee : AccountUuid} {keeps : Bool}
    (hp : world.keepsPace (.revoked silicon grantee keeps) = true) :
    Keeps world (world.step codec (.revoked silicon grantee keeps)) := by
  have hdb : (world.step codec (.revoked silicon grantee keeps)).db =
    (deleteGrant silicon grantee keeps world.db).2 := rfl
  have hother : ∀ s r, ¬(s = silicon ∧ r = grantee) → hasGrant s r world.db = true →
      ((world.db.siliconGrants.delete fun row => row.siliconUuid = silicon &&
        row.granteeUuid = grantee).find (s, r)).isSome = true := by
    intro s r hne hg
    obtain ⟨grant, hfind⟩ := Option.isSome_iff_exists.mp hg
    have hkey := Table.find_key hfind
    simp only [Keyed.key, Prod.mk.injEq] at hkey
    have hne := not_and_or.mp hne
    rw [Table.find_delete, hfind]
    simpa [hkey.1, hkey.2] using hne
  unfold deleteGrant at hdb
  by_cases hg : hasGrant silicon grantee world.db = true
  · simp only [hg, Bool.not_true, Bool.false_eq_true, if_false] at hdb
    cases keeps with
    | true =>
      simp only [if_true] at hdb
      simp only [keepsPace, hg, Bool.not_true, Bool.false_or, Bool.or_eq_true, decide_eq_true_eq,
        Bool.not_eq_true'] at hp
      refine Keeps.of_access ?_ ?_ ?_ (by simp [step, elapsed]) fun s r hw ha => ?_
      · rw [hdb]
      · rw [hdb]
      · rw [hdb]
      · rw [hdb]
        rw [Store.hasAccess_iff] at ha ⊢
        by_cases hsame : s = silicon ∧ r = grantee
        · obtain ⟨rfl, rfl⟩ := hsame
          obtain hc | hnone := hp
          · exact .inr hc
          · rw [hw] at hnone
            cases hnone
        · exact ha.imp_left (hother s r hsame)
    | false =>
      simp only [Bool.false_eq_true, if_false] at hdb
      refine Keeps.of_removes (p := fun row => row.siliconUuid = silicon &&
        row.recipientUuid = grantee) ?_ (by simp [step, elapsed]) fun sub _ hkept _ ha => ?_
      · rw [hdb]
        exact ⟨rfl, rfl, rfl⟩
      · rw [hdb]
        rw [Store.hasAccess_iff] at ha ⊢
        refine ha.imp_left (hother _ _ ?_)
        simpa using hkept
  · simp only [hg, Bool.not_false, if_true] at hdb
    exact Keeps.of_db hdb (by simp [step, elapsed])

theorem keeps_granted (silicon grantee : AccountUuid) (level : GrantLevel) (actor : Actor) :
    Keeps world (world.step codec (.granted silicon grantee level actor)) := by
  have hdb : (world.step codec (.granted silicon grantee level actor)).db =
    match putGrant silicon grantee level actor world.db with
    | .ok db => db
    | .error _ => world.db := rfl
  unfold putGrant at hdb
  by_cases hself : silicon = grantee
  · rw [if_pos hself] at hdb
    exact Keeps.of_db hdb (by simp [step, elapsed])
  · rw [if_neg hself] at hdb
    refine Keeps.of_access ?_ ?_ ?_ (by simp [step, elapsed]) fun s r _ ha => ?_
    · rw [hdb]
    · rw [hdb]
    · rw [hdb]
    · rw [hdb]
      rw [Store.hasAccess_iff] at ha ⊢
      refine ha.imp_left fun hg => ?_
      simp only [hasGrant, Table.find_upsert]
      split
      · rfl
      · exact hg

theorem keeps_subscribed (id : Uuid) (silicon recipient : AccountUuid) :
    Keeps world (world.step codec (.subscribed id silicon recipient)) := by
  have hdb : (world.step codec (.subscribed id silicon recipient)).db =
    match subscribe id silicon recipient world.db with
    | .ok (_, db) => db
    | .error _ => world.db := rfl
  cases hs : subscribe id silicon recipient world.db with
  | error e =>
    rw [hs] at hdb
    exact Keeps.of_db hdb (by simp [step, elapsed])
  | ok answer =>
    obtain ⟨row, db⟩ := answer
    rw [hs] at hdb
    unfold subscribe at hs
    split at hs
    · cases hs
      exact Keeps.of_db hdb (by simp [step, elapsed])
    · split at hs
      · cases hs
      · split at hs
        · cases hs
        · split at hs
          · cases hs
          · split at hs
            · cases hs
            · rename_i subscriptions hins
              cases hs
              have hrows : (world.step codec (.subscribed id silicon recipient)).rows =
                  world.rows := by
                rw [AccessWorld.rows, hdb]
              refine ⟨by simp [step, elapsed], by rw [hrows], fun row hm => ⟨row, ?_, .refl⟩,
                fun row hm _ _ => .inl ?_, ?_, ?_, ?_⟩
              · rwa [hrows] at hm
              · rwa [hrows] at hm
              · intro row _
                rw [hdb]
                rfl
              · intro row _ subscription hsub _
                rw [hdb]
                exact (Table.mem_insert hins).mpr (.inl hsub)
              · intro row _ subscription _ _ _ _ _ ha
                rw [hdb]
                exact ha

theorem keeps_purged (expired : EventRow → Bool) :
    Keeps world (world.step codec (.purged expired)) := by
  refine ⟨by simp [step, elapsed], List.filter_sublist.map _, ?_, ?_, ?_, ?_, ?_⟩
  · exact fun row hm => ⟨row, List.mem_of_mem_filter hm, .refl⟩
  · exact fun row hm _ _ => .inl (List.mem_of_mem_filter hm)
  · intro row hm
    obtain ⟨hm, hkept⟩ := Table.mem_delete.mp hm
    show ((world.db.events.delete expired).find row.eventId).bind EventRow.siliconUuid = _
    rw [Table.find_delete, Store.siliconOf]
    cases hfind : world.db.events.find row.eventId with
    | none => rfl
    | some stored =>
      obtain ⟨hstored, hid⟩ := Table.find_some.mp hfind
      have hlive : expired stored = false := by
        by_contra hp
        have hremoved : row.eventId ∈ (world.db.events.select expired).map EventRow.id :=
          List.mem_map.mpr ⟨stored, List.mem_filter.mpr ⟨hstored, by simpa using hp⟩, hid⟩
        rw [← Bool.not_eq_true, List.contains_iff_mem] at hkept
        exact hkept hremoved
      simp [Option.filter, hlive]
  · exact fun _ _ _ hsub _ => hsub
  · exact fun _ _ _ _ _ _ _ _ ha => ha

theorem Keeps.of_update {p : OutboxRow → Bool} {f : OutboxRow → OutboxRow}
    (hf : ∀ row, Keyed.key (f row) = Keyed.key row)
    (hdb : world'.db = { world.db with tingOutbox := world.db.tingOutbox.update p f hf })
    (hclock : world.clock ≤ world'.clock)
    (hfollows : ∀ row, Follows row (f row)) (hid : ∀ row, (f row).id = row.id)
    (hlease : ∀ row ∈ world.rows, ∀ lease ∈ (f row).leaseId,
      lease ∉ world.claims.map TingOutboxClaim.leaseId) :
    Keeps world world' := by
  have hrows : world'.rows = world.rows.map fun row => if p row then f row else row := by
    rw [AccessWorld.rows, hdb]
    rfl
  refine ⟨hclock, ?_, ?_, ?_, ?_, ?_, ?_⟩
  · rw [hrows, List.map_map]
    have hsame : (OutboxRow.id ∘ fun row => if p row then f row else row) = OutboxRow.id := by
      funext row
      simp only [Function.comp]
      split
      · exact hid row
      · rfl
    rw [hsame]
  · intro row' hm
    rw [hrows] at hm
    obtain ⟨row, hrow, rfl⟩ := List.mem_map.mp hm
    refine ⟨row, hrow, ?_⟩
    split
    · exact hfollows row
    · exact .refl
  · intro row' hm lease hl
    rw [hrows] at hm
    obtain ⟨row, hrow, rfl⟩ := List.mem_map.mp hm
    split at hl
    · exact .inr (hlease row hrow lease hl)
    · rename_i hp
      rw [if_neg hp]
      exact .inl hrow
  · intro row _
    rw [hdb]
    rfl
  · intro row _ subscription hsub _
    rw [hdb]
    exact hsub
  · intro row _ subscription _ _ _ _ _ ha
    rw [hdb]
    exact ha

theorem Inv.keeps_claimed (h : Inv codec world) {limit : Nat} {leaseDuration : Int}
    {leaseIds : Uuid → Uuid} (hf : world.Fresh (.claimed limit leaseDuration leaseIds)) :
    Keeps world (world.step codec (.claimed limit leaseDuration leaseIds)) ∧
      ∀ claim ∈ world.made (.claimed limit leaseDuration leaseIds),
        ∀ row ∈ (world.step codec (.claimed limit leaseDuration leaseIds)).rows,
          row.id = claim.id → Claimed claim row := by
  have hdb : (world.step codec (.claimed limit leaseDuration leaseIds)).db =
    match claimTing limit leaseDuration leaseIds world.clock world.db with
    | .ok (_, db) => db
    | .error _ => world.db := rfl
  simp only [made]
  cases hc : claimTing limit leaseDuration leaseIds world.clock world.db with
  | error e =>
    rw [hc] at hdb
    exact ⟨Keeps.of_db hdb (by simp [step, elapsed]), fun _ hm => nomatch hm⟩
  | ok answer =>
    obtain ⟨claims, db⟩ := answer
    rw [hc] at hdb
    obtain ⟨-, -, rfl, rfl⟩ := claimTing_ok.mp hc
    have hkeeps : Keeps world (world.step codec (.claimed limit leaseDuration leaseIds)) := by
      refine Keeps.of_update (by exact fun _ => rfl) hdb (by simp [step, elapsed])
        (fun row => ⟨rfl, rfl, rfl, Follows.refl.pending⟩) (fun _ => rfl) fun row hm lease hl => ?_
      cases hl
      exact hf row hm
    refine ⟨hkeeps, fun claim hclaim row' hm hid => ?_⟩
    obtain ⟨due, hdue, rfl⟩ := List.mem_map.mp hclaim
    have hrow := (mem_dueSends hdue).1
    rw [AccessWorld.rows, hdb] at hm
    obtain ⟨row, hold, rfl⟩ := (Table.mem_update (by exact fun _ => rfl)).mp hm
    have hsame : row = due := by
      refine List.inj_on_of_nodup_map h.ids hold hrow ?_
      split at hid <;> exact hid
    subst hsame
    split <;> exact ⟨rfl, rfl, rfl⟩

theorem keeps_updateHeld {claim : TingOutboxClaim} {f : OutboxRow → OutboxRow}
    (hf : ∀ row, Keyed.key (f row) = Keyed.key row)
    (hdb : world'.db = (updateHeld claim f hf world.clock world.db).2)
    (hclock : world.clock ≤ world'.clock)
    (hfollows : ∀ row, Follows row (f row)) (hid : ∀ row, (f row).id = row.id)
    (hlease : ∀ row, (f row).leaseId = none) : Keeps world world' := by
  refine Keeps.of_update hf hdb hclock hfollows hid fun row _ lease hl => ?_
  rw [hlease row] at hl
  cases hl

/-- A send that a fan-out makes for an observer is covered by its subscription. -/
theorem covered_of_due {send : DueSend} {s : AccountUuid} {subscription : Uuid} {db : Store}
    (hm : send ∈ db.dueSendsOf s) (ho : send.observer = some subscription) :
    ⟨subscription, s, send.recipient⟩ ∈ db.observerSubscriptions.rows ∧
      db.hasAccess s send.recipient = true := by
  obtain rfl | hm := List.mem_cons.mp hm
  · cases ho
  · obtain ⟨row, hrow, rfl⟩ := List.mem_map.mp hm
    obtain ⟨hobserver, hobserves⟩ := List.mem_filter.mp hrow
    obtain ⟨hstored, hs⟩ := List.mem_filter.mp hobserver
    obtain rfl : row.siliconUuid = s := of_decide_eq_true hs
    cases ho
    simp only [Store.observes, Bool.and_eq_true] at hobserves
    exact ⟨hstored, hobserves.2⟩

theorem Inv.accepted (h : Inv codec world) (deliverySummary : SummaryRenderer)
    (command : AcceptEvent) (sendId : Uuid) (sendIds : Uuid → Uuid) :
    Inv codec (world.step codec (.accepted deliverySummary command sendId sendIds)) := by
  have hdb : (world.step codec (.accepted deliverySummary command sendId sendIds)).db =
    world.perform codec (.accepted deliverySummary command sendId sendIds) := rfl
  have hclock : (world.step codec (.accepted deliverySummary command sendId sendIds)).clock =
      world.clock := by simp [step, elapsed]
  have hclaims : (world.step codec (.accepted deliverySummary command sendId sendIds)).claims =
      world.claims ++ [] := rfl
  have hidle : (world.step codec (.accepted deliverySummary command sendId sendIds)).db =
      world.db → Inv codec (world.step codec (.accepted deliverySummary command sendId sendIds)) :=
    fun hdb => h.keeps (.of_db hdb (by simp [step, elapsed])) (by rw [hdb]; exact h.fanOut) hclaims
      fun _ hm => nomatch hm
  simp only [perform] at hdb
  split at hdb
  · rename_i hlinked
    cases ha : codec.acceptEvent deliverySummary command sendId sendIds world.clock world.db with
    | error e =>
      rw [ha] at hdb
      exact hidle hdb
    | ok answer =>
      obtain ⟨event, db⟩ := answer
      rw [ha] at hdb
      simp only at hdb
      obtain ⟨mid, happended, hqueued⟩ := acceptEvent_ok ha
      have hfree := h.fanOut.unqueued happended
      obtain ⟨hook, events, hhook, hins, -, rfl⟩ := happended.stored
      have hkey : Keyed.key (event.row hook) = event.id := rfl
      have hsilicon : hook.siliconUuid = command.hook.siliconUuid := by
        obtain ⟨stored, hstored, rfl⟩ := Option.map_eq_some_iff.mp hhook
        rw [hstored] at hlinked
        show stored.siliconUuid = command.hook.siliconUuid
        simpa using hlinked
      -- the appended event is no queued row's, so every row keeps its Silicon
      have hold : ∀ row ∈ world.rows,
          (events.find row.eventId).bind EventRow.siliconUuid = world.db.siliconOf row.eventId := by
        intro row hm
        rw [Table.find_insert hins, hkey, if_neg (hfree row hm)]
        rfl
      have hfan := (h.fanOut.accepted ha).1
      rw [← hdb] at hfan
      split at hqueued
      · rename_i appId s hd hs
        obtain ⟨sends, hperm, outbox, new, rfl, hrows, hnew, hids⟩ :=
          queueSends_ok hqueued (h.fanOut.limit s) h.fanOut.notSelf hfree
        have hqueuedRow : ∀ row ∈ new, ∃ send ∈ world.db.dueSendsOf s,
            row.eventId = event.id ∧ row.recipientId = send.recipient ∧
              row.observerSubscriptionId = send.observer ∧ row.leaseId = none := by
          intro row hm
          obtain ⟨send, hsend, _, _, _, _, rfl, -⟩ := exists_mem_of_forall₂ hnew hm
          exact ⟨send, hperm.mem_iff.mp hsend, rfl, rfl, rfl, rfl⟩
        refine ⟨hfan, ?_, ?_, ?_⟩
        · rw [AccessWorld.rows, hdb]
          exact hids h.ids
        · intro row hm subscription ho
          rw [AccessWorld.rows, hdb] at hm
          simp only [Covered, hdb, hclock]
          obtain hm | hm := List.mem_append.mp (hrows ▸ hm)
          · obtain ⟨silicon, hsub, hsil, haccess⟩ := h.copies row hm subscription ho
            exact ⟨silicon, hsub, (hold row hm).trans hsil, haccess⟩
          · obtain ⟨send, hsend, hevent, hrecipient, hobserver, -⟩ := hqueuedRow row hm
            obtain ⟨hsub, haccess⟩ := covered_of_due hsend (hobserver.symm.trans ho)
            rw [← hrecipient] at hsub haccess
            refine ⟨s, hsub, ?_, fun _ => haccess⟩
            show (events.find row.eventId).bind EventRow.siliconUuid = some s
            rw [hevent, Table.find_insert hins, hkey, if_pos rfl, ← hs, ← hsilicon]
            rfl
        · intro claim hclaim row hm hid hlease
          rw [hclaims, List.append_nil] at hclaim
          rw [AccessWorld.rows, hdb] at hm
          obtain hm | hm := List.mem_append.mp (hrows ▸ hm)
          · exact h.held claim hclaim row hm hid hlease
          · obtain ⟨-, -, -, -, -, hnone⟩ := hqueuedRow row hm
            rw [hnone] at hlease
            cases hlease
      · subst hqueued
        refine ⟨hfan, ?_, ?_, ?_⟩
        · rw [AccessWorld.rows, hdb]
          exact h.ids
        · intro row hm subscription ho
          rw [AccessWorld.rows, hdb] at hm
          simp only [Covered, hdb, hclock]
          obtain ⟨silicon, hsub, hsil, haccess⟩ := h.copies row hm subscription ho
          exact ⟨silicon, hsub, (hold row hm).trans hsil, haccess⟩
        · intro claim hclaim row hm hid hlease
          rw [hclaims, List.append_nil] at hclaim
          rw [AccessWorld.rows, hdb] at hm
          exact h.held claim hclaim row hm hid hlease
  · exact hidle hdb

theorem Inv.step (h : Inv codec world) {label : AccessLabel} (hf : world.Fresh label)
    (hp : world.keepsPace label = true) : Inv codec (world.step codec label) := by
  have hquiet : world.made label = [] → Keeps world (world.step codec label) →
      FanOutInv codec (world.step codec label).db → Inv codec (world.step codec label) := by
    intro hmade hk hfan
    have hclaims : (world.step codec label).claims = world.claims ++ world.made label := rfl
    rw [hmade] at hclaims
    exact h.keeps hk hfan hclaims fun _ hm => nomatch hm
  cases label with
  | accepted deliverySummary command sendId sendIds =>
    exact h.accepted deliverySummary command sendId sendIds
  | granted silicon grantee level actor =>
    refine hquiet rfl (keeps_granted ..) ?_
    simp only [AccessWorld.step, perform, putGrant]
    split
    · rename_i hg
      split at hg
      · cases hg
      · cases hg
        exact ⟨h.fanOut.limit, h.fanOut.notSelf, h.fanOut.stored, h.fanOut.prepared⟩
    · exact h.fanOut
  | revoked silicon grantee keeps =>
    exact hquiet rfl (keeps_revoked hp) (h.fanOut.step (.revoked silicon grantee keeps))
  | delivered event =>
    exact hquiet rfl (keeps_delivered hp) (h.fanOut.step (.delivered event world.clock))
  | lookedUp view at' =>
    refine hquiet rfl (keeps_lookedUp hp) ?_
    simp only [AccessWorld.step, perform]
    split
    · rename_i hv
      exact h.fanOut.removed (Store.OnlyAccounts.recordAccountView hv).removes
    · exact h.fanOut
  | foundDeleted uuid at' =>
    refine hquiet rfl ?_ (h.fanOut.removed (Store.OnlyAccounts.removes ⟨_, _, rfl⟩))
    refine Keeps.of_access rfl rfl rfl (by simp [AccessWorld.step, elapsed]) fun s r _ ha => ?_
    have hsame : (recordAccountDeletedByLookup uuid at' world.db).custodianOf s =
        world.db.custodianOf s :=
      Store.columns_of_upsert (f := fun row => { row.revokeBefore at' with
        deletedAt := row.deletedAt <|> some at', publicId := none }) (fun _ => rfl)
        (find_recordAccountDeletedByLookup world.db uuid s at')
    rw [Store.hasAccess_iff] at ha ⊢
    exact ha.imp_right hsame.trans
  | subscribed id silicon recipient =>
    exact hquiet rfl (keeps_subscribed ..) (h.fanOut.step (.subscribed id silicon recipient))
  | unsubscribed silicon recipient =>
    refine hquiet rfl ?_ (h.fanOut.step (.unsubscribed silicon recipient))
    exact Keeps.of_removes ⟨rfl, rfl, rfl⟩ (by simp [AccessWorld.step, elapsed])
      fun _ _ _ _ ha => ha
  | claimed limit leaseDuration leaseIds =>
    obtain ⟨hk, hmade⟩ := h.keeps_claimed hf
    exact h.keeps hk (h.fanOut.step (.claimed limit leaseDuration leaseIds world.clock)) rfl hmade
  | completed claim tingId silent =>
    refine hquiet rfl ?_ (h.fanOut.step (.completed claim tingId silent world.clock))
    have hclock : world.clock ≤ (world.step codec (.completed claim tingId silent)).clock := by
      simp [AccessWorld.step, elapsed]
    have hdb : (world.step codec (.completed claim tingId silent)).db =
      match completeTing claim tingId silent world.clock world.db with
      | .ok (_, db) => db
      | .error _ => world.db := rfl
    unfold completeTing at hdb
    by_cases hv : validIdentifier tingId 255 = true
    · simp only [hv, Bool.not_true, Bool.false_eq_true, if_false] at hdb
      refine keeps_updateHeld (by exact fun _ => rfl) hdb hclock (fun row => ?_) (fun _ => rfl)
        fun _ => rfl
      exact ⟨rfl, rfl, rfl, fun _ _ _ hp => by simp [OutboxRow.pending, OutboxRow.complete] at hp⟩
    · simp only [hv, Bool.not_false, if_true] at hdb
      exact Keeps.of_db hdb hclock
  | retried claim failure retryAt =>
    refine hquiet rfl ?_ (h.fanOut.step (.retried claim failure retryAt world.clock))
    exact keeps_updateHeld (by exact fun _ => rfl) rfl (by simp [AccessWorld.step, elapsed])
      (fun row => ⟨rfl, rfl, rfl, Follows.refl.pending⟩) (fun _ => rfl) fun _ => rfl
  | purged expired =>
    exact hquiet rfl (keeps_purged ..) (h.fanOut.step (.purged expired))
  | advanced duration =>
    refine hquiet rfl (.of_db rfl ?_) h.fanOut
    exact Int.le_add_of_nonneg_right (Int.natCast_nonneg duration)
  | elsewhere other =>
    refine hquiet rfl ?_ ⟨h.fanOut.limit, h.fanOut.notSelf, h.fanOut.stored, h.fanOut.prepared⟩
    exact Keeps.of_access rfl rfl rfl (by simp [AccessWorld.step, elapsed]) fun _ _ _ ha => ha

theorem Inv.start (codec : DeliveryCodec) (clock : Instant) : Inv codec ⟨.empty, clock, []⟩ := by
  refine ⟨.empty, .nil, ?_, ?_⟩
  · intro row hm
    cases hm
  · intro claim hm
    cases hm

end AccessWorld

/-- Where every step that ends a Carbon's access to a Silicon removes its
subscription or finds no copy of theirs waiting, no copy ever goes out to a
Carbon without access. -/
theorem observer_access_in_force (codec : DeliveryCodec) (clock : Instant)
    (labels : List AccessLabel)
    (h : Along (AccessWorld.step codec) (fun world label => world.Fresh label ∧
      world.keepsPace label = true) ⟨.empty, clock, []⟩ labels) :
    Always (AccessWorld.step codec) AccessWorld.InForce ⟨.empty, clock, []⟩ labels :=
  always_of_invariant (I := AccessWorld.Inv codec) (fun _ _ hi hp => hi.step hp.1 hp.2)
    (fun _ hi => hi.inForce) (.start codec clock) h

namespace LeavingCustodian

open BillingHook

def former : AccountUuid := ⟨"CaLeaves", by decide⟩
def current : AccountUuid := ⟨"CaArrives", by decide⟩

def codec : DeliveryCodec := BillingHook.codec [send silicon .required, send former .ordinary]

def observed : List AccessLabel := [
  .elsewhere database, .lookedUp ⟨silicon, .silicon, none, some (former, none)⟩ 0,
  .subscribed 5 silicon former, .accepted summary command 1 fun _ => 2]

/-- A lookup finds another custodian; the copy is claimed after it. -/
def lookedUp : List AccessLabel := observed ++
  [.lookedUp ⟨silicon, .silicon, none, some (current, none)⟩ 1, .claimed 10 publisherLease id]

def final : AccessWorld := run (AccessWorld.step codec) ⟨.empty, 0, []⟩ lookedUp

theorem copy_current : ∃ claim ∈ final.claims, claim.observerSubscriptionId.isSome ∧
    tingClaimIsCurrent claim final.clock final.db = true ∧
      final.db.siliconOf claim.eventId = some silicon ∧
        final.db.hasAccess silicon claim.recipientId = false := by
  decide +kernel

/-- The copy goes out to a Carbon that has no access left. -/
theorem sent_without_access :
    Along (AccessWorld.step codec) AccessWorld.Fresh ⟨.empty, 0, []⟩ lookedUp ∧
      ¬ final.InForce := by
  refine ⟨by decide +kernel, fun h => ?_⟩
  obtain ⟨claim, hm, hobserver, hcurrent, hsilicon, hnone⟩ := copy_current
  obtain ⟨_, hs, haccess⟩ := h claim hm hobserver hcurrent
  obtain rfl := Option.some.inj (hsilicon.symm.trans hs)
  rw [hnone] at haccess
  cases haccess

/-- The change arrives as an event that names the former custodian. -/
def delivered : List AccessLabel := observed ++
  [.delivered ⟨"evt-1", "silicon.custodian_changed", 1,
    .custodianChanged silicon (some former) (some (current, none))⟩, .claimed 10 publisherLease id]

theorem delivered_in_force :
    Always (AccessWorld.step codec) AccessWorld.InForce ⟨.empty, 0, []⟩ delivered :=
  observer_access_in_force codec 0 delivered (by decide +kernel)

end LeavingCustodian

end SiliconHook
