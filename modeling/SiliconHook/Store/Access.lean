import SiliconHook.Store.Schema

/-!
# Grants and observers

Explicit access to a Silicon's hooks, and the removal of observer subscriptions
that goes with losing it. A queued copy references its subscription, so it goes
with it.
-/

namespace SiliconHook

/-- `DELETE FROM observer_subscriptions WHERE p`, with the copies still queued
for the rows it removes. -/
def Store.deleteSubscriptions (db : Store) (p : SubscriptionRow → Bool) : Store :=
  let removed := (db.observerSubscriptions.select p).map SubscriptionRow.id
  { db with
    observerSubscriptions := db.observerSubscriptions.delete p
    tingOutbox := db.tingOutbox.delete fun row => row.observerSubscriptionId.any removed.contains }

def hasGrant (silicon grantee : AccountUuid) (db : Store) : Bool :=
  (db.siliconGrants.find (silicon, grantee)).isSome

def putGrant (silicon grantee : AccountUuid) (level : GrantLevel) (actor : Actor) (db : Store) :
    Except StoreError Store :=
  if silicon = grantee then .error (.database "silicon_grants_not_self")
  else .ok { db with
    siliconGrants := db.siliconGrants.upsert ⟨silicon, grantee, level, actor.uuid⟩
      (fun row => { row with level := level, grantedByUuid := actor.uuid }) fun _ => rfl }

/-- Removes a grant and, unless the grantee keeps access otherwise, its observer
subscription. Returns whether a grant existed. -/
def deleteGrant (silicon grantee : AccountUuid) (granteeKeepsAccess : Bool) (db : Store) :
    Bool × Store :=
  if !hasGrant silicon grantee db then (false, db)
  else
    let db := { db with
      siliconGrants := db.siliconGrants.delete fun row =>
        row.siliconUuid = silicon && row.granteeUuid = grantee }
    if granteeKeepsAccess then (true, db)
    else (true, db.deleteSubscriptions fun row =>
      row.siliconUuid = silicon && row.recipientUuid = grantee)

def putAllowance (silicon allowed : AccountUuid) (actor : Actor) (db : Store) :
    Except StoreError Store :=
  if silicon = allowed then .error (.database "silicon_allowances_not_self")
  else .ok { db with
    siliconAllowances := db.siliconAllowances.insertOrKeep ⟨silicon, allowed, actor.uuid⟩ }

def allowsAny (silicon : AccountUuid) (candidates : List AccountUuid) (db : Store) : Bool :=
  candidates.any fun allowed => (db.siliconAllowances.find (silicon, allowed)).isSome

/-- Removes an account from a Silicon's allow-list; grants already made stay.
Returns whether it was listed. -/
def deleteAllowance (silicon allowed : AccountUuid) (db : Store) : Bool × Store :=
  if (db.siliconAllowances.find (silicon, allowed)).isNone then (false, db)
  else (true, { db with
    siliconAllowances := db.siliconAllowances.delete fun row =>
      row.siliconUuid = silicon && row.allowedUuid = allowed })

-- -----------------------------------------------------------------------------
-- What a removal leaves
-- -----------------------------------------------------------------------------

variable {db : Store} {p : SubscriptionRow → Bool}

theorem Store.deleteSubscriptions_none
    (h : ∀ row ∈ db.observerSubscriptions.rows, p row = false) : db.deleteSubscriptions p = db := by
  have hsubscriptions := Table.delete_eq_self.mpr h
  have hremoved : db.observerSubscriptions.select p = [] := by
    rw [Table.select, List.filter_eq_nil_iff]
    intro row hm
    simp [h row hm]
  have houtbox : (db.tingOutbox.delete fun row => row.observerSubscriptionId.any [].contains) =
      db.tingOutbox :=
    Table.delete_eq_self.mpr fun row _ => by cases row.observerSubscriptionId <;> rfl
  simp only [deleteSubscriptions, hsubscriptions, hremoved, List.map_nil, houtbox]

@[simp]
theorem Store.deleteSubscriptions_accounts :
    (db.deleteSubscriptions p).accounts = db.accounts := rfl

@[simp]
theorem Store.deleteSubscriptions_accountIds :
    (db.deleteSubscriptions p).accountIds = db.accountIds := rfl

@[simp]
theorem Store.deleteSubscriptions_accountsEvents :
    (db.deleteSubscriptions p).accountsEvents = db.accountsEvents := rfl

@[simp]
theorem Store.deleteSubscriptions_ledger :
    (db.deleteSubscriptions p).accountsUuid128Map = db.accountsUuid128Map := rfl

end SiliconHook
