import SiliconHook.Application.Access
import SiliconHook.Store.AccountsEvents

/-!
# Sign-outs Hook asked for

An event that only ends one of Hook's own sign-ins leaves nothing but its
delivery behind, and what is delivered decides nothing but what is applied
again. Two stores that differ in that one delivery stay so and answer alike.
-/

namespace SiliconHook

def Store.withEvents (db : Store) (events : Table AccountsEventRow) : Store :=
  { db with accountsEvents := events }

-- -----------------------------------------------------------------------------
-- Nothing else reads the dedupe table
-- -----------------------------------------------------------------------------

theorem upsertCustodian_withEvents (db : Store) (events : Table AccountsEventRow)
    (custodian : Option (AccountUuid × Option PublicId)) (at' : Instant) :
    upsertCustodian custodian at' (db.withEvents events) =
      (upsertCustodian custodian at' db).withEvents events := by
  rcases custodian with _ | ⟨_, _ | _⟩ <;> rfl

theorem updatedPublicId_withEvents (db : Store) (events : Table AccountsEventRow)
    (profile : Profile) (at' : Instant) :
    updatedPublicId profile at' (db.withEvents events) =
      (updatedPublicId profile at' db).withEvents events := by
  unfold updatedPublicId
  cases profile.publicId <;> rfl

variable {db db' : Store} {events : Table AccountsEventRow}

theorem writeProfileCustodian_withEvents (profile : Profile) (at' clock : Instant) :
    writeProfileCustodian profile at' clock (db.withEvents events) =
      (writeProfileCustodian profile at' clock db).map (·.withEvents events) := by
  unfold writeProfileCustodian
  rw [apply_ite (Except.map _)]
  rfl

theorem updated_withEvents (profile : Profile) (at' clock : Instant) :
    updated profile at' clock (db.withEvents events) =
      (updated profile at' clock db).map (·.withEvents events) := by
  have hwritten : updatedPublicId profile at' (writeProfile profile
      (ensureAccount profile.uuid profile.kind (db.withEvents events))) =
      (updatedPublicId profile at' (writeProfile profile
        (ensureAccount profile.uuid profile.kind db))).withEvents events :=
    updatedPublicId_withEvents
      (writeProfile profile (ensureAccount profile.uuid profile.kind db)) events profile at'
  unfold updated
  simp only [hwritten, upsertCustodian_withEvents, writeProfileCustodian_withEvents]
  rw [apply_ite (Except.map _)]
  rfl

theorem custodianChanged_withEvents (uuid : AccountUuid) (from' : Option AccountUuid)
    (to' : Option (AccountUuid × Option PublicId)) (at' clock : Instant) :
    custodianChanged uuid from' to' at' clock (db.withEvents events) =
      (custodianChanged uuid from' to' at' clock db).withEvents events := by
  have hknown : upsertCustodian to' at' (ensureAccount uuid .silicon (db.withEvents events)) =
      (upsertCustodian to' at' (ensureAccount uuid .silicon db)).withEvents events :=
    upsertCustodian_withEvents (ensureAccount uuid .silicon db) events to' at'
  unfold custodianChanged
  simp only [hknown]
  generalize upsertCustodian to' at' (ensureAccount uuid .silicon db) = known
  have hfind : (known.withEvents events).accounts.find uuid = known.accounts.find uuid := rfl
  rw [hfind]
  cases (known.accounts.find uuid).any (·.takesCustodianChange at') <;> cases from' <;> rfl

theorem deleted_withEvents (uuid : AccountUuid) (at' clock : Instant) :
    deleted uuid at' clock (db.withEvents events) =
      (deleted uuid at' clock db).withEvents events := by
  unfold deleted
  simp only
  rw [apply_ite (Store.withEvents · events)]
  rfl

theorem AccountsChange.apply_withEvents (change : AccountsChange) (db : Store)
    (events : Table AccountsEventRow) (at' clock : Instant) :
    change.apply at' clock (db.withEvents events) =
      (change.apply at' clock db).map (·.withEvents events) := by
  cases change with
  | idChanged uuid kind oldId newId => cases oldId <;> rfl
  | updated profile => exact updated_withEvents profile at' clock
  | custodianChanged uuid from' to' =>
    exact congrArg Except.ok (custodianChanged_withEvents uuid from' to' at' clock)
  | signedOut uuid reason =>
    simp only [apply]
    split <;> rfl
  | accessRemoved uuid => rfl
  | deleted uuid => exact congrArg Except.ok (deleted_withEvents uuid at' clock)
  | nothing => rfl

theorem recordAccountView_withEvents (view : AccountView) (at' : Instant) :
    recordAccountView view at' (db.withEvents events) =
      (recordAccountView view at' db).map fun (row, db) => (row, db.withEvents events) := by
  unfold recordAccountView
  simp only [upsertCustodian_withEvents]
  generalize upsertCustodian view.custodian at' db = known
  rw [apply_ite (Except.map _)]
  cases view.publicId <;> rfl

theorem recordLookup_withEvents (value : String) (answer : Lookup) (now : Instant) :
    recordLookup value answer now (db.withEvents events) =
      ((recordLookup value answer now db).1,
        (recordLookup value answer now db).2.withEvents events) := by
  unfold recordLookup
  cases answer with
  | found summary =>
    simp only
    split
    · rfl
    · rw [recordAccountView_withEvents]
      rename_i view _
      cases recordAccountView view now db <;> rfl
  | deleted =>
    simp only
    cases AccountUuid.new value <;> rfl
  | notFound => rfl

theorem recordLookup_accountsEvents (value : String) (answer : Lookup) (now : Instant) :
    (recordLookup value answer now db).2.accountsEvents = db.accountsEvents := by
  unfold recordLookup
  cases answer with
  | found summary =>
    simp only
    split
    · rfl
    · split
      · rfl
      · rename_i h
        exact recordAccountView_accountsEvents h
  | deleted =>
    simp only
    split <;> rfl
  | notFound => rfl

theorem tokenAccount_withEvents (uuid : AccountUuid) (kind : ActorKind) (id : Option PublicId)
    (issuedAt : Instant) :
    tokenAccount uuid kind id issuedAt (db.withEvents events) =
      ((tokenAccount uuid kind id issuedAt db).1,
        (tokenAccount uuid kind id issuedAt db).2.withEvents events) := by
  have hobserved : observeTokenAccount uuid kind id issuedAt (db.withEvents events) =
      ((observeTokenAccount uuid kind id issuedAt db).1,
        (observeTokenAccount uuid kind id issuedAt db).2.withEvents events) := by
    cases id <;> rfl
  have haccount : (db.withEvents events).account uuid = db.account uuid := rfl
  unfold tokenAccount
  rw [haccount]
  cases db.account uuid with
  | none => exact hobserved
  | some record =>
    simp only
    split
    · rfl
    · exact hobserved

theorem tokenAccount_accountsEvents (uuid : AccountUuid) (kind : ActorKind)
    (id : Option PublicId) (issuedAt : Instant) :
    (tokenAccount uuid kind id issuedAt db).2.accountsEvents = db.accountsEvents := by
  unfold tokenAccount
  split
  · split
    · rfl
    · exact upsertKnownAccount_accountsEvents
  · exact upsertKnownAccount_accountsEvents

-- -----------------------------------------------------------------------------
-- Stores that differ in one delivery
-- -----------------------------------------------------------------------------

/-- The stores differ in what is recorded of one event id at most. -/
def Store.SameBut (id : String) (db db' : Store) : Prop :=
  ∃ events, db' = db.withEvents events ∧
    ∀ k ≠ id, events.find k = db.accountsEvents.find k

namespace Store.SameBut

variable {id : String} {event : AccountsEvent}

theorem symm (h : SameBut id db db') : SameBut id db' db := by
  obtain ⟨events, rfl, hagree⟩ := h
  exact ⟨db.accountsEvents, rfl, fun k hk => (hagree k hk).symm⟩

theorem trans {db'' : Store} (h : SameBut id db db') (h' : SameBut id db' db'') :
    SameBut id db db'' := by
  obtain ⟨events, rfl, hagree⟩ := h
  obtain ⟨events', rfl, hagree'⟩ := h'
  exact ⟨events', rfl, fun k hk => (hagree' k hk).trans (hagree k hk)⟩

/-- A sign-out Hook asked for is recorded and nothing else. -/
theorem of_appRevoked (h : event.change = .signedOut u (some "app_revoked")) (clock : Instant) :
    SameBut event.eventId db (deliver event clock db) := by
  refine ⟨(deliver event clock db).accountsEvents, ?_, (deliver_frame event clock db).2⟩
  by_cases ha : event.Admitted db
  · obtain ⟨recorded, -, hdel⟩ := deliver_admitted clock ha
    have happly : event.change.apply event.occurredAt clock
        { db with accountsEvents := recorded } = .ok { db with accountsEvents := recorded } := by
      rw [h]
      rfl
    rw [hdel, happly]
    rfl
  · obtain ⟨events, hdel⟩ := deliver_not_admitted clock ha
    rw [hdel]
    rfl

theorem deliver_ne (h : SameBut id db db') (hid : event.eventId ≠ id) (clock : Instant) :
    SameBut id (deliver event clock db) (deliver event clock db') := by
  obtain ⟨events, rfl, hagree⟩ := h
  have hkey : Keyed.key (event.dedupeRow db) = event.eventId := rfl
  have hretired : event.retired (db.withEvents events) = event.retired db := rfl
  have hrow : event.dedupeRow (db.withEvents events) = event.dedupeRow db := rfl
  have hfind := hagree event.eventId hid
  unfold deliver applyAccountsEvent
  rw [hrow, hretired]
  cases event.check with
  | error e => exact ⟨events, rfl, hagree⟩
  | ok _ =>
    have hevents : (db.withEvents events).accountsEvents = events := rfl
    rw [hevents]
    cases hi : db.accountsEvents.insert (event.dedupeRow db) with
    | none =>
      have hi' : events.insert (event.dedupeRow db) = none := by
        rw [Table.insert_eq_none, hkey, hfind] at *
        exact hi
      rw [hi']
      exact ⟨events, rfl, hagree⟩
    | some recorded =>
      cases hi' : events.insert (event.dedupeRow db) with
      | none =>
        rw [Table.insert_eq_none, hkey, hfind, ← hkey, ← Table.insert_eq_none, hi] at hi'
        cases hi'
      | some recorded' =>
        have hagree' : ∀ k ≠ id, recorded'.find k = recorded.find k := by
          intro k hk
          rw [Table.find_insert hi, Table.find_insert hi', hagree k hk]
        have happly : event.change.apply event.occurredAt clock
            { db with accountsEvents := recorded' } =
            (event.change.apply event.occurredAt clock
              { db with accountsEvents := recorded }).map (·.withEvents recorded') :=
          event.change.apply_withEvents { db with accountsEvents := recorded } recorded'
            event.occurredAt clock
        have hrecorded : { db.withEvents events with accountsEvents := recorded' } =
            { db with accountsEvents := recorded' } := rfl
        cases event.retired db with
        | true => exact ⟨recorded', rfl, hagree'⟩
        | false =>
          simp only [Bool.false_eq_true, if_false, hrecorded, happly]
          cases hok : event.change.apply event.occurredAt clock
              { db with accountsEvents := recorded } with
          | error e => exact ⟨events, rfl, hagree⟩
          | ok db1 =>
            refine ⟨recorded', rfl, fun k hk => ?_⟩
            simp only
            rw [(AccountsChange.apply_frame hok).1]
            exact hagree' k hk

end Store.SameBut

def AppState.SameBut (id : String) (state state' : AppState) : Prop :=
  Store.SameBut id state.db state'.db ∧ state'.memory = state.memory

variable {state state' : AppState} {id : String}

theorem lookUp_sameBut (h : state.SameBut id state') (client : AccountsClient) (value : String)
    (byId : Bool) (now : Instant) :
    (lookUp client value byId now state).1 = (lookUp client value byId now state').1 ∧
      (lookUp client value byId now state).2.SameBut id (lookUp client value byId now state').2 := by
  obtain ⟨db, memory⟩ := state
  obtain ⟨_, memory'⟩ := state'
  obtain ⟨⟨events, rfl, hagree⟩, hm⟩ := h
  obtain rfl : memory' = memory := hm
  unfold lookUp
  simp only
  split
  · exact ⟨rfl, ⟨events, rfl, hagree⟩, rfl⟩
  · simp only [recordLookup_withEvents]
    refine ⟨trivial, ⟨events, rfl, fun k hk => ?_⟩, rfl⟩
    rw [recordLookup_accountsEvents]
    exact hagree k hk

theorem authenticate_sameBut (h : state.SameBut id state') (gateway : AccountsGateway)
    (rfc3339 : Instant → String) (client : AccountsClient) (token : String) (now : Instant) :
    (gateway.authenticate rfc3339 client token now state).1 =
        (gateway.authenticate rfc3339 client token now state').1 ∧
      (gateway.authenticate rfc3339 client token now state).2.SameBut id
        (gateway.authenticate rfc3339 client token now state').2 := by
  have hsame := h
  obtain ⟨db, memory⟩ := state
  obtain ⟨_, memory'⟩ := state'
  obtain ⟨⟨events, rfl, hagree⟩, hm⟩ := h
  obtain rfl : memory' = memory := hm
  have hledger : (db.withEvents events).accountsUuid128Map = db.accountsUuid128Map := rfl
  unfold AccountsGateway.authenticate
  simp only [hledger, tokenAccount_withEvents]
  split
  · exact ⟨rfl, hsame⟩
  · split
    · exact ⟨rfl, hsame⟩
    · split
      · exact ⟨rfl, hsame⟩
      · split
        · exact ⟨rfl, hsame⟩
        · rename_i claims _ _ uuid _ _ _ kind _
          have haccount : ∀ memory, AppState.SameBut id
              ⟨(tokenAccount uuid kind claims.publicId claims.issuedAt db).2, memory⟩
              ⟨(tokenAccount uuid kind claims.publicId claims.issuedAt db).2.withEvents events,
                memory⟩ := by
            refine fun _ => ⟨⟨events, rfl, fun k hk => ?_⟩, rfl⟩
            rw [tokenAccount_accountsEvents]
            exact hagree k hk
          split
          · exact ⟨rfl, haccount _⟩
          · refine ⟨rfl, ?_⟩
            split
            · exact (lookUp_sameBut (haccount _) client uuid.value false now).2
            · exact haccount _

end SiliconHook
