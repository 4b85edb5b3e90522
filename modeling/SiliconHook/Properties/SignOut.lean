import SiliconHook.Properties.AppRevoked
import SiliconHook.Library.Transition

/-!
# Sign-outs hold

Once a sign-out, a removed access or a deletion of an account is applied, the
tokens issued before the latest of them are refused, whatever else is recorded
about the account and in whatever order.
-/

namespace SiliconHook

-- -----------------------------------------------------------------------------
-- What ends an account's tokens
-- -----------------------------------------------------------------------------

/-- The columns that decide whether an account's tokens work. -/
def AccountRow.standing (row : AccountRow) : Option Instant × Option Instant :=
  (row.revokedBefore, row.deletedAt)

def AccountsChange.endsSessions (change : AccountsChange) (uuid : AccountUuid) : Prop :=
  match change with
  | .signedOut account reason => account = uuid ∧ reason ≠ some "app_revoked"
  | .accessRemoved account | .deleted account => account = uuid
  | _ => False

def Store.standing (db : Store) (uuid : AccountUuid) : Option Instant × Option Instant :=
  (db.accountRow uuid).standing

variable {db db' : Store} {u v : AccountUuid} {row : AccountRow}

namespace Store

theorem standing_congr (h : db'.accounts = db.accounts) : db'.standing u = db.standing u := by
  rw [standing, standing, accountRow_congr h]

theorem standing_of_find (h : db'.accounts.find u = db.accounts.find u) :
    db'.standing u = db.standing u := by
  simp only [standing, accountRow, h]

/-- A statement that inserts or updates one account without ending its tokens. -/
theorem standing_of_upsert {f : AccountRow → AccountRow}
    (hf : ∀ row, (f row).standing = row.standing)
    (h : db'.accounts.find u =
      if u = v then some (f (db.accountRow v)) else db.accounts.find u) :
    db'.standing u = db.standing u :=
  columns_of_upsert hf h

theorem standing_of_update {f : AccountRow → AccountRow} {p : AccountRow → Bool}
    (h : db'.accounts.find u = (db.accounts.find u).map fun row => if p row then f row else row)
    (hf : ∀ row, (f row).standing = row.standing) : db'.standing u = db.standing u :=
  columns_of_update h hf

end Store

@[simp]
theorem AccountRow.learnKind_standing (kind : ActorKind) :
    (row.learnKind kind).standing = row.standing := rfl

@[simp]
theorem AccountRow.advancePublicId_standing (publicId : Option PublicId) (at' : Instant) :
    (row.advancePublicId publicId at').standing = row.standing := by
  unfold advancePublicId
  split <;> rfl

@[simp]
theorem AccountRow.applyView_standing (view : AccountView) (at' : Instant) :
    (row.applyView view at').standing = row.standing := by
  unfold applyView
  split
  · rfl
  · simp only
    split <;> rfl

-- -----------------------------------------------------------------------------
-- Statements
-- -----------------------------------------------------------------------------

@[simp]
theorem standing_rememberPublicId? (publicId : Option PublicId) :
    (rememberPublicId? v publicId db).standing u = db.standing u :=
  Store.standing_congr rememberPublicId?_accounts

@[simp]
theorem standing_rememberPublicId (publicId : PublicId) :
    (rememberPublicId v publicId db).standing u = db.standing u := rfl

@[simp]
theorem standing_ensureAccount (kind : ActorKind) :
    (ensureAccount v kind db).standing u = db.standing u :=
  Store.standing_of_upsert (fun _ => AccountRow.learnKind_standing kind)
    (find_ensureAccount db v u kind)

@[simp]
theorem standing_upsertKnownAccount (kind : ActorKind) (publicId : Option PublicId)
    (at' : Instant) : (upsertKnownAccount v kind publicId at' db).standing u = db.standing u :=
  Store.standing_of_upsert (f := fun row => (row.learnKind kind).advancePublicId publicId at')
    (fun _ => by simp) (find_upsertKnownAccount db v u kind publicId at')

@[simp]
theorem standing_upsertCustodian (custodian : Option (AccountUuid × Option PublicId))
    (at' : Instant) : (upsertCustodian custodian at' db).standing u = db.standing u := by
  cases custodian with
  | none => rfl
  | some custodian => exact standing_upsertKnownAccount ..

@[simp]
theorem standing_writePublicId (publicId : PublicId) (at' : Instant) :
    (writePublicId v publicId at' db).standing u = db.standing u :=
  Store.standing_of_update
    (Table.find_update (AccountRow.advancePublicId_key (some publicId) at')) fun _ =>
      AccountRow.advancePublicId_standing (some publicId) at'

@[simp]
theorem standing_writeProfile (profile : Profile) :
    (writeProfile profile db).standing u = db.standing u :=
  Store.standing_of_update (Table.find_update (by exact fun _ => rfl)) fun _ => rfl

@[simp]
theorem standing_updatedPublicId (profile : Profile) (at' : Instant) :
    (updatedPublicId profile at' db).standing u = db.standing u := by
  unfold updatedPublicId
  split <;> simp

theorem standing_writeProfileCustodian {profile : Profile}
    (h : writeProfileCustodian profile at' clock db = .ok db') :
    db'.standing u = db.standing u := by
  unfold writeProfileCustodian at h
  simp only at h
  split at h
  · cases h
  · cases h
    exact Store.standing_of_update (Table.find_update (by exact fun _ => rfl)) fun _ => rfl

@[simp]
theorem standing_writeCustodian (custodian : Option AccountUuid) (at' clock : Instant) :
    (writeCustodian v custodian at' clock db).standing u = db.standing u :=
  Store.standing_of_update (Table.find_update (by exact fun _ => rfl)) fun _ => rfl

theorem standing_recordAccountView {view : AccountView}
    (h : recordAccountView view at' db = .ok (row, db')) : db'.standing u = db.standing u := by
  unfold recordAccountView at h
  simp only at h
  split at h
  · cases h
  · cases h
    rw [standing_rememberPublicId?]
    refine Eq.trans ?_ (standing_upsertCustodian view.custodian at')
    generalize upsertCustodian view.custodian at' db = known
    have hkey : Keyed.key (AccountRow.ofView view at') = view.uuid := rfl
    have hfind := Table.find_upsert (t := known.accounts) (r := AccountRow.ofView view at')
      (k := u) (AccountRow.applyView_key view at')
    rw [hkey] at hfind
    by_cases hu : u = view.uuid
    · rw [if_pos hu] at hfind
      rw [Store.standing, Store.accountRow_of_find hfind, Store.standing, Store.accountRow]
      cases known.accounts.find u with
      | none => rfl
      | some row => exact AccountRow.applyView_standing view at'
    · rw [if_neg hu] at hfind
      exact Store.standing_of_find hfind

theorem standing_recordAccountDeletedByLookup (at' : Instant) :
    (recordAccountDeletedByLookup v at' db).standing u =
      if u = v then (HighWater.raise (db.standing u).1 at', (db.standing u).2 <|> some at')
      else db.standing u := by
  have hfind : (recordAccountDeletedByLookup v at' db).accounts.find u = _ :=
    find_upsert_blank (f := fun row => { row.revokeBefore at' with
      deletedAt := row.deletedAt <|> some at', publicId := none })
  by_cases hu : u = v
  · subst hu
    rw [if_pos rfl] at hfind ⊢
    rw [Store.standing, Store.accountRow_of_find hfind]
    rfl
  · rw [if_neg hu] at hfind ⊢
    exact Store.standing_of_find hfind

theorem standing_revoke (at' : Instant) :
    (revoke v at' db).standing u =
      if u = v then (HighWater.raise (db.standing u).1 at', (db.standing u).2)
      else db.standing u := by
  have hfind := find_revoke db v u at'
  by_cases hu : u = v
  · subst hu
    rw [if_pos rfl] at hfind ⊢
    rw [Store.standing, Store.accountRow_of_find hfind]
    rfl
  · rw [if_neg hu] at hfind ⊢
    exact Store.standing_of_find hfind

theorem standing_deleted (at' clock : Instant) :
    (deleted v at' clock db).standing u =
      if u = v then (HighWater.raise (db.standing u).1 at', (db.standing u).2 <|> some at')
      else db.standing u := by
  have hfind := find_deleted db v u at' clock
  by_cases hu : u = v
  · subst hu
    rw [if_pos rfl] at hfind ⊢
    rw [Store.standing, Store.accountRow_of_find hfind]
    rfl
  · rw [if_neg hu] at hfind ⊢
    exact Store.standing_of_find hfind

-- -----------------------------------------------------------------------------
-- Events
-- -----------------------------------------------------------------------------

theorem standing_updated {profile : Profile} (h : updated profile at' clock db = .ok db') :
    db'.standing u = db.standing u := by
  unfold updated at h
  simp only at h
  split at h
  · rw [standing_writeProfileCustodian h]
    simp
  · cases h
    simp

theorem standing_custodianChanged (from' : Option AccountUuid)
    (to' : Option (AccountUuid × Option PublicId)) (at' clock : Instant) :
    (custodianChanged v from' to' at' clock db).standing u = db.standing u := by
  have hwritten : ∀ custodian, (writeCustodian v custodian at' clock (upsertCustodian to' at'
      (ensureAccount v .silicon db))).standing u = db.standing u := by simp
  unfold custodianChanged
  simp only
  split
  · exact (Store.standing_congr rfl).trans (hwritten _)
  · exact hwritten _

theorem AccountsChange.apply_keeps {change : AccountsChange}
    (h : change.apply at' clock db = .ok db') (hn : ¬ change.endsSessions u) :
    db'.standing u = db.standing u := by
  cases change with
  | idChanged uuid kind oldId newId =>
    cases h
    simp [SiliconHook.idChanged]
  | updated profile => exact standing_updated h
  | custodianChanged uuid from' to' =>
    cases h
    exact standing_custodianChanged from' to' at' clock
  | signedOut uuid reason =>
    simp only [endsSessions, not_and, not_not] at hn
    simp only [apply] at h
    split at h
    · cases h
      rfl
    · rename_i hr
      cases h
      rw [standing_revoke, if_neg fun he => hr (hn he.symm)]
  | accessRemoved uuid =>
    cases h
    rw [standing_revoke, if_neg fun he => hn he.symm]
  | deleted uuid =>
    cases h
    rw [standing_deleted, if_neg fun he => hn he.symm]
  | nothing =>
    cases h
    rfl

/-- An event that ends the account's sign-ins raises its revocation instant. -/
theorem AccountsChange.apply_ends {change : AccountsChange}
    (h : change.apply at' clock db = .ok db') (he : change.endsSessions u) :
    (db'.standing u).1 = HighWater.raise (db.standing u).1 at' ∧
      ((db.standing u).2.isSome → (db'.standing u).2.isSome) := by
  cases change with
  | signedOut uuid reason =>
    obtain ⟨rfl, hr⟩ := he
    simp only [apply, if_neg hr] at h
    cases h
    simp [standing_revoke]
  | accessRemoved uuid =>
    obtain rfl : uuid = u := he
    cases h
    simp [standing_revoke]
  | deleted uuid =>
    obtain rfl : uuid = u := he
    cases h
    rw [standing_deleted, if_pos rfl]
    refine ⟨rfl, fun hd => ?_⟩
    obtain ⟨d, hd⟩ := Option.isSome_iff_exists.mp hd
    simp [hd]
  | _ => exact he.elim

theorem AccountsChange.apply_ends_ok {change : AccountsChange} (he : change.endsSessions u) :
    change.apply at' clock db ≠ .error e := by
  cases change with
  | signedOut uuid reason => simp [apply, he.2]
  | accessRemoved uuid | deleted uuid => simp [apply]
  | _ => exact he.elim

-- -----------------------------------------------------------------------------
-- Tokens and lookups
-- -----------------------------------------------------------------------------

structure Store.KeepsStanding (u : AccountUuid) (db db' : Store) : Prop where
  ledger : db'.accountsUuid128Map = db.accountsUuid128Map
  standing : (db'.standing u).2 = none → db'.standing u = db.standing u

namespace Store.KeepsStanding

theorem refl : KeepsStanding u db db := ⟨rfl, fun _ => rfl⟩

theorem trans {db'' : Store} (h : KeepsStanding u db db') (h' : KeepsStanding u db' db'') :
    KeepsStanding u db db'' := by
  refine ⟨h'.ledger.trans h.ledger, fun hn => ?_⟩
  have heq := h'.standing hn
  exact heq.trans (h.standing (heq ▸ hn))

end Store.KeepsStanding

theorem recordLookup_keepsStanding (value : String) (answer : Lookup) (now : Instant) :
    Store.KeepsStanding u db (recordLookup value answer now db).2 := by
  unfold recordLookup
  cases answer with
  | found summary =>
    simp only
    split
    · exact .refl
    · split
      · exact .refl
      · rename_i h
        exact ⟨recordAccountView_ledger h, fun _ => standing_recordAccountView h⟩
  | notFound => exact .refl
  | deleted =>
    simp only
    split
    · rename_i uuid hu
      refine ⟨rfl, fun hn => ?_⟩
      rw [standing_recordAccountDeletedByLookup] at hn ⊢
      split at hn
      · cases hd : (db.standing u).2 <;> simp [hd] at hn
      · rename_i hne
        rw [if_neg hne]
    · exact .refl

theorem lookUp_keepsStanding (client : AccountsClient) (value : String) (byId : Bool)
    (now : Instant) (state : AppState) :
    Store.KeepsStanding u state.db (lookUp client value byId now state).2.db := by
  unfold lookUp
  split
  · exact .refl
  · exact recordLookup_keepsStanding ..

theorem tokenAccount_standing (db : Store) (v : AccountUuid) (kind : ActorKind)
    (id : Option PublicId) (issuedAt : Instant) :
    (tokenAccount v kind id issuedAt db).1.standing = db.standing v := by
  have hobserved : (observeTokenAccount v kind id issuedAt db).1.standing = db.standing v := by
    have hstored : (observeTokenAccount v kind id issuedAt db).2.accounts.find v =
        some (observeTokenAccount v kind id issuedAt db).1 := by
      simp only [observeTokenAccount, upsertKnownAccount, rememberPublicId?_accounts]
      exact Table.find_upserted (AccountRow.observe_key kind id issuedAt)
    rw [← Store.accountRow_of_find hstored]
    exact standing_upsertKnownAccount ..
  unfold tokenAccount
  split
  · rename_i record hr
    have hfind : db.accounts.find v = some record := (Option.filter_eq_some_iff.mp hr).1
    split
    · rw [Store.standing, Store.accountRow_of_find hfind]
    · exact hobserved
  · exact hobserved

theorem tokenAccount_keepsStanding (kind : ActorKind) (id : Option PublicId)
    (issuedAt : Instant) :
    Store.KeepsStanding u db (tokenAccount v kind id issuedAt db).2 := by
  have hobserved : Store.KeepsStanding u db (observeTokenAccount v kind id issuedAt db).2 :=
    ⟨upsertKnownAccount_ledger, fun _ => standing_upsertKnownAccount ..⟩
  unfold tokenAccount
  split
  · split
    · exact .refl
    · exact hobserved
  · exact hobserved

namespace AccountsGateway

variable {gateway : AccountsGateway} {rfc3339 : Instant → String} {client : AccountsClient}
  {token : String} {claims : Claims} {issuedAt last now : Instant} {memory : GatewayMemory}
  {state : AppState}

theorem authenticate_keepsStanding :
    Store.KeepsStanding u state.db (gateway.authenticate rfc3339 client token now state).2.db := by
  unfold authenticate
  split
  · exact .refl
  · split
    · exact .refl
    · split
      · exact .refl
      · split
        · exact .refl
        · simp only
          split
          · exact tokenAccount_keepsStanding ..
          · simp only
            split
            · exact (tokenAccount_keepsStanding ..).trans
                (lookUp_keepsStanding _ _ _ _ ⟨_, _⟩)
            · exact tokenAccount_keepsStanding ..

theorem wholeSecond_le (instant : Instant) : instant.wholeSecond ≤ instant := by
  have hpos : (0 : Int) < Instant.second := by decide
  exact Int.sub_le_self _ (Int.emod_nonneg instant hpos.ne')

/-- A token from before the second of the sign-out is refused without asking. -/
theorem checkSignIn_refuses (gateway : AccountsGateway) (rfc3339 : Instant → String)
    (client : AccountsClient) (token : String) (now : Instant) (memory : GatewayMemory)
    (h : row.deletedAt = none → row.revokedBefore = some last)
    (hi : issuedAt < last.wholeSecond) :
    ∃ code message, gateway.checkSignIn rfc3339 client token issuedAt now row memory =
      (.error (.refused 401 code message), memory) := by
  unfold checkSignIn
  split
  · exact ⟨_, _, rfl⟩
  · rename_i hd
    rw [h (by simpa using hd)]
    simp [endedBySignOut, hi]

/-- A token issued at the sign-out or later passes it without asking. -/
theorem checkSignIn_passes (gateway : AccountsGateway) (rfc3339 : Instant → String)
    (client : AccountsClient) (token : String) (now : Instant) (memory : GatewayMemory)
    (h : row.deletedAt = none → row.revokedBefore = some last)
    (hi : last ≤ issuedAt) :
    gateway.checkSignIn rfc3339 client token issuedAt now row memory = (.ok (), memory) ∨
      ∃ message, gateway.checkSignIn rfc3339 client token issuedAt now row memory =
        (.error (.refused 401 "account_deleted" message), memory) := by
  unfold checkSignIn
  split
  · exact .inr ⟨_, rfl⟩
  · rename_i hd
    have hlate : ¬ issuedAt < last.wholeSecond := not_lt.mpr ((wholeSecond_le last).trans hi)
    rw [h (by simpa using hd)]
    simp [endedBySignOut, hi, hlate]

/-- Silicon Accounts is asked about tokens of the sign-out's own second only. -/
theorem checkSignIn_asks (gateway : AccountsGateway) (rfc3339 : Instant → String)
    (client : AccountsClient) (token : String) (issuedAt now : Instant) (memory : GatewayMemory)
    (h : row.deletedAt = none → row.revokedBefore = some last)
    (ha : (gateway.checkSignIn rfc3339 client token issuedAt now row memory).2 ≠ memory) :
    last.wholeSecond ≤ issuedAt ∧ issuedAt < last := by
  constructor
  · by_contra hlt
    obtain ⟨code, message, hc⟩ := checkSignIn_refuses gateway rfc3339 client token now memory h
      (not_le.mp hlt)
    exact ha (by rw [hc])
  · by_contra hle
    obtain hc | ⟨message, hc⟩ := checkSignIn_passes gateway rfc3339 client token now memory h
      (not_lt.mp hle)
    · exact ha (by rw [hc])
    · exact ha (by rw [hc])

/-- What becomes of a token in a call, given the latest sign-out applied. -/
structure Verdict (last : Instant) (claims : Claims) (state : AppState)
    (call : Except ApplicationError Actor × AppState) : Prop where
  refuses : claims.issuedAt < last.wholeSecond →
    ∃ code message, call.1 = .error (.refused 401 code message)
  passes : last ≤ claims.issuedAt → ∀ status message,
    call.1 ≠ .error (.refused status "session_ended" message)
  asks : call.2.memory.introspected ≠ state.memory.introspected →
    last.wholeSecond ≤ claims.issuedAt ∧ claims.issuedAt < last

theorem authenticate_verdict (hv : client.verify token = .ok claims)
    (hs : claims.sub = u.value) (hl : u ∉ state.db.accountsUuid128Map)
    (hlast : (state.db.standing u).2 = none → (state.db.standing u).1 = some last) :
    Verdict last claims state (gateway.authenticate rfc3339 client token now state) := by
  have hu : AccountUuid.new claims.sub = .ok u := hs ▸ AccountUuid.new_value u
  unfold authenticate
  simp only [hv, hu, if_neg hl]
  cases claims.kind with
  | none => exact ⟨fun _ => ⟨_, _, rfl⟩, fun _ _ _ => by simp, fun h => absurd rfl h⟩
  | some kind =>
    have hrow := tokenAccount_standing state.db u kind claims.publicId
      claims.issuedAt
    rw [← hrow] at hlast
    simp only
    generalize tokenAccount u kind claims.publicId claims.issuedAt state.db = account at hlast ⊢
    have hasks := checkSignIn_asks gateway rfc3339 client token claims.issuedAt now
      state.memory hlast
    split
    · rename_i e memory hc
      rw [hc] at hasks
      refine ⟨fun hi => ?_, fun hi => ?_, fun ha => hasks fun h => ha (congrArg _ h)⟩
      · obtain ⟨code, message, h⟩ := checkSignIn_refuses gateway rfc3339 client token now
          state.memory hlast hi
        rw [h] at hc
        cases hc
        exact ⟨_, _, rfl⟩
      · rintro status message ⟨⟩
        obtain h | ⟨message, h⟩ := checkSignIn_passes gateway rfc3339 client token now
          state.memory hlast hi
        · rw [h] at hc
          cases hc
        · simp [h] at hc
    · rename_i memory hc
      rw [hc] at hasks
      refine ⟨fun hi => ?_, ?_, fun ha => hasks fun h => ha ?_⟩
      · obtain ⟨code, message, h⟩ := checkSignIn_refuses gateway rfc3339 client token now
          state.memory hlast hi
        rw [h] at hc
        cases hc
      · rintro - status message ⟨⟩
      · simp only at h ⊢
        split
        · rw [lookUp_introspected, h]
        · rw [h]

end AccountsGateway

-- -----------------------------------------------------------------------------
-- Runs
-- -----------------------------------------------------------------------------

inductive SignInLabel
  | delivered (event : AccountsEvent) (clock : Instant)
  | authenticated (client : AccountsClient) (token : String) (now : Instant)
  | lookedUp (client : AccountsClient) (value : String) (byId : Bool) (now : Instant)

def SignInLabel.perform (gateway : AccountsGateway) (rfc3339 : Instant → String) :
    SignInLabel → AppState → AppState
  | .delivered event clock, state => { state with db := deliver event clock state.db }
  | .authenticated client token now, state =>
    (gateway.authenticate rfc3339 client token now state).2
  | .lookedUp client value byId now, state => (lookUp client value byId now state).2

def SignInLabel.Names (event : AccountsEvent) : SignInLabel → Prop
  | .delivered other _ => other.eventId = event.eventId → other = event
  | _ => True

structure SignInWorld where
  state : AppState
  /-- The events applied so far. -/
  applied : List AccountsEvent

namespace SignInWorld

variable {gateway : AccountsGateway} {rfc3339 : Instant → String} {world : SignInWorld}

def step (gateway : AccountsGateway) (rfc3339 : Instant → String) (world : SignInWorld)
    (label : SignInLabel) : SignInWorld where
  state := label.perform gateway rfc3339 world.state
  applied :=
    match label with
    | .delivered event _ =>
      if event.Admitted world.state.db then world.applied ++ [event] else world.applied
    | _ => world.applied

def signOuts (u : AccountUuid) (world : SignInWorld) : Set Instant :=
  { instant | ∃ event ∈ world.applied,
    event.change.endsSessions u ∧ event.occurredAt = instant }

/-- The revocation instant is the latest applied, unless the account is deleted. -/
structure Current (u : AccountUuid) (world : SignInWorld) : Prop where
  retired : u ∈ world.state.db.accountsUuid128Map → world.signOuts u = ∅
  stored : (world.state.db.standing u).2 = none →
    HighWater.Holds (world.state.db.standing u).1 (world.signOuts u)

theorem Current.of_keepsStanding {world' : SignInWorld} (h : world.Current u)
    (hk : Store.KeepsStanding u world.state.db world'.state.db)
    (hs : world'.signOuts u = world.signOuts u) : world'.Current u := by
  refine ⟨fun hl => ?_, fun hd => ?_⟩
  · rw [hs]
    exact h.retired (hk.ledger ▸ hl)
  · have heq := hk.standing hd
    rw [hs, heq]
    exact h.stored (heq ▸ hd)

theorem signOuts_append (state : AppState) (event : AccountsEvent) :
    signOuts u ⟨state, world.applied ++ [event]⟩ =
      { instant | event.change.endsSessions u ∧ event.occurredAt = instant } ∪
        world.signOuts u := by
  ext instant
  simp only [signOuts, List.mem_append, List.mem_singleton, Set.mem_ofPred_eq, Set.mem_union]
  constructor
  · rintro ⟨e, he | rfl, hp⟩
    · exact .inr ⟨e, he, hp⟩
    · exact .inl hp
  · rintro (hp | ⟨e, he, hp⟩)
    · exact ⟨event, .inr rfl, hp⟩
    · exact ⟨e, .inl he, hp⟩

theorem endsSessions_live {event : AccountsEvent} (h : event.Admitted db)
    (he : event.change.endsSessions u) : u ∉ db.accountsUuid128Map := by
  have hmem : u ∈ event.change.identities := by
    cases hc : event.change with
    | signedOut uuid reason =>
      rw [hc] at he
      simp [AccountsChange.identities, AccountsChange.account, he.1]
    | accessRemoved uuid | deleted uuid =>
      rw [hc] at he
      obtain rfl : uuid = u := he
      simp [AccountsChange.identities, AccountsChange.account]
    | _ =>
      rw [hc] at he
      exact he.elim
  have hlive := h.live
  simp only [AccountsEvent.retired, List.any_eq_false, List.contains_iff_mem] at hlive
  exact hlive u hmem

theorem Current.deliver (h : world.Current u) (event : AccountsEvent) (clock : Instant) :
    (world.step gateway rfc3339 (.delivered event clock)).Current u := by
  have hledger := (deliver_frame event clock world.state.db).1
  by_cases ha : event.Admitted world.state.db
  · have happlied : world.step gateway rfc3339 (.delivered event clock) =
        ⟨{ world.state with db := SiliconHook.deliver event clock world.state.db },
          world.applied ++ [event]⟩ := by
      simp [step, ha, SignInLabel.perform]
    obtain ⟨recorded, -, hdel⟩ := deliver_admitted clock ha
    rw [happlied]
    by_cases he : event.change.endsSessions u
    · refine ⟨fun hl => absurd (hledger ▸ hl) (endsSessions_live ha he), fun hd => ?_⟩
      have hmarks : { instant | event.change.endsSessions u ∧ event.occurredAt = instant } =
          {event.occurredAt} := by
        ext instant
        simp [he, eq_comm]
      rw [signOuts_append, hmarks, Set.singleton_union]
      simp only at hd ⊢
      cases happ : event.change.apply event.occurredAt clock
          { world.state.db with accountsEvents := recorded } with
      | error e => exact absurd happ (AccountsChange.apply_ends_ok he)
      | ok db' =>
        rw [hdel, happ] at hd ⊢
        obtain ⟨hraise, hdeleted⟩ := AccountsChange.apply_ends happ he
        rw [hraise]
        refine (h.stored ?_).raise event.occurredAt
        cases hd' : (world.state.db.standing u).2 with
        | none => rfl
        | some d =>
          have := hdeleted (Option.isSome_iff_exists.mpr ⟨d, hd'⟩)
          simp [hd] at this
    · have hmarks : { instant | event.change.endsSessions u ∧ event.occurredAt = instant } =
          ∅ := by simp [he]
      refine h.of_keepsStanding ⟨hledger, fun _ => ?_⟩ ?_
      · simp only
        rw [hdel]
        split
        · rename_i happ
          rw [AccountsChange.apply_keeps happ he]
          exact Store.standing_congr rfl
        · rfl
      · rw [signOuts_append, hmarks, Set.empty_union]
  · obtain ⟨events, hdel⟩ := deliver_not_admitted clock ha
    refine h.of_keepsStanding ⟨hledger, fun _ => ?_⟩ ?_
    · simp only [step, SignInLabel.perform, hdel]
      exact Store.standing_congr rfl
    · simp [step, signOuts, ha]

theorem Current.step (h : world.Current u) (label : SignInLabel) :
    (world.step gateway rfc3339 label).Current u := by
  cases label with
  | delivered event clock => exact h.deliver event clock
  | authenticated client token now =>
    exact h.of_keepsStanding AccountsGateway.authenticate_keepsStanding rfl
  | lookedUp client value byId now => exact h.of_keepsStanding (lookUp_keepsStanding ..) rfl

theorem run_sameBut {event : AccountsEvent} {world' : SignInWorld} {rest : List SignInLabel}
    (hc : event.change = .signedOut v (some "app_revoked"))
    (h : world.state.SameBut event.eventId world'.state)
    (hrest : ∀ label ∈ rest, label.Names event) :
    (run (step gateway rfc3339) world rest).state.SameBut event.eventId
      (run (step gateway rfc3339) world' rest).state := by
  induction rest generalizing world world' with
  | nil => exact h
  | cons label rest ih =>
    refine ih ?_ fun l hl => hrest l (List.mem_cons_of_mem _ hl)
    cases label with
    | delivered other clock =>
      refine ⟨?_, h.2⟩
      by_cases hid : other.eventId = event.eventId
      · obtain rfl := hrest _ (List.mem_cons_self ..) hid
        exact ((Store.SameBut.of_appRevoked hc clock).symm.trans h.1).trans
          (.of_appRevoked hc clock)
      · exact h.1.deliver_ne hid clock
    | authenticated client token now => exact (authenticate_sameBut h ..).2
    | lookedUp client value byId now => exact (lookUp_sameBut h ..).2

end SignInWorld

/-- Throughout a run, a token stands as the latest sign-out applied decides, and a
sign-out Hook asked for decides nothing. -/
theorem sign_outs_hold (gateway : AccountsGateway) (rfc3339 : Instant → String)
    (u : AccountUuid) (state : AppState) (hstart : (state.db.accountRow u).revokedBefore = none)
    (labels : List SignInLabel) :
    let world := run (SignInWorld.step gateway rfc3339) ⟨state, []⟩ labels
    (∀ last, IsGreatest (world.signOuts u) last → ∀ client token claims now,
      client.verify token = .ok claims → claims.sub = u.value →
        AccountsGateway.Verdict last claims world.state
          (gateway.authenticate rfc3339 client token now world.state)) ∧
    ∀ event v clock rest, event.change = .signedOut v (some "app_revoked") →
      (∀ label ∈ rest, label.Names event) → ∀ client token now,
        (gateway.authenticate rfc3339 client token now (run (SignInWorld.step gateway rfc3339)
          (world.step gateway rfc3339 (.delivered event clock)) rest).state).1 =
        (gateway.authenticate rfc3339 client token now
          (run (SignInWorld.step gateway rfc3339) world rest).state).1 := by
  intro world
  constructor
  · intro last hlast client token claims now hv hs
    have hcurrent : world.Current u := by
      refine run_invariant (P := fun _ _ => True) (fun _ label h _ => h.step label) ?_ along_true
      refine ⟨fun _ => by simp [SignInWorld.signOuts], fun _ => ?_⟩
      simp [SignInWorld.signOuts, Store.standing, AccountRow.standing, hstart, HighWater.Holds]
    refine AccountsGateway.authenticate_verdict hv hs (fun hl => ?_) fun hd => ?_
    · have hmem := hlast.1
      rw [hcurrent.retired hl] at hmem
      exact hmem.elim
    · have hstored := hcurrent.stored hd
      cases hr : (world.state.db.standing u).1 with
      | none =>
        rw [hr] at hstored
        have hmem := hlast.1
        rw [show world.signOuts u = ∅ from hstored] at hmem
        exact hmem.elim
      | some stored =>
        rw [hr] at hstored
        rw [(show IsGreatest (world.signOuts u) stored from hstored).unique hlast]
  · intro event v clock rest hc hrest client token now
    have hsame : world.state.SameBut event.eventId
        (world.step gateway rfc3339 (.delivered event clock)).state :=
      ⟨Store.SameBut.of_appRevoked hc clock, rfl⟩
    exact (authenticate_sameBut (SignInWorld.run_sameBut hc hsame hrest) ..).1.symm

namespace SignedOutMidSecond

def account : AccountUuid := ⟨"CaAda", by decide⟩

/-- Half a second into the second after the token's. -/
def signOut : AccountsEvent :=
  ⟨"evt-1", "membership.signed_out", 1500000, .signedOut account none⟩

def claims : Claims := ⟨"CaAda", some .carbon, some "c:ada", some 0, 1800⟩

def client : AccountsClient where
  verify := fun _ => .ok claims
  introspect := fun _ => .ok ⟨true, none⟩
  lookup := fun _ => .error ⟨none, "unreachable", "unreachable"⟩
  lookupById := fun _ => .error ⟨none, "unreachable", "unreachable"⟩

def gateway : AccountsGateway := ⟨"hook", id⟩

def signedOut : SignInWorld :=
  run (SignInWorld.step gateway fun _ => "") ⟨⟨.empty, .empty 0⟩, []⟩ [.delivered signOut 1600000]

theorem early_token_refused : ∃ code message,
    (gateway.authenticate (fun _ => "") client "token" 1700000 signedOut.state).1 =
      .error (.refused 401 code message) := by
  refine ((sign_outs_hold gateway (fun _ => "") account ⟨.empty, .empty 0⟩ (by decide)
    [.delivered signOut 1600000]).1 1500000 ⟨?_, ?_⟩ client "token" claims 1700000 rfl
      rfl).refuses (by decide)
  · exact ⟨signOut, by decide, ⟨rfl, by decide⟩, rfl⟩
  · rintro _ ⟨event, hm, -, rfl⟩
    revert event
    decide

end SignedOutMidSecond

end SiliconHook
