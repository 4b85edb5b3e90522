import SiliconHook.Application.Hooks
import SiliconHook.Infrastructure.Accounts
import SiliconHook.Store.Accounts

/-!
# Who the caller is

A verified access token is checked against what Hook has been told about its
account: a deletion ends it, a sign-out ends the tokens issued before it. Each
store call is its own transaction, so a refused call keeps what it recorded.
-/

namespace SiliconHook

structure AppState where
  db : Store
  memory : GatewayMemory
  deriving DecidableEq

/-- Access tokens live 30 minutes; used to bound a token without `iat`. -/
def accessTokenLifetime : Int := Instant.minutes 30

namespace Instant

/-- Years -9999 to 9999. -/
def fromUnixTimestamp (seconds : Int) : Option Instant :=
  if -377705116800 ≤ seconds ∧ seconds ≤ 253402300799 then some (seconds * second) else none

def wholeSecond (instant : Instant) : Instant := instant - instant % second

end Instant

namespace Claims

def publicId (claims : Claims) : Option PublicId :=
  claims.id.bind fun id => (PublicId.new id).toOption

/-- `iat`, or the earliest it can be given `exp`. -/
def issuedAt (claims : Claims) : Instant :=
  ((claims.iat.bind Instant.fromUnixTimestamp) <|>
    (Instant.fromUnixTimestamp claims.exp).map (· - accessTokenLifetime)).getD 0

end Claims

def accountsUnavailable : AccountsError → ApplicationError
  | .rejected status code message => .refused 502 "accounts_refused"
      ("Silicon Accounts refused Hook's request (" ++ toString status ++ " " ++ code ++ "): " ++
        message)
  | .unavailable _ => .refused 503 "accounts_unavailable"
      ("Silicon Accounts did not answer, and this request needs it (to confirm that the sign-in " ++
        "is still active, or to look an account up). Retry shortly.")

def verifyRefusal : VerifyFailure → ApplicationError
  | .rejected code message => .refused 401 code message
  | .unavailable _ => .refused 503 "accounts_unavailable"
      ("Silicon Accounts did not answer, and Hook needs its signing keys to check this access " ++
        "token. Retry shortly.")

-- -----------------------------------------------------------------------------
-- Lookups
-- -----------------------------------------------------------------------------

def viewOf (summary : AccountSummary) : Except ApplicationError AccountView :=
  match AccountUuid.new summary.uuid with
  | .error _ => .error (.refused 502 "accounts_invalid"
      "Silicon Accounts returned an account without a valid uuid.")
  | .ok uuid =>
    .ok {
      uuid
      kind := summary.kind
      publicId := (PublicId.new summary.id).toOption
      custodian := summary.custodian.bind fun custodian =>
        (AccountUuid.new custodian.uuid).toOption.map fun uuid =>
          (uuid, (PublicId.new custodian.id).toOption) }

def recordLookup (value : String) (answer : Lookup) (now : Instant) (db : Store) :
    Except ApplicationError (Option AccountRow) × Store :=
  match answer with
  | .found summary =>
    match viewOf summary with
    | .error e => (.error e, db)
    | .ok view =>
      match recordAccountView view now db with
      | .error e => (.error (mapStoreError e), db)
      | .ok (record, db) => (.ok (some record), db)
  | .deleted =>
    (.error (.refused 410 "account_deleted" (value ++ " was deleted in Silicon Accounts.")),
      match AccountUuid.new value with
      | .ok uuid => recordAccountDeletedByLookup uuid now db
      | .error _ => db)
  | .notFound => (.ok none, db)

def lookUp (client : AccountsClient) (value : String) (byId : Bool) (now : Instant)
    (state : AppState) : Except ApplicationError (Option AccountRow) × AppState :=
  match AccountsGateway.lookup client value byId now state.memory with
  | (.error e, memory) => (.error (accountsUnavailable e), { state with memory })
  | (.ok answer, memory) =>
    let (result, db) := recordLookup value answer now state.db
    (result, ⟨db, memory⟩)

-- -----------------------------------------------------------------------------
-- Authentication
-- -----------------------------------------------------------------------------

/-- The cached account, unless the token names another public id. -/
def tokenAccount (uuid : AccountUuid) (kind : ActorKind) (id : Option PublicId)
    (issuedAt : Instant) (db : Store) : AccountRow × Store :=
  match db.account uuid with
  | some record =>
    if record.publicId = id ∨ id.isNone then (record, db)
    else observeTokenAccount uuid kind id issuedAt db
  | none => observeTokenAccount uuid kind id issuedAt db

/-- Whether a sign-out Hook was told about ended the sign-in the token belongs
to. A token from the sign-out's own second is settled by Silicon Accounts. -/
def AccountsGateway.endedBySignOut (gateway : AccountsGateway) (client : AccountsClient)
    (token : String) (issuedAt revokedBefore now : Instant) (memory : GatewayMemory) :
    Except ApplicationError Bool × GatewayMemory :=
  if issuedAt < revokedBefore.wholeSecond then (.ok true, memory)
  else if revokedBefore ≤ issuedAt then (.ok false, memory)
  else
    match gateway.issuedAfterSignOut client token revokedBefore now memory with
    | (.ok after, memory) => (.ok !after, memory)
    | (.error e, memory) => (.error (accountsUnavailable e), memory)

def AccountsGateway.checkSignIn (gateway : AccountsGateway) (rfc3339 : Instant → String)
    (client : AccountsClient) (token : String) (issuedAt now : Instant) (record : AccountRow)
    (memory : GatewayMemory) : Except ApplicationError Unit × GatewayMemory :=
  if record.deletedAt.isSome then
    (.error (.refused 401 "account_deleted"
      "This account was deleted in Silicon Accounts; its tokens no longer work."), memory)
  else
    match record.revokedBefore with
    | none => (.ok (), memory)
    | some revokedBefore =>
      match gateway.endedBySignOut client token issuedAt revokedBefore now memory with
      | (.error e, memory) => (.error e, memory)
      | (.ok false, memory) => (.ok (), memory)
      | (.ok true, memory) =>
        (.error (.refused 401 "session_ended" ("This sign-in ended at " ++ rfc3339 revokedBefore ++
          " (signed out or Hook's access removed in Silicon Accounts). Sign in again: hook login " ++
          "(Carbons) or hook login --slt with a token from silicon-accounts login --app hook -q " ++
          "(Silicons).")), memory)

def AccountsGateway.authenticate (gateway : AccountsGateway) (rfc3339 : Instant → String)
    (client : AccountsClient) (token : String) (now : Instant) (state : AppState) :
    Except ApplicationError Actor × AppState :=
  match client.verify token with
  | .error failure => (.error (verifyRefusal failure), state)
  | .ok claims =>
    match AccountUuid.new claims.sub with
    | .error _ => (.error (.refused 401 "token_invalid"
        "The access token's subject is not a Silicon Accounts uuid."), state)
    | .ok uuid =>
      if uuid ∈ state.db.accountsUuid128Map then
        (.error (.refused 401 "session_ended"
          "This account identity was migrated. Sign in to Hook again."), state)
      else match claims.kind with
        | none => (.error (.refused 401 "token_missing_claim"
            ("The access token does not say whether it belongs to a Carbon or a Silicon " ++
              "(no kind claim).")), state)
        | some kind =>
          let (record, db) := tokenAccount uuid kind claims.publicId claims.issuedAt state.db
          match gateway.checkSignIn rfc3339 client token claims.issuedAt now record
              state.memory with
          | (.error e, memory) => (.error e, ⟨db, memory⟩)
          | (.ok (), memory) =>
            -- a Silicon's custodian is learnt once; a failure here only delays that
            let state :=
              if kind = .silicon ∧ record.custodianCheckedAt.isNone then
                (lookUp client uuid.value false now ⟨db, memory⟩).2
              else ⟨db, memory⟩
            (.ok ⟨uuid, kind, claims.publicId <|> record.publicId⟩, state)

theorem lookUp_introspected (client : AccountsClient) (value : String) (byId : Bool)
    (now : Instant) (state : AppState) :
    (lookUp client value byId now state).2.memory.introspected =
      state.memory.introspected := by
  have h := AccountsGateway.lookup_introspected client value byId now state.memory
  unfold lookUp
  split
  · rename_i hl
    rwa [hl] at h
  · rename_i hl
    rwa [hl] at h

end SiliconHook
