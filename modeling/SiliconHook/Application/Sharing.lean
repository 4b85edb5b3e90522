import SiliconHook.Application.Access
import SiliconHook.Application.Lifecycle

/-!
# Sharing

Which Silicon a request names, what the actor may do with its hooks, and the
use cases on its grants and its allow-list. An account is resolved from what
Hook remembers, or looked up and recorded on the way.
-/

namespace SiliconHook

structure SharingState where
  database : Database
  memory : GatewayMemory
  deriving DecidableEq

abbrev SharingCase (α : Type) := Program SharingState ApplicationError α

structure Inquiry where
  now : Instant
  client : AccountsClient

/-- Custodian data older than this is confirmed before it decides an authorization. -/
def custodianFreshness : Int := Instant.minutes 5
/-- A cached id older than this is confirmed before it resolves a request. -/
def publicIdFreshness : Int := Instant.hours 1

def olderThan (at' : Option Instant) (freshness : Int) (now : Instant) : Bool :=
  at'.all fun at' => decide (freshness < now - at')

def AccountRow.shown (record : AccountRow) : String :=
  SiliconHook.displayName record.uuid record.publicId

/-- `ORDER BY public_id_at DESC NULLS LAST`. -/
def AccountRow.latestIdFirst (a b : AccountRow) : Prop :=
  b.publicIdAt.all (fun tb => a.publicIdAt.any fun ta => decide (tb ≤ ta)) = true

instance : DecidableRel AccountRow.latestIdFirst := fun _ _ => inferInstanceAs (Decidable (_ = _))

def Store.accountByPublicId (db : Store) (id : PublicId) : Option AccountRow :=
  ((db.accounts.select fun row =>
    row.publicId = some id && row.deletedAt.isNone && row.kind.isSome).insertionSort
      AccountRow.latestIdFirst).head?

namespace SharingCase

def ofUseCase (m : UseCase α) : SharingCase α := fun s =>
  ((m s.database).1, { s with database := (m s.database).2 })

def query (f : Store → Except ApplicationError α) : SharingCase α := .read fun s => f s.database.db

def storeCall (call : Database → Except StoreError (α × Database)) : SharingCase α :=
  ofUseCase (SiliconHook.storeCall call)

def lookUp (inquiry : Inquiry) (value : String) (byId : Bool) :
    SharingCase (Option AccountRow) := fun s =>
  let answer := SiliconHook.lookUp inquiry.client value byId inquiry.now ⟨s.database.db, s.memory⟩
  (answer.1, ⟨{ s.database with db := answer.2.db }, answer.2.memory⟩)

-- -----------------------------------------------------------------------------
-- Accounts
-- -----------------------------------------------------------------------------

def orNotFound (message : String) (found : Option AccountRow) : Except ApplicationError AccountRow :=
  match found with
  | some record => .ok record
  | none => .error (.refused 404 "account_not_found" message)

def accountDeleted (uuid : AccountUuid) : ApplicationError :=
  .refused 410 "account_deleted" (uuid.value ++ " was deleted in Silicon Accounts.")

def resolveById (inquiry : Inquiry) (id : PublicId) : SharingCase AccountRow := do
  let cached ← query fun db => .ok ((db.accountByPublicId id).filter fun record =>
    !olderThan record.publicIdAt publicIdFreshness inquiry.now)
  match cached with
  | some record => return record
  | none =>
    let found ← lookUp inquiry id.value true
    orNotFound ("No account has the id " ++ id.value ++ " in Silicon Accounts. Ids can change; " ++
      "check the current id, or use the account's uuid.") found

def resolveByUuid (inquiry : Inquiry) (uuid : AccountUuid) : SharingCase AccountRow := do
  let cached ← query fun db => .ok ((db.account uuid).filter fun record =>
    record.deletedAt.isSome || record.publicId.isSome)
  match cached with
  | some record =>
    ensure (record.deletedAt.isNone) (accountDeleted uuid)
    return record
  | none =>
    let found ← lookUp inquiry uuid.value false
    orNotFound ("No account has the uuid " ++ uuid.value ++ " in Silicon Accounts.") found

def resolveAccount (inquiry : Inquiry) (value : String) : SharingCase AccountRow :=
  let value := Text.trim value
  match PublicId.new value with
  | .ok id => resolveById inquiry id
  | .error _ =>
    match AccountUuid.new value with
    | .ok uuid => resolveByUuid inquiry uuid
    | .error _ => liftM (m := Except ApplicationError) (.error (.refused 422 "invalid_account"
        ("`" ++ value ++ "` is neither a Silicon Accounts id (c:handle or si:handle) nor a uuid " ++
          "(letters and digits).")))

/-- Not finding an account, said of the Silicon a request names. -/
def siliconNotFound (segment : String) : ApplicationError → ApplicationError
  | .refused 404 _ _ => .refused 404 "silicon_not_found" ("No Silicon has the id or uuid `" ++
      segment ++ "` in Silicon Accounts. Silicon ids look like si:handle and can change; the " ++
      "uuid never does.")
  | e => e

def resolveSilicon (inquiry : Inquiry) (segment : String) : SharingCase AccountRow := do
  let record ← (resolveAccount inquiry segment).mapError (siliconNotFound segment)
  ensure (record.kind = some .silicon) (ApplicationError.refused 404 "not_a_silicon"
    (record.publicId.elim segment PublicId.value ++ " is a Carbon. Hooks belong to Silicons: " ++
      "name a Silicon (si:handle) whose hooks you want."))
  return record

def currentCustodian (inquiry : Inquiry) (silicon : AccountRow) :
    SharingCase (Option AccountUuid) :=
  if !olderThan silicon.custodianCheckedAt custodianFreshness inquiry.now then
    return silicon.custodianUuid
  else do
    let fresh ← lookUp inquiry silicon.uuid.value false
    return fresh.bind AccountRow.custodianUuid

def storedAccount (uuid : AccountUuid) (missing : ApplicationError) : SharingCase AccountRow :=
  query fun db =>
    match db.account uuid with
    | some record => .ok record
    | none => .error missing

/-- The Silicon a segment names; one naming itself by uuid needs no lookup. -/
def namedSilicon (inquiry : Inquiry) (actor : Actor) (segment : String) : SharingCase AccountRow :=
  if actor.kind = .silicon && AccountUuid.looksLike segment && segment = actor.uuid.value then
    storedAccount actor.uuid
      (.refused 404 "silicon_not_found" ("No Silicon has the uuid " ++ segment ++ "."))
  else resolveSilicon inquiry segment

/-- The custodian, asked for only where the actor can be one. -/
def custodianFor (inquiry : Inquiry) (actor : Actor) (silicon : AccountRow) :
    SharingCase (Option AccountUuid) :=
  if actor.kind = .carbon then currentCustodian inquiry silicon else return none

def grantedLevel (actor : Actor) (silicon : SiliconRef) : SharingCase GrantLevel :=
  query fun db =>
    match db.siliconGrants.find (silicon.uuid, actor.uuid) with
    | some grant => .ok grant.level
    | none => .error (.refused 403 "no_access" (displayName actor.uuid actor.id ++
        " has no access to " ++ displayName silicon.uuid silicon.id ++ "'s hooks. Access comes " ++
        "from being that Silicon, its custodian, or a grant from either of them."))

def authorizeSilicon (named custody : Inquiry) (actor : Actor) (segment : String) :
    SharingCase AuthorizationContext := do
  let silicon ← namedSilicon named actor segment
  let reference : SiliconRef := ⟨silicon.uuid, silicon.publicId⟩
  if actor.uuid = silicon.uuid then return ⟨actor, reference, .own⟩
  let custodian ← custodianFor custody actor silicon
  if custodian = some actor.uuid then return ⟨actor, reference, .custodian⟩
  let level ← grantedLevel actor reference
  return ⟨actor, reference, .grant level⟩

-- -----------------------------------------------------------------------------
-- Grants
-- -----------------------------------------------------------------------------

structure GrantDraw where
  grantee : Inquiry
  ownerCustodian : Inquiry
  granteeCustodian : Inquiry
  storedAt : Instant

/-- A Silicon of another custodian only receives a grant from a sharer it allowed. -/
def ensureReachable (inquiry : Inquiry) (owner grantee : AccountRow)
    (ownerCustodian : Option AccountUuid) : SharingCase Unit := do
  let granteeCustodian ← currentCustodian inquiry grantee
  if ownerCustodian.isSome && ownerCustodian = granteeCustodian then return ()
  let allowed ← query fun db =>
    .ok (allowsAny grantee.uuid (owner.uuid :: ownerCustodian.toList) db)
  ensure allowed (ApplicationError.refused 403 "silicon_not_reachable" (grantee.shown ++ " is looked after by a " ++
    "different custodian, and a Silicon only receives access from outside its own custodian's " ++
    "Silicons when it has allowed the sharer first. Ask " ++ grantee.shown ++
    " or its custodian to add " ++ owner.shown ++ " (or its custodian) to " ++ grantee.shown ++
    "'s allow-list, then grant again."))

def grantAccess (draw : GrantDraw) (context : AuthorizationContext) (grantee : String)
    (level : GrantLevel) : SharingCase (GrantRow × AccountRow) := do
  authorizeAction context .manageAccess
  let owner ← storedAccount context.silicon.uuid .notFound
  let grantee ← resolveAccount draw.grantee grantee
  ensure (grantee.uuid ≠ owner.uuid) (ApplicationError.refused 409 "already_has_access"
    (grantee.shown ++ " is the Silicon itself and always has full access to its hooks."))
  let ownerCustodian ← currentCustodian draw.ownerCustodian owner
  ensure (ownerCustodian ≠ some grantee.uuid) (ApplicationError.refused 409 "already_has_access"
    (grantee.shown ++ " is " ++ owner.shown ++
      "'s custodian and already has full access to its hooks."))
  if grantee.kind = some .silicon then
    ensureReachable draw.granteeCustodian owner grantee ownerCustodian
  storeCall (Database.putGrant owner.uuid grantee.uuid level context.actor draw.storedAt)
  return (⟨owner.uuid, grantee.uuid, level, context.actor.uuid⟩, grantee)

structure RevokeDraw where
  silicon : Inquiry
  custody : Inquiry
  grantee : Inquiry
  ownerCustodian : Inquiry
  storedAt : Instant

/-- The account a removal names: the actor's own, or the one it resolves to. -/
def revokedAccount (inquiry : Inquiry) (actor : Actor) (grantee : String) :
    SharingCase AccountUuid :=
  if grantee = "me" then return actor.uuid
  else do
    let record ← resolveAccount inquiry grantee
    return record.uuid

/-- Removes a grant; a grantee can always remove its own. -/
def revokeAccess (draw : RevokeDraw) (actor : Actor) (segment grantee : String) :
    SharingCase Unit := do
  let context ← authorizeSilicon draw.silicon draw.custody actor segment
  let grantee ← revokedAccount draw.grantee actor grantee
  authorizeWhere (grantee ≠ actor.uuid) context .manageAccess
  let owner ← storedAccount context.silicon.uuid .notFound
  let custodian ← currentCustodian draw.ownerCustodian owner
  let removed ← storeCall (Database.deleteGrant owner.uuid grantee actor
    (custodian = some grantee) draw.storedAt)
  ensure removed (ApplicationError.refused 404 "grant_not_found" (grantee.value ++ " has no grant on " ++
    displayName context.silicon.uuid context.silicon.id ++ "'s hooks."))

-- -----------------------------------------------------------------------------
-- The allow-list
-- -----------------------------------------------------------------------------

def allow (inquiry : Inquiry) (storedAt : Instant) (context : AuthorizationContext)
    (account : String) : SharingCase AccountRow := do
  authorizeAction context .manageAllowList
  let account ← resolveAccount inquiry account
  ensure (account.uuid ≠ context.silicon.uuid)
    (ApplicationError.refused 409 "cannot_allow_self" "A Silicon does not need to allow itself.")
  storeCall (Database.putAllowance context.silicon.uuid account.uuid context.actor storedAt)
  return account

/-- Removes an account from the Silicon's allow-list; grants it made stay. -/
def disallow (inquiry : Inquiry) (storedAt : Instant) (context : AuthorizationContext)
    (account : String) : SharingCase Unit := do
  authorizeAction context .manageAllowList
  let account ← resolveAccount inquiry account
  let removed ← storeCall
    (Database.deleteAllowance context.silicon.uuid account.uuid context.actor storedAt)
  ensure removed (ApplicationError.refused 404 "not_allowed" (account.shown ++ " is not on " ++
    displayName context.silicon.uuid context.silicon.id ++ "'s allow-list."))

end SharingCase

end SiliconHook
