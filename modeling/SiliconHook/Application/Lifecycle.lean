import SiliconHook.Library.Program
import SiliconHook.Application.Hooks
import SiliconHook.Store.Audit

/-!
# Hook use cases

Every use case that changes hooks, with nothing running between its store calls.
What a call draws (clock readings, identifiers, keys, nonces) it is given.
-/

namespace SiliconHook

abbrev UseCase (α : Type) := Program Database ApplicationError α

def storeCall (call : Database → Except StoreError (α × Database)) : UseCase α :=
  Program.transact fun database => liftStore (call database)

def query (f : Store → Except ApplicationError α) : UseCase α := Program.read fun database =>
  f database.db

structure DeleteHookCommand where
  authorization : AuthorizationContext
  hookId : HookId

structure SetHooksEnabledCommand where
  authorization : AuthorizationContext
  hookIds : List HookId
  enabled : Bool

-- -----------------------------------------------------------------------------
-- Creation
-- -----------------------------------------------------------------------------

def endpointGenerationAttempts : Nat := 16

structure CreateHookCommand where
  context : ManagementContext
  name : HookName
  description : Option HookDescription
  timeZone : HookTimeZone
  signing : SigningPatch

structure CanonicalCreateHookRequest where
  name : String
  description : Option String
  timeZone : String
  signatureRequired : Bool
  signature : SignatureConfig
  secretDigest : Option String
  deriving DecidableEq

/-- SHA-256, and the canonical JSON of the two creation requests. -/
structure RequestHash where
  sha256 : List UInt8 → List UInt8
  createJson : CanonicalCreateHookRequest → List UInt8
  connectJson : String → List UInt8

def createHookRequestDigest (hash : RequestHash) (name : HookName)
    (description : Option HookDescription) (timeZone : HookTimeZone) (signing : SigningInput) :
    List UInt8 :=
  hash.sha256 (hash.createJson {
    name := name.value
    description := description.map HookDescription.value
    timeZone := timeZone.value
    signatureRequired := signing.required
    signature := signing.config
    secretDigest := signing.secret.map fun secret =>
      String.ofList (Encoding.hexEncode (hash.sha256 (Encoding.utf8 secret.value))) })

structure CreateHookParts where
  siliconUuid : AccountUuid
  name : HookName
  description : Option HookDescription
  timeZone : HookTimeZone
  signing : SigningInput
  actor : ActorRef
  idempotencyKey : String
  requestDigest : List UInt8
  isAccountsDefault : Bool

structure CreationDraw where
  hookId : HookId
  endpointKey : EndpointKey
  nonce : List UInt8

/-- The supplied secret or a generated one, where the algorithm uses one. -/
def creationSecret (input : SigningInput) (entropy : SecretEntropy) :
    Except ApplicationError (Option SigningSecret) :=
  match input.secret, input.config.algorithm.usesSecret with
  | some secret, true => .ok (some secret)
  | none, true => some <$> generateSigningSecret input.config.secretEncoding entropy
  | _, false => .ok none

namespace HookApplication

def encryptSecret (app : HookApplication) (nonce : List UInt8) (hookId : HookId)
    (secret : Option SigningSecret) : Except ApplicationError (Option EncryptedSecret) :=
  match secret with
  | none => .ok none
  | some secret =>
    match app.secretCipher.encrypt nonce hookId secret with
    | .ok encrypted => .ok (some encrypted)
    | .error _ => .error .internal

def createCommand (app : HookApplication) (parts : CreateHookParts) (secret : Option SigningSecret)
    (draw : CreationDraw) (now : Instant) : Except ApplicationError CreateHook := do
  let encrypted ← app.encryptSecret draw.nonce draw.hookId secret
  return {
    hook := Hook.create {
      id := draw.hookId
      siliconId := .fromAccountUuid parts.siliconUuid
      siliconUuid := parts.siliconUuid
      name := parts.name
      description := parts.description
      endpointKey := draw.endpointKey
      signing := ⟨parts.signing.required, parts.signing.config, encrypted⟩
      timeZone := parts.timeZone
      createdBy := parts.actor
      createdAt := now }
    isAccountsDefault := parts.isAccountsDefault
    idempotency := {
      operation := if parts.isAccountsDefault then "hook.accounts.connect" else "hook.create"
      actor := parts.actor
      targetId := parts.siliconUuid.value
      key := parts.idempotencyKey
      requestDigest := parts.requestDigest }
    response := {
      status := 201
      resourceId := some draw.hookId
      encryptedSecret := encrypted
      secretReplayUntil := encrypted.map fun _ => now + secretReplayWindow }
    auditActor := parts.actor
    recordedAt := now }

/-- Attempts with a fresh id and endpoint key until no key is taken. -/
def createAttempts (app : HookApplication) (parts : CreateHookParts)
    (secret : Option SigningSecret) (now : Instant) (draws : Nat → CreationDraw) :
    Nat → UseCase HookWithSecret
  | 0 => liftM (m := Except ApplicationError) (.error .internal)
  | attempts + 1 => do
    let command ← app.createCommand parts secret (draws attempts) now
    match ← Program.attempt (Database.createHook command) with
    | .ok (.created hook) => return ⟨hook, secret⟩
    | .ok (.replayed hook response) => app.secretResultFromReplay hook response
    | .error .endpointKeyConflict => app.createAttempts parts secret now draws attempts
    | .error e => liftM (m := Except ApplicationError) (.error (mapStoreError e))

def createHookInner (app : HookApplication) (parts : CreateHookParts) (now : Instant)
    (entropy : SecretEntropy) (draws : Nat → CreationDraw) : UseCase HookWithSecret := do
  let secret ← creationSecret parts.signing entropy
  app.createAttempts parts secret now draws endpointGenerationAttempts

def createHook (app : HookApplication) (hash : RequestHash) (command : CreateHookCommand)
    (now : Instant) (entropy : SecretEntropy) (draws : Nat → CreationDraw) :
    UseCase HookWithSecret := do
  authorizeAction command.context.authorization .createHook
  let signing := command.signing.resolve .default true
  validateSigningInput app.readKey signing
  app.createHookInner {
    siliconUuid := command.context.authorization.silicon.uuid
    name := command.name
    description := command.description
    timeZone := command.timeZone
    signing
    actor := actorRef command.context.authorization
    idempotencyKey := command.context.idempotencyKey
    requestDigest := createHookRequestDigest hash command.name command.description
      command.timeZone signing
    isAccountsDefault := false } now entropy draws

-- -----------------------------------------------------------------------------
-- Update, activation and deletion
-- -----------------------------------------------------------------------------

/-- The activation an update's patch asks for, committed on its own. -/
def activatePatched (command : UpdateHookCommand) (existing : Hook) (now : Instant) :
    UseCase Hook :=
  match command.patch.enabled with
  | none => return existing
  | some enabled => do
    let updated ← storeCall (Database.setHooksEnabled
      ⟨command.siliconUuid, [command.hookId], enabled, now⟩ (actorRef command.authorization))
    match updated.getLast? with
    | none => liftM (m := Except ApplicationError) (.error .internal)
    | some current => return current

/-- Changes metadata, activation, or signing policy of one hook; an activation
stays where the metadata then fails. -/
def update (app : HookApplication) (command : UpdateHookCommand) (nonce : List UInt8)
    (activatedAt updatedAt : Instant) : UseCase Hook := do
  authorizeAction command.authorization .readHook
  let existing ← query (loadHook command.siliconUuid command.hookId)
  let changes ← app.prepareUpdate command nonce existing
  let current ← activatePatched command existing activatedAt
  if !command.patch.changesMetadata then return current
  storeCall (Database.updateHook ⟨command.siliconUuid, command.hookId, changes⟩
    (actorRef command.authorization) updatedAt)

/-- Soft-deletes a hook; one already deleted is left alone. -/
def deleteHook (command : DeleteHookCommand) (now : Instant) : UseCase Unit := do
  authorizeAction command.authorization .readHook
  let hook ← query (loadHook command.authorization.silicon.uuid command.hookId)
  authorizeAction command.authorization .deleteHook
  if hook.status = .deleted then return ()
  match ← Program.attempt (Database.deleteHook
      ⟨command.authorization.silicon.uuid, command.hookId, now⟩
      (actorRef command.authorization)) with
  | .ok _ | .error (.stateConflict _) => return ()
  | .error e => liftM (m := Except ApplicationError) (.error (mapStoreError e))

def validateActivationHookIds (hookIds : List HookId) : Except ApplicationError (List HookId) :=
  if hookIds.isEmpty || maxHookActivationBatchSize < hookIds.length || ¬ hookIds.Nodup then
    .error (.validation "hook_ids")
  else .ok (sortIds hookIds)

def getHooksByIds (siliconUuid : AccountUuid) (hookIds : List HookId) (db : Store) :
    Except StoreError (List Hook) :=
  (hookIds.filterMap (db.scopedHook siliconUuid)).mapM HookRow.toHook

def inOrder (requested : List HookId) (hooks : List Hook) : Except ApplicationError (List Hook) :=
  requested.mapM fun hookId =>
    match hooks.find? (·.id = hookId) with
    | none => .error .internal
    | some hook => .ok hook

def setHooksEnabled (command : SetHooksEnabledCommand) (now : Instant) : UseCase (List Hook) := do
  let hookIds ← validateActivationHookIds command.hookIds
  authorizeAction command.authorization .setHookEnabled
  let hooks ← query fun db => liftStore (getHooksByIds command.authorization.silicon.uuid hookIds db)
  ensure (hooks.length = hookIds.length) ApplicationError.notFound
  ensure (∀ hook ∈ hooks, hook.status ≠ .deleted) ApplicationError.stateConflict
  let updated ← storeCall (Database.setHooksEnabled
    ⟨command.authorization.silicon.uuid, hookIds, command.enabled, now⟩
    (actorRef command.authorization))
  inOrder command.hookIds updated

-- -----------------------------------------------------------------------------
-- Restoration and rotation
-- -----------------------------------------------------------------------------

def plainResponse (hookId : HookId) : PersistedResponse := ⟨200, some hookId, none, none⟩

def restoreCommand (command : HookMutationCommand) (now : Instant) : RestoreHook where
  siliconUuid := command.siliconUuid
  hookId := command.hookId
  idempotency := idempotencyScope "hook.restore" command.context.authorization
    (Uuid.hyphenated command.hookId.uuid) command.context.idempotencyKey emptyRequestDigest
  response := plainResponse command.hookId
  auditActor := actorRef command.context.authorization
  occurredAt := now

def restoreHook (command : HookMutationCommand) (now : Instant) : UseCase Hook := do
  let hook ← query (loadForMutation command.context.authorization command.hookId .restoreHook)
  ensure (hook.snapshot.deletedAt.all fun deletedAt =>
    decide (now ≤ deletedAt + Instant.days hookRecoveryDays)) ApplicationError.recoveryExpired
  match ← storeCall (Database.restoreHook (restoreCommand command now)) with
  | .restored hook | .replayed hook _ => return hook

def rotateSecret (app : HookApplication) (command : HookMutationCommand)
    (entropy : SecretEntropy) (nonce : List UInt8) (now : Instant) : UseCase HookWithSecret := do
  let hook ← query (loadForMutation command.context.authorization command.hookId .rotateSecret)
  let (secret, encrypted) ← app.prepareRotation command entropy nonce hook
  match ← storeCall (Database.rotateHookSecret (rotateSecretCommand command encrypted now)) with
  | .rotated hook => return ⟨hook, some secret⟩
  | .replayed hook response => app.secretResultFromReplay hook response

def rotateEndpointCommand (command : HookMutationCommand) (replacement : EndpointKey)
    (now : Instant) : RotateEndpoint where
  siliconUuid := command.siliconUuid
  hookId := command.hookId
  replacement
  idempotency := idempotencyScope "hook.endpoint.rotate" command.context.authorization
    (Uuid.hyphenated command.hookId.uuid) command.context.idempotencyKey emptyRequestDigest
  response := plainResponse command.hookId
  auditActor := actorRef command.context.authorization
  occurredAt := now

def rotateEndpointAttempts (command : HookMutationCommand) (now : Instant)
    (draws : Nat → EndpointKey) : Nat → UseCase Hook
  | 0 => liftM (m := Except ApplicationError) (.error .internal)
  | attempts + 1 => do
    match ← Program.attempt (Database.rotateHookEndpoint
        (rotateEndpointCommand command (draws attempts) now)) with
    | .ok (.rotated hook) | .ok (.replayed hook _) => return hook
    | .error .endpointKeyConflict => rotateEndpointAttempts command now draws attempts
    | .error e => liftM (m := Except ApplicationError) (.error (mapStoreError e))

def rotateEndpoint (command : HookMutationCommand) (now : Instant) (draws : Nat → EndpointKey) :
    UseCase Hook := do
  let _ ← query (loadForMutation command.context.authorization command.hookId .rotateEndpoint)
  rotateEndpointAttempts command now draws endpointGenerationAttempts

-- -----------------------------------------------------------------------------
-- The Silicon Accounts hook
-- -----------------------------------------------------------------------------

def accountsHookName : HookName := ⟨"Silicon Accounts", by decide⟩

def accountsHookDescription : HookDescription :=
  ⟨"Silicon Accounts updates about this Silicon", by decide⟩

def accountsSigningInput : SigningInput where
  required := true
  config := {
    algorithm := .hmacSha256
    payload := {
      source := "concat(request.headers[\"x-accounts-timestamp\"], \".\", request.raw_body)"
      parsed := .call .concat [headerPath "x-accounts-timestamp", .literal ".", rawBodyPath]
        none none }
    signature := {
      source := "request.headers[\"x-accounts-signature\"]"
      parsed := headerPath "x-accounts-signature" }
    signatureEncoding := .hex
    secretEncoding := .utf8
    publicKey := none }
  secret := none

def findAccountsHook (siliconUuid : AccountUuid) (db : Store) : Except StoreError (Option Hook) :=
  match db.hooks.rows.find? fun row =>
      row.siliconUuid = some siliconUuid && row.isAccountsDefault with
  | none => .ok none
  | some row => some <$> row.toHook

/-- Finds the Silicon's own Silicon Accounts hook or creates it, restoring a
soft-deleted one. -/
def prepareAccountsHook (app : HookApplication) (hash : RequestHash) (context : ManagementContext)
    (now : Instant) (entropy : SecretEntropy) (draws : Nat → CreationDraw) : UseCase Hook := do
  authorizeAction context.authorization .connectAccountsHook
  match ← query fun db => liftStore (findAccountsHook context.authorization.silicon.uuid db) with
  | some hook =>
    if hook.status = .deleted then restoreHook ⟨context, hook.id⟩ now else return hook
  | none => do
    let created ← app.createHookInner {
      siliconUuid := context.authorization.silicon.uuid
      name := accountsHookName
      description := some accountsHookDescription
      timeZone := ⟨"UTC"⟩
      signing := accountsSigningInput
      actor := actorRef context.authorization
      idempotencyKey := context.idempotencyKey
      requestDigest := hash.sha256 (hash.connectJson context.authorization.silicon.uuid.value)
      isAccountsDefault := true } now entropy draws
    return created.hook

end HookApplication

-- -----------------------------------------------------------------------------
-- The database a use case leaves
-- -----------------------------------------------------------------------------

section

variable {I : Database → Prop} {database : Database} {f : α → UseCase β}
  {call : Database → Except StoreError (α × Database)}

theorem exec_query_bind {g : Store → Except ApplicationError α} (h : I database)
    (hf : ∀ a, g database.db = .ok a → I ((f a).exec database)) :
    I ((query g >>= f).exec database) :=
  Program.exec_read_bind h hf

theorem exec_storeCall (h : I database)
    (hf : ∀ a database', call database = .ok (a, database') → I database') :
    I ((storeCall call).exec database) :=
  Program.exec_transact h fun a database' hc => hf a database' (liftStore_ok.mp hc)

theorem exec_storeCall_bind (h : I database)
    (hf : ∀ a database', call database = .ok (a, database') → I ((f a).exec database')) :
    I ((storeCall call >>= f).exec database) :=
  Program.exec_transact_bind h fun a database' hc => hf a database' (liftStore_ok.mp hc)

end

end SiliconHook
