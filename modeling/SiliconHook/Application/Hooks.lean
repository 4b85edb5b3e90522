import SiliconHook.Infrastructure.Crypto
import SiliconHook.Store.Hooks

/-!
# Hook management

The use cases that change a hook's signing policy. Each reads the hook in one
statement and writes it in a later transaction, so a call is given as what it
computes from the hook it read and what it then commits.
-/

namespace SiliconHook

open Encoding Text

inductive ApplicationError
  | validation (field : String)
  | validationDetailed (field detail : String)
  | notFound
  | recoveryExpired
  | endpointRetired
  | ipBlocked (until' : Instant)
  | idempotencyConflict
  | stateConflict
  | secretUnavailable
  | hookLimitReached
  | payloadTooLarge
  | unavailable
  | internal
  | refused (status : Nat) (code message : String)
  deriving DecidableEq, Repr

def mapStoreError : StoreError → ApplicationError
  | .notFound _ => .notFound
  | .stateConflict _ | .defaultHookExists => .stateConflict
  | .idempotencyConflict => .idempotencyConflict
  | .secretReplayExpired | .secretSuperseded => .secretUnavailable
  | .hookLimitReached => .hookLimitReached
  | .invalidArgument field _ => .validation field
  | .database _ | .corruptData .. | .endpointKeyConflict | .numericRange _ => .internal

def liftStore (result : Except StoreError α) : Except ApplicationError α :=
  match result with
  | .ok a => .ok a
  | .error e => .error (mapStoreError e)

/-- How an account is shown: its public id, or its uuid when none is known. -/
def displayName (uuid : AccountUuid) (id : Option PublicId) : String :=
  match id with
  | some id => id.value
  | none => uuid.value

def authorizeAction (authorization : AuthorizationContext) (action : Action) :
    Except ApplicationError Unit :=
  match authorize authorization action with
  | .allowed => .ok ()
  | .forbidden reason => .error (.refused 403 "forbidden"
      (displayName authorization.actor.uuid authorization.actor.id ++ " cannot do this with " ++
        displayName authorization.silicon.uuid authorization.silicon.id ++ "'s hooks: " ++
        reason ++ "."))

def actorRef (authorization : AuthorizationContext) : ActorRef :=
  .account authorization.actor.kind authorization.actor.uuid

structure HookApplication where
  secretCipher : SecretCipher
  readKey : KeyReader

-- -----------------------------------------------------------------------------
-- Signing policies
-- -----------------------------------------------------------------------------

def validateSecretEncoding (encoding : SecretEncoding) (secret : SigningSecret) :
    Except ApplicationError Unit :=
  match encoding.decode secret.value with
  | .ok _ => .ok ()
  | .error e => .error (.validationDetailed "signature" e.message)

def validateSigningInput (readKey : KeyReader) (input : SigningInput) :
    Except ApplicationError Unit :=
  match input.config.validate readKey with
  | .error e => .error (.validationDetailed "signature" ("public key: " ++ e.message))
  | .ok () =>
    if input.secret.isSome && input.config.algorithm.isAsymmetric then
      .error (.validationDetailed "signature"
        "asymmetric algorithms verify with a public key and take no secret")
    else match input.secret with
      | none => .ok ()
      | some secret => validateSecretEncoding input.config.secretEncoding secret

/-- The secret a policy stores: none for an asymmetric algorithm, the supplied
one encrypted, or the existing one, which must decode where its encoding
changes. -/
def HookApplication.policySecret (app : HookApplication) (nonce : List UInt8) (hookId : HookId)
    (input : SigningInput) (existing : SigningPolicy) :
    Except ApplicationError (Option EncryptedSecret) :=
  if input.config.algorithm.isAsymmetric then .ok none
  else match input.secret with
    | some secret =>
      match app.secretCipher.encrypt nonce hookId secret with
      | .ok encrypted => .ok (some encrypted)
      | .error _ => .error .internal
    | none =>
      match existing.encryptedSecret with
      | none => .ok none
      | some encrypted =>
        if input.config.algorithm.usesSecret &&
            input.config.secretEncoding ≠ existing.config.secretEncoding then
          match app.secretCipher.decrypt hookId encrypted with
          | .error _ => .error .internal
          | .ok secret =>
            match validateSecretEncoding input.config.secretEncoding secret with
            | .error e => .error e
            | .ok () => .ok (some encrypted)
        else .ok (some encrypted)

def HookApplication.signingPolicy (app : HookApplication) (nonce : List UInt8) (hookId : HookId)
    (input : SigningInput) (existing : SigningPolicy) : Except ApplicationError SigningPolicy := do
  let encryptedSecret ← app.policySecret nonce hookId input existing
  ensure (¬ (input.required && input.config.algorithm.usesSecret && encryptedSecret.isNone))
    (.validationDetailed "signature"
      "supply a secret or rotate the signing secret before requiring signatures")
  return ⟨input.required, input.config, encryptedSecret⟩

-- -----------------------------------------------------------------------------
-- Update
-- -----------------------------------------------------------------------------

structure HookPatch where
  name : Option HookName
  description : Option (Option HookDescription)
  timeZone : Option HookTimeZone
  enabled : Option Bool
  signing : Option SigningPatch

def HookPatch.changesMetadata (patch : HookPatch) : Bool :=
  patch.name.isSome || patch.description.isSome || patch.timeZone.isSome || patch.signing.isSome

structure UpdateHookCommand where
  authorization : AuthorizationContext
  hookId : HookId
  patch : HookPatch

abbrev UpdateHookCommand.siliconUuid (command : UpdateHookCommand) : AccountUuid :=
  command.authorization.silicon.uuid

/-- `get_hook` of a use case: the hook, or not found. -/
def loadHook (siliconUuid : AccountUuid) (hookId : HookId) (db : Store) :
    Except ApplicationError Hook := do
  match ← liftStore (getHook siliconUuid hookId db) with
  | none => throw .notFound
  | some hook => return hook

def authorizeWhere (performs : Bool) (authorization : AuthorizationContext) (action : Action) :
    Except ApplicationError Unit :=
  if performs then authorizeAction authorization action else .ok ()

def HookApplication.resolveSigning (app : HookApplication) (patch : Option SigningPatch)
    (existing : SigningPolicy) : Except ApplicationError (Option SigningInput) :=
  match patch with
  | none => .ok none
  | some patch => do
    let input := patch.resolve existing.config existing.required
    validateSigningInput app.readKey input
    return some input

def HookApplication.persistSigning (app : HookApplication) (nonce : List UInt8) (hookId : HookId)
    (input : Option SigningInput) (existing : SigningPolicy) :
    Except ApplicationError (Option SigningPolicy) :=
  match input with
  | none => .ok none
  | some input => some <$> app.signingPolicy nonce hookId input existing

/-- What an update decides from the hook it read: the metadata to write. -/
def HookApplication.prepareUpdate (app : HookApplication) (command : UpdateHookCommand)
    (nonce : List UInt8) (existing : Hook) : Except ApplicationError HookUpdate := do
  ensure (existing.status ≠ .deleted) .stateConflict
  let input ← app.resolveSigning command.patch.signing existing.signing
  authorizeWhere command.patch.enabled.isSome command.authorization .setHookEnabled
  authorizeWhere command.patch.changesMetadata command.authorization .updateHook
  let signing ← app.persistSigning nonce existing.id input existing.signing
  return ⟨command.patch.name, command.patch.description, command.patch.timeZone, signing⟩

/-- First store call of an update: activation, where the patch asks for it. -/
def activateForUpdate (command : UpdateHookCommand) (existing : Hook) (now : Instant)
    (db : Store) : Except ApplicationError (Hook × Store) :=
  match command.patch.enabled with
  | none => .ok (existing, db)
  | some enabled =>
    match setHooksEnabled ⟨command.siliconUuid, [command.hookId], enabled, now⟩ db with
    | .error e => .error (mapStoreError e)
    | .ok (updated, db) =>
      match updated.getLast? with
      | none => .error .internal
      | some current => .ok (current, db)

/-- Last store call of an update: metadata, where the patch changes any. -/
def writeUpdate (command : UpdateHookCommand) (current : Hook) (update : HookUpdate)
    (db : Store) : Except ApplicationError (Hook × Store) :=
  if !command.patch.changesMetadata then .ok (current, db)
  else liftStore (updateHookRow ⟨command.siliconUuid, command.hookId, update⟩ db)

/-- `update_hook` with nothing in between. -/
def HookApplication.updateHook (app : HookApplication) (command : UpdateHookCommand)
    (nonce : List UInt8) (now : Instant) (db : Store) :
    Except ApplicationError (Hook × Store) := do
  authorizeAction command.authorization .readHook
  let existing ← loadHook command.siliconUuid command.hookId db
  let update ← app.prepareUpdate command nonce existing
  let (current, db) ← activateForUpdate command existing now db
  writeUpdate command current update db

-- -----------------------------------------------------------------------------
-- Secret rotation
-- -----------------------------------------------------------------------------

structure ManagementContext where
  authorization : AuthorizationContext
  idempotencyKey : String

structure HookMutationCommand where
  context : ManagementContext
  hookId : HookId

abbrev HookMutationCommand.siliconUuid (command : HookMutationCommand) : AccountUuid :=
  command.context.authorization.silicon.uuid

def idempotencyScope (operation : String) (authorization : AuthorizationContext)
    (targetId key : String) (requestDigest : List UInt8) : IdempotencyScope :=
  ⟨operation, actorRef authorization, targetId, key, requestDigest⟩

def emptyRequestDigest : List UInt8 :=
  [0xe3, 0xb0, 0xc4, 0x42, 0x98, 0xfc, 0x1c, 0x14, 0x9a, 0xfb, 0xf4, 0xc8, 0x99, 0x6f, 0xb9, 0x24,
    0x27, 0xae, 0x41, 0xe4, 0x64, 0x9b, 0x93, 0x4c, 0xa4, 0x95, 0x99, 0x1b, 0x78, 0x52, 0xb8, 0x55]

def loadForMutation (authorization : AuthorizationContext) (hookId : HookId) (action : Action)
    (db : Store) : Except ApplicationError Hook := do
  authorizeAction authorization .readHook
  let hook ← loadHook authorization.silicon.uuid hookId db
  authorizeAction authorization action
  return hook

def generatedText (encoding : SecretEncoding) (entropy : SecretEntropy) : String :=
  let text := SigningSecret.generateText entropy
  match encoding with
  | .utf8 | .ascii | .raw => text
  | .hex => String.ofList (hexEncode (utf8 text))
  | .base64 => String.ofList (base64Encode .standard true (utf8 text))
  | .base64Url => String.ofList (base64Encode .urlSafe false (utf8 text))

def generateSigningSecret (encoding : SecretEncoding) (entropy : SecretEntropy) :
    Except ApplicationError SigningSecret :=
  match SigningSecret.fromText (generatedText encoding entropy) with
  | .ok secret => .ok secret
  | .error _ => .error .internal

structure HookWithSecret where
  hook : Hook
  signingSecret : Option SigningSecret

/-- What a rotation decides from the hook it read: the secret to store. -/
def HookApplication.prepareRotation (app : HookApplication) (command : HookMutationCommand)
    (entropy : SecretEntropy) (nonce : List UInt8) (hook : Hook) :
    Except ApplicationError (SigningSecret × EncryptedSecret) := do
  ensure (¬ hook.signing.config.algorithm.isAsymmetric) (.validationDetailed "signature"
    "an asymmetric signature algorithm has no shared secret to rotate")
  let secret ← generateSigningSecret hook.signing.config.secretEncoding entropy
  match app.secretCipher.encrypt nonce command.hookId secret with
  | .ok encrypted => return (secret, encrypted)
  | .error _ => throw .internal

def rotationScope (command : HookMutationCommand) : IdempotencyScope :=
  idempotencyScope "hook.secret.rotate" command.context.authorization
    (Uuid.hyphenated command.hookId.uuid) command.context.idempotencyKey emptyRequestDigest

def rotateSecretCommand (command : HookMutationCommand) (encrypted : EncryptedSecret)
    (now : Instant) : RotateSecret where
  siliconUuid := command.siliconUuid
  hookId := command.hookId
  encryptedSecret := encrypted
  idempotency := rotationScope command
  response := ⟨200, some command.hookId, some encrypted, some (now + secretReplayWindow)⟩
  auditActor := actorRef command.context.authorization
  occurredAt := now

def HookApplication.secretResultFromReplay (app : HookApplication) (hook : Hook)
    (response : PersistedResponse) : Except ApplicationError HookWithSecret :=
  match response.encryptedSecret with
  | none => .ok ⟨hook, none⟩
  | some encrypted =>
    match app.secretCipher.decrypt hook.id encrypted with
    | .ok secret => .ok ⟨hook, some secret⟩
    | .error _ => .error .internal

/-- The store call of a rotation. A replay answers with the secret the key's
first call stored. -/
def HookApplication.storeRotatedSecret (app : HookApplication) (command : HookMutationCommand)
    (secret : SigningSecret) (encrypted : EncryptedSecret) (now : Instant) (db : Store) :
    Except ApplicationError (HookWithSecret × Store) := do
  let (outcome, db) ← liftStore (rotateHookSecretRow (rotateSecretCommand command encrypted now) db)
  match outcome with
  | .rotated hook => return (⟨hook, some secret⟩, db)
  | .replayed hook response => return (← app.secretResultFromReplay hook response, db)

/-- `rotate_hook_secret` with nothing in between. -/
def HookApplication.rotateHookSecret (app : HookApplication) (command : HookMutationCommand)
    (entropy : SecretEntropy) (nonce : List UInt8) (now : Instant) (db : Store) :
    Except ApplicationError (HookWithSecret × Store) := do
  let hook ← loadForMutation command.context.authorization command.hookId .rotateSecret db
  let (secret, encrypted) ← app.prepareRotation command entropy nonce hook
  app.storeRotatedSecret command secret encrypted now db

-- -----------------------------------------------------------------------------
-- What the store calls of a rotation return
-- -----------------------------------------------------------------------------

theorem liftStore_ok {result : Except StoreError α} : liftStore result = .ok a ↔ result = .ok a := by
  cases result <;> simp [liftStore]

theorem loadHook_ok {db : Store} {hook : Hook} :
    loadHook u k db = .ok hook ↔
      ∃ row, db.scopedHook u k = some row ∧ hook.snapshot = row.snapshot := by
  simp only [loadHook, Except.bind_ok, liftStore_ok, ← getHook_some]
  constructor
  · rintro ⟨found, hg, h⟩
    cases found with
    | none => cases h
    | some hook' =>
      cases h
      exact hg
  · intro hg
    exact ⟨some hook, hg, rfl⟩

theorem HookApplication.storeRotatedSecret_ok {app : HookApplication} {db db' : Store} :
    app.storeRotatedSecret command secret encrypted t db = .ok (result, db') ↔
      ∃ outcome, rotateHookSecretRow (rotateSecretCommand command encrypted t) db =
          .ok (outcome, db') ∧
        match outcome with
        | .rotated hook => result = ⟨hook, some secret⟩
        | .replayed hook response => app.secretResultFromReplay hook response = .ok result := by
  simp only [storeRotatedSecret, Except.bind_ok, liftStore_ok]
  constructor
  · rintro ⟨⟨outcome, db''⟩, hrot, h⟩
    cases outcome with
    | rotated hook =>
      cases h
      exact ⟨_, hrot, rfl⟩
    | replayed hook response =>
      simp only [Except.bind_ok] at h
      obtain ⟨result', hres, h⟩ := h
      cases h
      exact ⟨_, hrot, hres⟩
  · rintro ⟨outcome, hrot, h⟩
    refine ⟨(outcome, db'), hrot, ?_⟩
    cases outcome with
    | rotated hook =>
      rw [h]
      rfl
    | replayed hook response =>
      simp only [Except.bind_ok]
      exact ⟨result, h, rfl⟩

theorem HookApplication.secretResultFromReplay_id {app : HookApplication} {a b : Hook}
    (h : app.secretResultFromReplay a response = .ok result) (hid : b.id = a.id) :
    ∃ result', app.secretResultFromReplay b response = .ok result' := by
  unfold secretResultFromReplay at h ⊢
  cases he : response.encryptedSecret with
  | none => simp
  | some encrypted =>
    simp only [he] at h
    simp only [hid]
    cases hd : app.secretCipher.decrypt a.id encrypted with
    | ok secret => simp
    | error e => simp [hd] at h

theorem HookApplication.prepareRotation_ok {app : HookApplication} {hook : Hook} :
    app.prepareRotation command entropy nonce hook = .ok (secret, encrypted) ↔
      hook.signing.config.algorithm.isAsymmetric = false ∧
        generateSigningSecret hook.signing.config.secretEncoding entropy = .ok secret ∧
        app.secretCipher.encrypt nonce command.hookId secret = .ok encrypted := by
  simp only [prepareRotation, Except.bind_ok, ensure_ok, Bool.not_eq_true]
  constructor
  · rintro ⟨_, ha, secret', hg, h⟩
    cases henc : app.secretCipher.encrypt nonce command.hookId secret' with
    | error e =>
      rw [henc] at h
      cases h
    | ok encrypted' =>
      rw [henc] at h
      cases h
      exact ⟨ha, hg, henc⟩
  · rintro ⟨ha, hg, henc⟩
    refine ⟨(), ha, secret, hg, ?_⟩
    rw [henc]
    rfl

-- -----------------------------------------------------------------------------
-- Generated secrets
-- -----------------------------------------------------------------------------

theorem generateText_graphic (entropy : SecretEntropy) :
    ∀ c ∈ (SigningSecret.generateText entropy).toList, isAsciiGraphic c = true := by
  have h := List.all_eq_true.mp entropy.alphanumeric
  simp only [SigningSecret.generateText, String.toList_ofList, List.mem_append]
  rintro c (hc | hc)
  · exact List.all_eq_true.mp (by decide) c hc
  · exact isAsciiAlphanumeric_graphic (h c hc)

theorem utf8_generateText_length (entropy : SecretEntropy) :
    (utf8 (SigningSecret.generateText entropy)).length ≤ 140 := by
  have h := utf8ByteSize_ofList_le ("v1.".toList ++ entropy.chars)
  have hl : ("v1.".toList ++ entropy.chars).length = 35 := by
    rw [List.length_append, entropy.length]
    rfl
  rw [length_utf8, SigningSecret.generateText]
  omega

theorem generateText_ne_empty (entropy : SecretEntropy) :
    SigningSecret.generateText entropy ≠ "" := by
  intro h
  have := congrArg String.toList h
  simp [SigningSecret.generateText] at this

theorem fromText_graphic {chars : List Char} (hn : chars ≠ [])
    (hg : ∀ c ∈ chars, isAsciiGraphic c = true) (hl : chars.length ≤ 1024) :
    ∃ secret, SigningSecret.fromText (String.ofList chars) = .ok secret ∧
      secret.value = String.ofList chars := by
  have hc : SigningSecret.check (String.ofList chars) = .ok () := by
    refine SigningSecret.check_ok.mpr ⟨?_, ?_, ?_⟩
    · intro he
      have := congrArg String.toList he
      simp [hn] at this
    · have := utf8ByteSize_ofList_le chars
      simp only [maxSecretBytes]
      omega
    · intro c h
      rw [String.toList_ofList] at h
      exact isAsciiGraphic_not_control (hg c h)
  exact ⟨⟨_, hc⟩, SigningSecret.fromText_value ⟨_, hc⟩, rfl⟩

theorem trimBy_graphic {chars : List Char} (hg : ∀ c ∈ chars, isAsciiGraphic c = true) :
    trimBy isWhiteSpace chars = chars :=
  trimBy_eq_self fun c h => isAsciiGraphic_not_whiteSpace (hg c h)

theorem generatedText_chars (encoding : SecretEncoding) (entropy : SecretEntropy) :
    ∃ chars : List Char, generatedText encoding entropy = String.ofList chars ∧
      (∀ c ∈ chars, isAsciiGraphic c = true) ∧ chars.length ≤ 1024 ∧
      encoding.keyBytes (String.ofList chars) =
        some (utf8 (SigningSecret.generateText entropy)) := by
  have hl := utf8_generateText_length entropy
  have hg : ∀ c ∈ "v1.".toList ++ entropy.chars, isAsciiGraphic c = true := by
    simpa only [SigningSecret.generateText, String.toList_ofList] using generateText_graphic entropy
  have hp : ("v1.".toList ++ entropy.chars).length ≤ 1024 := by
    rw [List.length_append, entropy.length]
    decide
  cases encoding with
  | utf8 => exact ⟨_, rfl, hg, hp, rfl⟩
  | raw => exact ⟨_, rfl, hg, hp, rfl⟩
  | ascii =>
    have ha : (("v1.".toList ++ entropy.chars).all isAscii) = true :=
      List.all_eq_true.mpr fun c h => isAsciiGraphic_ascii (hg c h)
    refine ⟨_, rfl, hg, hp, ?_⟩
    simp only [SecretEncoding.keyBytes, String.toList_ofList, ha, if_true]
    rfl
  | hex =>
    have hh := length_hexEncode (utf8 (SigningSecret.generateText entropy))
    refine ⟨_, rfl, hexEncode_graphic _, by omega, ?_⟩
    simp only [SecretEncoding.keyBytes, String.toList_ofList,
      trimBy_graphic (hexEncode_graphic _), hexDecode_hexEncode]
  | base64 =>
    have hs := length_base64Encode_le .standard true (utf8 (SigningSecret.generateText entropy))
    refine ⟨_, rfl, base64Encode_graphic _ _ _, by omega, ?_⟩
    simp only [SecretEncoding.keyBytes, String.toList_ofList,
      trimBy_graphic (base64Encode_graphic _ _ _), base64Decode_base64Encode]
    rfl
  | base64Url =>
    have hu := length_base64Encode_le .urlSafe false (utf8 (SigningSecret.generateText entropy))
    refine ⟨_, rfl, base64Encode_graphic _ _ _, by omega, ?_⟩
    simp only [SecretEncoding.keyBytes, String.toList_ofList,
      trimBy_graphic (base64Encode_graphic _ _ _), base64Decode_base64Encode]
    rfl

theorem keyBytes_empty {encoding : SecretEncoding} (h : encoding.keyBytes "" = some bytes) :
    bytes = [] := by
  cases encoding <;> exact (Option.some.inj h).symm

theorem generateSigningSecret_ok (encoding : SecretEncoding) (entropy : SecretEntropy) :
    ∃ secret, generateSigningSecret encoding entropy = .ok secret ∧
      secret.value = generatedText encoding entropy ∧
      ∃ bytes, encoding.decode secret.value = .ok bytes := by
  obtain ⟨chars, ht, hg, hl, hk⟩ := generatedText_chars encoding entropy
  have hb := utf8_ne_nil (generateText_ne_empty entropy)
  have hn : chars ≠ [] := by
    rintro rfl
    exact hb (keyBytes_empty hk)
  obtain ⟨secret, hf, hv⟩ := fromText_graphic hn hg hl
  refine ⟨secret, ?_, hv.trans ht.symm, utf8 (SigningSecret.generateText entropy), ?_⟩
  · simp [generateSigningSecret, ht, hf]
  · rw [hv]
    exact SecretEncoding.decode_ok.mpr ⟨hk, hb⟩

end SiliconHook
