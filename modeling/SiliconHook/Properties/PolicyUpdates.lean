import SiliconHook.Application.Hooks
import SiliconHook.Library.Transition
import Mathlib.Data.List.Permutation

/-!
# Overlapping changes of one signing policy

Calls of `update_hook` and `rotate_hook_secret` on one hook, each taking one
store call at a time, and what they leave compared with the same calls made one
after the other.
-/

namespace SiliconHook

-- -----------------------------------------------------------------------------
-- Calls and their interleavings
-- -----------------------------------------------------------------------------

inductive PolicyCall
  | update (command : UpdateHookCommand) (nonce : List UInt8)
  | rotate (command : HookMutationCommand) (entropy : SecretEntropy) (nonce : List UInt8)

def PolicyCall.perform (app : HookApplication) (call : PolicyCall) (now : Instant) (db : Store) :
    Except ApplicationError Store :=
  match call with
  | .update command nonce => Prod.snd <$> app.updateHook command nonce now db
  | .rotate command entropy nonce => Prod.snd <$> app.rotateHookSecret command entropy nonce now db

/-- Calls one after the other, each with its reading of the clock. -/
def performSerially (app : HookApplication) (calls : List (PolicyCall × Instant)) (db : Store) :
    Except ApplicationError Store :=
  calls.foldlM (fun db call => call.1.perform app call.2 db) db

/-- How far a call has come: the hook it read, and what it computed from it. -/
inductive PolicySession
  | waiting
  | prepared (existing : Hook) (changes : HookUpdate)
  | activated (existing current : Hook) (changes : HookUpdate)
  | drawn (existing : Hook) (secret : SigningSecret) (encrypted : EncryptedSecret)
  | finished
  | failed

structure PolicyWorld where
  db : Store
  calls : List (PolicyCall × PolicySession)
  /-- The calls that succeeded, in the order of their last store call. -/
  committed : List PolicyCall

def PolicyCall.read (app : HookApplication) (call : PolicyCall) (db : Store) :
    Except ApplicationError PolicySession :=
  match call with
  | .update command nonce => do
    authorizeAction command.authorization .readHook
    let existing ← loadHook command.siliconUuid command.hookId db
    let changes ← app.prepareUpdate command nonce existing
    return .prepared existing changes
  | .rotate command entropy nonce => do
    let existing ← loadForMutation command.context.authorization command.hookId .rotateSecret db
    let (secret, encrypted) ← app.prepareRotation command entropy nonce existing
    return .drawn existing secret encrypted

def PolicyCall.advance (app : HookApplication) (call : PolicyCall) (session : PolicySession)
    (now : Instant) (db : Store) : PolicySession × Store × Bool :=
  match call, session with
  | call, .waiting =>
    match call.read app db with
    | .ok session => (session, db, false)
    | .error _ => (.failed, db, false)
  | .update command _, .prepared existing changes =>
    match activateForUpdate command existing now db with
    | .ok (current, db) => (.activated existing current changes, db, false)
    | .error _ => (.failed, db, false)
  | .update command _, .activated _ current changes =>
    match writeUpdate command current changes db with
    | .ok (_, db) => (.finished, db, true)
    | .error _ => (.failed, db, false)
  | .rotate command _ _, .drawn _ secret encrypted =>
    match app.storeRotatedSecret command secret encrypted now db with
    | .ok (_, db) => (.finished, db, true)
    | .error _ => (.failed, db, false)
  | _, session => (session, db, false)

def PolicyWorld.step (app : HookApplication) (world : PolicyWorld) (label : Nat × Instant) :
    PolicyWorld :=
  match world.calls[label.1]? with
  | none => world
  | some (call, session) =>
    let (session, db, done) := call.advance app session label.2 world.db
    { db := db
      calls := world.calls.set label.1 (call, session)
      committed := if done then world.committed ++ [call] else world.committed }

def PolicyWorld.start (db : Store) (calls : List PolicyCall) : PolicyWorld :=
  ⟨db, calls.map fun call => (call, .waiting), []⟩

def PolicyCall.hookId : PolicyCall → HookId
  | .update command _ => command.hookId
  | .rotate command _ _ => command.hookId

def Store.signingPolicy (db : Store) (hookId : HookId) : Option SigningPolicy :=
  (db.hooks.find hookId).map HookRow.signing

/-- Some serial order of the calls that succeeded stores the policy that is
stored. -/
def PolicyWorld.Serializable (app : HookApplication) (hookId : HookId) (initial : Store)
    (world : PolicyWorld) : Prop :=
  ∃ order : List (PolicyCall × Instant), (order.map Prod.fst).Perm world.committed ∧
    ∃ db, performSerially app order initial = .ok db ∧
      db.signingPolicy hookId = world.db.signingPolicy hookId

/-- The secret of a policy decodes under the policy's encoding. -/
def SigningPolicy.Decodes (app : HookApplication) (hookId : HookId) (policy : SigningPolicy) :
    Prop :=
  ∀ encrypted, policy.encryptedSecret = some encrypted →
    ∃ secret bytes, app.secretCipher.decrypt hookId encrypted = .ok secret ∧
      policy.config.secretEncoding.decode secret.value = .ok bytes

/-- A store call of an update that carries no secret leaves the stored one, or
drops it. -/
def PolicyWorld.PutsNothingBack (app : HookApplication) (hookId : HookId) (world : PolicyWorld)
    (label : Nat × Instant) : Prop :=
  ∀ command nonce session, world.calls[label.1]? = some (.update command nonce, session) →
    (∀ patch, command.patch.signing = some patch → patch.secret = none) →
    ∀ policy stored, (world.step app label).db.signingPolicy hookId = some policy →
      world.db.signingPolicy hookId = some stored →
      policy.encryptedSecret = none ∨ policy.encryptedSecret = stored.encryptedSecret

-- -----------------------------------------------------------------------------
-- When a call overtakes nothing
-- -----------------------------------------------------------------------------

/-- What the patch leaves out is stored as the call read it, and so is the
secret, where the call brings none and the algorithm takes one. -/
structure SigningPatch.TakesOver (patch : SigningPatch) (read stored : SigningPolicy) : Prop where
  required : patch.required = none → stored.required = read.required
  algorithm : patch.algorithm = none → stored.config.algorithm = read.config.algorithm
  payload : patch.payload = none → stored.config.payload = read.config.payload
  signature : patch.signature = none → stored.config.signature = read.config.signature
  signatureEncoding : patch.signatureEncoding = none →
    stored.config.signatureEncoding = read.config.signatureEncoding
  secretEncoding : patch.secretEncoding = none →
    stored.config.secretEncoding = read.config.secretEncoding
  publicKey : patch.publicKey = none → stored.config.publicKey = read.config.publicKey
  secret : patch.secret = none →
    (patch.algorithm.getD read.config.algorithm).isAsymmetric = false →
    stored.encryptedSecret = read.encryptedSecret

def SecretEncoding.isPlain : SecretEncoding → Bool
  | .utf8 | .ascii | .raw => true
  | .hex | .base64 | .base64Url => false

def SecretEncoding.WritesAs (a b : SecretEncoding) : Prop := a = b ∨ (a.isPlain ∧ b.isPlain)

/-- A call about to write finds nothing changed that its write depends on. -/
def PolicyCall.Undisturbed (call : PolicyCall) (session : PolicySession) (now : Instant)
    (db : Store) : Prop :=
  ∀ stored, db.signingPolicy call.hookId = some stored →
    match call, session with
    | .update command _, .activated existing _ _ =>
      ∀ patch, command.patch.signing = some patch → patch.TakesOver existing.signing stored
    | .rotate command _ _, .drawn existing _ _ =>
      ∀ reservation keys, reserveManagementKey (rotationScope command) now
          db.managementIdempotency = .ok (reservation, keys) →
        stored.config.algorithm.isAsymmetric = false ∧ (reservation = .reserved →
          existing.signing.config.secretEncoding.WritesAs stored.config.secretEncoding)
    | _, _ => True

def PolicyWorld.Undisturbed (world : PolicyWorld) (label : Nat × Instant) : Prop :=
  ∀ call session, world.calls[label.1]? = some (call, session) →
    call.Undisturbed session label.2 world.db

-- -----------------------------------------------------------------------------
-- What a call computes
-- -----------------------------------------------------------------------------

variable {app : HookApplication}

theorem getD_eq_of_none {x : Option α} (h : x = none → a = b) : x.getD a = x.getD b := by
  cases x with
  | none => exact h rfl
  | some v => rfl

theorem SigningPatch.TakesOver.refl (patch : SigningPatch) (policy : SigningPolicy) :
    patch.TakesOver policy policy := by
  constructor <;>
    · intros
      rfl

theorem SigningPatch.TakesOver.resolve_eq {patch : SigningPatch} {read stored : SigningPolicy}
    (h : patch.TakesOver read stored) :
    patch.resolve stored.config stored.required = patch.resolve read.config read.required := by
  simp only [SigningPatch.resolve, getD_eq_of_none h.required, getD_eq_of_none h.algorithm,
    getD_eq_of_none h.payload, getD_eq_of_none h.signature, getD_eq_of_none h.signatureEncoding,
    getD_eq_of_none h.secretEncoding, getD_eq_of_none h.publicKey]

theorem generatedText_writesAs {a b : SecretEncoding} (h : a.WritesAs b)
    (entropy : SecretEntropy) : generatedText a entropy = generatedText b entropy := by
  obtain rfl | ⟨ha, hb⟩ := h
  · rfl
  · cases a <;> cases b <;> simp_all [SecretEncoding.isPlain, generatedText]

theorem generateSigningSecret_writesAs {a b : SecretEncoding} (h : a.WritesAs b)
    (entropy : SecretEntropy) :
    generateSigningSecret a entropy = generateSigningSecret b entropy := by
  simp only [generateSigningSecret, generatedText_writesAs h]

theorem validateSecretEncoding_ok {encoding : SecretEncoding} :
    validateSecretEncoding encoding secret = .ok () ↔
      ∃ bytes, encoding.decode secret.value = .ok bytes := by
  unfold validateSecretEncoding
  cases encoding.decode secret.value <;> simp

/-- A stored secret an update keeps decodes under the encoding it is kept for. -/
theorem HookApplication.policySecret_kept {input : SigningInput} {existing : SigningPolicy}
    (h : app.policySecret nonce k input existing = .ok (some encrypted))
    (hn : input.secret = none) (he : existing.Decodes app k) :
    existing.encryptedSecret = some encrypted ∧
      ∃ secret, app.secretCipher.decrypt k encrypted = .ok secret ∧
        validateSecretEncoding input.config.secretEncoding secret = .ok () := by
  unfold policySecret at h
  split at h
  · cases h
  · simp only [hn] at h
    cases hs : existing.encryptedSecret with
    | none => simp [hs] at h
    | some stored =>
      simp only [hs] at h
      obtain ⟨secret, bytes, hdec, hbytes⟩ := he stored hs
      split at h
      · rw [hdec] at h
        simp only at h
        split at h
        · cases h
        · rename_i hv
          cases h
          exact ⟨rfl, secret, hdec, hv⟩
      · rename_i hne
        cases h
        refine ⟨rfl, secret, hdec, validateSecretEncoding_ok.mpr ⟨bytes, ?_⟩⟩
        have hasym : input.config.algorithm.usesSecret = true := by
          simp_all [SignatureAlgorithm.usesSecret]
        have heq : input.config.secretEncoding = existing.config.secretEncoding := by
          simpa [hasym] using hne
        rw [heq]
        exact hbytes

theorem HookApplication.policySecret_stored {input : SigningInput} {existing : SigningPolicy}
    (h : app.policySecret nonce k input existing = .ok found)
    (ha : input.config.algorithm.isAsymmetric = false) (hn : input.secret = none) :
    found = existing.encryptedSecret := by
  unfold policySecret at h
  rw [if_neg (by simp [ha]), hn] at h
  simp only at h
  cases he : existing.encryptedSecret with
  | none =>
    simp only [he] at h
    cases h
    rfl
  | some encrypted =>
    simp only [he] at h
    split at h
    · split at h
      · cases h
      · split at h
        · cases h
        · cases h
          rfl
    · cases h
      rfl

theorem HookApplication.policySecret_takesOver {input : SigningInput}
    {read stored : SigningPolicy} (h : app.policySecret nonce k input read = .ok found)
    (hread : read.Decodes app k)
    (hs : input.secret = none → input.config.algorithm.isAsymmetric = false →
      stored.encryptedSecret = read.encryptedSecret) :
    app.policySecret nonce k input stored = .ok found := by
  have hkept := fun encrypted (he : found = some encrypted) hn =>
    policySecret_kept (he ▸ h) hn hread
  have hstored := fun ha hn => policySecret_stored h ha hn
  unfold policySecret at h ⊢
  split at h
  · rename_i ha
    rw [if_pos ha]
    exact h
  · rename_i ha
    rw [if_neg ha]
    cases hn : input.secret with
    | some secret =>
      simp only [hn] at h ⊢
      exact h
    | none =>
      simp only [hn] at h ⊢
      rw [hs hn (by simpa using ha)]
      cases hr : read.encryptedSecret with
      | none =>
        simp only [hr] at h
        exact h
      | some encrypted =>
        -- whichever encoding is stored, the kept secret decodes under the input's
        have hf : found = some encrypted := (hstored (by simpa using ha) hn).trans hr
        obtain ⟨-, secret, hdec, hv⟩ := hkept encrypted hf hn
        simp only [hdec, hv, hf]
        split <;> rfl

theorem HookApplication.signingPolicy_takesOver {patch : SigningPatch}
    {read stored : SigningPolicy}
    (h : app.signingPolicy nonce k (patch.resolve read.config read.required) read = .ok policy)
    (hread : read.Decodes app k) (ht : patch.TakesOver read stored) :
    app.signingPolicy nonce k (patch.resolve stored.config stored.required) stored =
      .ok policy := by
  rw [ht.resolve_eq]
  simp only [signingPolicy, Except.bind_ok] at h ⊢
  obtain ⟨found, hf, h⟩ := h
  exact ⟨found, policySecret_takesOver hf hread ht.secret, h⟩

theorem HookApplication.signingPolicy_decodes {input : SigningInput} {existing : SigningPolicy}
    (h : app.signingPolicy nonce k input existing = .ok policy)
    (hv : validateSigningInput app.readKey input = .ok ()) (he : existing.Decodes app k) :
    policy.Decodes app k := by
  simp only [signingPolicy, Except.bind_ok] at h
  obtain ⟨found, hf, -, -, h⟩ := h
  cases h
  intro encrypted (hfound : found = some encrypted)
  subst hfound
  cases hn : input.secret with
  | none =>
    obtain ⟨-, secret, hdec, hval⟩ := policySecret_kept hf hn he
    obtain ⟨bytes, hb⟩ := validateSecretEncoding_ok.mp hval
    exact ⟨secret, bytes, hdec, hb⟩
  | some secret =>
    have hval : validateSecretEncoding input.config.secretEncoding secret = .ok () := by
      unfold validateSigningInput at hv
      split at hv
      · cases hv
      · split at hv
        · cases hv
        · simpa only [hn] using hv
    obtain ⟨encrypted', henc, hdec⟩ := app.secretCipher.encrypt_ok nonce k secret
    obtain ⟨bytes, hb⟩ := validateSecretEncoding_ok.mp hval
    have heq : encrypted' = encrypted := by
      unfold policySecret at hf
      split at hf
      · cases hf
      · simp only [hn, henc] at hf
        cases hf
        rfl
    exact ⟨secret, bytes, heq ▸ hdec, hb⟩

theorem HookApplication.prepareUpdate_takesOver {command : UpdateHookCommand}
    {existing stored : Hook} (h : app.prepareUpdate command nonce existing = .ok changes)
    (hid : stored.id = existing.id) (hd : stored.status ≠ .deleted)
    (hread : existing.signing.Decodes app existing.id)
    (ht : ∀ patch, command.patch.signing = some patch →
      patch.TakesOver existing.signing stored.signing) :
    app.prepareUpdate command nonce stored = .ok changes := by
  simp only [prepareUpdate, Except.bind_ok, ensure_ok] at h ⊢
  obtain ⟨_, -, input, hin, _, hen, _, hup, signing, hsig, h⟩ := h
  refine ⟨(), hd, input, ?_, (), hen, (), hup, signing, ?_, h⟩
  · cases hp : command.patch.signing with
    | none =>
      simp only [hp, resolveSigning] at hin ⊢
      exact hin
    | some patch =>
      simp only [hp, resolveSigning] at hin ⊢
      rw [(ht patch hp).resolve_eq]
      exact hin
  · cases hp : command.patch.signing with
    | none =>
      simp only [hp, resolveSigning] at hin
      cases hin
      exact hsig
    | some patch =>
      simp only [hp, resolveSigning, Except.bind_ok] at hin
      obtain ⟨_, -, hin⟩ := hin
      cases hin
      simp only [persistSigning, Except.map_ok] at hsig ⊢
      obtain ⟨policy, hpol, hs⟩ := hsig
      refine ⟨policy, ?_, hs⟩
      rw [hid, ← (ht patch hp).resolve_eq]
      exact signingPolicy_takesOver hpol hread (ht patch hp)

theorem HookApplication.prepareUpdate_decodes {command : UpdateHookCommand} {existing : Hook}
    (h : app.prepareUpdate command nonce existing = .ok changes)
    (he : existing.signing.Decodes app existing.id) (hs : changes.signing = some policy) :
    policy.Decodes app existing.id := by
  simp only [prepareUpdate, Except.bind_ok, ensure_ok] at h
  obtain ⟨_, -, input, hin, _, -, _, -, signing, hsig, h⟩ := h
  cases h
  simp only at hs
  subst hs
  cases input with
  | none => cases hsig
  | some input =>
    simp only [persistSigning, Except.map_ok] at hsig
    obtain ⟨policy', hpol, hp⟩ := hsig
    cases hp
    refine signingPolicy_decodes hpol ?_ he
    cases hp : command.patch.signing with
    | none =>
      simp only [hp, resolveSigning] at hin
      cases hin
    | some patch =>
      simp only [hp, resolveSigning, Except.bind_ok] at hin
      obtain ⟨⟨⟩, hv, hin⟩ := hin
      cases hin
      exact hv

theorem rotateSecretCommand_valid (command : HookMutationCommand) (encrypted : EncryptedSecret)
    (t : Instant) : validateRotateCommand (rotateSecretCommand command encrypted t) = .ok () := by
  simp [validateRotateCommand, validateMutationScope, rotateSecretCommand, rotationScope,
    idempotencyScope, ensure, bind, Except.bind]

-- -----------------------------------------------------------------------------
-- The serial run beside the interleaved one
-- -----------------------------------------------------------------------------

/-- The two stores hold the same, but for when the hook `origin` was the row of
was disabled; no call moves the hook to another owner or deletes it. -/
structure Store.Mirrors (origin : HookRow) (db serial : Store) : Prop where
  keys : serial.managementIdempotency = db.managementIdempotency
  others : ∀ k ≠ origin.id, serial.hooks.find k = db.hooks.find k
  own : ∃ row disabledAt, ∃ hook : Hook, db.hooks.find origin.id = some row ∧
    serial.hooks.find origin.id = some { row with disabledAt := disabledAt } ∧
    hook.snapshot = { row with disabledAt := disabledAt : HookRow }.snapshot ∧
    row.siliconUuid = origin.siliconUuid ∧ row.deletedAt = origin.deletedAt

namespace Store.Mirrors

variable {origin : HookRow} {db db' serial : Store}

theorem signingPolicy (h : Mirrors origin db serial) :
    serial.signingPolicy origin.id = db.signingPolicy origin.id := by
  obtain ⟨row, d, hook, hr, hs, -⟩ := h.own
  simp only [Store.signingPolicy, hr, hs, Option.map_some]

theorem loadHook (h : Mirrors origin db serial) (hu : origin.siliconUuid = some u) :
    ∃ row disabledAt, ∃ hook : Hook, db.hooks.find origin.id = some row ∧
      SiliconHook.loadHook u origin.id serial = .ok hook ∧
      hook.snapshot = { row with disabledAt := disabledAt : HookRow }.snapshot ∧
      row.deletedAt = origin.deletedAt := by
  obtain ⟨row, d, hook, hr, hs, hsnap, hown, hdel⟩ := h.own
  have hget : getHook u origin.id serial = .ok (some hook) :=
    getHook_some.mpr ⟨_, Store.scopedHook_some.mpr ⟨hs, hown.trans hu⟩, hsnap⟩
  refine ⟨row, d, hook, hr, ?_, hsnap, hdel⟩
  simp only [SiliconHook.loadHook, hget, liftStore, Except.bind_ok]
  exact ⟨some hook, rfl, rfl⟩

theorem setHooksEnabled {updated : List Hook} (h : Mirrors origin db serial)
    (ha : SiliconHook.setHooksEnabled ⟨u, [origin.id], enabled, t⟩ db = .ok (updated, db')) :
    Mirrors origin db' serial := by
  obtain ⟨ids, hids, rfl⟩ := setHooksEnabled_ok ha
  rw [activationHookIds_single] at hids
  cases hids
  obtain ⟨row, d, hook, hr, hs, hsnap, hown, hdel⟩ := h.own
  obtain ⟨d', hr'⟩ := find_activate_self ⟨u, [origin.id], enabled, t⟩ hr
  refine ⟨h.keys, ?_, ⟨{ row with disabledAt := d' }, d, hook, hr', hs, hsnap, hown, hdel⟩⟩
  intro k hk
  exact (h.others k hk).trans (find_activate_ne hk).symm

theorem activate (h : Mirrors origin db serial) (hu : origin.siliconUuid = some u)
    (hd : origin.deletedAt = none) (enabled : Bool) :
    ∃ t updated serial',
      SiliconHook.setHooksEnabled ⟨u, [origin.id], enabled, t⟩ serial = .ok ([updated], serial') ∧
        Mirrors origin db serial' := by
  obtain ⟨row, d, hook, hr, hs, hsnap, hown, hdel⟩ := h.own
  let t := max row.createdAt (d.getD row.createdAt)
  have ht : ∀ t' ∈ d, t' ≤ t := by
    rintro t' ⟨⟩
    exact le_max_right ..
  have hlive : ({ row with disabledAt := d } : HookRow).deletedAt = none := hdel.trans hd
  obtain ⟨updated, hset⟩ := setHooksEnabled_single
    (Store.scopedHook_some.mpr ⟨hs, hown.trans hu⟩) hsnap hlive (le_max_left ..) ht enabled
  refine ⟨t, updated, _, hset, ⟨h.keys, ?_, ?_⟩⟩
  · intro k hk
    exact (find_activate_ne hk).trans (h.others k hk)
  · let command : BatchHookActivation := ⟨u, [origin.id], enabled, t⟩
    have hcreated : ∀ t' ∈ d, row.createdAt ≤ t' := by
      intro t' ht'
      have hf := hook.disabled
      rw [hsnap] at hf
      cases ht'
      exact of_decide_eq_true hf
    have hafter : ∃ d', (∀ t' ∈ d', row.createdAt ≤ t') ∧
        (serial.hooks.update (command.changes [origin.id]) command.activate
          command.activate_key).find origin.id = some { row with disabledAt := d' } := by
      rw [Table.find_update, hs, Option.map_some]
      split
      · refine ⟨if enabled then none else some t, ?_, rfl⟩
        cases enabled with
        | true => simp
        | false =>
          rintro t' ⟨⟩
          exact le_max_left ..
      · exact ⟨d, hcreated, rfl⟩
    obtain ⟨d', hd', hfind⟩ := hafter
    obtain ⟨hook', hsnap'⟩ := HookRow.rehydrate_disabledAt hsnap hlive hd'
    exact ⟨row, d', hook', hr, hfind, hsnap', hown, hdel⟩

theorem updateHookRow {updated : Hook} (h : Mirrors origin db serial)
    (hw : SiliconHook.updateHookRow ⟨u, origin.id, changes⟩ db = .ok (updated, db')) :
    ∃ updated' serial',
      SiliconHook.updateHookRow ⟨u, origin.id, changes⟩ serial = .ok (updated', serial') ∧
        Mirrors origin db' serial' := by
  obtain ⟨row, hook, hscoped, hsnap, hlive, hup, rfl⟩ := updateHookRow_ok.mp hw
  obtain ⟨hfind, hu⟩ := Store.scopedHook_some.mp hscoped
  obtain ⟨row', d, hook', hr, hs, hsnap', hown, hdel⟩ := h.own
  cases hfind.symm.trans hr
  have hne : hook'.status ≠ .deleted := by
    rw [Hook.status, hsnap']
    exact HookRow.status_ne_deleted.mpr hlive
  obtain ⟨updated', hup'⟩ := Hook.update_of_live hne changes
  have hsnapUp : updated'.snapshot =
      (HookRow.apply { row with disabledAt := d } changes).snapshot := by
    rw [(Hook.update_ok.mp hup').2, hsnap']
    rfl
  refine ⟨updated', _, updateHookRow_ok.mpr ⟨_, hook', Store.scopedHook_some.mpr ⟨hs, hu⟩,
    hsnap', hlive, hsnapUp, rfl⟩, ⟨h.keys, ?_, ?_⟩⟩
  · intro k hk
    simp only [find_updateLive_ne hk, h.others k hk]
  · refine ⟨row.apply changes, d, updated', ?_, ?_, hsnapUp, hown, hdel⟩
    · rw [find_updateLive hr hlive, Hook.signing, hup]
      rfl
    · rw [find_updateLive hs hlive, Hook.signing, hsnapUp]
      rfl

theorem selectReplayedScopedHook (h : Mirrors origin db serial)
    (hsel : SiliconHook.selectReplayedScopedHook u response db = .ok hook) :
    ∃ hook' : Hook, SiliconHook.selectReplayedScopedHook u response serial = .ok hook' ∧
      hook'.id = hook.id ∧ (hook'.status = .deleted ↔ hook.status = .deleted) ∧
      hook'.signing = hook.signing := by
  obtain ⟨k, hk, row, hscoped, hsnap⟩ := selectReplayedScopedHook_ok.mp hsel
  by_cases hid : k = origin.id
  · subst hid
    obtain ⟨hfind, hu⟩ := Store.scopedHook_some.mp hscoped
    obtain ⟨row', d, hook', hr, hs, hsnap', -, -⟩ := h.own
    cases hfind.symm.trans hr
    refine ⟨hook', selectReplayedScopedHook_ok.mpr
      ⟨_, hk, _, Store.scopedHook_some.mpr ⟨hs, hu⟩, hsnap'⟩, ?_, ?_, ?_⟩
    · rw [Hook.id, Hook.id, hsnap', hsnap]
      rfl
    · have hlive : row.snapshot.status ≠ .deleted ↔ row.deletedAt = none :=
        HookRow.status_ne_deleted
      rw [Hook.status, Hook.status, hsnap', hsnap, ← not_iff_not]
      exact HookRow.status_ne_deleted.trans hlive.symm
    · rw [Hook.signing, Hook.signing, hsnap', hsnap]
      rfl
  · have hscoped' : serial.scopedHook u k = some row := by
      rw [Store.scopedHook_some] at hscoped ⊢
      exact ⟨(h.others k hid).trans hscoped.1, hscoped.2⟩
    exact ⟨hook, selectReplayedScopedHook_ok.mpr ⟨k, hk, row, hscoped', hsnap⟩, rfl, .rfl, rfl⟩

theorem rotateHookSecretRow (h : Mirrors origin db serial)
    {command : HookMutationCommand} (hid : command.hookId = origin.id)
    (hw : SiliconHook.rotateHookSecretRow (rotateSecretCommand command encrypted t) db =
      .ok (outcome, db')) (encrypted' : EncryptedSecret)
    (he : (∃ keys, reserveManagementKey (rotationScope command) t db.managementIdempotency =
      .ok (.reserved, keys)) → encrypted' = encrypted) :
    ∃ outcome' serial',
      SiliconHook.rotateHookSecretRow (rotateSecretCommand command encrypted' t) serial =
        .ok (outcome', serial') ∧
      Mirrors origin db' serial' ∧
      ∀ hook response, outcome' = .replayed hook response →
        ∃ hook', outcome = .replayed hook' response ∧ hook.id = hook'.id := by
  obtain ⟨-, ⟨response, keys, hook, hres, hsel, hne, heq, rfl, rfl⟩ |
    ⟨keys, keys', row, hook, rotated, hres, hscoped, hsnap, hlive, hrot, hfin, rfl, rfl⟩⟩ :=
    rotateHookSecretRow_ok.mp hw
  · obtain ⟨hook', hsel', hid', hdel, hsign⟩ := h.selectReplayedScopedHook hsel
    refine ⟨.replayed hook' response, _, rotateHookSecretRow_ok.mpr
      ⟨rotateSecretCommand_valid .., .inl ⟨response, keys, hook', ?_, hsel', ?_, ?_, rfl, rfl⟩⟩,
      ⟨rfl, h.others, h.own⟩, ?_⟩
    · rw [h.keys]
      exact hres
    · exact fun hd => hne (hdel.mp hd)
    · rw [hsign]
      exact heq
    · rintro _ _ ⟨⟩
      exact ⟨hook, rfl, hid'⟩
  · have hee : encrypted' = encrypted := he ⟨keys, hres⟩
    subst hee
    simp only [rotateSecretCommand, hid] at hscoped
    obtain ⟨hfind, hu⟩ := Store.scopedHook_some.mp hscoped
    obtain ⟨row', d, hook', hr, hs, hsnap', hown, hdel⟩ := h.own
    cases hfind.symm.trans hr
    have hne : hook'.status ≠ .deleted := by
      rw [Hook.status, hsnap']
      exact HookRow.status_ne_deleted.mpr hlive
    obtain ⟨rotated', hrot'⟩ := Hook.rotateSecret_of_live hne encrypted'
    have hsnapRot : rotated'.snapshot =
        (HookRow.withSecret { row with disabledAt := d } encrypted').snapshot := by
      rw [(Hook.rotateSecret_ok.mp hrot').2, hsnap']
      rfl
    have hscoped' : serial.scopedHook command.siliconUuid command.hookId =
        some { row with disabledAt := d } := by
      rw [hid]
      exact Store.scopedHook_some.mpr ⟨hs, hu⟩
    refine ⟨.rotated rotated', _, rotateHookSecretRow_ok.mpr ⟨rotateSecretCommand_valid ..,
      .inr ⟨keys, keys', _, hook', rotated', ?_, hscoped', hsnap', hlive, hsnapRot, hfin, rfl,
        rfl⟩⟩, ⟨rfl, ?_, ?_⟩, ?_⟩
    · rw [h.keys]
      exact hres
    · intro k hk
      simp only [rotateSecretCommand, hid, find_updateLive_ne hk, h.others k hk]
    · refine ⟨row.withSecret encrypted', d, rotated', ?_, ?_, hsnapRot, hown, hdel⟩
      · simp only [rotateSecretCommand, hid, find_updateLive hr hlive]
      · simp only [rotateSecretCommand, hid, find_updateLive hs hlive]
        rfl
    · rintro _ _ ⟨⟩

end Store.Mirrors

-- -----------------------------------------------------------------------------
-- One store call
-- -----------------------------------------------------------------------------

def PolicyCall.Holds (app : HookApplication) (origin : HookRow) (call : PolicyCall)
    (session : PolicySession) : Prop :=
  call.hookId = origin.id ∧
    match call, session with
    | .update command nonce, .prepared existing changes
    | .update command nonce, .activated existing _ changes =>
      authorizeAction command.authorization .readHook = .ok () ∧
        app.prepareUpdate command nonce existing = .ok changes ∧ existing.id = origin.id ∧
        existing.signing.Decodes app origin.id ∧
        origin.siliconUuid = some command.siliconUuid ∧ origin.deletedAt = none
    | .rotate command entropy nonce, .drawn existing secret encrypted =>
      authorizeAction command.context.authorization .readHook = .ok () ∧
        authorizeAction command.context.authorization .rotateSecret = .ok () ∧
        app.prepareRotation command entropy nonce existing = .ok (secret, encrypted) ∧
        origin.siliconUuid = some command.siliconUuid
    | _, _ => True

variable {origin : HookRow} {db db' serial : Store}

theorem PolicyCall.read_holds {call : PolicyCall} (h : call.read app db = .ok session)
    (hk : call.hookId = origin.id)
    (hown : ∃ row, db.hooks.find origin.id = some row ∧ row.siliconUuid = origin.siliconUuid ∧
      row.deletedAt = origin.deletedAt ∧ row.signing.Decodes app origin.id) :
    call.Holds app origin session := by
  obtain ⟨row, hr, hu, hd, hdec⟩ := hown
  have hrow : row.id = origin.id := Table.find_key hr
  cases call with
  | update command nonce =>
    simp only [read, Except.bind_ok, loadHook_ok] at h
    obtain ⟨⟨⟩, hauth, existing, ⟨row', hscoped, hsnap⟩, changes, hprep, h⟩ := h
    cases h
    replace hk : command.hookId = origin.id := hk
    rw [hk] at hscoped
    obtain ⟨hfind, hscope⟩ := Store.scopedHook_some.mp hscoped
    cases hr.symm.trans hfind
    refine ⟨hk, hauth, hprep, ?_, ?_, hu.symm.trans hscope, ?_⟩
    · rw [Hook.id, hsnap]
      exact hrow
    · rw [Hook.signing, hsnap]
      exact hdec
    · -- an update is refused on a deleted hook
      simp only [HookApplication.prepareUpdate, Except.bind_ok, ensure_ok] at hprep
      obtain ⟨-, hne, -⟩ := hprep
      rw [Hook.status, hsnap] at hne
      exact hd.symm.trans (HookRow.status_ne_deleted.mp hne)
  | rotate command entropy nonce =>
    simp only [read, loadForMutation, Except.bind_ok, loadHook_ok] at h
    obtain ⟨existing, ⟨⟨⟩, hread, hook, ⟨row', hscoped, hsnap⟩, ⟨⟩, hrot, he⟩, ⟨secret, encrypted⟩,
      hprep, h⟩ := h
    cases he
    cases h
    replace hk : command.hookId = origin.id := hk
    rw [hk] at hscoped
    obtain ⟨hfind, hscope⟩ := Store.scopedHook_some.mp hscoped
    cases hr.symm.trans hfind
    exact ⟨hk, hread, hrot, hprep, hu.symm.trans hscope⟩

theorem writeUpdate_signing {command : UpdateHookCommand}
    (hw : writeUpdate command current changes db = .ok (result, db'))
    (hprep : app.prepareUpdate command nonce existing = .ok changes)
    (hr : db.hooks.find command.hookId = some row) :
    ∃ row', db'.hooks.find command.hookId = some row' ∧
      row'.signing = changes.signing.getD row.signing := by
  unfold writeUpdate at hw
  split at hw
  · rename_i hm
    cases hw
    have hnone : changes.signing = none := by
      simp only [HookApplication.prepareUpdate, Except.bind_ok] at hprep
      obtain ⟨-, -, input, hin, -, -, -, -, signing, hsig, h⟩ := hprep
      cases h
      have hp : command.patch.signing = none := by
        simp_all [HookPatch.changesMetadata]
      simp only [hp, HookApplication.resolveSigning] at hin
      cases hin
      cases hsig
      rfl
    exact ⟨row, hr, by rw [hnone]; rfl⟩
  · exact ⟨_, updateHookRow_find (liftStore_ok.mp hw) hr, rfl⟩

theorem HookApplication.prepareUpdate_secret {command : UpdateHookCommand} {existing : Hook}
    (h : app.prepareUpdate command nonce existing = .ok changes)
    (hs : changes.signing = some policy) :
    ∃ patch, command.patch.signing = some patch ∧ (patch.secret = none →
      policy.encryptedSecret = none ∨
        (patch.algorithm.getD existing.signing.config.algorithm).isAsymmetric = false ∧
          policy.encryptedSecret = existing.signing.encryptedSecret) := by
  simp only [prepareUpdate, Except.bind_ok, ensure_ok] at h
  obtain ⟨_, -, input, hin, _, -, _, -, signing, hsig, h⟩ := h
  cases h
  simp only at hs
  subst hs
  cases hp : command.patch.signing with
  | none =>
    simp only [hp, resolveSigning] at hin
    cases hin
    cases hsig
  | some patch =>
    simp only [hp, resolveSigning, Except.bind_ok] at hin
    obtain ⟨_, -, hin⟩ := hin
    cases hin
    refine ⟨patch, rfl, fun hn => ?_⟩
    simp only [persistSigning, Except.map_ok, signingPolicy, Except.bind_ok] at hsig
    obtain ⟨policy', ⟨found, hf, -, -, hpol⟩, hsome⟩ := hsig
    cases hsome
    cases hpol
    cases ha : (patch.algorithm.getD existing.signing.config.algorithm).isAsymmetric with
    | true =>
      unfold policySecret at hf
      rw [if_pos (by simpa [SigningPatch.resolve] using ha)] at hf
      cases hf
      exact .inl rfl
    | false =>
      refine .inr ⟨rfl, policySecret_stored hf ?_ ?_⟩
      · simpa [SigningPatch.resolve] using ha
      · simpa [SigningPatch.resolve] using hn

theorem PolicyCall.commit_update {command : UpdateHookCommand}
    (hh : PolicyCall.Holds app origin (.update command nonce) (.activated existing current changes))
    (hm : db.Mirrors origin serial)
    (hun : PolicyCall.Undisturbed (.update command nonce) (.activated existing current changes)
      now db)
    (hw : writeUpdate command current changes db = .ok (result, db')) :
    ∃ t serial', PolicyCall.perform app (.update command nonce) t serial = .ok serial' ∧
      db'.Mirrors origin serial' := by
  obtain ⟨hk, hauth, hprep, hid, hdec, hu, hlive⟩ := hh
  replace hk : command.hookId = origin.id := hk
  obtain ⟨row, d, hook, hr, hload, hsnap, hdel⟩ := hm.loadHook hu
  have hstored : db.signingPolicy command.hookId = some row.signing := by
    rw [hk, Store.signingPolicy, hr]
    rfl
  have hhook : hook.signing = row.signing := by
    rw [Hook.signing, hsnap]
    rfl
  have hrow : row.id = origin.id := Table.find_key hr
  have hprep' : app.prepareUpdate command nonce hook = .ok changes := by
    refine HookApplication.prepareUpdate_takesOver hprep ?_ ?_ (hid ▸ hdec) ?_
    · rw [hid, Hook.id, hsnap]
      exact hrow
    · rw [Hook.status, hsnap]
      exact HookRow.status_ne_deleted.mpr (hdel.trans hlive)
    · rw [hhook]
      exact hun row.signing hstored
  have hact : ∃ t current' serial', activateForUpdate command hook t serial =
      .ok (current', serial') ∧ db.Mirrors origin serial' := by
    cases he : command.patch.enabled with
    | none => exact ⟨0, hook, serial, by simp [activateForUpdate, he], hm⟩
    | some enabled =>
      obtain ⟨t, updated, serial', hset, hm'⟩ := hm.activate hu hlive enabled
      exact ⟨t, updated, serial', by simp [activateForUpdate, he, hk, hset], hm'⟩
  obtain ⟨t, current', serial₁, hact, hm₁⟩ := hact
  have hwrite : ∃ result' serial₂, writeUpdate command current' changes serial₁ =
      .ok (result', serial₂) ∧ db'.Mirrors origin serial₂ := by
    unfold writeUpdate at hw ⊢
    split at hw
    · rename_i hc
      cases hw
      exact ⟨current', serial₁, by rw [if_pos hc], hm₁⟩
    · rename_i hc
      rw [hk] at hw
      obtain ⟨updated', serial₂, hup, hm₂⟩ := hm₁.updateHookRow (liftStore_ok.mp hw)
      refine ⟨updated', serial₂, ?_, hm₂⟩
      rw [if_neg hc, hk, hup]
      rfl
  obtain ⟨result', serial₂, hwrite, hm₂⟩ := hwrite
  refine ⟨t, serial₂, ?_, hm₂⟩
  simp only [perform, HookApplication.updateHook, Except.map_ok, Except.bind_ok]
  rw [hk]
  exact ⟨(result', serial₂), ⟨(), hauth, hook, hload, changes, hprep', (current', serial₁), hact,
    hwrite⟩, rfl⟩

theorem storeRotatedSecret_signing {command : HookMutationCommand}
    (hw : app.storeRotatedSecret command secret encrypted t db = .ok (result, db'))
    (hr : db.hooks.find command.hookId = some row) :
    ∃ row', db'.hooks.find command.hookId = some row' ∧
      (row'.signing = row.signing ∨
        row'.signing = { row.signing with encryptedSecret := some encrypted } ∧
          ∃ keys, reserveManagementKey (rotationScope command) t db.managementIdempotency =
            .ok (.reserved, keys)) := by
  obtain ⟨outcome, hrot, -⟩ := HookApplication.storeRotatedSecret_ok.mp hw
  obtain ⟨-, ⟨response, keys, hook, -, -, -, -, -, rfl⟩ |
    ⟨keys, keys', row', hook, rotated, hres, hscoped, -, hlive, -, -, -, rfl⟩⟩ :=
    rotateHookSecretRow_ok.mp hrot
  · exact ⟨row, hr, .inl rfl⟩
  · simp only [rotateSecretCommand] at hscoped
    cases hr.symm.trans (Store.scopedHook_some.mp hscoped).1
    refine ⟨row.withSecret encrypted, ?_, .inr ⟨rfl, keys, hres⟩⟩
    simp only [rotateSecretCommand, find_updateLive hr hlive]

theorem HookApplication.prepareRotation_writesAs {command : HookMutationCommand}
    {existing stored : Hook}
    (h : app.prepareRotation command entropy nonce existing = .ok (secret, encrypted))
    (ha : stored.signing.config.algorithm.isAsymmetric = false)
    (hw : existing.signing.config.secretEncoding.WritesAs stored.signing.config.secretEncoding) :
    app.prepareRotation command entropy nonce stored = .ok (secret, encrypted) := by
  obtain ⟨-, hgen, henc⟩ := prepareRotation_ok.mp h
  rw [generateSigningSecret_writesAs hw] at hgen
  exact prepareRotation_ok.mpr ⟨ha, hgen, henc⟩

theorem PolicyCall.commit_rotate {command : HookMutationCommand}
    (hh : PolicyCall.Holds app origin (.rotate command entropy nonce)
      (.drawn existing secret encrypted))
    (hm : db.Mirrors origin serial)
    (hun : PolicyCall.Undisturbed (.rotate command entropy nonce)
      (.drawn existing secret encrypted) now db)
    (hw : app.storeRotatedSecret command secret encrypted now db = .ok (result, db')) :
    ∃ serial', PolicyCall.perform app (.rotate command entropy nonce) now serial = .ok serial' ∧
      db'.Mirrors origin serial' := by
  obtain ⟨hk, hread, hauth, hprep, hu⟩ := hh
  replace hk : command.hookId = origin.id := hk
  obtain ⟨row, d, hook, hr, hload, hsnap, -⟩ := hm.loadHook hu
  have hstored : db.signingPolicy command.hookId = some hook.signing := by
    rw [hk, Store.signingPolicy, hr, Hook.signing, hsnap]
    rfl
  obtain ⟨outcome, hrot, hres⟩ := HookApplication.storeRotatedSecret_ok.mp hw
  obtain ⟨reservation, keys, hreserve⟩ := rotateHookSecretRow_reserves hrot
  obtain ⟨hasym, -⟩ := hun _ hstored reservation keys hreserve
  -- a rotation always draws some secret; what it draws matters where it is stored
  obtain ⟨secret', hgen, -⟩ :=
    generateSigningSecret_ok hook.signing.config.secretEncoding entropy
  obtain ⟨encrypted', henc, -⟩ := app.secretCipher.encrypt_ok nonce command.hookId secret'
  have hprep' : app.prepareRotation command entropy nonce hook = .ok (secret', encrypted') :=
    HookApplication.prepareRotation_ok.mpr ⟨hasym, hgen, henc⟩
  have hsame : (∃ keys, reserveManagementKey (rotationScope command) now
      db.managementIdempotency = .ok (.reserved, keys)) → encrypted' = encrypted := by
    rintro ⟨keys', hreserved⟩
    have hwrites := (hun _ hstored .reserved keys' hreserved).2 rfl
    cases hprep'.symm.trans (HookApplication.prepareRotation_writesAs hprep hasym hwrites)
    rfl
  obtain ⟨outcome', serial', hrot', hm', hreplay⟩ :=
    hm.rotateHookSecretRow hk hrot encrypted' hsame
  have hstore : ∃ result', app.storeRotatedSecret command secret' encrypted' now serial =
      .ok (result', serial') := by
    cases outcome' with
    | rotated hook' =>
      exact ⟨_, HookApplication.storeRotatedSecret_ok.mpr ⟨_, hrot', rfl⟩⟩
    | replayed hook' response =>
      obtain ⟨hook'', rfl, hid⟩ := hreplay hook' response rfl
      obtain ⟨result', hres'⟩ := HookApplication.secretResultFromReplay_id hres hid
      exact ⟨result', HookApplication.storeRotatedSecret_ok.mpr ⟨_, hrot', hres'⟩⟩
  obtain ⟨result', hstore⟩ := hstore
  refine ⟨serial', ?_, hm'⟩
  simp only [perform, HookApplication.rotateHookSecret, loadForMutation, Except.map_ok,
    Except.bind_ok]
  rw [hk]
  exact ⟨(result', serial'), ⟨hook, ⟨(), hread, hook, hload, (), hauth, rfl⟩,
    (secret', encrypted'), hprep', hstore⟩, rfl⟩

def PolicyCall.Matches (app : HookApplication) (origin : HookRow) (call : PolicyCall)
    (serial : Store) (result : PolicySession × Store × Bool) : Prop :=
  call.Holds app origin result.1 ∧
    (∀ policy, result.2.1.signingPolicy origin.id = some policy → policy.Decodes app origin.id) ∧
    if result.2.2 then
      ∃ t serial', call.perform app t serial = .ok serial' ∧ result.2.1.Mirrors origin serial'
    else result.2.1.Mirrors origin serial

theorem PolicyCall.Matches.idle {call : PolicyCall} (hh : call.Holds app origin session)
    (hm : db.Mirrors origin serial)
    (hdec : ∀ policy, db.signingPolicy origin.id = some policy → policy.Decodes app origin.id) :
    call.Matches app origin serial (session, db, false) := ⟨hh, hdec, by simpa using hm⟩

theorem PolicyCall.Holds.failed {call : PolicyCall} (hh : call.Holds app origin session) :
    call.Holds app origin .failed := by
  refine ⟨hh.1, ?_⟩
  cases call <;> trivial

theorem PolicyCall.Holds.finished {call : PolicyCall} (hh : call.Holds app origin session) :
    call.Holds app origin .finished := by
  refine ⟨hh.1, ?_⟩
  cases call <;> trivial

theorem activateForUpdate_mirrors {command : UpdateHookCommand}
    (h : activateForUpdate command existing now db = .ok (current, db'))
    (hk : command.hookId = origin.id) (hm : db.Mirrors origin serial) :
    db'.Mirrors origin serial := by
  unfold activateForUpdate at h
  split at h
  · cases h
    exact hm
  · rw [hk] at h
    split at h
    · cases h
    · rename_i hset
      split at h
      · cases h
      · cases h
        exact hm.setHooksEnabled hset

theorem PolicyCall.advance_waiting {call : PolicyCall} (hh : call.Holds app origin .waiting)
    (hm : db.Mirrors origin serial)
    (hdec : ∀ policy, db.signingPolicy origin.id = some policy → policy.Decodes app origin.id) :
    call.Matches app origin serial (call.advance app .waiting now db) := by
  obtain ⟨row, d, hook, hr, -, -, hown, hdel⟩ := hm.own
  have hread : ∀ session, call.read app db = .ok session → call.Holds app origin session := by
    intro session h
    refine PolicyCall.read_holds h hh.1 ⟨row, hr, hown, hdel, hdec _ ?_⟩
    rw [Store.signingPolicy, hr]
    rfl
  simp only [advance]
  cases hr : call.read app db with
  | ok session => exact .idle (hread session hr) hm hdec
  | error e => exact .idle hh.failed hm hdec

theorem PolicyCall.advance_update {command : UpdateHookCommand}
    (hh : PolicyCall.Holds app origin (.update command nonce) session)
    (hun : PolicyCall.Undisturbed (.update command nonce) session now db)
    (hm : db.Mirrors origin serial)
    (hdec : ∀ policy, db.signingPolicy origin.id = some policy → policy.Decodes app origin.id) :
    PolicyCall.Matches app origin (.update command nonce) serial
      (PolicyCall.advance app (.update command nonce) session now db) := by
  cases session with
  | waiting => exact advance_waiting hh hm hdec
  | prepared existing changes =>
    simp only [advance]
    cases hact : activateForUpdate command existing now db with
    | error e => exact .idle hh.failed hm hdec
    | ok result =>
      obtain ⟨current, db'⟩ := result
      have hm' := activateForUpdate_mirrors hact hh.1 hm
      refine .idle hh hm' ?_
      rw [← hm'.signingPolicy, hm.signingPolicy]
      exact hdec
  | activated existing current changes =>
    simp only [advance]
    cases hw : writeUpdate command current changes db with
    | error e => exact .idle hh.failed hm hdec
    | ok result =>
      obtain ⟨hook, db'⟩ := result
      refine ⟨hh.finished, ?_, by simpa using commit_update hh hm hun hw⟩
      obtain ⟨hk, -, hprep, hid, hread, -⟩ := hh
      replace hk : command.hookId = origin.id := hk
      obtain ⟨row, -, -, hr, -⟩ := hm.own
      obtain ⟨row', hr', hs⟩ := writeUpdate_signing hw hprep (hk ▸ hr)
      rw [Store.signingPolicy, ← hk, hr']
      rintro policy ⟨⟩
      rw [hs, hk]
      cases hc : changes.signing with
      | none =>
        refine hdec row.signing ?_
        rw [Store.signingPolicy, hr]
        rfl
      | some policy =>
        rw [← hid] at hread ⊢
        exact HookApplication.prepareUpdate_decodes hprep hread hc
  | drawn existing secret encrypted => exact .idle hh hm hdec
  | finished => exact .idle hh hm hdec
  | failed => exact .idle hh hm hdec

theorem PolicyCall.advance_rotate {command : HookMutationCommand}
    (hh : PolicyCall.Holds app origin (.rotate command entropy nonce) session)
    (hun : PolicyCall.Undisturbed (.rotate command entropy nonce) session now db)
    (hm : db.Mirrors origin serial)
    (hdec : ∀ policy, db.signingPolicy origin.id = some policy → policy.Decodes app origin.id) :
    PolicyCall.Matches app origin (.rotate command entropy nonce) serial
      (PolicyCall.advance app (.rotate command entropy nonce) session now db) := by
  cases session with
  | waiting => exact advance_waiting hh hm hdec
  | drawn existing secret encrypted =>
    simp only [advance]
    cases hw : app.storeRotatedSecret command secret encrypted now db with
    | error e => exact .idle hh.failed hm hdec
    | ok result =>
      obtain ⟨found, db'⟩ := result
      obtain ⟨serial', hserial⟩ := commit_rotate hh hm hun hw
      refine ⟨hh.finished, ?_, by simpa using ⟨now, serial', hserial⟩⟩
      obtain ⟨hk, -, -, hprep, -⟩ := hh
      replace hk : command.hookId = origin.id := hk
      obtain ⟨row, -, -, hr, -⟩ := hm.own
      have hstored : db.signingPolicy origin.id = some row.signing := by
        rw [Store.signingPolicy, hr]
        rfl
      obtain ⟨row', hr', hs⟩ := storeRotatedSecret_signing hw (hk ▸ hr)
      rw [Store.signingPolicy, ← hk, hr']
      rintro policy ⟨⟩
      obtain hs | ⟨hs, hreserved⟩ := hs
      · rw [hs, hk]
        exact hdec _ hstored
      · -- the drawn secret decodes under the stored encoding, which writes it the same
        obtain ⟨keys, hreserved⟩ := hreserved
        have hstored' : db.signingPolicy command.hookId = some row.signing := hk ▸ hstored
        have hwrites := (hun row.signing hstored' .reserved keys hreserved).2 rfl
        obtain ⟨-, hgen, henc⟩ := HookApplication.prepareRotation_ok.mp hprep
        rw [generateSigningSecret_writesAs hwrites] at hgen
        obtain ⟨secret', hgen', -, bytes, hbytes⟩ :=
          generateSigningSecret_ok row.signing.config.secretEncoding entropy
        cases hgen.symm.trans hgen'
        obtain ⟨encrypted', henc', hdecrypt⟩ :=
          app.secretCipher.encrypt_ok nonce command.hookId secret
        cases henc.symm.trans henc'
        rw [hs]
        rintro _ ⟨⟩
        exact ⟨secret, bytes, hdecrypt, hbytes⟩
  | prepared existing changes => exact .idle hh hm hdec
  | activated existing current changes => exact .idle hh hm hdec
  | finished => exact .idle hh hm hdec
  | failed => exact .idle hh hm hdec

theorem PolicyCall.advance_matches {call : PolicyCall} (hh : call.Holds app origin session)
    (hun : call.Undisturbed session now db) (hm : db.Mirrors origin serial)
    (hdec : ∀ policy, db.signingPolicy origin.id = some policy → policy.Decodes app origin.id) :
    call.Matches app origin serial (call.advance app session now db) := by
  cases call with
  | update command nonce => exact advance_update hh hun hm hdec
  | rotate command entropy nonce => exact advance_rotate hh hun hm hdec

-- -----------------------------------------------------------------------------
-- Whole runs
-- -----------------------------------------------------------------------------

/-- Every call has established what it says, and the calls that succeeded, in
the order of their last store call, lead a serial run to the same policy. -/
structure PolicyWorld.Simulated (app : HookApplication) (origin : HookRow) (initial : Store)
    (world : PolicyWorld) : Prop where
  sessions : ∀ call session, (call, session) ∈ world.calls → call.Holds app origin session
  decodes : ∀ policy, world.db.signingPolicy origin.id = some policy →
    policy.Decodes app origin.id
  serial : ∃ order serial, order.map Prod.fst = world.committed ∧
    performSerially app order initial = .ok serial ∧ world.db.Mirrors origin serial

theorem performSerially_append (h : performSerially app calls db = .ok serial)
    (hc : call.perform app t serial = .ok serial') :
    performSerially app (calls ++ [(call, t)]) db = .ok serial' := by
  simp only [performSerially, List.foldlM_append, Except.bind_ok, List.foldlM_cons,
    List.foldlM_nil] at h ⊢
  exact ⟨serial, h, serial', hc, rfl⟩

variable {initial : Store} {world : PolicyWorld}

theorem PolicyWorld.Simulated.start {calls : List PolicyCall}
    (hr : initial.hooks.find origin.id = some origin)
    (hook : Hook) (hs : hook.snapshot = origin.snapshot)
    (hdec : origin.signing.Decodes app origin.id)
    (hcalls : ∀ call ∈ calls, call.hookId = origin.id) :
    Simulated app origin initial (.start initial calls) := by
  refine ⟨?_, ?_, ⟨[], initial, rfl, rfl, ⟨rfl, fun _ _ => rfl,
    ⟨origin, origin.disabledAt, hook, hr, hr, hs, rfl, rfl⟩⟩⟩⟩
  · intro call session hm
    simp only [PolicyWorld.start, List.mem_map, Prod.mk.injEq] at hm
    obtain ⟨_, hc, rfl, rfl⟩ := hm
    refine ⟨hcalls _ hc, ?_⟩
    split <;> trivial
  · simp only [PolicyWorld.start, Store.signingPolicy, hr]
    rintro policy ⟨⟩
    exact hdec

theorem PolicyWorld.Simulated.step (h : Simulated app origin initial world)
    (hun : world.Undisturbed label) : Simulated app origin initial (world.step app label) := by
  obtain ⟨order, serial, horder, hserial, hm⟩ := h.serial
  unfold PolicyWorld.step
  cases hc : world.calls[label.1]? with
  | none => exact h
  | some entry =>
    obtain ⟨call, session⟩ := entry
    obtain ⟨hh, hdec, hnext⟩ := PolicyCall.advance_matches
      (h.sessions call session (List.mem_of_getElem? hc)) (hun call session hc) hm h.decodes
    simp only
    generalize call.advance app session label.2 world.db = result at hh hdec hnext ⊢
    obtain ⟨session', db', done⟩ := result
    refine ⟨?_, hdec, ?_⟩
    · intro call' session'' hmem
      obtain hmem | heq := List.mem_or_eq_of_mem_set hmem
      · exact h.sessions _ _ hmem
      · cases heq
        exact hh
    · cases done with
      | false => exact ⟨order, serial, horder, hserial, hnext⟩
      | true =>
        obtain ⟨t, serial', hperform, hm'⟩ := hnext
        refine ⟨order ++ [(call, t)], serial', ?_, performSerially_append hserial hperform, hm'⟩
        simp [horder]

theorem PolicyWorld.Simulated.putsNothingBack (h : Simulated app origin initial world)
    (hun : world.Undisturbed label) : world.PutsNothingBack app origin.id label := by
  intro command nonce session hc hnone policy stored hpolicy hstored
  obtain ⟨order, serial, -, -, hm⟩ := h.serial
  have hh := h.sessions _ _ (List.mem_of_getElem? hc)
  have hund := hun _ _ hc
  simp only [PolicyWorld.step, hc] at hpolicy
  have hsame : ∀ p, world.db.signingPolicy origin.id = some p →
      p.encryptedSecret = none ∨ p.encryptedSecret = stored.encryptedSecret := by
    intro p hp
    cases hstored.symm.trans hp
    exact .inr rfl
  cases session with
  | waiting =>
    simp only [PolicyCall.advance] at hpolicy
    split at hpolicy <;> exact hsame _ hpolicy
  | prepared existing changes =>
    simp only [PolicyCall.advance] at hpolicy
    split at hpolicy
    · rename_i hact
      have hm' := activateForUpdate_mirrors hact hh.1 hm
      rw [← hm'.signingPolicy, hm.signingPolicy] at hpolicy
      exact hsame _ hpolicy
    · exact hsame _ hpolicy
  | activated existing current changes =>
    simp only [PolicyCall.advance] at hpolicy
    split at hpolicy
    · rename_i hw
      obtain ⟨hk, -, hprep, -⟩ := hh
      replace hk : command.hookId = origin.id := hk
      obtain ⟨row, -, -, hr, -⟩ := hm.own
      obtain ⟨row', hr', hs⟩ := writeUpdate_signing hw hprep (hk ▸ hr)
      have hrow : world.db.signingPolicy origin.id = some row.signing := by
        rw [Store.signingPolicy, hr]
        rfl
      rw [Store.signingPolicy, ← hk, hr'] at hpolicy
      cases hpolicy
      rw [hs]
      cases hch : changes.signing with
      | none => exact hsame _ hrow
      | some policy =>
        obtain ⟨patch, hp, hkeep⟩ := HookApplication.prepareUpdate_secret hprep hch
        have hps := hnone patch hp
        cases hstored.symm.trans hrow
        obtain hdrop | ⟨hasym, heq⟩ := hkeep hps
        · exact .inl hdrop
        · refine .inr (heq.trans ?_)
          have hread : world.db.signingPolicy command.hookId = some row.signing := hk ▸ hrow
          exact ((hund row.signing hread patch hp).secret hps hasym).symm
    · exact hsame _ hpolicy
  | drawn existing secret encrypted => exact hsame _ hpolicy
  | finished => exact hsame _ hpolicy
  | failed => exact hsame _ hpolicy

/-- Where every call about to write finds unchanged what its write depends on,
the stored policy is that of a serial order of the calls that succeeded, its
secret decodes, and no update puts a replaced secret back. -/
theorem policy_changes_serialize {row : HookRow} (hr : initial.hooks.find k = some row)
    (hhook : row.toHook = .ok hook) (hdec : row.signing.Decodes app k)
    (hcalls : ∀ call ∈ calls, call.hookId = k)
    (hrun : Along (PolicyWorld.step app) PolicyWorld.Undisturbed (.start initial calls) labels) :
    (run (PolicyWorld.step app) (.start initial calls) labels).Serializable app k initial ∧
      (∀ policy, (run (PolicyWorld.step app) (.start initial calls) labels).db.signingPolicy k =
        some policy → policy.Decodes app k) ∧
      Along (PolicyWorld.step app) (PolicyWorld.PutsNothingBack app k) (.start initial calls)
        labels := by
  obtain rfl : row.id = k := Table.find_key hr
  have hstart : PolicyWorld.Simulated app row initial (.start initial calls) :=
    .start hr hook (HookRow.toHook_ok.mp hhook) hdec hcalls
  have hstep : ∀ world label, PolicyWorld.Simulated app row initial world →
      world.Undisturbed label → PolicyWorld.Simulated app row initial (world.step app label) :=
    fun _ _ h hun => h.step hun
  have hend := run_invariant hstep hstart hrun
  refine ⟨?_, hend.decodes, ?_⟩
  · obtain ⟨order, serial, horder, hserial, hm⟩ := hend.serial
    exact ⟨order, horder ▸ .refl _, serial, hserial, hm.signingPolicy⟩
  · exact along_of_invariant hstep (fun _ _ h hun => h.putsNothingBack hun) hstart hrun

-- -----------------------------------------------------------------------------
-- An update in flight across a rotation
-- -----------------------------------------------------------------------------

theorem PolicyCall.perform_update_secret {command : UpdateHookCommand}
    (h : PolicyCall.perform app (.update command nonce) t db = .ok db')
    (hn : ∀ patch, command.patch.signing = some patch → patch.secret = none)
    (hr : db.hooks.find command.hookId = some row) :
    db'.managementIdempotency = db.managementIdempotency ∧
      ∃ row', db'.hooks.find command.hookId = some row' ∧
        (row'.signing.encryptedSecret = none ∨
          row'.signing.encryptedSecret = row.signing.encryptedSecret) := by
  simp only [perform, HookApplication.updateHook, Except.map_ok, Except.bind_ok, loadHook_ok] at h
  obtain ⟨⟨result, _⟩, ⟨-, -, existing, ⟨row₀, hscoped, hsnap⟩, changes, hprep, ⟨current, db₁⟩,
    hact, hw⟩, rfl⟩ := h
  cases hr.symm.trans (Store.scopedHook_some.mp hscoped).1
  have hread : existing.signing = row.signing := by
    rw [Hook.signing, hsnap]
    rfl
  have hact' : db₁.managementIdempotency = db.managementIdempotency ∧
      ∃ d, db₁.hooks.find command.hookId = some { row with disabledAt := d } := by
    unfold activateForUpdate at hact
    split at hact
    · cases hact
      exact ⟨rfl, row.disabledAt, hr⟩
    · split at hact
      · cases hact
      · rename_i hset
        obtain ⟨ids, hids, rfl⟩ := setHooksEnabled_ok hset
        rw [activationHookIds_single] at hids
        cases hids
        split at hact
        · cases hact
        · cases hact
          exact ⟨rfl, find_activate_self _ hr⟩
  obtain ⟨hkeys, d, hr₁⟩ := hact'
  obtain ⟨row', hr', hs⟩ := writeUpdate_signing hw hprep hr₁
  refine ⟨?_, row', hr', ?_⟩
  · rw [← hkeys]
    unfold writeUpdate at hw
    split at hw
    · cases hw
      rfl
    · obtain ⟨-, -, -, -, -, -, rfl⟩ := updateHookRow_ok.mp (liftStore_ok.mp hw)
      rfl
  · rw [hs]
    cases hc : changes.signing with
    | none => exact .inr rfl
    | some policy =>
      obtain ⟨patch, hp, hkeep⟩ := HookApplication.prepareUpdate_secret hprep hc
      exact (hkeep (hn patch hp)).imp_right fun he => he.2.trans (congrArg _ hread)

theorem order_of_two {order : List (PolicyCall × Instant)}
    (h : (order.map Prod.fst).Perm [a, b]) :
    ∃ t t', order = [(a, t), (b, t')] ∨ order = [(b, t), (a, t')] := by
  have hlen := h.length_eq
  simp only [List.length_map, List.length_cons, List.length_nil] at hlen
  obtain ⟨⟨c, t⟩, ⟨d, t'⟩, rfl⟩ := List.length_eq_two.mp hlen
  refine ⟨t, t', ?_⟩
  simpa using List.perm_pair.mp h

theorem performSerially_two :
    performSerially app [(a, t), (b, t')] db = .ok db' ↔
      ∃ middle, a.perform app t db = .ok middle ∧ b.perform app t' middle = .ok db' := by
  simp [performSerially, Except.bind_ok]

theorem SecretCipher.encrypt_nonce {cipher : SecretCipher}
    (h : cipher.encrypt nonce k secret = .ok encrypted) : encrypted.nonce = nonce := by
  simp only [SecretCipher.encrypt, Except.bind_ok] at h
  obtain ⟨key, -, h⟩ := h
  split at h
  · rename_i hnew
    cases h
    unfold EncryptedSecret.new at hnew
    split at hnew
    · cases hnew
      rfl
    · cases hnew
  · cases h

theorem PolicyCall.perform_rotate_secret {command : HookMutationCommand}
    (h : PolicyCall.perform app (.rotate command entropy nonce) t db = .ok db')
    (hk : db.managementIdempotency = .empty) (hr : db.hooks.find command.hookId = some row) :
    ∃ row' encrypted, db'.hooks.find command.hookId = some row' ∧
      row'.signing.encryptedSecret = some encrypted ∧ encrypted.nonce = nonce := by
  simp only [perform, HookApplication.rotateHookSecret, Except.map_ok, Except.bind_ok] at h
  obtain ⟨⟨result, _⟩, ⟨hook, -, ⟨secret, encrypted⟩, hprep, hw⟩, rfl⟩ := h
  obtain ⟨-, -, henc⟩ := HookApplication.prepareRotation_ok.mp hprep
  obtain ⟨outcome, hrot, -⟩ := HookApplication.storeRotatedSecret_ok.mp hw
  obtain ⟨-, ⟨response, keys, _, hres, -⟩ | ⟨_, _, row', _, _, -, hscoped, -, hlive, -, -, -, rfl⟩⟩ :=
    rotateHookSecretRow_ok.mp hrot
  · rw [hk] at hres
    cases hres
  · simp only [rotateSecretCommand] at hscoped
    cases hr.symm.trans (Store.scopedHook_some.mp hscoped).1
    refine ⟨row.withSecret encrypted, encrypted, ?_, rfl, SecretCipher.encrypt_nonce henc⟩
    simp only [rotateSecretCommand, find_updateLive hr hlive]

namespace StaleUpdate

/-- Sixteen bytes of tag on the message: the laws of a cipher without its secrecy. -/
def aead : Aead where
  encrypt _ _ _ message := message ++ List.replicate encryptionTagBytes 0
  decrypt _ _ _ ciphertext := some (ciphertext.take (ciphertext.length - encryptionTagBytes))
  decrypt_encrypt := by simp
  length_encrypt := by simp

def application : HookApplication where
  secretCipher := ⟨aead, ⟨⟨"k1"⟩, [(⟨"k1"⟩, List.replicate 32 7)], rfl⟩⟩
  readKey _ _ := .error .malformed

def silicon : AccountUuid := ⟨"0190a1b2-c3d4-7e5f-8a6b-0123456789ab", by decide⟩

def hookId : HookId := ⟨1⟩

def path (field : String) : Expression :=
  ⟨"request." ++ field, .path ⟨.request, [.key field]⟩⟩

def policy : SigningPolicy where
  required := true
  config := ⟨.hmacSha256, path "body", path "signature", .hex, .utf8, none⟩
  encryptedSecret := some
    ⟨⟨"k1"⟩, List.replicate 12 0, Encoding.utf8 "before" ++ List.replicate 16 0, by decide⟩

def row : HookRow where
  id := hookId
  siliconId := .fromAccountUuid silicon
  siliconUuid := some silicon
  endpointKey := ⟨"AAAAAAA1", by decide⟩
  name := ⟨"provider", by decide⟩
  description := none
  signing := policy
  timeZone := ⟨"UTC"⟩
  isAccountsDefault := false
  createdBy := .account .silicon silicon
  createdAt := 0
  disabledAt := none
  deletedAt := none
  lastReceivedAt := none
  lastBlockedAt := none
  endpointRotatedAt := none

def database : Store := { Store.empty with hooks := ⟨[row], by decide⟩ }

def owner : AuthorizationContext := ⟨⟨silicon, .silicon, none⟩, ⟨silicon, none⟩, .own⟩

def update : PolicyCall := .update
  ⟨owner, hookId, ⟨none, none, none, none,
    some { SigningPatch.empty with signatureEncoding := some .base64 }⟩⟩ (List.replicate 12 1)

def rotation : PolicyCall := .rotate
  ⟨⟨owner, "rotate-1"⟩, hookId⟩ ⟨List.replicate 32 'a', by decide, by decide⟩ (List.replicate 12 2)

def schedule : List (Nat × Instant) := [(0, 10), (1, 20), (1, 30), (0, 40), (0, 50)]

def final : PolicyWorld :=
  run (PolicyWorld.step application) (.start database [update, rotation]) schedule

/-- The update read the policy before the rotation and writes it after: the
secret it puts back is one no serial order of the two calls leaves. -/
theorem not_serializable : ¬ final.Serializable application hookId database := by
  rintro ⟨order, hperm, db, hserial, hfinal⟩
  have hsecret : (db.signingPolicy hookId).map (·.encryptedSecret) =
      some policy.encryptedSecret := by
    rw [hfinal]
    decide
  have hr : database.hooks.find hookId = some row := by decide
  have hnone : ∀ patch : SigningPatch,
      some { SigningPatch.empty with signatureEncoding := some .base64 } = some patch →
        patch.secret = none := by
    rintro _ ⟨⟩
    rfl
  obtain ⟨t, t', rfl | rfl⟩ := order_of_two hperm
  · obtain ⟨middle, hrot, hup⟩ := performSerially_two.mp hserial
    obtain ⟨row₁, encrypted, hr₁, he₁, hn₁⟩ := PolicyCall.perform_rotate_secret hrot rfl hr
    obtain ⟨-, row₂, hr₂, he₂⟩ := PolicyCall.perform_update_secret hup hnone hr₁
    rw [Store.signingPolicy, hr₂] at hsecret
    obtain he₂ | he₂ := he₂
    · exact absurd (he₂.symm.trans (Option.some.inj hsecret)) (by decide)
    · have := Option.some.inj ((he₁.symm.trans he₂.symm).trans (Option.some.inj hsecret))
      rw [this] at hn₁
      exact absurd hn₁ (by decide)
  · obtain ⟨middle, hup, hrot⟩ := performSerially_two.mp hserial
    obtain ⟨hkeys, row₁, hr₁, -⟩ := PolicyCall.perform_update_secret hup hnone hr
    obtain ⟨row₂, encrypted, hr₂, he₂, hn₂⟩ := PolicyCall.perform_rotate_secret hrot hkeys hr₁
    rw [Store.signingPolicy, hr₂] at hsecret
    have := Option.some.inj (he₂.symm.trans (Option.some.inj hsecret))
    rw [this] at hn₂
    exact absurd hn₂ (by decide)

/-- The rotation reads before the update writes, and writes after it. -/
def overlap : List (Nat × Instant) := [(0, 10), (1, 20), (0, 30), (0, 40), (1, 50)]

theorem overlap_undisturbed : Along (PolicyWorld.step application) PolicyWorld.Undisturbed
    (.start database [update, rotation]) overlap := by
  refine ⟨?_, ?_, ?_, ?_, ?_, trivial⟩
  · rintro _ _ ⟨⟩ _ _
    trivial
  · rintro _ _ ⟨⟩ _ _
    trivial
  · rintro _ _ ⟨⟩ _ _
    trivial
  · rintro _ _ ⟨⟩ stored ⟨⟩ patch ⟨⟩
    exact SigningPatch.TakesOver.refl ..
  · rintro _ _ ⟨⟩ stored ⟨⟩ _ _ _
    exact ⟨rfl, fun _ => .inl rfl⟩

theorem row_rehydrates : ∃ hook, row.toHook = .ok hook := ⟨_, rfl⟩

theorem policy_decodes : policy.Decodes application hookId := by
  rintro encrypted ⟨⟩
  exact ⟨_, _, rfl, rfl⟩

theorem overlap_serializable :
    (run (PolicyWorld.step application) (.start database [update, rotation])
      overlap).Serializable application hookId database := by
  obtain ⟨hook, hhook⟩ := row_rehydrates
  have hr : database.hooks.find hookId = some row := by decide
  have hcalls : ∀ call ∈ [update, rotation], call.hookId = hookId := by
    simp [update, rotation, PolicyCall.hookId]
  exact (policy_changes_serialize hr hhook policy_decodes hcalls overlap_undisturbed).1

end StaleUpdate

end SiliconHook
