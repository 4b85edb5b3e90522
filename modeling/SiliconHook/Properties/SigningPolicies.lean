import SiliconHook.Library.Transition
import SiliconHook.Application.Ingress
import SiliconHook.Properties.PolicyUpdates

/-!
# Stored signing policies

Where no two use cases overlap, every stored policy is one its own checks
accept and its stored secret decodes, so that verification always has its key
material.
-/

namespace SiliconHook

open Program

variable {app : HookApplication} {db db' : Store}

/-- The configuration is consistent, and the secret is there where it is needed,
nowhere else, and decodes. -/
structure SigningPolicy.Usable (app : HookApplication) (hookId : HookId)
    (policy : SigningPolicy) : Prop where
  config : policy.config.validate app.readKey = .ok ()
  asymmetric : policy.config.algorithm.isAsymmetric = true → policy.encryptedSecret = none
  required : policy.required = true → policy.config.algorithm.usesSecret = true →
    policy.encryptedSecret.isSome = true
  decodes : policy.Decodes app hookId

def PoliciesUsable (app : HookApplication) (db : Store) : Prop :=
  ∀ row ∈ db.hooks.rows, row.signing.Usable app row.id

-- -----------------------------------------------------------------------------
-- What a use case computes
-- -----------------------------------------------------------------------------

theorem validateSigningInput_ok {input : SigningInput}
    (h : validateSigningInput app.readKey input = .ok ()) :
    input.config.validate app.readKey = .ok () ∧
      ∀ secret, input.secret = some secret →
        ∃ bytes, input.config.secretEncoding.decode secret.value = .ok bytes := by
  unfold validateSigningInput at h
  split at h
  · cases h
  · rename_i hconfig
    refine ⟨hconfig, fun secret hs => ?_⟩
    split at h
    · cases h
    · simp only [hs] at h
      exact validateSecretEncoding_ok.mp h

theorem HookApplication.signingPolicy_usable {input : SigningInput} {existing : SigningPolicy}
    (h : app.signingPolicy nonce k input existing = .ok policy)
    (hv : validateSigningInput app.readKey input = .ok ()) (he : existing.Decodes app k) :
    policy.Usable app k := by
  have hdec := signingPolicy_decodes h hv he
  simp only [signingPolicy, Except.bind_ok, ensure_ok] at h
  obtain ⟨found, hf, -, hneed, h⟩ := h
  cases h
  refine ⟨(validateSigningInput_ok hv).1, fun ha => ?_, fun hr hu => ?_, hdec⟩
  · unfold policySecret at hf
    rw [if_pos ha] at hf
    exact (Except.ok.inj hf).symm
  · cases found with
    | none => exact absurd (by simp_all) hneed
    | some encrypted => rfl

theorem HookApplication.prepareUpdate_usable {command : UpdateHookCommand} {existing : Hook}
    (h : app.prepareUpdate command nonce existing = .ok changes)
    (he : existing.signing.Usable app existing.id) (hs : changes.signing = some policy) :
    policy.Usable app existing.id := by
  simp only [prepareUpdate, Except.bind_ok] at h
  obtain ⟨-, -, input, hin, -, -, -, -, signing, hsig, h⟩ := h
  cases h
  obtain rfl : signing = some policy := hs
  cases hp : command.patch.signing with
  | none =>
    simp only [resolveSigning, hp, Except.ok.injEq] at hin
    subst hin
    simp [persistSigning] at hsig
  | some patch =>
    simp only [resolveSigning, hp, Except.bind_ok] at hin
    obtain ⟨⟨⟩, hvalid, hin⟩ := hin
    cases hin
    simp only [persistSigning, Except.map_ok] at hsig
    obtain ⟨made, hmade, hsome⟩ := hsig
    cases hsome
    exact signingPolicy_usable hmade hvalid he.decodes

/-- The secret of a creation decodes under the encoding it is stored for, and is
there exactly where the algorithm uses one. -/
theorem creationSecret_ok {input : SigningInput}
    (hv : validateSigningInput app.readKey input = .ok ())
    (h : creationSecret input entropy = .ok secret) :
    secret.isSome = input.config.algorithm.usesSecret ∧
      ∀ found, secret = some found →
        ∃ bytes, input.config.secretEncoding.decode found.value = .ok bytes := by
  unfold creationSecret at h
  split at h
  · rename_i supplied hs hu
    cases h
    refine ⟨hu.symm, fun found hf => ?_⟩
    cases hf
    exact (validateSigningInput_ok hv).2 _ hs
  · rename_i hs hu
    simp only [Except.map_ok] at h
    obtain ⟨made, hmade, rfl⟩ := h
    refine ⟨hu.symm, fun found hf => ?_⟩
    cases hf
    obtain ⟨generated, hg, -, hbytes⟩ :=
      generateSigningSecret_ok input.config.secretEncoding entropy
    cases hg.symm.trans hmade
    exact hbytes
  · rename_i hu
    cases h
    exact ⟨hu.symm, fun _ hf => by cases hf⟩

theorem HookApplication.encryptSecret_ok
    (h : app.encryptSecret nonce k secret = .ok encrypted) :
    encrypted.isSome = secret.isSome ∧ ∀ stored, encrypted = some stored →
      ∃ found, secret = some found ∧ app.secretCipher.decrypt k stored = .ok found := by
  unfold encryptSecret at h
  cases secret with
  | none =>
    cases h
    exact ⟨rfl, fun _ hs => by cases hs⟩
  | some found =>
    obtain ⟨made, hmade, hdec⟩ := app.secretCipher.encrypt_ok nonce k found
    simp only [hmade] at h
    cases h
    exact ⟨rfl, fun stored hs => ⟨found, rfl, Option.some.inj hs ▸ hdec⟩⟩

theorem HookApplication.createCommand_usable {parts : CreateHookParts}
    (hv : validateSigningInput app.readKey parts.signing = .ok ())
    (hs : creationSecret parts.signing entropy = .ok secret)
    (h : app.createCommand parts secret draw now = .ok command) :
    command.hook.signing.Usable app command.hook.id := by
  simp only [createCommand, Except.bind_ok] at h
  obtain ⟨encrypted, henc, h⟩ := h
  cases h
  obtain ⟨hsome, hdec⟩ := encryptSecret_ok henc
  obtain ⟨huses, hbytes⟩ := creationSecret_ok hv hs
  refine ⟨(validateSigningInput_ok hv).1, fun ha => ?_, fun _ hu => ?_, fun stored he => ?_⟩
  · have ha : parts.signing.config.algorithm.isAsymmetric = true := ha
    rw [SignatureAlgorithm.usesSecret, ha] at huses
    have hnone : encrypted = none := Option.not_isSome_iff_eq_none.mp (by simp [hsome, huses])
    exact hnone
  · have hu : parts.signing.config.algorithm.usesSecret = true := hu
    exact hsome.trans (huses.trans hu)
  · obtain ⟨found, hfound, hd⟩ := hdec stored he
    obtain ⟨bytes, hb⟩ := hbytes found hfound
    exact ⟨found, bytes, hd, hb⟩

theorem HookApplication.prepareRotation_decodes {command : HookMutationCommand} {hook : Hook}
    (h : app.prepareRotation command entropy nonce hook = .ok (secret, encrypted)) :
    hook.signing.config.algorithm.isAsymmetric = false ∧
      ∃ bytes, app.secretCipher.decrypt command.hookId encrypted = .ok secret ∧
        hook.signing.config.secretEncoding.decode secret.value = .ok bytes := by
  obtain ⟨ha, hg, henc⟩ := prepareRotation_ok.mp h
  obtain ⟨made, hmade, hdec⟩ := app.secretCipher.encrypt_ok nonce command.hookId secret
  cases hmade.symm.trans henc
  obtain ⟨generated, hg', -, bytes, hb⟩ :=
    generateSigningSecret_ok hook.signing.config.secretEncoding entropy
  cases hg'.symm.trans hg
  exact ⟨ha, bytes, hdec, hb⟩

-- -----------------------------------------------------------------------------
-- What the store calls keep
-- -----------------------------------------------------------------------------

namespace PoliciesUsable

theorem of_rows (h : PoliciesUsable app db)
    (hrows : ∀ row ∈ db'.hooks.rows, ∃ old ∈ db.hooks.rows,
      row.signing = old.signing ∧ row.id = old.id) : PoliciesUsable app db' := by
  intro row hm
  obtain ⟨old, hold, hs, hid⟩ := hrows row hm
  rw [hs, hid]
  exact h old hold

theorem of_same (h : PoliciesUsable app db) (hhooks : db'.hooks = db.hooks) :
    PoliciesUsable app db' :=
  h.of_rows fun row hm => ⟨row, hhooks ▸ hm, rfl, rfl⟩

theorem of_update (h : PoliciesUsable app db) {f : HookRow → HookRow} {p : HookRow → Bool}
    (hf : ∀ row, Keyed.key (f row) = Keyed.key row)
    (hhooks : db'.hooks = db.hooks.update p f hf)
    (hnew : ∀ row ∈ db.hooks.rows, p row = true → (f row).signing.Usable app row.id) :
    PoliciesUsable app db' := by
  intro row hm
  rw [hhooks] at hm
  obtain ⟨old, hold, rfl⟩ := (Table.mem_update hf).mp hm
  split
  · rename_i hp
    have hid : (f old).id = old.id := hf old
    rw [hid]
    exact hnew old hold hp
  · exact h old hold

theorem of_kept (h : PoliciesUsable app db) {f : HookRow → HookRow} {p : HookRow → Bool}
    (hf : ∀ row, Keyed.key (f row) = Keyed.key row) (hs : ∀ row, (f row).signing = row.signing)
    (hhooks : db'.hooks = db.hooks.update p f hf) : PoliciesUsable app db' :=
  h.of_update hf hhooks fun row hm _ => hs row ▸ h row hm

theorem loaded (h : PoliciesUsable app db) {hook : Hook}
    (hload : loadHook u k db = .ok hook) : hook.id = k ∧ hook.signing.Usable app k := by
  obtain ⟨row, hr, hs⟩ := loadHook_ok.mp hload
  obtain ⟨hm, hid⟩ := Table.find_some.mp (Store.scopedHook_some.mp hr).1
  have hid : row.id = k := hid
  rw [Hook.id, Hook.signing, hs]
  exact ⟨hid, hid ▸ h row hm⟩

theorem created (h : PoliciesUsable app db) {command : CreateHook}
    (hnew : command.hook.signing.Usable app command.hook.id)
    (hc : createHookRow command db = .ok (outcome, db')) : PoliciesUsable app db' := by
  obtain ⟨-, _, -, ⟨_, _, _, -, -, -, -, -, rfl⟩ | ⟨_, _, hooks, -, -, hins, -, -, rfl⟩⟩ :=
    createHookRow_ok hc
  · exact h.of_same rfl
  · intro row hm
    obtain hm | rfl := (Table.mem_insert hins).mp hm
    · exact h row hm
    · exact hnew

theorem updated (h : PoliciesUsable app db) {command : UpdateHook}
    (hnew : ∀ policy, command.update.signing = some policy → policy.Usable app command.hookId)
    (hc : updateHookRow command db = .ok (changed, db')) : PoliciesUsable app db' := by
  obtain ⟨row, _, hr, -, -, hup, rfl⟩ := updateHookRow_ok.mp hc
  obtain ⟨hm, hid⟩ := Table.find_some.mp (Store.scopedHook_some.mp hr).1
  refine h.of_update (f := fun row => { row with
    name := changed.snapshot.name
    description := changed.snapshot.description
    timeZone := changed.snapshot.timeZone
    signing := changed.signing }) (fun _ => rfl) rfl fun stored hstored hl => ?_
  simp only [liveHook, Bool.and_eq_true, decide_eq_true_eq] at hl
  obtain rfl : stored = row := Table.eq_of_key hstored hm (hl.1.trans hid.symm)
  show changed.signing.Usable app stored.id
  rw [Hook.signing, hup]
  show (command.update.signing.getD stored.signing).Usable app stored.id
  cases hs : command.update.signing with
  | none => exact h stored hm
  | some policy => exact hl.1 ▸ hnew policy hs

/-- A rotation keeps the policy usable where the secret decodes under the
encoding of the row it is written to. -/
theorem rotated (h : PoliciesUsable app db) {command : RotateSecret}
    (hnew : ∀ row, db.hooks.find command.hookId = some row →
      row.signing.config.algorithm.isAsymmetric = false ∧
        ∃ secret bytes, app.secretCipher.decrypt command.hookId command.encryptedSecret =
          .ok secret ∧ row.signing.config.secretEncoding.decode secret.value = .ok bytes)
    (hc : rotateHookSecretRow command db = .ok (outcome, db')) : PoliciesUsable app db' := by
  obtain ⟨-, ⟨_, _, _, -, -, -, -, -, rfl⟩ | ⟨_, _, row, _, _, -, hr, -, -, -, -, -, rfl⟩⟩ :=
    rotateHookSecretRow_ok.mp hc
  · exact h.of_same rfl
  · have hfind := (Store.scopedHook_some.mp hr).1
    obtain ⟨hm, hid⟩ := Table.find_some.mp hfind
    obtain ⟨hsym, secret, bytes, hdec, hb⟩ := hnew row hfind
    refine h.of_update (HookRow.withSecret_id command.encryptedSecret) rfl
      fun stored hstored hl => ?_
    simp only [liveHook, Bool.and_eq_true, decide_eq_true_eq] at hl
    obtain rfl : stored = row := Table.eq_of_key hstored hm (hl.1.trans hid.symm)
    refine ⟨(h stored hm).config, fun ha => ?_, fun _ _ => rfl, fun encrypted he => ?_⟩
    · exact absurd (hsym.symm.trans ha) Bool.false_ne_true
    · cases he
      exact ⟨secret, bytes, hl.1 ▸ hdec, hb⟩

theorem deleted (h : PoliciesUsable app db) {command : HookMutation}
    (hc : deleteHookRow command db = .ok (gone, db')) : PoliciesUsable app db' := by
  obtain ⟨_, -, -, -, rfl⟩ := deleteHookRow_ok hc
  exact h.of_kept (HookRow.delete_id command.occurredAt) (fun _ => rfl) rfl

theorem restored (h : PoliciesUsable app db) {command : RestoreHook}
    (hc : restoreHookRow command db = .ok (outcome, db')) : PoliciesUsable app db' := by
  obtain ⟨-, ⟨_, _, _, -, -, -, -, rfl⟩ | ⟨_, _, _, _, -, -, -, -, -, -, rfl⟩⟩ :=
    restoreHookRow_ok hc
  · exact h.of_same rfl
  · exact h.of_kept HookRow.restore_id (fun _ => rfl) rfl

theorem rekeyed (h : PoliciesUsable app db) {command : RotateEndpoint}
    (hc : rotateHookEndpointRow command db = .ok (outcome, db')) : PoliciesUsable app db' := by
  obtain ⟨-, ⟨_, _, _, -, -, -, -, rfl⟩ | ⟨_, _, _, _, _, -, -, -, -, -, -, -, -, rfl⟩⟩ :=
    rotateHookEndpointRow_ok hc
  · exact h.of_same rfl
  · exact h.of_kept (HookRow.withEndpoint_id command.replacement command.occurredAt)
      (fun _ => rfl) rfl

theorem activated (h : PoliciesUsable app db) {command : BatchHookActivation}
    (hc : setHooksEnabled command db = .ok (hooks, db')) : PoliciesUsable app db' := by
  obtain ⟨_, -, rfl⟩ := setHooksEnabled_ok hc
  exact h.of_kept command.activate_key (fun _ => rfl) rfl

theorem blocked (h : PoliciesUsable app db) {command : RecordBlockedRequest}
    (hc : recordBlockedRequest command db = .ok (withheld, db')) : PoliciesUsable app db' := by
  obtain ⟨-, -, _, _, -, -, rfl⟩ := recordBlockedRequest_ok hc
  exact h.of_kept (HookRow.blocked_id command.request.receivedAt) (fun _ => rfl) rfl

theorem accepted (h : PoliciesUsable app db) {codec : DeliveryCodec} {sendIds : Uuid → Uuid}
    (hc : codec.acceptEvent deliverySummary command sendId sendIds now db = .ok (event, db')) :
    PoliciesUsable app db' :=
  h.of_kept (f := HookRow.received command.request.receivedAt) (fun _ => rfl) (fun _ => rfl)
    (acceptEvent_hooks hc)

end PoliciesUsable

-- -----------------------------------------------------------------------------
-- What the use cases keep
-- -----------------------------------------------------------------------------

def PoliciesReady (app : HookApplication) (database : Database) : Prop :=
  PoliciesUsable app database.db

namespace PoliciesReady

variable {database database' : Database} {hash : RequestHash}

theorem createAttempts (h : PoliciesReady app database) {parts : CreateHookParts}
    {draws : Nat → CreationDraw} (hv : validateSigningInput app.readKey parts.signing = .ok ())
    (hs : creationSecret parts.signing entropy = .ok secret) (attempts : Nat) :
    PoliciesReady app ((app.createAttempts parts secret now draws attempts).exec database) := by
  induction attempts with
  | zero => exact h
  | succ attempts ih =>
    refine exec_lift_bind h fun command hcommand => ?_
    have hnew := HookApplication.createCommand_usable hv hs hcommand
    refine exec_attempt_bind (fun e _ => ?_) fun outcome database' hc => ?_
    · cases e with
      | endpointKeyConflict => exact ih
      | _ => exact h
    · have hkept : PoliciesReady app database' := h.created hnew (Database.audited_ok hc)
      cases outcome <;> exact hkept

theorem createHookInner (h : PoliciesReady app database) {parts : CreateHookParts}
    {draws : Nat → CreationDraw} (hv : validateSigningInput app.readKey parts.signing = .ok ()) :
    PoliciesReady app ((app.createHookInner parts now entropy draws).exec database) :=
  exec_lift_bind h fun _ hs => h.createAttempts hv hs _

theorem createHook (h : PoliciesReady app database) :
    PoliciesReady app ((app.createHook hash command now entropy draws).exec database) :=
  exec_lift_bind h fun _ _ => exec_lift_bind h fun _ hv => h.createHookInner hv

theorem restoreHook (h : PoliciesReady app database) :
    PoliciesReady app ((HookApplication.restoreHook command now).exec database) := by
  refine exec_query_bind h fun hook _ => exec_lift_bind h fun _ _ => ?_
  refine exec_storeCall_bind h fun outcome database' hc => ?_
  have hkept : PoliciesReady app database' := PoliciesUsable.restored h (Database.audited_ok hc)
  cases outcome <;> exact hkept

theorem prepareAccountsHook (h : PoliciesReady app database) :
    PoliciesReady app ((app.prepareAccountsHook hash context now entropy draws).exec database) := by
  refine exec_lift_bind h fun _ _ => exec_query_bind h fun found _ => ?_
  cases found with
  | none =>
    refine exec_bind (fun _ _ => h.createHookInner rfl) fun _ _ => h.createHookInner rfl
  | some hook =>
    show PoliciesReady app (Program.exec (if _ then _ else _) database)
    split
    · exact h.restoreHook
    · exact h

theorem activatePatched (h : PoliciesReady app database) {f : Hook → UseCase α}
    (hf : ∀ current database', PoliciesReady app database' →
      PoliciesReady app ((f current).exec database')) :
    PoliciesReady app
      ((HookApplication.activatePatched command existing now >>= f).exec database) := by
  unfold HookApplication.activatePatched
  split
  · exact hf existing database h
  · rename_i enabled _
    have hstep : ∀ updated database',
        Database.setHooksEnabled ⟨command.siliconUuid, [command.hookId], enabled, now⟩
          (actorRef command.authorization) database = .ok (updated, database') →
        PoliciesReady app database' := fun _ _ hc => h.activated (Database.audited_ok hc)
    refine exec_bind (fun _ _ => ?_) fun current _ => hf current _ ?_
    all_goals
      refine exec_storeCall_bind h fun updated database' hc => ?_
      have hkept := hstep updated database' hc
      split <;> exact hkept

theorem update (h : PoliciesReady app database) :
    PoliciesReady app ((app.update command nonce activatedAt updatedAt).exec database) := by
  refine exec_lift_bind h fun _ _ => exec_query_bind h fun existing hload => ?_
  refine exec_lift_bind h fun changes hchanges => ?_
  obtain ⟨hid, husable⟩ := PoliciesUsable.loaded h hload
  have hnew : ∀ policy, changes.signing = some policy → policy.Usable app command.hookId :=
    fun policy hs => hid ▸ HookApplication.prepareUpdate_usable hchanges (hid.symm ▸ husable) hs
  refine h.activatePatched fun current database' h' => ?_
  show PoliciesReady app (Program.exec (if _ then _ else _) database')
  split
  · exact h'
  · exact exec_storeCall h' fun _ _ hc => PoliciesUsable.updated h' hnew (Database.audited_ok hc)

theorem deleteHook (h : PoliciesReady app database) :
    PoliciesReady app ((HookApplication.deleteHook command now).exec database) := by
  refine exec_lift_bind h fun _ _ => exec_query_bind h fun hook _ => exec_lift_bind h fun _ _ => ?_
  show PoliciesReady app (Program.exec (if _ then _ else _) database)
  split
  · exact h
  · refine exec_attempt_bind (fun e _ => ?_) fun gone database' hc => ?_
    · cases e <;> exact h
    · exact PoliciesUsable.deleted h (Database.audited_ok hc)

theorem setHooksEnabled (h : PoliciesReady app database) :
    PoliciesReady app ((HookApplication.setHooksEnabled command now).exec database) := by
  refine exec_lift_bind h fun _ _ => exec_lift_bind h fun _ _ => ?_
  refine exec_query_bind h fun _ _ => exec_lift_bind h fun _ _ => exec_lift_bind h fun _ _ => ?_
  exact exec_storeCall_bind h fun _ _ hc => PoliciesUsable.activated h (Database.audited_ok hc)

theorem rotateSecret (h : PoliciesReady app database) :
    PoliciesReady app ((app.rotateSecret command entropy nonce now).exec database) := by
  refine exec_query_bind h fun hook hload => exec_lift_bind h fun made hmade => ?_
  obtain ⟨secret, encrypted⟩ := made
  obtain ⟨hsym, bytes, hdec, hb⟩ := HookApplication.prepareRotation_decodes hmade
  refine exec_storeCall_bind h fun outcome database' hc => ?_
  have hkept : PoliciesReady app database' := by
    refine PoliciesUsable.rotated h (fun row hr => ?_) (Database.audited_ok hc)
    -- the row written to is the row the use case read
    simp only [loadForMutation, Except.bind_ok] at hload
    obtain ⟨-, -, loaded, hload, -, -, hpure⟩ := hload
    cases hpure
    obtain ⟨row', hr', hs⟩ := loadHook_ok.mp hload
    cases hr.symm.trans (Store.scopedHook_some.mp hr').1
    rw [Hook.signing, hs] at hsym hb
    exact ⟨hsym, secret, bytes, hdec, hb⟩
  cases outcome <;> exact hkept

theorem rotateEndpoint (h : PoliciesReady app database) :
    PoliciesReady app ((HookApplication.rotateEndpoint command now draws).exec database) := by
  refine exec_query_bind h fun _ _ => ?_
  generalize endpointGenerationAttempts = attempts
  induction attempts with
  | zero => exact h
  | succ attempts ih =>
    refine exec_attempt_bind (fun e _ => ?_) fun outcome database' hc => ?_
    · cases e with
      | endpointKeyConflict => exact ih
      | _ => exact h
    · have hkept : PoliciesReady app database' := PoliciesUsable.rekeyed h (Database.audited_ok hc)
      cases outcome <;> exact hkept

end PoliciesReady

-- -----------------------------------------------------------------------------
-- What a received request finds
-- -----------------------------------------------------------------------------

variable {receiver : Ingress}

theorem Ingress.storedSecret_ok {hook : Hook}
    (h : hook.signing.Usable receiver.toHookApplication hook.id) :
    ∃ secret bytes, receiver.storedSecret hook = .ok secret ∧
      hook.signing.config.decodeSecret (secret.map SigningSecret.value) = .ok bytes ∧
      bytes.isSome = hook.signing.encryptedSecret.isSome := by
  cases hs : hook.signing.encryptedSecret with
  | none => exact ⟨none, none, by simp [Ingress.storedSecret, hs], rfl, rfl⟩
  | some encrypted =>
    obtain ⟨secret, bytes, hdec, hb⟩ := h.decodes encrypted hs
    refine ⟨some secret, some bytes, ?_, ?_, rfl⟩
    · simp [Ingress.storedSecret, hs, hdec]
    · simp [SignatureConfig.decodeSecret, hb]

theorem Ingress.material_ok {hook : Hook}
    (h : hook.signing.Usable receiver.toHookApplication hook.id)
    (hr : hook.signing.required = true) :
    ∃ material, receiver.material hook = .ok material ∧
      material.Suffices hook.signing.config.algorithm := by
  obtain ⟨secret, bytes, hsecret, hdecode, hsome⟩ := storedSecret_ok h
  obtain ⟨material, hmaterial, hbytes, hkey⟩ :=
    hook.signing.config.material_ok receiver.keys h.config hdecode
  refine ⟨material, ?_, fun hu => ?_, fun hu => hkey ?_⟩
  · simp [Ingress.material, hsecret, hmaterial, Except.mapError, Bind.bind, Except.bind]
  · rw [hbytes, hsome]
    exact h.required hr hu
  · simpa [SignatureAlgorithm.usesSecret] using hu

/-- Codes of a request withheld because its hook's key material is unusable. -/
def keyMaterialCodes : List String :=
  ["material_unavailable", "secret_missing", "public_key_missing"]

theorem Ingress.verify_code {hook : Hook}
    (h : hook.signing.Usable receiver.toHookApplication hook.id)
    (hr : hook.signing.required = true)
    (hv : receiver.verify hook url request = .error reason) :
    reason.code ∉ keyMaterialCodes := by
  obtain ⟨material, hmaterial, hsuffices⟩ := material_ok h hr
  simp only [Ingress.verify] at hv
  obtain hv | ⟨found, hfound, hv⟩ := Except.bind_error.mp hv
  · cases hmaterial.symm.trans hv
  cases hmaterial.symm.trans hfound
  split at hv
  · cases hv
  · rename_i rejection hrej
    cases hv
    obtain ⟨error, rfl⟩ | hsignature | rfl := verify_rejected hsuffices hrej
    · simp [BlockReason.signature, RejectionReason.code, keyMaterialCodes]
    · cases hsignature <;> simp [BlockReason.signature, RejectionReason.code, keyMaterialCodes]
    · simp [BlockReason.signature, RejectionReason.code, keyMaterialCodes]

def ReceiveOutcome.lacksMaterial : ReceiveOutcome → Prop
  | .accepted _ => False
  | .blocked request => request.reason.code ∈ keyMaterialCodes

theorem Ingress.accept_holds {hook : Hook} :
    Holds (PoliciesUsable receiver.toHookApplication) (receiver.accept hook request draw)
      (¬ ·.lacksMaterial) := by
  refine (Holds.transact (Q := fun _ => True) fun db event db' h hc => ?_).bind fun event _ =>
    .pure id
  exact ⟨h.accepted (liftStore_ok.mp hc), trivial⟩

theorem Ingress.block_holds {hook : Hook} {reason : BlockReason}
    (hreason : reason.code ∉ keyMaterialCodes) :
    Holds (PoliciesUsable receiver.toHookApplication) (Ingress.block hook request reason draw)
      (¬ ·.lacksMaterial) := by
  refine (Holds.transact (Q := fun _ => True) fun db _ db' h hc => ?_).bind fun _ _ => ?_
  · exact ⟨h.of_same (recordUnverifiedRequest_hooks (liftStore_ok.mp hc)), trivial⟩
  · refine (Holds.transact (Q := fun blocked => blocked.reason = reason)
      fun db blocked db' h hc => ?_).bind fun blocked hblocked => .pure ?_
    · have hrecorded := liftStore_ok.mp hc
      refine ⟨h.blocked hrecorded, ?_⟩
      rw [(recordBlockedRequest_ok hrecorded).1]
      rfl
    · show blocked.reason.code ∉ keyMaterialCodes
      rw [hblocked]
      exact hreason

theorem Ingress.route_usable {db : Store} (h : PoliciesUsable receiver.toHookApplication db)
    (hroute : Ingress.route command clock db = .ok (hook, now)) :
    hook.signing.Usable receiver.toHookApplication hook.id := by
  unfold Ingress.route at hroute
  split at hroute <;> cases hroute
  rename_i hres
  obtain ⟨-, -, row, hm, -, hs, -⟩ := resolveEndpoint_active (liftStore_ok.mp hres)
  rw [Hook.signing, Hook.id, hs]
  exact h row hm

theorem Ingress.assess_reason {hook : Hook}
    (h : hook.signing.Usable receiver.toHookApplication hook.id)
    (hassess : receiver.assess command hook now = .ok (request, some reason)) :
    reason.code ∉ keyMaterialCodes := by
  simp only [Ingress.assess, Except.bind_ok] at hassess
  obtain ⟨url, -, captured, -, hassess⟩ := hassess
  split at hassess
  · cases hassess
  · rename_i hrequired
    split at hassess
    · cases hassess
    · rename_i hv
      cases hassess
      exact verify_code h (by simpa using hrequired) hv

/-- A received request leaves the policies usable, and none is withheld for its
hook's key material. -/
theorem Ingress.receiveRequest_holds :
    Holds (PoliciesUsable receiver.toHookApplication) (receiver.receiveRequest command draw)
      (¬ ·.lacksMaterial) := by
  refine (Holds.read (Q := fun found : Hook × Instant =>
    found.1.signing.Usable receiver.toHookApplication found.1.id)
      fun db found h hroute => Ingress.route_usable h hroute).bind fun found husable => ?_
  refine (Holds.transact (Q := fun _ => True) fun db _ db' h hc => ?_).bind fun check _ => ?_
  · have hdb : (checkIpBlock found.1.id command.remoteIp found.2 db).2 = db' :=
      congrArg Prod.snd (Except.ok.inj hc)
    exact ⟨h.of_same (hdb ▸ checkIpBlock_hooks ..), trivial⟩
  · cases check with
    | blockedUntil instant => exact .lift fun _ ha => by cases ha
    | allowed =>
      refine (Holds.lift (Q := fun assessed => ∀ reason, assessed.2 = some reason →
        reason.code ∉ keyMaterialCodes) fun assessed hassess reason hreason => ?_).bind
          fun assessed hreason => ?_
      · obtain ⟨request, found'⟩ := assessed
        obtain rfl : found' = some reason := hreason
        exact assess_reason husable hassess
      · obtain ⟨request, reason⟩ := assessed
        cases reason with
        | none => exact accept_holds
        | some reason => exact block_holds (hreason reason rfl)

-- -----------------------------------------------------------------------------
-- Runs
-- -----------------------------------------------------------------------------

/-- A use case or a received request, a removal of hooks, or a change outside
the hooks. -/
inductive PolicyLabel
  | created (hash : RequestHash) (command : CreateHookCommand) (now : Instant)
      (entropy : SecretEntropy) (draws : Nat → CreationDraw)
  | prepared (hash : RequestHash) (context : ManagementContext) (now : Instant)
      (entropy : SecretEntropy) (draws : Nat → CreationDraw)
  | updated (command : UpdateHookCommand) (nonce : List UInt8) (activatedAt updatedAt : Instant)
  | rotated (command : HookMutationCommand) (entropy : SecretEntropy) (nonce : List UInt8)
      (now : Instant)
  | activated (command : SetHooksEnabledCommand) (now : Instant)
  | deleted (command : DeleteHookCommand) (now : Instant)
  | restored (command : HookMutationCommand) (now : Instant)
  | rekeyed (command : HookMutationCommand) (now : Instant) (draws : Nat → EndpointKey)
  | received (command : ReceiveRequestCommand) (draw : ReceiveDraw)
  | removed (victims : List HookId)
  | elsewhere (other : Database)

def policyStep (receiver : Ingress) (database : Database) : PolicyLabel → Database
  | .created hash command now entropy draws =>
    (receiver.createHook hash command now entropy draws).exec database
  | .prepared hash context now entropy draws =>
    (receiver.prepareAccountsHook hash context now entropy draws).exec database
  | .updated command nonce activatedAt updatedAt =>
    (receiver.update command nonce activatedAt updatedAt).exec database
  | .rotated command entropy nonce now =>
    (receiver.rotateSecret command entropy nonce now).exec database
  | .activated command now => (HookApplication.setHooksEnabled command now).exec database
  | .deleted command now => (HookApplication.deleteHook command now).exec database
  | .restored command now => (HookApplication.restoreHook command now).exec database
  | .rekeyed command now draws => (HookApplication.rotateEndpoint command now draws).exec database
  | .received command draw =>
    { database with db := (receiver.receiveRequest command draw).exec database.db }
  | .removed victims => { database with db := database.db.purgeHooks victims }
  | .elsewhere other => { other with db := { other.db with hooks := database.db.hooks } }

theorem PoliciesReady.step {database : Database}
    (h : PoliciesReady receiver.toHookApplication database) (label : PolicyLabel) :
    PoliciesReady receiver.toHookApplication (policyStep receiver database label) := by
  cases label with
  | created => exact h.createHook
  | prepared => exact h.prepareAccountsHook
  | updated => exact h.update
  | rotated => exact h.rotateSecret
  | activated => exact h.setHooksEnabled
  | deleted => exact h.deleteHook
  | restored => exact h.restoreHook
  | rekeyed => exact h.rotateEndpoint
  | received command draw => exact (Ingress.receiveRequest_holds database.db h).1
  | removed victims =>
    exact PoliciesUsable.of_rows h fun row hm => ⟨row, (Table.mem_delete.mp hm).1, rfl, rfl⟩
  | elsewhere other => exact PoliciesUsable.of_same h rfl

/-- In every run of calls that do not overlap, the stored policies are usable
and no request is withheld for its hook's key material. -/
theorem signing_policies_usable (receiver : Ingress) (labels : List PolicyLabel) :
    Always (policyStep receiver) (fun database =>
      (∀ row ∈ database.db.hooks.rows, row.signing.Usable receiver.toHookApplication row.id) ∧
      ∀ command draw outcome db', receiver.receiveRequest command draw database.db =
        (.ok outcome, db') → ¬ outcome.lacksMaterial) ⟨.empty, []⟩ labels := by
  refine always_of_invariant (P := fun _ _ => True) (fun _ label h _ => PoliciesReady.step h label)
    (fun database h => ⟨h, fun command draw outcome db' hreceived => ?_⟩)
    (fun _ hm => nomatch hm) along_true
  exact (Ingress.receiveRequest_holds database.db h).2 outcome (by rw [hreceived])

end SiliconHook
