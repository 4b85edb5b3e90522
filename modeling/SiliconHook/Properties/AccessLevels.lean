import SiliconHook.Application.Sharing
import SiliconHook.Properties.Aggregate
import SiliconHook.Properties.PolicyUpdates

/-!
# What a level of access allows

A call with a grant below what its action needs is refused before it writes
anything, and no call reaches a hook of another Silicon than its context's.
-/

namespace SiliconHook

-- -----------------------------------------------------------------------------
-- Calls that change hooks or sharing
-- -----------------------------------------------------------------------------

/-- A use case that changes hooks or sharing in an established context, with
what it draws. -/
inductive ControlCall
  | createHook (command : CreateHookCommand) (now : Instant) (entropy : SecretEntropy)
      (draws : Nat → CreationDraw)
  | updateHook (command : UpdateHookCommand) (nonce : List UInt8) (activatedAt updatedAt : Instant)
  | deleteHook (command : DeleteHookCommand) (now : Instant)
  | restoreHook (command : HookMutationCommand) (now : Instant)
  | setHooksEnabled (command : SetHooksEnabledCommand) (now : Instant)
  | rotateHookSecret (command : HookMutationCommand) (entropy : SecretEntropy)
      (nonce : List UInt8) (now : Instant)
  | rotateHookEndpoint (command : HookMutationCommand) (now : Instant) (draws : Nat → EndpointKey)
  | prepareAccountsHook (context : ManagementContext) (now : Instant) (entropy : SecretEntropy)
      (draws : Nat → CreationDraw)
  | grantAccess (context : AuthorizationContext) (grantee : String) (level : GrantLevel)
      (draw : SharingCase.GrantDraw)
  | allow (context : AuthorizationContext) (account : String) (inquiry : Inquiry)
      (storedAt : Instant)
  | disallow (context : AuthorizationContext) (account : String) (inquiry : Inquiry)
      (storedAt : Instant)

namespace ControlCall

def context : ControlCall → AuthorizationContext
  | .createHook command .. => command.context.authorization
  | .updateHook command .. => command.authorization
  | .deleteHook command _ => command.authorization
  | .restoreHook command _ => command.context.authorization
  | .setHooksEnabled command _ => command.authorization
  | .rotateHookSecret command .. => command.context.authorization
  | .rotateHookEndpoint command .. => command.context.authorization
  | .prepareAccountsHook context .. => context.authorization
  | .grantAccess context .. | .allow context .. | .disallow context .. => context

abbrev silicon (call : ControlCall) : AccountUuid := call.context.silicon.uuid

/-- Calls only the Silicon itself and its custodian may make. -/
def ownerOnly : ControlCall → Bool
  | .prepareAccountsHook .. | .grantAccess .. | .allow .. | .disallow .. => true
  | _ => false

def asksNothing : ControlCall → Bool
  | .updateHook command .. => command.patch.enabled.isNone && !command.patch.changesMetadata
  | _ => false

def run (app : HookApplication) (digests : RequestHash) : ControlCall → SharingCase (List Hook)
  | .createHook command now entropy draws =>
    .ofUseCase do return [(← app.createHook digests command now entropy draws).hook]
  | .updateHook command nonce activatedAt updatedAt =>
    .ofUseCase do return [← app.update command nonce activatedAt updatedAt]
  | .deleteHook command now =>
    .ofUseCase do HookApplication.deleteHook command now; return []
  | .restoreHook command now =>
    .ofUseCase do return [← HookApplication.restoreHook command now]
  | .setHooksEnabled command now => .ofUseCase (HookApplication.setHooksEnabled command now)
  | .rotateHookSecret command entropy nonce now =>
    .ofUseCase do return [(← app.rotateSecret command entropy nonce now).hook]
  | .rotateHookEndpoint command now draws =>
    .ofUseCase do return [← HookApplication.rotateEndpoint command now draws]
  | .prepareAccountsHook context now entropy draws =>
    .ofUseCase do return [← app.prepareAccountsHook digests context now entropy draws]
  | .grantAccess context grantee level draw => do
    let _ ← SharingCase.grantAccess draw context grantee level
    return []
  | .allow context account inquiry storedAt => do
    let _ ← SharingCase.allow inquiry storedAt context account
    return []
  | .disallow context account inquiry storedAt => do
    SharingCase.disallow inquiry storedAt context account
    return []

end ControlCall

-- -----------------------------------------------------------------------------
-- Store calls on one Silicon
-- -----------------------------------------------------------------------------

/-- From one store to the next, no hook of another Silicon is changed, added or
removed, and no key is retired for one. -/
structure Store.Confined (silicon : AccountUuid) (db db' : Store) : Prop where
  hooks : ∀ k row, row.siliconUuid ≠ some silicon →
    (db'.hooks.find k = some row ↔ db.hooks.find k = some row)
  retired : ∀ row : RetiredKeyRow, row.siliconUuid ≠ some silicon →
    (row ∈ db'.retiredEndpointKeys.rows ↔ row ∈ db.retiredEndpointKeys.rows)

def OwnedBy (silicon : AccountUuid) (hooks : List Hook) : Prop :=
  ∀ hook ∈ hooks, hook.siliconUuid = some silicon

def HookOperation.silicon : HookOperation → AccountUuid
  | .update command => command.siliconUuid
  | .delete command => command.siliconUuid
  | .restore command => command.siliconUuid
  | .rotateSecret command => command.siliconUuid
  | .rotateEndpoint command => command.siliconUuid
  | .setEnabled command => command.siliconUuid

def CreateHookOutcome.hook : CreateHookOutcome → Hook
  | .created hook | .replayed hook _ => hook

variable {silicon : AccountUuid} {db db' db'' : Store} {hook : Hook} {row : HookRow}

theorem OwnedBy.single : OwnedBy silicon [hook] ↔ hook.siliconUuid = some silicon := by
  simp [OwnedBy]

namespace Store.Confined

theorem of_same (hhooks : db'.hooks = db.hooks)
    (hretired : db'.retiredEndpointKeys = db.retiredEndpointKeys) : Confined silicon db db' where
  hooks k row _ := by rw [hhooks]
  retired row _ := by rw [hretired]

theorem refl : Confined silicon db db := of_same rfl rfl

theorem trans (h : Confined silicon db db') (h' : Confined silicon db' db'') :
    Confined silicon db db'' where
  hooks k row hu := (h'.hooks k row hu).trans (h.hooks k row hu)
  retired row hu := (h'.retired row hu).trans (h.retired row hu)

theorem of_reads {hooks : List Hook} (hreads : ReadsBack hooks db db')
    (howned : ∀ hook ∈ hooks, hook.siliconUuid = some silicon ∧
      ∃ row, db.scopedHook silicon hook.id = some row)
    (hretired : ∀ row : RetiredKeyRow, row.siliconUuid ≠ some silicon →
      (row ∈ db'.retiredEndpointKeys.rows ↔ row ∈ db.retiredEndpointKeys.rows)) :
    Confined silicon db db' where
  hooks k row hu := by
    by_cases hreturned : ∃ hook ∈ hooks, hook.id = k
    · obtain ⟨hook, hm, rfl⟩ := hreturned
      obtain ⟨hafter, before, hbefore⟩ := howned hook hm
      obtain ⟨after, hfind, hread⟩ := hreads.returned hook hm
      obtain ⟨hbefore, howner⟩ := Store.scopedHook_some.mp hbefore
      have hsame : hook.siliconUuid = after.siliconUuid := by
        rw [Hook.siliconUuid, HookRow.toHook_ok.mp hread]
        rfl
      rw [hfind, hbefore, Option.some.injEq, Option.some.injEq]
      constructor
      · rintro rfl
        exact absurd (hsame.symm.trans hafter) hu
      · rintro rfl
        exact absurd howner hu
    · rw [hreads.others k fun hook hm he => hreturned ⟨hook, hm, he⟩]
  retired := hretired

end Store.Confined

theorem scoped_owned (hr : db.scopedHook silicon k = some row)
    (hs : hook.snapshot = HookRow.snapshot after) (hid : after.id = row.id)
    (hu : after.siliconUuid = row.siliconUuid) :
    hook.siliconUuid = some silicon ∧ ∃ row, db.scopedHook silicon hook.id = some row := by
  obtain ⟨hfind, howner⟩ := Store.scopedHook_some.mp hr
  have hkey : hook.id = k := by
    rw [Hook.id, hs]
    exact hid.trans (Table.find_key hfind)
  constructor
  · rw [Hook.siliconUuid, hs]
    exact hu.trans howner
  · exact ⟨row, hkey ▸ hr⟩

theorem replayed_owned (h : selectReplayedScopedHook silicon response db = .ok hook) :
    hook.siliconUuid = some silicon ∧ ∃ row, db.scopedHook silicon hook.id = some row := by
  obtain ⟨k, -, row, hr, hs⟩ := selectReplayedScopedHook_ok.mp h
  exact scoped_owned hr hs rfl rfl

theorem setHooksEnabled_owned {command : BatchHookActivation} {hooks : List Hook}
    (h : setHooksEnabled command db = .ok (hooks, db')) (hm : hook ∈ hooks) :
    hook.siliconUuid = some command.siliconUuid ∧
      ∃ row, db.scopedHook command.siliconUuid hook.id = some row := by
  simp only [setHooksEnabled, Except.bind_ok] at h
  obtain ⟨ids, -, locked, hlock, transitioned, htrans, -, -, h⟩ := h
  cases h
  have hpairs := forall₂_trans (lockHooksForActivation_ok hlock) (Except.mapM_ok.mp htrans)
  obtain ⟨k, -, before, ⟨row, hr, hs⟩, ht⟩ := exists_mem_of_forall₂ hpairs.flip hm
  refine scoped_owned hr (activationTransition_next hs ht) ?_ ?_
  · unfold BatchHookActivation.next
    split <;> rfl
  · unfold BatchHookActivation.next
    split <;> rfl

theorem HookOperation.owned {operation : HookOperation} {hooks : List Hook}
    (h : operation.call db = .ok (hooks, db')) (hm : hook ∈ hooks) :
    hook.siliconUuid = some operation.silicon ∧
      ∃ row, db.scopedHook operation.silicon hook.id = some row := by
  cases operation with
  | update command =>
    obtain ⟨⟨updated, store⟩, hc, he⟩ := Except.map_ok.mp h
    cases he
    obtain rfl := List.mem_singleton.mp hm
    obtain ⟨row, _, hr, -, -, hs, -⟩ := updateHookRow_ok.mp hc
    exact scoped_owned hr hs rfl rfl
  | delete command =>
    obtain ⟨⟨updated, store⟩, hc, he⟩ := Except.map_ok.mp h
    cases he
    obtain rfl := List.mem_singleton.mp hm
    obtain ⟨row, hr, -, hs, -⟩ := deleteHookRow_ok hc
    exact scoped_owned hr hs rfl rfl
  | restore command =>
    obtain ⟨⟨outcome, store⟩, hc, he⟩ := Except.map_ok.mp h
    cases he
    obtain rfl := List.mem_singleton.mp hm
    obtain ⟨-, ⟨_, _, _, -, hsel, -, rfl, -⟩ | ⟨_, _, row, _, -, hr, -, hs, -, rfl, -⟩⟩ :=
      restoreHookRow_ok hc
    · exact replayed_owned hsel
    · exact scoped_owned hr hs rfl rfl
  | rotateSecret command =>
    obtain ⟨⟨outcome, store⟩, hc, he⟩ := Except.map_ok.mp h
    cases he
    obtain rfl := List.mem_singleton.mp hm
    obtain ⟨-, ⟨_, _, _, -, hsel, -, -, rfl, -⟩ | ⟨_, _, row, _, _, -, hr, -, -, hs, -, rfl, -⟩⟩ :=
      rotateHookSecretRow_ok.mp hc
    · exact replayed_owned hsel
    · exact scoped_owned hr hs rfl rfl
  | rotateEndpoint command =>
    obtain ⟨⟨outcome, store⟩, hc, he⟩ := Except.map_ok.mp h
    cases he
    obtain rfl := List.mem_singleton.mp hm
    obtain ⟨-, ⟨_, _, _, -, hsel, -, rfl, -⟩ | ⟨_, _, row, _, _, -, hr, -, -, hs, -, -, rfl, -⟩⟩ :=
      rotateHookEndpointRow_ok hc
    · exact replayed_owned hsel
    · exact scoped_owned hr hs rfl rfl
  | setEnabled command => exact setHooksEnabled_owned h hm

theorem HookOperation.retires {operation : HookOperation} {hooks : List Hook}
    (h : operation.call db = .ok (hooks, db')) {retired : RetiredKeyRow}
    (hu : retired.siliconUuid ≠ some operation.silicon) :
    retired ∈ db'.retiredEndpointKeys.rows ↔ retired ∈ db.retiredEndpointKeys.rows := by
  cases operation with
  | update command =>
    obtain ⟨⟨updated, store⟩, hc, he⟩ := Except.map_ok.mp h
    cases he
    obtain ⟨_, _, -, -, -, -, rfl⟩ := updateHookRow_ok.mp hc
    rfl
  | delete command =>
    obtain ⟨⟨updated, store⟩, hc, he⟩ := Except.map_ok.mp h
    cases he
    obtain ⟨_, -, -, -, rfl⟩ := deleteHookRow_ok hc
    rfl
  | restore command =>
    obtain ⟨⟨outcome, store⟩, hc, he⟩ := Except.map_ok.mp h
    cases he
    obtain ⟨-, ⟨_, _, _, -, -, -, -, rfl⟩ | ⟨_, _, _, _, -, -, -, -, -, -, rfl⟩⟩ :=
      restoreHookRow_ok hc <;> rfl
  | rotateSecret command =>
    obtain ⟨⟨outcome, store⟩, hc, he⟩ := Except.map_ok.mp h
    cases he
    obtain ⟨-, ⟨_, _, _, -, -, -, -, -, rfl⟩ | ⟨_, _, _, _, _, -, -, -, -, -, -, -, rfl⟩⟩ :=
      rotateHookSecretRow_ok.mp hc <;> rfl
  | rotateEndpoint command =>
    obtain ⟨⟨outcome, store⟩, hc, he⟩ := Except.map_ok.mp h
    cases he
    obtain ⟨-, ⟨_, _, _, -, -, -, -, rfl⟩ |
      ⟨_, _, row, _, _, -, hr, -, -, -, hins, -, -, rfl⟩⟩ := rotateHookEndpointRow_ok hc
    · rfl
    · obtain ⟨-, howner⟩ := Store.scopedHook_some.mp hr
      rw [Table.mem_insert hins, or_iff_left]
      rintro rfl
      exact hu howner
  | setEnabled command =>
    obtain ⟨ids, -, rfl⟩ := setHooksEnabled_ok h
    rfl

theorem HookOperation.confined {operation : HookOperation} {hooks : List Hook}
    (h : operation.call db = .ok (hooks, db')) :
    db.Confined operation.silicon db' ∧ OwnedBy operation.silicon hooks :=
  ⟨.of_reads (HookOperation.reads h) (fun _ hm => HookOperation.owned h hm)
    (fun _ hu => HookOperation.retires h hu), fun _ hm => (HookOperation.owned h hm).1⟩

theorem createHookRow_confined {command : CreateHook}
    (hsilicon : command.hook.siliconUuid = some silicon)
    (h : createHookRow command db = .ok (outcome, db')) :
    db.Confined silicon db' ∧ outcome.hook.siliconUuid = some silicon := by
  obtain ⟨-, u, hu, hcases⟩ := createHookRow_ok h
  obtain rfl : u = silicon := Option.some.inj (hu.symm.trans hsilicon)
  obtain ⟨_, _, _, -, hsel, -, -, rfl, rfl⟩ | ⟨_, _, hooks, -, -, hins, -, rfl, rfl⟩ := hcases
  · exact ⟨.of_same rfl rfl, (replayed_owned hsel).1⟩
  · refine ⟨⟨fun k row hrow => ?_, fun _ _ => .rfl⟩, hu⟩
    rw [Table.find_insert hins]
    split
    · rename_i hk
      subst hk
      rw [Table.insert_fresh hins]
      constructor
      · rintro he
        cases he
        exact absurd hu hrow
      · intro he
        cases he
    · rfl

-- -----------------------------------------------------------------------------
-- Use cases on one Silicon
-- -----------------------------------------------------------------------------

/-- Since the store `db`, only the Silicon's hooks were touched. -/
abbrev Database.ConfinedSince (silicon : AccountUuid) (db : Store) (database : Database) : Prop :=
  db.Confined silicon database.db

abbrev UseCase.Confined (silicon : AccountUuid) (m : UseCase α) (answered : α → List Hook) : Prop :=
  ∀ db, Program.Holds (Database.ConfinedSince silicon db) m fun a => OwnedBy silicon (answered a)

section UseCases

open Program HookApplication

variable {I : Database → Prop} {Q : α → Prop} {app : HookApplication}

theorem holds_query {f : Store → Except ApplicationError α} :
    Holds I (query f) fun _ => True := .read fun _ _ _ _ => trivial

theorem holds_storeCall {call : Database → Except StoreError (α × Database)}
    (h : ∀ s a s', I s → call s = .ok (a, s') → I s' ∧ Q a) : Holds I (storeCall call) Q :=
  .transact fun s a s' hs hc => h s a s' hs (liftStore_ok.mp hc)

theorem confined_operation {call : Store → Except StoreError (α × Store)}
    {audit : Store → α → List AuditRow} {s s' : Database} (operation : HookOperation)
    (answered : α → List Hook) (hs : db.Confined operation.silicon s.db)
    (hcall : ∀ a db', call s.db = .ok (a, db') → operation.call s.db = .ok (answered a, db'))
    (hc : s.audited call audit = .ok (a, s')) :
    db.Confined operation.silicon s'.db ∧ OwnedBy operation.silicon (answered a) := by
  obtain ⟨hconfined, howned⟩ :=
    HookOperation.confined (hcall a s'.db (Database.audited_ok hc))
  exact ⟨hs.trans hconfined, howned⟩

theorem secretResultFromReplay_hook {hook : Hook}
    (h : app.secretResultFromReplay hook response = .ok result) : result.hook = hook := by
  unfold secretResultFromReplay at h
  split at h
  · cases h
    rfl
  · split at h
    · cases h
      rfl
    · cases h

theorem createAttempts_confined {parts : CreateHookParts} {secret : Option SigningSecret}
    (hsilicon : parts.siliconUuid = silicon) (attempts : Nat) :
    UseCase.Confined silicon (app.createAttempts parts secret now draws attempts)
      fun created => [created.hook] := by
  intro db
  induction attempts with
  | zero => exact .lift fun _ h => nomatch h
  | succ attempts ih =>
    refine .bind (.lift (Q := fun command => command.hook.siliconUuid = some silicon) ?_)
      fun command hcommand => ?_
    · intro command hc
      simp only [createCommand, Except.bind_ok] at hc
      obtain ⟨_, -, hc⟩ := hc
      cases hc
      exact congrArg some hsilicon
    refine .bind (.attempt (Q := fun outcome : CreateHookOutcome =>
      outcome.hook.siliconUuid = some silicon) ?_) fun result hresult => ?_
    · intro s outcome s' hs hc
      obtain ⟨hconfined, howned⟩ := createHookRow_confined hcommand (Database.audited_ok hc)
      exact ⟨hs.trans hconfined, howned⟩
    · match result with
      | .ok (.created hook) => exact .pure (OwnedBy.single.mpr (hresult _ rfl))
      | .ok (.replayed hook response) =>
        refine .lift fun result hreplayed => OwnedBy.single.mpr ?_
        rw [secretResultFromReplay_hook hreplayed]
        exact hresult _ rfl
      | .error e => cases e <;> first | exact ih | exact .lift fun _ h => nomatch h

theorem createHookInner_confined {parts : CreateHookParts} (hsilicon : parts.siliconUuid = silicon) :
    UseCase.Confined silicon (app.createHookInner parts now entropy draws)
      fun created => [created.hook] := by
  intro db
  exact .bind (.lift fun _ _ => trivial) fun secret _ => createAttempts_confined hsilicon _ db

theorem createHook_confined {digests : RequestHash} {command : CreateHookCommand} :
    UseCase.Confined command.context.authorization.silicon.uuid
      (app.createHook digests command now entropy draws) fun created => [created.hook] := by
  intro db
  refine .bind (.lift fun _ _ => trivial) fun _ _ => ?_
  exact .bind (.lift fun _ _ => trivial) fun _ _ => createHookInner_confined (by rfl) db

theorem activatePatched_confined {command : UpdateHookCommand} {existing : Hook}
    (hexisting : existing.siliconUuid = some command.siliconUuid) :
    UseCase.Confined command.siliconUuid (activatePatched command existing now)
      fun current => [current] := by
  intro db
  unfold activatePatched
  split
  · exact .pure (OwnedBy.single.mpr hexisting)
  · refine .bind (holds_storeCall (Q := OwnedBy command.siliconUuid) fun s updated s' hs hc =>
      confined_operation (.setEnabled ⟨command.siliconUuid, [command.hookId], _, now⟩) id hs
        (fun _ _ h => h) hc) fun updated hupdated => ?_
    split
    · exact .lift fun _ h => nomatch h
    · rename_i current hlast
      exact .pure (OwnedBy.single.mpr (hupdated current (List.mem_of_getLast? hlast)))

theorem update_confined {command : UpdateHookCommand} :
    UseCase.Confined command.siliconUuid (app.update command nonce activatedAt updatedAt)
      fun updated => [updated] := by
  intro db
  refine .bind (.lift fun _ _ => trivial) fun _ _ => ?_
  refine .bind (.read (Q := fun existing : Hook => existing.siliconUuid = some command.siliconUuid)
    fun s existing _ hload => ?_) fun existing hexisting => ?_
  · obtain ⟨row, hr, hs⟩ := loadHook_ok.mp hload
    exact (scoped_owned hr hs rfl rfl).1
  refine .bind (.lift fun _ _ => trivial) fun changes _ => ?_
  refine .bind (activatePatched_confined hexisting db) fun current hcurrent => ?_
  split
  · exact .pure hcurrent
  · refine holds_storeCall fun s updated s' hs hc => ?_
    refine confined_operation (.update ⟨command.siliconUuid, command.hookId, changes⟩)
      (fun updated => [updated]) hs (fun updated db' h => ?_) hc
    rw [HookOperation.call, h]
    rfl

theorem deleteHook_confined {command : DeleteHookCommand} :
    UseCase.Confined command.authorization.silicon.uuid (deleteHook command now) fun _ => [] := by
  intro db
  have hnone : ∀ a : Unit, OwnedBy command.authorization.silicon.uuid ((fun _ => []) a) := by
    intro _ _ hm
    cases hm
  refine .bind (.lift fun _ _ => trivial) fun _ _ => ?_
  refine .bind holds_query fun hook _ => ?_
  refine .bind (.lift fun _ _ => trivial) fun _ _ => ?_
  split
  · exact .pure (hnone ())
  · refine .bind (.attempt (Q := fun _ => True) fun s deleted s' hs hc => ?_) fun result _ => ?_
    · refine ⟨(confined_operation
        (.delete ⟨command.authorization.silicon.uuid, command.hookId, now⟩) (fun hook => [hook]) hs
        (fun deleted db' h => ?_) hc).1, trivial⟩
      rw [HookOperation.call, h]
      rfl
    · split
      · exact .pure (hnone ())
      · exact .pure (hnone ())
      · exact .lift fun _ h => nomatch h

theorem restoreHook_confined (command : HookMutationCommand) :
    UseCase.Confined command.siliconUuid (restoreHook command now) fun restored => [restored] := by
  intro db
  refine .bind holds_query fun hook _ => ?_
  refine .bind (.lift fun _ _ => trivial) fun _ _ => ?_
  refine .bind (holds_storeCall (Q := fun outcome : RestoreHookOutcome =>
    OwnedBy command.siliconUuid [outcome.hook]) fun s outcome s' hs hc =>
      confined_operation (.restore (restoreCommand command now))
        (fun outcome : RestoreHookOutcome => [outcome.hook]) hs (fun outcome db' h => ?_) hc)
    fun outcome howned => ?_
  · rw [HookOperation.call, h]
    rfl
  · cases outcome with
    | restored hook => exact .pure howned
    | replayed hook response => exact .pure howned

theorem rotateSecret_confined {command : HookMutationCommand} :
    UseCase.Confined command.siliconUuid (app.rotateSecret command entropy nonce now)
      fun rotated => [rotated.hook] := by
  intro db
  refine .bind holds_query fun hook _ => ?_
  refine .bind (.lift fun _ _ => trivial) fun (secret, encrypted) _ => ?_
  refine .bind (holds_storeCall (Q := fun outcome : RotateSecretOutcome =>
    OwnedBy command.siliconUuid [outcome.hook]) fun s outcome s' hs hc =>
      confined_operation (.rotateSecret (rotateSecretCommand command encrypted now))
        (fun outcome : RotateSecretOutcome => [outcome.hook]) hs (fun outcome db' h => ?_) hc)
    fun outcome howned => ?_
  · rw [HookOperation.call, h]
    rfl
  · cases outcome with
    | rotated hook => exact .pure howned
    | replayed hook response =>
      refine .lift fun result hresult => OwnedBy.single.mpr ?_
      rw [secretResultFromReplay_hook hresult]
      exact OwnedBy.single.mp howned

theorem rotateEndpointAttempts_confined {command : HookMutationCommand} (attempts : Nat) :
    UseCase.Confined command.siliconUuid (rotateEndpointAttempts command now draws attempts)
      fun rotated => [rotated] := by
  intro db
  induction attempts with
  | zero => exact .lift fun _ h => nomatch h
  | succ attempts ih =>
    refine .bind (.attempt (Q := fun outcome : RotateEndpointOutcome =>
      OwnedBy command.siliconUuid [outcome.hook]) fun s outcome s' hs hc =>
        confined_operation (.rotateEndpoint (rotateEndpointCommand command (draws attempts) now))
          (fun outcome : RotateEndpointOutcome => [outcome.hook]) hs (fun outcome db' h => ?_) hc)
      fun result hresult => ?_
    · rw [HookOperation.call, h]
      rfl
    · match result with
      | .ok (.rotated hook) => exact .pure (hresult _ rfl)
      | .ok (.replayed hook response) => exact .pure (hresult _ rfl)
      | .error e => cases e <;> first | exact ih | exact .lift fun _ h => nomatch h

theorem rotateEndpoint_confined {command : HookMutationCommand} :
    UseCase.Confined command.siliconUuid (rotateEndpoint command now draws)
      fun rotated => [rotated] := by
  intro db
  exact .bind holds_query fun hook _ => rotateEndpointAttempts_confined _ db

theorem findAccountsHook_owned {db : Store} (h : findAccountsHook silicon db = .ok (some hook)) :
    hook.siliconUuid = some silicon := by
  unfold findAccountsHook at h
  split at h
  · cases h
  · rename_i row hfind
    obtain ⟨found, hread, he⟩ := Except.map_ok.mp h
    cases he
    have howner := List.find?_some hfind
    simp only [Bool.and_eq_true, decide_eq_true_eq] at howner
    rw [Hook.siliconUuid, HookRow.toHook_ok.mp hread]
    exact howner.1

theorem prepareAccountsHook_confined {digests : RequestHash} {context : ManagementContext} :
    UseCase.Confined context.authorization.silicon.uuid
      (app.prepareAccountsHook digests context now entropy draws) fun hook => [hook] := by
  intro db
  refine .bind (.lift fun _ _ => trivial) fun _ _ => ?_
  refine .bind (.read (Q := fun found : Option Hook => ∀ hook ∈ found,
    hook.siliconUuid = some context.authorization.silicon.uuid) fun s found _ hfound => ?_)
    fun found hfound => ?_
  · rintro hook rfl
    exact findAccountsHook_owned (liftStore_ok.mp hfound)
  · cases found with
    | none =>
      exact .bind (createHookInner_confined (by rfl) db) fun created hcreated => .pure hcreated
    | some hook =>
      simp only
      split
      · exact restoreHook_confined ⟨context, hook.id⟩ db
      · exact .pure (OwnedBy.single.mpr (hfound hook rfl))

theorem inOrder_mem {requested : List HookId} {hooks ordered : List Hook}
    (h : inOrder requested hooks = .ok ordered) (hm : hook ∈ ordered) : hook ∈ hooks := by
  obtain ⟨k, -, hk⟩ := exists_mem_of_forall₂ (Except.mapM_ok.mp h).flip hm
  split at hk
  · cases hk
  · rename_i found hfind
    cases hk
    exact List.mem_of_find?_eq_some hfind

theorem setHooksEnabled_confined {command : SetHooksEnabledCommand} :
    UseCase.Confined command.authorization.silicon.uuid
      (HookApplication.setHooksEnabled command now) id := by
  intro db
  refine .bind (.lift fun _ _ => trivial) fun hookIds _ => ?_
  refine .bind (.lift fun _ _ => trivial) fun _ _ => ?_
  refine .bind holds_query fun hooks _ => ?_
  refine .bind (.lift fun _ _ => trivial) fun _ _ => ?_
  refine .bind (.lift fun _ _ => trivial) fun _ _ => ?_
  refine .bind (holds_storeCall (Q := OwnedBy command.authorization.silicon.uuid)
    fun s updated s' hs hc => confined_operation (.setEnabled
      ⟨command.authorization.silicon.uuid, hookIds, command.enabled, now⟩) id hs
      (fun _ _ h => h) hc) fun updated hupdated => ?_
  exact .lift fun ordered hordered hook hm => hupdated hook (inOrder_mem hordered hm)

end UseCases

-- -----------------------------------------------------------------------------
-- What looking accounts up leaves
-- -----------------------------------------------------------------------------

/-- At most what Hook remembers about accounts differs. -/
structure SharingState.OnlyAccounts (s s' : SharingState) : Prop where
  store : s.database.db.OnlyAccounts s'.database.db
  auditLog : s'.database.auditLog = s.database.auditLog

namespace SharingState.OnlyAccounts

theorem refl (s : SharingState) : OnlyAccounts s s := ⟨.refl, rfl⟩

theorem trans {s s' s'' : SharingState} (h : OnlyAccounts s s') (h' : OnlyAccounts s' s'') :
    OnlyAccounts s s'' :=
  ⟨h.store.trans h'.store, h'.auditLog.trans h.auditLog⟩

end SharingState.OnlyAccounts

theorem recordLookup_onlyAccounts (value : String) (answer : Lookup) (now : Instant) (db : Store) :
    db.OnlyAccounts (recordLookup value answer now db).2 := by
  unfold recordLookup
  split
  · split
    · exact .refl
    · split
      · exact .refl
      · rename_i hrecorded
        exact .recordAccountView hrecorded
  · split
    · exact ⟨_, _, rfl⟩
    · exact .refl
  · exact .refl

theorem lookUp_onlyAccounts (client : AccountsClient) (value : String) (byId : Bool)
    (now : Instant) (state : AppState) :
    state.db.OnlyAccounts (lookUp client value byId now state).2.db := by
  unfold lookUp
  split
  · exact .refl
  · exact recordLookup_onlyAccounts ..

namespace SharingCase

open Program

/-- An assertion on states that learning about accounts does not break. -/
def Durable (I : SharingState → Prop) : Prop := ∀ s s', I s → s.OnlyAccounts s' → I s'

variable {I : SharingState → Prop}

theorem holds_lookUp (hI : Durable I) {inquiry : Inquiry} {value : String} {byId : Bool} :
    Holds I (lookUp inquiry value byId) fun _ => True := by
  intro s hs
  exact ⟨hI _ _ hs ⟨lookUp_onlyAccounts .., rfl⟩, fun _ _ => trivial⟩

theorem holds_query {f : Store → Except ApplicationError α} :
    Holds I (query f) fun _ => True := .read fun _ _ _ _ => trivial

theorem holds_resolveById (hI : Durable I) {inquiry : Inquiry} {id : PublicId} :
    Holds I (resolveById inquiry id) fun _ => True := by
  refine .bind holds_query fun cached _ => ?_
  cases cached with
  | some record => exact .pure trivial
  | none => exact .bind (holds_lookUp hI) fun _ _ => .lift fun _ _ => trivial

theorem holds_resolveByUuid (hI : Durable I) {inquiry : Inquiry} {uuid : AccountUuid} :
    Holds I (resolveByUuid inquiry uuid) fun _ => True := by
  refine .bind holds_query fun cached _ => ?_
  cases cached with
  | some record => exact .bind (.lift fun _ _ => trivial) fun _ _ => .pure trivial
  | none => exact .bind (holds_lookUp hI) fun _ _ => .lift fun _ _ => trivial

theorem holds_resolveAccount (hI : Durable I) {inquiry : Inquiry} {value : String} :
    Holds I (resolveAccount inquiry value) fun _ => True := by
  unfold resolveAccount
  simp only
  split
  · exact holds_resolveById hI
  · split
    · exact holds_resolveByUuid hI
    · exact .lift fun _ _ => trivial

theorem holds_resolveSilicon (hI : Durable I) {inquiry : Inquiry} {segment : String} :
    Holds I (resolveSilicon inquiry segment) fun _ => True := by
  refine .bind (.mapError (holds_resolveAccount hI)) fun record _ => ?_
  exact .bind (.lift fun _ _ => trivial) fun _ _ => .pure trivial

theorem holds_currentCustodian (hI : Durable I) {inquiry : Inquiry} {record : AccountRow} :
    Holds I (currentCustodian inquiry record) fun _ => True := by
  unfold currentCustodian
  split
  · exact .pure trivial
  · exact .bind (holds_lookUp hI) fun _ _ => .pure trivial

theorem holds_authorizeSilicon (hI : Durable I) {named custody : Inquiry} {actor : Actor}
    {segment : String} : Holds I (authorizeSilicon named custody actor segment) fun _ => True := by
  refine .bind (Q := fun _ => True) ?_ fun record _ => ?_
  · unfold namedSilicon
    split
    · exact holds_query
    · exact holds_resolveSilicon hI
  · split
    · exact .pure trivial
    · refine .bind (Q := fun _ => True) ?_ fun custodian _ => ?_
      · unfold custodianFor
        split
        · exact holds_currentCustodian hI
        · exact .pure trivial
      · split
        · exact .pure trivial
        · exact .bind holds_query fun _ _ => .pure trivial

theorem holds_revokedAccount (hI : Durable I) {inquiry : Inquiry} {actor : Actor}
    {grantee : String} : Holds I (revokedAccount inquiry actor grantee) fun _ => True := by
  unfold revokedAccount
  split
  · exact .pure trivial
  · exact .bind (holds_resolveAccount hI) fun _ _ => .pure trivial

theorem holds_storeCall {call : Database → Except StoreError (α × Database)}
    (h : ∀ s a s', I s → call s.database = .ok (a, s') → I { s with database := s' }) :
    Holds I (storeCall call) fun _ => True := by
  intro s hs
  refine ⟨?_, fun _ _ => trivial⟩
  let J (database : Database) : Prop := I { s with database }
  have hJ : J s.database := hs
  have hdatabase : J ((SiliconHook.storeCall call).exec s.database) :=
    exec_storeCall hJ fun a database' hc => h s a database' hs hc
  exact hdatabase

end SharingCase

-- -----------------------------------------------------------------------------
-- Every call keeps to its Silicon
-- -----------------------------------------------------------------------------

section Confinement

open Program

abbrev SharingState.ConfinedSince (silicon : AccountUuid) (db : Store) (s : SharingState) : Prop :=
  db.Confined silicon s.database.db

theorem SharingState.ConfinedSince.durable (db : Store) :
    SharingCase.Durable (SharingState.ConfinedSince silicon db) := by
  intro s s' hs h
  obtain ⟨accounts, ids, hdb⟩ := h.store
  refine hs.trans (.of_same ?_ ?_) <;> rw [hdb]

theorem UseCase.Confined.answers {m : UseCase α} {answered : α → List Hook}
    (h : UseCase.Confined silicon m answered) (db : Store) :
    Holds (SharingState.ConfinedSince silicon db)
      (SharingCase.ofUseCase do return answered (← m)) (OwnedBy silicon) := by
  have hm : Holds (Database.ConfinedSince silicon db) (m >>= fun a => pure (answered a))
      (OwnedBy silicon) := .bind (h db) fun _ ha => .pure ha
  exact fun s hs => hm s.database hs

theorem holds_answers_none {m : SharingCase α} {I : SharingState → Prop}
    (h : Holds I m fun _ => True) :
    Holds I (m >>= fun _ => (pure [] : SharingCase (List Hook))) (OwnedBy silicon) :=
  .bind h fun _ _ => .pure fun _ hm => nomatch hm

theorem Store.Confined.audited {call : Store → Except StoreError (α × Store)}
    {audit : Store → α → List AuditRow} {s : SharingState} {database : Database}
    (hs : SharingState.ConfinedSince silicon db s)
    (hcall : ∀ a db', call s.database.db = .ok (a, db') → db'.hooks = s.database.db.hooks ∧
      db'.retiredEndpointKeys = s.database.db.retiredEndpointKeys)
    (hc : s.database.audited call audit = .ok (a, database)) :
    SharingState.ConfinedSince silicon db { s with database } := by
  obtain ⟨hhooks, hretired⟩ := hcall a database.db (Database.audited_ok hc)
  exact hs.trans (.of_same hhooks hretired)

theorem putGrant_hooks {grantee : AccountUuid} {actor : Actor}
    (h : putGrant silicon grantee level actor db = .ok db') :
    db'.hooks = db.hooks ∧ db'.retiredEndpointKeys = db.retiredEndpointKeys := by
  unfold putGrant at h
  split at h
  · cases h
  · cases h
    exact ⟨rfl, rfl⟩

theorem deleteGrant_hooks {grantee : AccountUuid} (keeps : Bool) (db : Store) :
    (deleteGrant silicon grantee keeps db).2.hooks = db.hooks ∧
      (deleteGrant silicon grantee keeps db).2.retiredEndpointKeys = db.retiredEndpointKeys := by
  unfold deleteGrant
  split
  · exact ⟨rfl, rfl⟩
  · simp only
    split <;> exact ⟨rfl, rfl⟩

theorem putAllowance_hooks {allowed : AccountUuid} {actor : Actor}
    (h : putAllowance silicon allowed actor db = .ok db') :
    db'.hooks = db.hooks ∧ db'.retiredEndpointKeys = db.retiredEndpointKeys := by
  unfold putAllowance at h
  split at h
  · cases h
  · cases h
    exact ⟨rfl, rfl⟩

theorem deleteAllowance_hooks {allowed : AccountUuid} (db : Store) :
    (deleteAllowance silicon allowed db).2.hooks = db.hooks ∧
      (deleteAllowance silicon allowed db).2.retiredEndpointKeys = db.retiredEndpointKeys := by
  unfold deleteAllowance
  split <;> exact ⟨rfl, rfl⟩

open SharingCase

theorem grantAccess_confined {draw : GrantDraw} {context : AuthorizationContext} {grantee : String}
    {db : Store} : Holds (SharingState.ConfinedSince silicon db)
      (grantAccess draw context grantee level) fun _ => True := by
  have hI : SharingCase.Durable (SharingState.ConfinedSince silicon db) :=
    SharingState.ConfinedSince.durable db
  refine .bind (.lift fun _ _ => trivial) fun _ _ => ?_
  refine .bind SharingCase.holds_query fun owner _ => ?_
  refine .bind (holds_resolveAccount hI) fun grantee _ => ?_
  refine .bind (.lift fun _ _ => trivial) fun _ _ => ?_
  refine .bind (holds_currentCustodian hI) fun ownerCustodian _ => ?_
  refine .bind (.lift fun _ _ => trivial) fun _ _ => ?_
  have hput : Holds (SharingState.ConfinedSince silicon db) (do
      SharingCase.storeCall
        (Database.putGrant owner.uuid grantee.uuid level context.actor draw.storedAt)
      return ((⟨owner.uuid, grantee.uuid, level, context.actor.uuid⟩, grantee) :
        GrantRow × AccountRow)) fun _ => True := by
    refine .bind (SharingCase.holds_storeCall fun s _ s' hs hc => hs.audited (fun _ _ h => ?_) hc)
      fun _ _ => .pure trivial
    obtain ⟨_, hput, he⟩ := Except.map_ok.mp h
    cases he
    exact putGrant_hooks hput
  split
  · refine .bind (Q := fun _ => True) ?_ fun _ _ => hput
    refine .bind (holds_currentCustodian hI) fun _ _ => ?_
    split
    · exact .pure trivial
    · exact .bind SharingCase.holds_query fun _ _ => .lift fun _ _ => trivial
  · exact hput

theorem allow_confined {inquiry : Inquiry} {context : AuthorizationContext} {account : String}
    {db : Store} : Holds (SharingState.ConfinedSince silicon db)
      (allow inquiry storedAt context account) fun _ => True := by
  have hI : SharingCase.Durable (SharingState.ConfinedSince silicon db) :=
    SharingState.ConfinedSince.durable db
  refine .bind (.lift fun _ _ => trivial) fun _ _ => ?_
  refine .bind (holds_resolveAccount hI) fun account _ => ?_
  refine .bind (.lift fun _ _ => trivial) fun _ _ => ?_
  refine .bind (SharingCase.holds_storeCall fun s _ s' hs hc => hs.audited (fun _ _ h => ?_) hc)
    fun _ _ => .pure trivial
  obtain ⟨_, hput, he⟩ := Except.map_ok.mp h
  cases he
  exact putAllowance_hooks hput

theorem disallow_confined {inquiry : Inquiry} {context : AuthorizationContext} {account : String}
    {db : Store} : Holds (SharingState.ConfinedSince silicon db)
      (disallow inquiry storedAt context account) fun _ => True := by
  have hI : SharingCase.Durable (SharingState.ConfinedSince silicon db) :=
    SharingState.ConfinedSince.durable db
  refine .bind (.lift fun _ _ => trivial) fun _ _ => ?_
  refine .bind (holds_resolveAccount hI) fun account _ => ?_
  refine .bind (SharingCase.holds_storeCall fun s _ s' hs hc => hs.audited (fun _ db' h => ?_) hc)
    fun _ _ => .lift fun _ _ => trivial
  have hdb : _ = db' := congrArg Prod.snd (Except.ok.inj h)
  subst hdb
  exact deleteAllowance_hooks _

theorem revokeAccess_confined {draw : RevokeDraw} {actor : Actor} {segment grantee : String}
    {db : Store} : Holds (SharingState.ConfinedSince silicon db)
      (revokeAccess draw actor segment grantee) fun _ => True := by
  have hI : SharingCase.Durable (SharingState.ConfinedSince silicon db) :=
    SharingState.ConfinedSince.durable db
  refine .bind (holds_authorizeSilicon hI) fun context _ => ?_
  refine .bind (holds_revokedAccount hI) fun grantee _ => ?_
  refine .bind (.lift fun _ _ => trivial) fun _ _ => ?_
  refine .bind SharingCase.holds_query fun owner _ => ?_
  refine .bind (holds_currentCustodian hI) fun custodian _ => ?_
  refine .bind (SharingCase.holds_storeCall fun s _ s' hs hc => hs.audited (fun _ db' h => ?_) hc)
    fun _ _ => .lift fun _ _ => trivial
  have hdb : _ = db' := congrArg Prod.snd (Except.ok.inj h)
  subst hdb
  exact deleteGrant_hooks _ _

theorem ControlCall.confined (app : HookApplication) (digests : RequestHash) (call : ControlCall)
    (db : Store) : Holds (SharingState.ConfinedSince call.silicon db) (call.run app digests)
      (OwnedBy call.silicon) := by
  cases call with
  | createHook command now entropy draws => exact createHook_confined.answers db
  | updateHook command nonce activatedAt updatedAt => exact update_confined.answers db
  | deleteHook command now => exact deleteHook_confined.answers db
  | restoreHook command now => exact (restoreHook_confined command).answers db
  | setHooksEnabled command now => exact fun s hs => setHooksEnabled_confined db s.database hs
  | rotateHookSecret command entropy nonce now => exact rotateSecret_confined.answers db
  | rotateHookEndpoint command now draws => exact rotateEndpoint_confined.answers db
  | prepareAccountsHook context now entropy draws =>
    exact prepareAccountsHook_confined.answers db
  | grantAccess context grantee level draw => exact holds_answers_none grantAccess_confined
  | allow context account inquiry storedAt => exact holds_answers_none allow_confined
  | disallow context account inquiry storedAt => exact holds_answers_none disallow_confined

end Confinement

-- -----------------------------------------------------------------------------
-- Refusals
-- -----------------------------------------------------------------------------

/-- Actions a manage grant allows and a view grant does not. -/
def Action.changesHooks : Action → Bool
  | .createHook | .updateHook | .setHookEnabled | .deleteHook | .restoreHook | .rotateSecret
  | .rotateEndpoint => true
  | _ => false

def Action.ownerOnly : Action → Bool
  | .connectAccountsHook | .manageAccess | .manageAllowList => true
  | _ => false

section Refusals

open Program HookApplication

variable {context : AuthorizationContext} {action : Action} {app : HookApplication}
  {database : Database}

theorem authorizeAction_forbidden (h : authorize context action ≠ .allowed) :
    ∃ e, authorizeAction context action = .error e := by
  unfold authorizeAction
  cases ha : authorize context action with
  | allowed => exact absurd ha h
  | forbidden reason => exact ⟨_, rfl⟩

theorem viewer_forbidden (h : context.access = .grant .view)
    (ha : action.changesHooks = true ∨ action.ownerOnly = true) :
    ∃ e, authorizeAction context action = .error e := by
  refine authorizeAction_forbidden fun hallowed => ?_
  cases action <;>
    simp [authorize, h, Access.isFull, Action.changesHooks, Action.ownerOnly] at ha hallowed

theorem grantee_forbidden (h : context.access = .grant level) (ha : action.ownerOnly = true) :
    ∃ e, authorizeAction context action = .error e := by
  refine authorizeAction_forbidden fun hallowed => ?_
  cases action <;> simp [authorize, h, Access.isFull, Action.ownerOnly] at ha hallowed

/-- A call that begins with an action its context does not cover. -/
theorem refuses_authorized {f : Unit → Program σ ApplicationError α}
    (h : ∃ e, authorizeAction context action = .error e) :
    ((liftM (authorizeAction context action) : Program σ ApplicationError Unit) >>= f).Refuses s := by
  obtain ⟨e, he⟩ := h
  exact (Refuses.lift he).bind

/-- A call that goes on after a decision or a read that leaves the state. -/
theorem refuses_lift {r : Except ApplicationError α} {f : α → Program σ ApplicationError β}
    (h : ∀ a, r = .ok a → (f a).Refuses s) :
    ((liftM r : Program σ ApplicationError α) >>= f).Refuses s := by
  refine Refuses.after (fun a ha => h a ?_) rfl
  cases ha
  rfl

theorem refuses_query {g : Store → Except ApplicationError α} {f : α → UseCase β}
    (h : ∀ a, g database.db = .ok a → (f a).Refuses database) :
    (query g >>= f).Refuses database := by
  refine Refuses.after (fun a ha => h a ?_) rfl
  exact congrArg Prod.fst ha

theorem loadForMutation_refused {hookId : HookId} {db : Store}
    (h : ∃ e, authorizeAction context action = .error e) :
    ∀ hook, loadForMutation context hookId action db ≠ .ok hook := by
  intro hook hload
  simp only [loadForMutation, Except.bind_ok] at hload
  obtain ⟨-, -, _, -, ⟨⟩, hok, -⟩ := hload
  obtain ⟨e, he⟩ := h
  rw [he] at hok
  cases hok

theorem prepareUpdate_refused {command : UpdateHookCommand} {existing : Hook}
    (h : command.authorization.access = .grant .view)
    (hsets : ¬ (command.patch.enabled.isNone && !command.patch.changesMetadata) = true) :
    ∀ changes, app.prepareUpdate command nonce existing ≠ .ok changes := by
  intro changes hprepared
  simp only [prepareUpdate, Except.bind_ok] at hprepared
  obtain ⟨⟨⟩, -, input, -, ⟨⟩, henabled, ⟨⟩, hmetadata, -⟩ := hprepared
  have hnot : ∀ action : Action, action.changesHooks = true →
      authorizeAction command.authorization action ≠ .ok () := by
    intro action ha hok
    obtain ⟨e, he⟩ := viewer_forbidden h (.inl ha)
    rw [he] at hok
    cases hok
  cases hpe : command.patch.enabled with
  | some enabled =>
    simp only [authorizeWhere, hpe, Option.isSome_some, if_true] at henabled
    exact hnot .setHookEnabled rfl henabled
  | none =>
    cases hpm : command.patch.changesMetadata with
    | true =>
      simp only [authorizeWhere, hpm, if_true] at hmetadata
      exact hnot .updateHook rfl hmetadata
    | false => simp [hpe, hpm] at hsets

theorem UseCase.refused_run {m : UseCase α} (h : m.Refuses s.database) :
    (SharingCase.ofUseCase m).Refuses s := by
  obtain ⟨e, he⟩ := h
  refine ⟨e, ?_⟩
  rw [SharingCase.ofUseCase, he]

theorem ControlCall.owner_refused {digests : RequestHash} {call : ControlCall}
    (howner : call.ownerOnly = true) (h : call.context.access = .grant level) :
    (call.run app digests).Refuses s := by
  cases call with
  | prepareAccountsHook context now entropy draws =>
    exact UseCase.refused_run (refuses_authorized (grantee_forbidden h rfl)).bind
  | grantAccess context grantee level draw =>
    exact (refuses_authorized (grantee_forbidden h rfl)).bind
  | allow context account inquiry storedAt =>
    exact (refuses_authorized (grantee_forbidden h rfl)).bind
  | disallow context account inquiry storedAt =>
    exact (refuses_authorized (grantee_forbidden h rfl)).bind
  | _ => cases howner

theorem ControlCall.viewer_refused {digests : RequestHash} {call : ControlCall}
    (hsets : call.asksNothing = false) (h : call.context.access = .grant .view) :
    (call.run app digests).Refuses s := by
  cases call with
  | createHook command now entropy draws =>
    exact UseCase.refused_run (refuses_authorized (viewer_forbidden h (.inl rfl))).bind
  | updateHook command nonce activatedAt updatedAt =>
    refine UseCase.refused_run (Refuses.bind (refuses_lift fun _ _ => refuses_query fun existing _ =>
      refuses_lift fun changes hc => ?_))
    exact absurd hc (prepareUpdate_refused h (by simpa [asksNothing] using hsets) changes)
  | deleteHook command now =>
    exact UseCase.refused_run (Refuses.bind (refuses_lift fun _ _ => refuses_query fun hook _ =>
      refuses_authorized (viewer_forbidden h (.inl rfl))))
  | restoreHook command now =>
    refine UseCase.refused_run (Refuses.bind (refuses_query fun hook hc => ?_))
    exact absurd hc (loadForMutation_refused (viewer_forbidden h (.inl rfl)) hook)
  | setHooksEnabled command now =>
    exact UseCase.refused_run (refuses_lift fun _ _ =>
      refuses_authorized (viewer_forbidden h (.inl rfl)))
  | rotateHookSecret command entropy nonce now =>
    refine UseCase.refused_run (Refuses.bind (refuses_query fun hook hc => ?_))
    exact absurd hc (loadForMutation_refused (viewer_forbidden h (.inl rfl)) hook)
  | rotateHookEndpoint command now draws =>
    refine UseCase.refused_run (Refuses.bind (refuses_query fun hook hc => ?_))
    exact absurd hc (loadForMutation_refused (viewer_forbidden h (.inl rfl)) hook)
  | prepareAccountsHook context now entropy draws => exact owner_refused rfl h
  | grantAccess context grantee level draw => exact owner_refused rfl h
  | allow context account inquiry storedAt => exact owner_refused rfl h
  | disallow context account inquiry storedAt => exact owner_refused rfl h

theorem ControlCall.nothing_asked {digests : RequestHash} {call : ControlCall}
    (h : call.asksNothing = true) : (call.run app digests).exec s = s := by
  cases call with
  | updateHook command nonce activatedAt updatedAt =>
    obtain ⟨henabled, hmetadata⟩ : command.patch.enabled = none ∧
        command.patch.changesMetadata = false := by simpa [asksNothing] using h
    have hkeep : (app.update command nonce activatedAt updatedAt).exec s.database = s.database := by
      refine exec_lift_bind (I := (· = s.database)) rfl fun _ _ => ?_
      refine exec_query_bind (I := (· = s.database)) rfl fun existing _ => ?_
      refine exec_lift_bind (I := (· = s.database)) rfl fun changes _ => ?_
      rw [activatePatched, henabled]
      refine exec_bind (I := (· = s.database)) (fun _ _ => rfl) fun current _ => ?_
      rw [if_pos (by rw [hmetadata]; rfl)]
      rfl
    have hrun : ((do return [← app.update command nonce activatedAt updatedAt] :
        UseCase (List Hook)).exec s.database) = s.database :=
      exec_bind (I := (· = s.database)) (fun _ _ => hkeep) fun _ _ => hkeep
    show ({ s with database := _ } : SharingState) = s
    exact congrArg (fun database => ({ s with database } : SharingState)) hrun
  | _ => cases h

theorem SharingState.OnlyAccounts.durable (s : SharingState) :
    SharingCase.Durable s.OnlyAccounts := fun _ _ h h' => h.trans h'

open SharingCase in
theorem revokeAccess_refused {draw : RevokeDraw} {actor : Actor} {segment grantee : String}
    {s named : SharingState}
    (hnamed : authorizeSilicon draw.silicon draw.custody actor segment s = (.ok context, named))
    (h : context.access = .grant level)
    (hother : ∀ resolved, revokedAccount draw.grantee actor grantee named ≠
      (.ok actor.uuid, resolved)) :
    ∃ e left, revokeAccess draw actor segment grantee s = (.error e, left) ∧
      s.OnlyAccounts left := by
  have hauthorized : Holds s.OnlyAccounts
      (authorizeSilicon draw.silicon draw.custody actor segment) fun _ => True :=
    holds_authorizeSilicon (SharingState.OnlyAccounts.durable s)
  have honly := (hauthorized s (.refl s)).1
  rw [Program.exec, hnamed] at honly
  have hresolving : Holds s.OnlyAccounts (revokedAccount draw.grantee actor grantee) fun _ => True :=
    holds_revokedAccount (SharingState.OnlyAccounts.durable s)
  have hresolved := (hresolving named honly).1
  rcases hrevoked : revokedAccount draw.grantee actor grantee named with ⟨answer, left⟩
  rw [Program.exec, hrevoked] at hresolved
  cases answer with
  | error e => exact ⟨e, left, (bind_answers hnamed).trans (bind_fails hrevoked), hresolved⟩
  | ok uuid =>
    have hne : uuid ≠ actor.uuid := by
      rintro rfl
      exact hother left hrevoked
    obtain ⟨e, he⟩ : ∃ e, authorizeWhere (uuid ≠ actor.uuid) context .manageAccess = .error e := by
      obtain ⟨e, he⟩ := grantee_forbidden h (show Action.manageAccess.ownerOnly = true from rfl)
      exact ⟨e, by rw [authorizeWhere, if_pos (by simpa using hne), he]⟩
    have hforbidden : (liftM (authorizeWhere (uuid ≠ actor.uuid) context .manageAccess) :
        SharingCase Unit) left = (.error e, left) := congrArg (·, left) he
    exact ⟨e, left, (bind_answers hnamed).trans ((bind_answers hrevoked).trans
      (bind_fails hforbidden)), hresolved⟩

end Refusals

/-- A viewer changes nothing and is refused, but for an update that sets no
field; a grant of either level is not enough for the calls of the Silicon and
its custodian, nor for removing another account's grant; and no call touches or
answers with another Silicon's hook. -/
theorem access_levels_enforced (app : HookApplication) (digests : RequestHash)
    (state : SharingState) :
    (∀ call : ControlCall, call.context.access = .grant .view →
      (call.run app digests).exec state = state ∧
        (call.asksNothing = false → (call.run app digests).Refuses state)) ∧
    (∀ call : ControlCall, call.ownerOnly = true → ∀ level,
      call.context.access = .grant level → (call.run app digests).Refuses state) ∧
    (∀ draw actor segment grantee context named level,
      SharingCase.authorizeSilicon draw.silicon draw.custody actor segment state =
        (.ok context, named) → context.access = .grant level →
      (∀ resolved, SharingCase.revokedAccount draw.grantee actor grantee named ≠
        (.ok actor.uuid, resolved)) →
      ∃ e left, SharingCase.revokeAccess draw actor segment grantee state = (.error e, left) ∧
        state.OnlyAccounts left) ∧
    (∀ call : ControlCall,
      state.database.db.Confined call.silicon ((call.run app digests).exec state).database.db ∧
        ∀ hooks, ((call.run app digests) state).1 = .ok hooks → OwnedBy call.silicon hooks) ∧
    ∀ draw actor segment grantee silicon, state.database.db.Confined silicon
      ((SharingCase.revokeAccess draw actor segment grantee).exec state).database.db := by
  refine ⟨fun call h => ⟨?_, fun hsets => call.viewer_refused hsets h⟩,
    fun call howner level h => call.owner_refused howner h,
    fun draw actor segment grantee context named level hnamed h hother =>
      revokeAccess_refused hnamed h hother,
    fun call => call.confined app digests state.database.db state .refl,
    fun draw actor segment grantee silicon =>
      (revokeAccess_confined state
        (Store.Confined.refl : state.database.db.Confined silicon state.database.db)).1⟩
  cases hsets : call.asksNothing with
  | true => exact call.nothing_asked hsets
  | false =>
    have hrefuses : (call.run app digests).Refuses state := call.viewer_refused hsets h
    obtain ⟨e, he⟩ := hrefuses
    exact congrArg Prod.snd he

namespace EmptyUpdate

def viewer : AuthorizationContext :=
  ⟨⟨⟨"CaViewer", by decide⟩, .carbon, none⟩, ⟨StaleUpdate.silicon, none⟩, .grant .view⟩

def call : ControlCall :=
  .updateHook ⟨viewer, StaleUpdate.hookId, ⟨none, none, none, none, none⟩⟩ [] 1 1

def digests : RequestHash := ⟨id, fun _ => [], fun _ => []⟩

def state : SharingState := ⟨⟨StaleUpdate.database, []⟩, .empty 0⟩

/-- A viewer's update that sets no field answers with the hook. -/
theorem empty_update_answered :
    ¬ ∀ (app : HookApplication) (digests : RequestHash) (call : ControlCall)
      (state : SharingState), call.context.access = .grant .view →
        (call.run app digests).Refuses state := by
  intro h
  obtain ⟨e, he⟩ := h StaleUpdate.application digests call state rfl
  have hanswered : ((call.run StaleUpdate.application digests) state).1.toOption.isSome = true := by
    decide +kernel
  rw [he] at hanswered
  cases hanswered

end EmptyUpdate

end SiliconHook
