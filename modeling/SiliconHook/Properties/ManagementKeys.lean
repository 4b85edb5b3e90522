import SiliconHook.Library.Transition
import SiliconHook.Store.Maintenance

/-!
# Management keys

A keyed management call performs its mutation once, whatever its retries meet,
and a replay shows a secret only while the hook still stores it and its replay
window is open.
-/

namespace SiliconHook

-- -----------------------------------------------------------------------------
-- Calls
-- -----------------------------------------------------------------------------

inductive ManagementCall
  | create (command : CreateHook)
  | restore (command : RestoreHook)
  | rotateSecret (command : RotateSecret)
  | rotateEndpoint (command : RotateEndpoint)

inductive ManagementAnswer
  | performed (hook : Hook)
  | replayed (hook : Hook) (response : PersistedResponse)

def CreateHookOutcome.answer : CreateHookOutcome → ManagementAnswer
  | .created hook => .performed hook
  | .replayed hook response => .replayed hook response

def RestoreHookOutcome.answer : RestoreHookOutcome → ManagementAnswer
  | .restored hook => .performed hook
  | .replayed hook response => .replayed hook response

def RotateSecretOutcome.answer : RotateSecretOutcome → ManagementAnswer
  | .rotated hook => .performed hook
  | .replayed hook response => .replayed hook response

def RotateEndpointOutcome.answer : RotateEndpointOutcome → ManagementAnswer
  | .rotated hook => .performed hook
  | .replayed hook response => .replayed hook response

namespace ManagementCall

def scope : ManagementCall → IdempotencyScope
  | .create command => command.idempotency
  | .restore command => command.idempotency
  | .rotateSecret command => command.idempotency
  | .rotateEndpoint command => command.idempotency

def key (call : ManagementCall) : ManagementKey := call.scope.managementKey

def time : ManagementCall → Instant
  | .create command => command.recordedAt
  | .restore command => command.occurredAt
  | .rotateSecret command => command.occurredAt
  | .rotateEndpoint command => command.occurredAt

def response : ManagementCall → PersistedResponse
  | .create command => command.response
  | .restore command => command.response
  | .rotateSecret command => command.response
  | .rotateEndpoint command => command.response

def validate : ManagementCall → Except StoreError Unit
  | .create command => do
    validateCreateCommand command
    ensure command.hook.siliconUuid.isSome (.invalidArgument "hook.silicon_uuid"
      "new hooks belong to a Silicon Accounts account")
  | .restore command => validateRestoreCommand command
  | .rotateSecret command => validateRotateCommand command
  | .rotateEndpoint command => validateEndpointRotationCommand command

def run (call : ManagementCall) (db : Store) : Except StoreError (ManagementAnswer × Store) :=
  match call with
  | .create command => (fun (outcome, db) => (outcome.answer, db)) <$> createHookRow command db
  | .restore command => (fun (outcome, db) => (outcome.answer, db)) <$> restoreHookRow command db
  | .rotateSecret command =>
    (fun (outcome, db) => (outcome.answer, db)) <$> rotateHookSecretRow command db
  | .rotateEndpoint command =>
    (fun (outcome, db) => (outcome.answer, db)) <$> rotateHookEndpointRow command db

/-- The secret the mutation gives its hook. -/
def issues : ManagementCall → Option EncryptedSecret
  | .create command => command.hook.signing.encryptedSecret
  | .rotateSecret command => some command.encryptedSecret
  | .restore _ | .rotateEndpoint _ => none

/-- The secret a replay shows its caller; a restoration and an endpoint rotation
show the hook alone. -/
def discloses (call : ManagementCall) (response : PersistedResponse) : Option EncryptedSecret :=
  match call with
  | .create _ | .rotateSecret _ => response.encryptedSecret
  | .restore _ | .rotateEndpoint _ => none

def finished (call : ManagementCall) : IdempotencyRow := call.scope.finished call.time call.response

variable {call : ManagementCall} {db db' : Store}

theorem issues_of_validate (h : call.validate = .ok ()) :
    call.response.encryptedSecret = call.issues ∧
      ∀ secret, call.issues = some secret →
        call.response.secretReplayUntil = some (call.time + secretReplayWindow) := by
  cases call with
  | create command =>
    simp only [validate, validateCreateCommand, Except.bind_ok, ensure_ok] at h
    obtain ⟨-, ⟨-, -, -, -, -, -, -, hsame, hdeadline⟩, -⟩ := h
    refine ⟨hsame, fun secret hs => ?_⟩
    have hsome : command.response.encryptedSecret.isSome = true := by
      rw [hsame]
      exact Option.isSome_iff_exists.mpr ⟨secret, hs⟩
    rw [hsome] at hdeadline
    exact of_decide_eq_true hdeadline.symm
  | restore command =>
    simp only [validate, validateRestoreCommand, Except.bind_ok, ensure_ok] at h
    obtain ⟨-, -, hnone, -⟩ := h
    exact ⟨hnone, fun _ hs => by cases hs⟩
  | rotateSecret command =>
    simp only [validate, validateRotateCommand, Except.bind_ok, ensure_ok] at h
    obtain ⟨-, -, hsecret, huntil⟩ := h
    exact ⟨hsecret, fun _ _ => huntil⟩
  | rotateEndpoint command =>
    simp only [validate, validateEndpointRotationCommand, Except.bind_ok, ensure_ok] at h
    obtain ⟨-, -, hnone, -⟩ := h
    exact ⟨hnone, fun _ hs => by cases hs⟩

/-- A call that returned either reserved its key and finished it, or found the
key's response and a hook that still has the secret it would show. -/
theorem run_ok (h : call.run db = .ok (answer, db')) :
    call.validate = .ok () ∧
      ((∃ hook keys, answer = .performed hook ∧
        reserveManagementKey call.scope call.time db.managementIdempotency =
          .ok (.reserved, keys) ∧
        finishManagementKey call.scope call.response keys = .ok db'.managementIdempotency) ∨
      (∃ hook response keys u, answer = .replayed hook response ∧
        reserveManagementKey call.scope call.time db.managementIdempotency =
          .ok (.replayed response, keys) ∧
        db' = { db with managementIdempotency := keys } ∧
        selectReplayedScopedHook u response db = .ok hook ∧
        ∀ secret, call.discloses response = some secret →
          hook.signing.encryptedSecret = some secret)) := by
  cases call with
  | create command =>
    obtain ⟨⟨outcome, db''⟩, hc, he⟩ := Except.map_ok.mp h
    cases he
    obtain ⟨hv, u, hu, hc⟩ := createHookRow_ok hc
    refine ⟨?_, ?_⟩
    · simp [validate, Except.bind_ok, hv, hu]
    · rcases hc with ⟨response, keys, hook, hres, hsel, -, hsame, rfl, rfl⟩ |
        ⟨keys, keys', hooks, hres, -, -, hfin, rfl, rfl⟩
      · exact .inr ⟨hook, response, keys, u, rfl, hres, rfl, hsel, fun _ hs => hsame ▸ hs⟩
      · exact .inl ⟨command.hook, keys, rfl, hres, hfin⟩
  | restore command =>
    obtain ⟨⟨outcome, db''⟩, hc, he⟩ := Except.map_ok.mp h
    cases he
    obtain ⟨hv, hc⟩ := restoreHookRow_ok hc
    refine ⟨hv, ?_⟩
    rcases hc with ⟨response, keys, hook, hres, hsel, -, rfl, rfl⟩ |
      ⟨keys, keys', row, hook, hres, -, -, -, hfin, rfl, rfl⟩
    · exact .inr ⟨hook, response, keys, _, rfl, hres, rfl, hsel, fun _ hs => by cases hs⟩
    · exact .inl ⟨hook, keys, rfl, hres, hfin⟩
  | rotateSecret command =>
    obtain ⟨⟨outcome, db''⟩, hc, he⟩ := Except.map_ok.mp h
    cases he
    obtain ⟨hv, hc⟩ := rotateHookSecretRow_ok.mp hc
    refine ⟨hv, ?_⟩
    rcases hc with ⟨response, keys, hook, hres, hsel, -, hsame, rfl, rfl⟩ |
      ⟨keys, keys', row, hook, updated, hres, -, -, -, -, hfin, rfl, rfl⟩
    · exact .inr ⟨hook, response, keys, _, rfl, hres, rfl, hsel, fun _ hs => hsame ▸ hs⟩
    · exact .inl ⟨updated, keys, rfl, hres, hfin⟩
  | rotateEndpoint command =>
    obtain ⟨⟨outcome, db''⟩, hc, he⟩ := Except.map_ok.mp h
    cases he
    obtain ⟨hv, hc⟩ := rotateHookEndpointRow_ok hc
    refine ⟨hv, ?_⟩
    rcases hc with ⟨response, keys, hook, hres, hsel, -, rfl, rfl⟩ |
      ⟨keys, keys', row, retired, hook, hres, -, -, -, -, -, hfin, rfl, rfl⟩
    · exact .inr ⟨hook, response, keys, _, rfl, hres, rfl, hsel, fun _ hs => by cases hs⟩
    · exact .inl ⟨hook, keys, rfl, hres, hfin⟩

theorem run_refused (hv : call.validate = .ok ())
    (h : reserveManagementKey call.scope call.time db.managementIdempotency = .error e) :
    call.run db = .error e := by
  cases call with
  | create command =>
    simp only [validate, Except.bind_ok, ensure_ok] at hv
    obtain ⟨⟨⟩, hv, hu⟩ := hv
    obtain ⟨u, hu⟩ := Option.isSome_iff_exists.mp hu
    change reserveManagementKey command.idempotency command.recordedAt _ = _ at h
    simp only [run, createHookRow, hv, hu, h, bind, Except.bind]
    rfl
  | restore command =>
    change reserveManagementKey command.idempotency command.occurredAt _ = _ at h
    change validateRestoreCommand command = _ at hv
    simp only [run, restoreHookRow, hv, h, bind, Except.bind]
    rfl
  | rotateSecret command =>
    change reserveManagementKey command.idempotency command.occurredAt _ = _ at h
    change validateRotateCommand command = _ at hv
    simp only [run, rotateHookSecretRow, hv, h, bind, Except.bind]
    rfl
  | rotateEndpoint command =>
    change reserveManagementKey command.idempotency command.occurredAt _ = _ at h
    change validateEndpointRotationCommand command = _ at hv
    simp only [run, rotateHookEndpointRow, hv, h, bind, Except.bind]
    rfl

end ManagementCall

-- -----------------------------------------------------------------------------
-- Runs
-- -----------------------------------------------------------------------------

structure Performed where
  call : ManagementCall
  committedAt : Instant

/-- The store, the clock, and every mutation performed so far. -/
structure KeyWorld where
  db : Store
  clock : Instant
  performed : List Performed

/-- A call commits, time passes, the retention pass removes expired keys, or
anything else happens to the other tables. -/
inductive ManagementLabel
  | called (call : ManagementCall)
  | ticked (elapsed : Nat)
  | purged (batchSize : Nat)
  | elsewhere (other : Store)

/-- A call commits with a clock reading it took earlier. -/
def managementStep (w : KeyWorld) : ManagementLabel → KeyWorld
  | .called call =>
    if w.clock < call.time then w
    else match call.run w.db with
      | .error _ => w
      | .ok (.performed _, db) => { w with db, performed := w.performed ++ [⟨call, w.clock⟩] }
      | .ok (.replayed .., db) => { w with db }
  | .ticked elapsed => { w with clock := w.clock + elapsed }
  | .purged batchSize => { w with db := purgeExpiredIdempotency batchSize w.clock w.db }
  | .elsewhere other =>
    { w with db := { other with managementIdempotency := w.db.managementIdempotency } }

/-- No key performs twice within its retention, another request under it is a
conflict, and what fails or replays leaves the store alone; a replayed secret is
stored now and was issued within the replay window. -/
structure AtMostOnce (w : KeyWorld) : Prop where
  once : w.performed.Pairwise fun first later => first.call.key = later.call.key →
    first.call.time + managementKeyRetention ≤ later.committedAt
  conflict : ∀ first ∈ w.performed, w.clock < first.call.time + managementKeyRetention →
    ∀ call : ManagementCall, call.key = first.call.key → call.time ≤ w.clock →
      call.validate = .ok () → call.scope.requestDigest ≠ first.call.scope.requestDigest →
        call.run w.db = .error .idempotencyConflict
  refused : ∀ (call : ManagementCall) e, call.run w.db = .error e →
    managementStep w (.called call) = w
  replayed : ∀ (call : ManagementCall) hook response db,
    call.run w.db = .ok (.replayed hook response, db) → db = w.db
  disclosed : ∀ (call : ManagementCall) hook response db secret,
    call.run w.db = .ok (.replayed hook response, db) → call.discloses response = some secret →
      (∃ row ∈ w.db.hooks.rows, row.id = hook.id ∧ row.signing.encryptedSecret = some secret) ∧
        ∃ issued ∈ w.performed, issued.call.key = call.key ∧
          issued.call.scope.requestDigest = call.scope.requestDigest ∧
          issued.call.issues = some secret ∧ call.time ≤ issued.call.time + secretReplayWindow

/-- Every row is that of a performed call, and a performed call's row stays until
it expires. -/
structure KeysHeld (w : KeyWorld) : Prop where
  rows : ∀ key row, w.db.managementIdempotency.find key = some row →
    ∃ first ∈ w.performed, first.call.key = key ∧ row = first.call.finished
  held : ∀ first ∈ w.performed, w.clock < first.call.time + managementKeyRetention →
    w.db.managementIdempotency.find first.call.key = some first.call.finished
  valid : ∀ first ∈ w.performed, first.call.validate = .ok ()
  once : w.performed.Pairwise fun first later => first.call.key = later.call.key →
    first.call.time + managementKeyRetention ≤ later.committedAt

namespace KeysHeld

variable {w : KeyWorld} {call : ManagementCall}

/-- A key that is reserved again has outlived every earlier mutation under it. -/
theorem expired (h : KeysHeld w) (hm : first ∈ w.performed) (hk : first.call.key = call.key)
    (ht : call.time ≤ w.clock)
    (hres : reserveManagementKey call.scope call.time w.db.managementIdempotency =
      .ok (.reserved, keys)) :
    first.call.time + managementKeyRetention ≤ w.clock := by
  by_contra hlive
  have hrow := h.held first hm (Int.not_le.mp hlive)
  rw [hk] at hrow
  have hexpired : first.call.time + managementKeyRetention ≤ call.time :=
    expired_of_reserved hres hrow
  exact hlive (Int.le_trans hexpired ht)

theorem performed (h : KeysHeld w) (ht : call.time ≤ w.clock) (hv : call.validate = .ok ())
    (hres : reserveManagementKey call.scope call.time w.db.managementIdempotency =
      .ok (.reserved, keys))
    (hfin : finishManagementKey call.scope call.response keys = .ok db.managementIdempotency) :
    KeysHeld { w with db := db, performed := w.performed ++ [⟨call, w.clock⟩] } := by
  have hfind {key : ManagementKey} := find_finished (k := key) hres hfin
  constructor
  · intro key row hr
    change db.managementIdempotency.find key = some row at hr
    rw [hfind] at hr
    split at hr
    · rename_i hk
      cases hr
      exact ⟨⟨call, w.clock⟩, List.mem_append_right _ (List.mem_singleton_self _), hk.symm, rfl⟩
    · obtain ⟨first, hm, hk, rfl⟩ := h.rows key row hr
      exact ⟨first, List.mem_append_left _ hm, hk, rfl⟩
  · intro first hm hlive
    change w.clock < _ at hlive
    change db.managementIdempotency.find _ = _
    rw [hfind]
    obtain hm | hm := List.mem_append.mp hm
    · rw [if_neg, h.held first hm hlive]
      intro hk
      exact Int.not_lt.mpr (h.expired hm hk ht hres) hlive
    · obtain rfl := List.mem_singleton.mp hm
      exact if_pos rfl
  · intro first hm
    obtain hm | hm := List.mem_append.mp hm
    · exact h.valid first hm
    · obtain rfl := List.mem_singleton.mp hm
      exact hv
  · refine List.pairwise_append.mpr ⟨h.once, List.pairwise_singleton .., ?_⟩
    intro first hm later hl hk
    obtain rfl := List.mem_singleton.mp hl
    exact h.expired hm hk ht hres

theorem step (h : KeysHeld w) (label : ManagementLabel) : KeysHeld (managementStep w label) := by
  cases label with
  | called call =>
    simp only [managementStep]
    split
    · exact h
    · rename_i ht
      split
      · exact h
      · rename_i hook db hrun
        obtain ⟨hv, ⟨_, keys, -, hres, hfin⟩ | ⟨_, _, _, _, hans, -⟩⟩ := ManagementCall.run_ok hrun
        · exact h.performed (Int.not_lt.mp ht) hv hres hfin
        · cases hans
      · rename_i hook response db hrun
        obtain ⟨-, ⟨_, _, hans, -⟩ | ⟨_, _, keys, _, -, hres, rfl, -⟩⟩ :=
          ManagementCall.run_ok hrun
        · cases hans
        · obtain ⟨rfl, -⟩ := reserveManagementKey_replayed hres
          exact h
  | ticked elapsed =>
    refine ⟨h.rows, fun first hm hlive => h.held first hm ?_, h.valid, h.once⟩
    change w.clock + elapsed < _ at hlive
    exact Int.lt_of_le_of_lt (Int.le_add_of_nonneg_right (Int.natCast_nonneg elapsed)) hlive
  | purged batchSize =>
    refine ⟨fun key row hr => h.rows key row ?_, fun first hm hlive => ?_, h.valid, h.once⟩
    · obtain hsame | ⟨hnone, -⟩ :=
        find_purgeExpiredIdempotency batchSize w.clock w.db key
      · exact hsame ▸ hr
      · cases hnone.symm.trans hr
    · have hrow := h.held first hm hlive
      obtain hsame | ⟨-, row, hrow', hexpired⟩ :=
        find_purgeExpiredIdempotency batchSize w.clock w.db first.call.key
      · exact hsame.trans hrow
      · cases hrow.symm.trans hrow'
        exact absurd hlive (Int.not_lt.mpr hexpired)
  | elsewhere other => exact ⟨h.rows, h.held, h.valid, h.once⟩

theorem atMostOnce (h : KeysHeld w) : AtMostOnce w where
  once := h.once
  conflict := by
    intro first hm hlive call hk ht hv hd
    have hrow := h.held first hm hlive
    rw [← hk] at hrow
    refine ManagementCall.run_refused hv (reserveManagementKey_conflict hrow ?_ (Ne.symm hd))
    exact Int.lt_of_le_of_lt ht hlive
  refused := by
    intro call e he
    simp only [managementStep, he]
    split <;> rfl
  replayed := by
    intro call hook response db hrun
    obtain ⟨-, ⟨_, _, hans, -⟩ | ⟨_, _, _, _, -, hres, rfl, -⟩⟩ := ManagementCall.run_ok hrun
    · cases hans
    · obtain ⟨rfl, -⟩ := reserveManagementKey_replayed hres
      rfl
  disclosed := by
    intro call hook response db secret hrun hdiscloses
    obtain ⟨-, ⟨_, _, hans, -⟩ | ⟨_, _, keys, u, hans, hres, -, hsel, hstored⟩⟩ :=
      ManagementCall.run_ok hrun
    · cases hans
    cases hans
    obtain ⟨-, row, hrow, hdigest, hresponse, huntil⟩ := reserveManagementKey_replayed hres
    obtain ⟨first, hm, hk, rfl⟩ := h.rows _ row hrow
    cases Option.some.inj hresponse
    obtain ⟨hissues, hwindow⟩ := ManagementCall.issues_of_validate (h.valid first hm)
    have hsecret : first.call.issues = some secret := by
      rw [← hissues, ← hdiscloses]
      cases call <;> first | rfl | cases hdiscloses
    refine ⟨?_, first, hm, hk, hdigest, hsecret, huntil _ (hwindow secret hsecret)⟩
    obtain ⟨hookId, -, stored, hfind, hsnap⟩ := selectReplayedScopedHook_ok.mp hsel
    obtain ⟨hstoredRow, -⟩ := Table.find_some.mp (Store.scopedHook_some.mp hfind).1
    have hsame := hstored secret hdiscloses
    rw [Hook.signing, hsnap] at hsame
    refine ⟨stored, hstoredRow, ?_, hsame⟩
    rw [Hook.id, hsnap]
    rfl

end KeysHeld

/-- In every state of every run the keys are used at most once. -/
theorem management_keys_at_most_once (clock : Instant) (labels : List ManagementLabel) :
    Always managementStep AtMostOnce ⟨.empty, clock, []⟩ labels := by
  have hempty : KeysHeld ⟨.empty, clock, []⟩ :=
    ⟨fun _ _ hr => (nomatch hr), fun _ hm => (nomatch hm), fun _ hm => (nomatch hm), .nil⟩
  exact always_of_invariant (P := fun _ _ => True) (fun _ label h _ => h.step label)
    (fun _ h => h.atMostOnce) hempty along_true

end SiliconHook
