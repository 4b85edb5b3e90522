import SiliconHook.Library.Transition
import SiliconHook.Store.Lifecycle

/-!
# Endpoint keys

A key is live for one hook at most, a retired key for none ever again, and the
public routing answers with the hook whose key it was given.
-/

namespace SiliconHook

/-- A store call on hooks, a purge, or a change that touches neither hooks nor
retired keys. -/
inductive KeyLabel
  | created (command : CreateHook)
  | rotated (command : RotateEndpoint)
  | deleted (command : HookMutation)
  | restored (command : RestoreHook)
  | activated (command : BatchHookActivation)
  | purged (batchSize : Nat) (clock : Instant)
  | elsewhere (other : Store)

def keyStep (db : Store) : KeyLabel → Store
  | .created command => commit db (createHookRow command db)
  | .rotated command => commit db (rotateHookEndpointRow command db)
  | .deleted command => commit db (deleteHookRow command db)
  | .restored command => commit db (restoreHookRow command db)
  | .activated command => commit db (setHooksEnabled command db)
  | .purged batchSize clock => purgeExpiredHooks batchSize clock db
  | .elsewhere other =>
    { other with hooks := db.hooks, retiredEndpointKeys := db.retiredEndpointKeys }

def Store.Routes (db : Store) (segment : String) (key : EndpointKey) (row : HookRow) : Prop :=
  row ∈ db.hooks.rows ∧ row.endpointKey = key ∧
    db.namesOwner segment row.siliconId row.siliconUuid = true

/-- Live keys are distinct, none of them is retired, and the routing answers
with the one enabled hook the key and the segment name. -/
structure KeysRoute (db : Store) : Prop where
  live : (db.hooks.rows.map HookRow.endpointKey).Nodup
  retired : ∀ row ∈ db.hooks.rows, db.retiredEndpointKeys.find row.endpointKey = none
  active : ∀ segment key clock hook t,
    resolveEndpoint segment key clock db = .ok (.active hook t) →
      t = clock ∧ hook.isEnabled = true ∧ db.retiredEndpointKeys.find key = none ∧
        ∃ row, db.Routes segment key row ∧ hook.snapshot = row.snapshot ∧
          ∀ other ∈ db.hooks.rows, other.endpointKey = key → other = row

structure KeysDistinct (db : Store) : Prop where
  live : ∀ row ∈ db.hooks.rows, ∀ other ∈ db.hooks.rows,
    row.endpointKey = other.endpointKey → row = other
  retired : ∀ row ∈ db.hooks.rows, db.retiredEndpointKeys.find row.endpointKey = none

namespace KeysDistinct

variable {db db' : Store}

theorem of_rows (h : KeysDistinct db)
    (hrows : ∀ row ∈ db'.hooks.rows, ∃ old ∈ db.hooks.rows,
      row.endpointKey = old.endpointKey ∧ row.id = old.id)
    (hretired : db'.retiredEndpointKeys = db.retiredEndpointKeys) : KeysDistinct db' := by
  constructor
  · intro row hm other hm' hk
    obtain ⟨old, hold, he, hid⟩ := hrows row hm
    obtain ⟨old', hold', he', hid'⟩ := hrows other hm'
    have hsame : old = old' := h.live old hold old' hold' (he.symm.trans (hk.trans he'))
    exact Table.eq_of_key hm hm' (hid.trans (hsame ▸ hid'.symm))
  · intro row hm
    obtain ⟨old, hold, he, -⟩ := hrows row hm
    rw [hretired, he]
    exact h.retired old hold

theorem of_update (h : KeysDistinct db) {f : HookRow → HookRow} {p : HookRow → Bool}
    (hf : ∀ row, Keyed.key (f row) = Keyed.key row)
    (hk : ∀ row, (f row).endpointKey = row.endpointKey)
    (hhooks : db'.hooks = db.hooks.update p f hf)
    (hretired : db'.retiredEndpointKeys = db.retiredEndpointKeys) : KeysDistinct db' := by
  refine h.of_rows (fun row hm => ?_) hretired
  rw [hhooks] at hm
  obtain ⟨old, hold, rfl⟩ := (Table.mem_update hf).mp hm
  refine ⟨old, hold, ?_⟩
  split
  · exact ⟨hk old, hf old⟩
  · exact ⟨rfl, rfl⟩

theorem of_same (h : KeysDistinct db) (hhooks : db'.hooks = db.hooks)
    (hretired : db'.retiredEndpointKeys = db.retiredEndpointKeys) : KeysDistinct db' :=
  h.of_rows (fun row hm => ⟨row, hhooks ▸ hm, rfl, rfl⟩) hretired

theorem created {command : CreateHook} (h : KeysDistinct db)
    (hc : createHookRow command db = .ok (outcome, db')) : KeysDistinct db' := by
  obtain ⟨-, siliconUuid, -, ⟨response, keys, hook, -, -, -, -, -, rfl⟩ |
    ⟨keys, keys', hooks, -, hunused, hins, -, -, rfl⟩⟩ := createHookRow_ok hc
  · exact h.of_same rfl rfl
  · obtain ⟨hfresh, hfree⟩ := ensureEndpointKeyUnused_ok.mp hunused
    constructor
    · intro row hm other hm' hk
      obtain hm | rfl := (Table.mem_insert hins).mp hm
      · obtain hm' | rfl := (Table.mem_insert hins).mp hm'
        · exact h.live row hm other hm' hk
        · exact absurd hk (hfree row hm)
      · obtain hm' | rfl := (Table.mem_insert hins).mp hm'
        · exact absurd hk.symm (hfree other hm')
        · rfl
    · intro row hm
      obtain hm | rfl := (Table.mem_insert hins).mp hm
      · exact h.retired row hm
      · exact hfresh

theorem rotated {command : RotateEndpoint} (h : KeysDistinct db)
    (hc : rotateHookEndpointRow command db = .ok (outcome, db')) : KeysDistinct db' := by
  obtain ⟨-, ⟨response, keys, hook, -, -, -, -, rfl⟩ |
    ⟨keys, keys', row, retiredKeys, rotated, -, hr, hd, hunused, -, hins, -, -, rfl⟩⟩ :=
      rotateHookEndpointRow_ok hc
  · exact h.of_same rfl rfl
  · obtain ⟨hfresh, hfree⟩ := ensureEndpointKeyUnused_ok.mp hunused
    obtain ⟨hfind, -⟩ := Store.scopedHook_some.mp hr
    obtain ⟨hrow, hid⟩ := Table.find_some.mp hfind
    have hstored : ∀ stored, stored ∈ db.hooks.rows → liveHook command.hookId stored = true →
        stored = row := by
      intro stored hm hl
      simp only [liveHook, Bool.and_eq_true, decide_eq_true_eq] at hl
      exact Table.eq_of_key hm hrow (hl.1.trans hid.symm)
    have hrows {stored : HookRow} := Table.mem_update (t := db.hooks) (r := stored)
      (p := liveHook command.hookId)
      (HookRow.withEndpoint_id command.replacement command.occurredAt)
    constructor
    · intro first hm second hm' hk
      obtain ⟨old, hold, rfl⟩ := hrows.mp hm
      obtain ⟨old', hold', rfl⟩ := hrows.mp hm'
      split at hk <;> split at hk
      · rename_i hl hl'
        rw [hstored old hold hl, hstored old' hold' hl']
      · exact absurd hk.symm (hfree old' hold')
      · exact absurd hk (hfree old hold)
      · rename_i hl hl'
        rw [if_neg hl, if_neg hl']
        exact h.live old hold old' hold' hk
    · intro stored hm
      obtain ⟨old, hold, rfl⟩ := hrows.mp hm
      show retiredKeys.find _ = none
      rw [Table.find_insert hins]
      split
      · rename_i hl
        obtain rfl := hstored old hold hl
        rw [if_neg fun he => hfree old hold he.symm]
        exact hfresh
      · rename_i hl
        rw [if_neg, h.retired old hold]
        intro he
        obtain rfl := h.live old hold row hrow he
        exact hl (by simp [liveHook, hd, show old.id = command.hookId from hid])

theorem step (h : KeysDistinct db) (label : KeyLabel) : KeysDistinct (keyStep db label) := by
  cases label with
  | created command => exact commit_keeps h fun _ _ hc => h.created hc
  | rotated command => exact commit_keeps h fun _ _ hc => h.rotated hc
  | deleted command =>
    refine commit_keeps h fun _ _ hc => ?_
    obtain ⟨_, -, -, -, rfl⟩ := deleteHookRow_ok hc
    exact h.of_update (HookRow.delete_id command.occurredAt) (fun _ => rfl) rfl rfl
  | restored command =>
    refine commit_keeps h fun _ _ hc => ?_
    obtain ⟨-, ⟨_, _, _, -, -, -, -, rfl⟩ | ⟨_, _, _, _, -, -, -, -, -, -, rfl⟩⟩ :=
      restoreHookRow_ok hc
    · exact h.of_same rfl rfl
    · exact h.of_update HookRow.restore_id (fun _ => rfl) rfl rfl
  | activated command =>
    refine commit_keeps h fun _ _ hc => ?_
    obtain ⟨_, -, rfl⟩ := setHooksEnabled_ok hc
    exact h.of_update command.activate_key (fun _ => rfl) rfl rfl
  | purged batchSize clock =>
    exact h.of_rows (fun row hm => ⟨row, (Table.mem_delete.mp hm).1, rfl, rfl⟩) rfl
  | elsewhere other => exact h.of_same rfl rfl

theorem routes (h : KeysDistinct db) : KeysRoute db where
  live := db.hooks.nodup_rows.map_on fun row hm other hm' hk => h.live row hm other hm' hk
  retired := h.retired
  active := by
    intro segment key clock hook t hres
    obtain ⟨rfl, henabled, row, hm, rfl, hs, hnames⟩ := resolveEndpoint_active hres
    exact ⟨rfl, henabled, h.retired row hm, row, ⟨hm, rfl, hnames⟩, hs,
      fun other hm' hk => h.live other hm' row hm hk⟩

end KeysDistinct

-- -----------------------------------------------------------------------------
-- Retired keys
-- -----------------------------------------------------------------------------

def KeyRetired (key : EndpointKey) (db : Store) : Prop := db.retiredEndpointKeys.find key ≠ none

theorem KeyRetired.step (h : KeyRetired key db) (label : KeyLabel) :
    KeyRetired key (keyStep db label) := by
  cases label with
  | created command =>
    refine commit_keeps h fun _ _ hc => ?_
    obtain ⟨-, _, -, ⟨_, _, _, -, -, -, -, -, rfl⟩ | ⟨_, _, _, -, -, -, -, -, rfl⟩⟩ :=
      createHookRow_ok hc <;> exact h
  | rotated command =>
    refine commit_keeps h fun _ _ hc => ?_
    obtain ⟨-, ⟨_, _, _, -, -, -, -, rfl⟩ |
      ⟨_, _, _, retiredKeys, _, -, -, -, -, -, hins, -, -, rfl⟩⟩ := rotateHookEndpointRow_ok hc
    · exact h
    · show retiredKeys.find key ≠ none
      rw [Table.find_insert hins]
      split
      · exact Option.some_ne_none _
      · exact h
  | deleted command =>
    refine commit_keeps h fun _ _ hc => ?_
    obtain ⟨_, -, -, -, rfl⟩ := deleteHookRow_ok hc
    exact h
  | restored command =>
    refine commit_keeps h fun _ _ hc => ?_
    obtain ⟨-, ⟨_, _, _, -, -, -, -, rfl⟩ | ⟨_, _, _, _, -, -, -, -, -, -, rfl⟩⟩ :=
      restoreHookRow_ok hc <;> exact h
  | activated command =>
    refine commit_keeps h fun _ _ hc => ?_
    obtain ⟨_, -, rfl⟩ := setHooksEnabled_ok hc
    exact h
  | purged batchSize clock => exact h
  | elsewhere other => exact h

theorem rotated_retires {db db' : Store} {command : RotateEndpoint} {rotated : Hook}
    (h : rotateHookEndpointRow command db = .ok (.rotated rotated, db'))
    (hrow : db.hooks.find command.hookId = some row) :
    KeyRetired row.endpointKey db' := by
  obtain ⟨-, ⟨_, _, _, -, -, -, ho, -⟩ |
    ⟨_, _, row', retiredKeys, _, -, hr, -, -, -, hins, -, -, rfl⟩⟩ := rotateHookEndpointRow_ok h
  · cases ho
  · cases hrow.symm.trans (Store.scopedHook_some.mp hr).1
    show retiredKeys.find row.endpointKey ≠ none
    rw [Table.find_insert hins, if_pos (by rfl)]
    exact Option.some_ne_none _

theorem KeysDistinct.run (labels : List KeyLabel) :
    KeysDistinct (run keyStep .empty labels) := by
  have hempty : KeysDistinct .empty :=
    ⟨fun _ hm => (nomatch hm), fun _ hm => (nomatch hm)⟩
  exact run_invariant (P := fun _ _ => True) (fun _ label h _ => h.step label) hempty along_true

/-- In every run the keys route, and the key a rotation took from a hook is no
hook's in any state after it. -/
theorem endpoint_keys_route (labels : List KeyLabel) :
    KeysRoute (run keyStep .empty labels) ∧
      ∀ before command after rotated db' row, labels = before ++ .rotated command :: after →
        rotateHookEndpointRow command (run keyStep .empty before) = .ok (.rotated rotated, db') →
        (run keyStep .empty before).hooks.find command.hookId = some row →
          ∀ other ∈ (run keyStep .empty labels).hooks.rows, other.endpointKey ≠ row.endpointKey := by
  refine ⟨(KeysDistinct.run labels).routes, ?_⟩
  rintro before command after rotated db' row rfl hrot hrow other hm he
  have hstep : keyStep (run keyStep .empty before) (.rotated command) = db' := by
    rw [keyStep, hrot]
    rfl
  have hretired : KeyRetired row.endpointKey
      (run keyStep .empty (before ++ .rotated command :: after)) := by
    rw [run_append, run_cons, hstep]
    exact run_invariant (P := fun _ _ => True) (fun _ label h _ => h.step label)
      (rotated_retires hrot hrow) along_true
  rw [← he] at hretired
  exact hretired ((KeysDistinct.run _).retired other hm)

end SiliconHook
