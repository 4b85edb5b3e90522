import SiliconHook.Properties.IdentityLinks

/-!
# Retained hooks

A creation counts its Silicon's hooks under a lock no other writer takes, and at
a time read before. Restorations and link runs add hooks without counting.
-/

namespace SiliconHook

/-- The Silicon's hooks that are not deleted, or recoverable at the time. -/
def Store.retained (db : Store) (siliconUuid : AccountUuid) (t : Instant) : Nat :=
  (db.hooks.select (retainedHook siliconUuid t)).length

/-- A creation that has counted and holds the lock of its Silicon. -/
structure CountedCreation where
  command : CreateHook
  owner : AccountUuid
  owned : command.Owned owner
  /-- Hooks may have come to the Silicon by another way since. -/
  overtaken : Bool

structure HookListing where
  owner : AccountUuid
  includeDeleted : Bool
  retainedAt : Instant
  deriving DecidableEq

structure Retention where
  database : Database
  clock : Instant
  creations : List CountedCreation
  listings : List HookListing

inductive RetentionLabel
  | counted (command : CreateHook) (owner : AccountUuid) (owned : command.Owned owner)
  | inserted (owner : AccountUuid)
  | abandoned (owner : AccountUuid)
  | stored (label : StoredLabel)
  | listed (owner : AccountUuid) (includeDeleted : Bool)
  | answered (listing : HookListing)
  | ticked (now : Instant)

-- -----------------------------------------------------------------------------
-- Steps
-- -----------------------------------------------------------------------------

def StoredLabel.creates : StoredLabel → Bool
  | .created .. => true
  | _ => false

/-- The Silicons a transaction may give hooks without counting them. -/
def StoredLabel.gives : StoredLabel → AccountUuid → Bool
  | .restored command, owner => command.siliconUuid = owner
  | .linked _ _ dryRun _, _ => !dryRun
  | _, _ => false

def Database.insertCreation (command : CreateHook) : Database → Except StoreError (Unit × Database) :=
  audited (fun db => ((), ·) <$> SiliconHook.insertCreation command db) fun _ _ =>
    [hookAudit (if command.isAccountsDefault then .accountsConnected else .created) command.hook
      command.auditActor command.recordedAt]

namespace Retention

def creationOf (w : Retention) (owner : AccountUuid) : Option CountedCreation :=
  w.creations.find? fun creation => creation.owner = owner

def released (w : Retention) (owner : AccountUuid) : Retention :=
  { w with creations := w.creations.filter fun creation => creation.owner ≠ owner }

def step (w : Retention) : RetentionLabel → Retention
  | .counted command owner owned =>
    -- a creation waits for its Silicon's lock, and its time has been read
    if (w.creationOf owner).isSome || decide (w.clock < command.recordedAt) then w
    else match countCreation command owner w.database.db with
      | .ok .reserved => { w with creations := w.creations ++ [⟨command, owner, owned, false⟩] }
      | _ => w
  | .inserted owner =>
    match w.creationOf owner with
    | none => w
    | some creation =>
      { w with
        database := commit w.database (w.database.insertCreation creation.command)
      }.released owner
  | .abandoned owner => w.released owner
  | .stored label =>
    if label.creates then w
    else { w with
      database := storedStep w.database label
      creations := w.creations.map fun creation =>
        { creation with overtaken := creation.overtaken || label.gives creation.owner } }
  | .listed owner includeDeleted =>
    { w with listings := w.listings ++ [⟨owner, includeDeleted, w.clock⟩] }
  | .answered listing => { w with listings := w.listings.erase listing }
  | .ticked now => { w with clock := max w.clock now }

-- -----------------------------------------------------------------------------
-- The cap
-- -----------------------------------------------------------------------------

/-- No Silicon has more hooks than can be retained, and no listing under way
would read more. -/
structure CapHolds (w : Retention) : Prop where
  retained : ∀ owner, w.database.db.retained owner w.clock ≤ maxRetainedHooksPerSilicon
  listed : ∀ listing ∈ w.listings, listHooks listing.owner listing.includeDeleted
    listing.retainedAt w.database.db ≠ .error tooManyHooks

/-- The Silicon's deleted hooks are, or are about to be, looked at as of a time. -/
def Looks (w : Retention) (owner : AccountUuid) (t : Instant) : Prop :=
  t = w.clock ∨ ⟨owner, true, t⟩ ∈ w.listings

/-- Where hooks are added, the cap is met: by the count of a creation nothing
overtook, by the restored hook's own slot, or by what is there. -/
def Meets (w : Retention) : RetentionLabel → Prop
  | .inserted owner => ∀ creation, w.creationOf owner = some creation →
      ∀ db, insertCreation creation.command w.database.db = .ok db → ∀ t, w.Looks owner t →
        (creation.overtaken = false ∧ creation.command.recordedAt ≤ t) ∨
          w.database.db.retained owner t < maxRetainedHooksPerSilicon
  | .stored (.restored command) =>
    ∀ hook db, restoreHookRow command w.database.db = .ok (.restored hook, db) →
      ∀ t, w.Looks command.siliconUuid t →
        (∃ row, w.database.db.hooks.find command.hookId = some row ∧
          retainedHook command.siliconUuid t row = true) ∨
        w.database.db.retained command.siliconUuid t < maxRetainedHooksPerSilicon
  | .stored (.linked mapping _ false clock) =>
    ∀ made, applyMapping mapping clock w.database = .ok made → ∀ owner t, w.Looks owner t →
      (w.database.db.hooks.select fun row =>
        retainedHook owner t (mapping.linkedHook row)).length ≤ maxRetainedHooksPerSilicon
  | _ => True

end Retention

-- -----------------------------------------------------------------------------
-- Listings
-- -----------------------------------------------------------------------------

variable {db db' : Store} {owner : AccountUuid} {t : Instant}

theorem listHooks_tooMany {includeDeleted : Bool} :
    listHooks owner includeDeleted t db = .error tooManyHooks ↔
      maxRetainedHooksPerSilicon < (db.hooks.select (listedHook owner includeDeleted t)).length := by
  have hmin (n : Nat) : maxRetainedHooksPerSilicon < min (maxRetainedHooksPerSilicon + 1) n ↔
      maxRetainedHooksPerSilicon < n := by omega
  simp only [listHooks, List.length_take, List.length_insertionSort, hmin]
  constructor
  · intro h
    by_contra hle
    rw [if_neg hle] at h
    obtain ⟨row, -, hrow⟩ := Except.mapM_error h
    unfold HookRow.toHook tooManyHooks at hrow
    split at hrow
    · cases hrow
    · simp at hrow
  · intro h
    rw [if_pos h]

theorem listedHook_deleted : listedHook owner true t = retainedHook owner t := by
  funext row
  simp [listedHook, retainedHook]

theorem select_listed_le :
    (db.hooks.select (listedHook owner false t)).length ≤ db.retained owner t' := by
  unfold Store.retained Table.select
  refine (List.monotone_filter_right _ fun row h => ?_).length_le
  simp only [listedHook, retainedHook, Bool.and_eq_true, Bool.false_and] at h ⊢
  refine ⟨h.1, ?_⟩
  cases hd : row.deletedAt with
  | none => rfl
  | some deletedAt =>
    rw [hd] at h
    cases h.2

theorem retainedHook_mono {row : HookRow} (h : t ≤ t')
    (hr : retainedHook owner t' row = true) : retainedHook owner t row = true := by
  simp only [retainedHook, Bool.and_eq_true] at hr ⊢
  refine ⟨hr.1, ?_⟩
  cases hd : row.deletedAt with
  | none => rfl
  | some deletedAt =>
    have hcut : recoveryCutoff t ≤ recoveryCutoff t' := Int.sub_le_sub_right h _
    have hlive := hr.2
    rw [hd] at hlive
    exact decide_eq_true (le_trans hcut (of_decide_eq_true hlive))

theorem Store.retained_mono (db : Store) (owner : AccountUuid) (h : t ≤ t') :
    db.retained owner t' ≤ db.retained owner t :=
  (List.monotone_filter_right _ fun _ hr => retainedHook_mono h hr).length_le

theorem Retention.capHolds_iff {w : Retention} : w.CapHolds ↔
    ∀ owner t, w.Looks owner t → w.database.db.retained owner t ≤ maxRetainedHooksPerSilicon := by
  constructor
  · rintro h owner t (rfl | hm)
    · exact h.retained owner
    · have hok := h.listed _ hm
      rw [ne_eq, listHooks_tooMany, listedHook_deleted] at hok
      exact Nat.le_of_not_lt hok
  · intro h
    refine ⟨fun owner => h owner w.clock (.inl rfl), ?_⟩
    rintro ⟨owner, includeDeleted, t⟩ hm
    rw [ne_eq, listHooks_tooMany, Nat.not_lt]
    cases includeDeleted with
    | false => exact select_listed_le.trans (h owner w.clock (.inl rfl))
    | true => exact listedHook_deleted ▸ h owner t (.inr hm)

-- -----------------------------------------------------------------------------
-- What the statements do to the counts
-- -----------------------------------------------------------------------------

def NoMoreHooks (before after : Store) : Prop :=
  ∀ owner t, after.retained owner t ≤ before.retained owner t

theorem noMoreHooks_same (h : db'.hooks = db.hooks) : NoMoreHooks db db' := by
  intro owner t
  rw [Store.retained, h]
  rfl

theorem noMoreHooks_update {p : HookRow → Bool} {f : HookRow → HookRow}
    (hf : ∀ row, Keyed.key (f row) = Keyed.key row)
    (hkeep : ∀ owner t row, p row = true → retainedHook owner t (f row) = true →
      retainedHook owner t row = true)
    (h : db'.hooks = db.hooks.update p f hf) : NoMoreHooks db db' := by
  intro owner t
  rw [Store.retained, h]
  exact Table.select_update_le hf (hkeep owner t)

/-- A deletion leaves its hook at most as recoverable, whatever time it records. -/
theorem retainedHook_of_delete {row : HookRow} {deletedAt : Instant}
    (hd : row.deletedAt = none) (h : retainedHook owner t (row.delete deletedAt) = true) :
    retainedHook owner t row = true := by
  simp only [retainedHook, Bool.and_eq_true, hd, Option.all_none, and_true] at h ⊢
  exact h.1

theorem liveHook_live {row : HookRow} {k : HookId} (h : liveHook k row = true) :
    row.deletedAt = none := by
  simp only [liveHook, Bool.and_eq_true, Option.isNone_iff_eq_none] at h
  exact h.2

theorem noMoreHooks_audited {call : Store → Except StoreError (α × Store)}
    {audit : Store → α → List AuditRow} {database : Database}
    (h : ∀ answer db', call database.db = .ok (answer, db') → NoMoreHooks database.db db') :
    NoMoreHooks database.db (commit database (database.audited call audit)).db := by
  refine commit_keeps (P := fun after : Database => NoMoreHooks database.db after.db)
    (noMoreHooks_same rfl) ?_
  exact fun answer after hok => h answer after.db (Database.audited_ok hok)

/-- No transaction gives a Silicon a hook but those that create, restore or link. -/
theorem storedStep_noMore (database : Database) (label : StoredLabel)
    (hcreates : label.creates = false) (hgives : ∀ owner, label.gives owner = false) :
    NoMoreHooks database.db (storedStep database label).db := by
  cases label with
  | created => cases hcreates
  | updated command actor occurredAt =>
    refine noMoreHooks_audited fun updated db' hc => ?_
    obtain ⟨_, _, -, -, -, -, rfl⟩ := updateHookRow_ok.mp hc
    refine noMoreHooks_update ?_ ?_ rfl
    · exact fun _ => rfl
    · exact fun _ _ _ _ h => h
  | activated command actor =>
    refine noMoreHooks_audited fun updated db' hc => ?_
    obtain ⟨_, -, rfl⟩ := setHooksEnabled_ok hc
    exact noMoreHooks_update command.activate_key (fun _ _ _ _ h => h) rfl
  | rotatedSecret command =>
    refine noMoreHooks_audited fun outcome db' hc => ?_
    obtain ⟨-, ⟨_, _, _, -, -, -, -, -, rfl⟩ | ⟨_, _, _, _, _, -, -, -, -, -, -, -, rfl⟩⟩ :=
      rotateHookSecretRow_ok.mp hc
    · exact noMoreHooks_same rfl
    · exact noMoreHooks_update (HookRow.withSecret_id command.encryptedSecret)
        (fun _ _ _ _ h => h) rfl
  | rotatedEndpoint command =>
    refine noMoreHooks_audited fun outcome db' hc => ?_
    obtain ⟨-, ⟨_, _, _, -, -, -, -, rfl⟩ | ⟨_, _, _, _, _, -, -, -, -, -, -, -, -, rfl⟩⟩ :=
      rotateHookEndpointRow_ok hc
    · exact noMoreHooks_same rfl
    · exact noMoreHooks_update (HookRow.withEndpoint_id command.replacement command.occurredAt)
        (fun _ _ _ _ h => h) rfl
  | deleted command actor =>
    refine noMoreHooks_audited fun deleted db' hc => ?_
    obtain ⟨_, -, -, -, rfl⟩ := deleteHookRow_ok hc
    exact noMoreHooks_update (HookRow.delete_id command.occurredAt)
      (fun _ _ _ hp h => retainedHook_of_delete (liveHook_live hp) h) rfl
  | restored command => exact absurd (hgives command.siliconUuid) (by simp [StoredLabel.gives])
  | granted silicon grantee level actor clock =>
    refine noMoreHooks_audited fun answer db' hc => ?_
    obtain ⟨made, hmade, heq⟩ := Except.map_ok.mp hc
    cases heq
    unfold putGrant at hmade
    split at hmade <;> cases hmade
    exact noMoreHooks_same rfl
  | ungranted silicon grantee actor keeps clock =>
    refine noMoreHooks_audited fun removed db' hc => ?_
    have hdb : (deleteGrant silicon grantee keeps database.db).2 = db' :=
      congrArg Prod.snd (Except.ok.inj hc)
    rw [← hdb]
    unfold deleteGrant
    dsimp only
    split
    · exact noMoreHooks_same rfl
    · split <;> exact noMoreHooks_same rfl
  | allowed silicon account actor clock =>
    refine noMoreHooks_audited fun answer db' hc => ?_
    obtain ⟨made, hmade, heq⟩ := Except.map_ok.mp hc
    cases heq
    unfold putAllowance at hmade
    split at hmade <;> cases hmade
    exact noMoreHooks_same rfl
  | disallowed silicon account actor clock =>
    refine noMoreHooks_audited fun removed db' hc => ?_
    have hdb : (deleteAllowance silicon account database.db).2 = db' :=
      congrArg Prod.snd (Except.ok.inj hc)
    rw [← hdb]
    unfold deleteAllowance
    split <;> exact noMoreHooks_same rfl
  | accepted codec deliverySummary command sendId sendIds now =>
    refine commit_keeps (P := fun after => NoMoreHooks database.db after) (noMoreHooks_same rfl) ?_
    intro event db' hc
    obtain ⟨mid, happended, hqueued⟩ := acceptEvent_ok hc
    have hmid : NoMoreHooks database.db mid := by
      obtain ⟨_, _, -, -, -, rfl⟩ := happended.stored
      refine noMoreHooks_update ?_ ?_ rfl
      · exact fun _ => rfl
      · exact fun _ _ _ _ h => h
    split at hqueued
    · obtain ⟨_, rfl⟩ := queueSends_frame hqueued
      exact hmid
    · exact hqueued ▸ hmid
  | blocked command =>
    refine commit_keeps (P := fun after => NoMoreHooks database.db after) (noMoreHooks_same rfl) ?_
    intro made db' hc
    obtain ⟨-, -, _, _, -, -, rfl⟩ := recordBlockedRequest_ok hc
    exact noMoreHooks_update (HookRow.blocked_id command.request.receivedAt) (fun _ _ _ _ h => h)
      rfl
  | purgedHooks batchSize clock => exact fun owner t => Table.select_delete_le
  | purgedRecords events blocked => exact noMoreHooks_same rfl
  | linked mapping distinct dryRun clock =>
    have hdry : dryRun = true := by simpa [StoredLabel.gives] using hgives ⟨"8HV", by decide⟩
    subst hdry
    unfold storedStep linkIdentities
    dsimp only
    split <;> exact noMoreHooks_same rfl
  | elsewhere other => exact noMoreHooks_same rfl

-- -----------------------------------------------------------------------------
-- Statements that add hooks
-- -----------------------------------------------------------------------------

theorem retainedHook_live {row : HookRow} (silicon : AccountUuid) (t : Instant)
    (howner : row.siliconUuid = some owner) (hd : row.deletedAt = none) :
    retainedHook silicon t row = decide (silicon = owner) := by
  rw [retainedHook, howner, hd]
  simp [eq_comm]

theorem retained_insertCreation {command : CreateHook} (howned : command.Owned owner)
    (h : insertCreation command db = .ok db') (silicon : AccountUuid) (t : Instant) :
    db'.retained silicon t = db.retained silicon t + if silicon = owner then 1 else 0 := by
  obtain ⟨keys, hooks, hins, rfl⟩ := insertCreation_ok h
  have hrow : retainedHook silicon t (command.hook.row command.isAccountsDefault) =
      decide (silicon = owner) := retainedHook_live silicon t howned.siliconUuid rfl
  rw [Store.retained, Store.retained, Table.select, Table.select, Table.insert_rows hins,
    List.filter_append, List.length_append]
  by_cases hs : silicon = owner
  · rw [if_pos hs, List.filter_cons_of_pos (hrow.trans (decide_eq_true hs))]
    rfl
  · rw [if_neg hs, List.filter_cons_of_neg]
    · rfl
    · rw [hrow, decide_eq_false hs]
      exact Bool.false_ne_true

theorem retained_restore {command : RestoreHook} {restored : Hook}
    (h : restoreHookRow command db = .ok (.restored restored, db')) :
    ∃ row, db.hooks.find command.hookId = some row ∧ ∀ silicon t,
      db'.retained silicon t = db.retained silicon t +
        if silicon = command.siliconUuid ∧ retainedHook silicon t row = false then 1 else 0 := by
  obtain ⟨-, ⟨_, _, _, -, -, -, heq, -⟩ | ⟨keys, keys', row, _, -, hr, hd, -, -, -, rfl⟩⟩ :=
    restoreHookRow_ok h
  · cases heq
  obtain ⟨hfind, howner⟩ := Store.scopedHook_some.mp hr
  refine ⟨row, hfind, fun silicon t => ?_⟩
  have hkey : row.id = command.hookId := Table.find_key hfind
  have hone : ∀ row' ∈ db.hooks.rows, deletedHook command.hookId row' = true ↔
      Keyed.key row' = command.hookId := by
    intro row' hm
    constructor
    · intro hp
      exact of_decide_eq_true (Bool.and_eq_true_iff.mp hp).1
    · intro hk
      obtain rfl := Table.eq_of_key hm (Table.find_some.mp hfind).1 (hk.trans hkey.symm)
      simp [deletedHook, hkey, hd]
  obtain ⟨before, after, hrows, hupdated⟩ :=
    Table.update_split (f := HookRow.restore) HookRow.restore_id hfind hone
  have hrestored : retainedHook silicon t row.restore = decide (silicon = command.siliconUuid) :=
    retainedHook_live silicon t howner rfl
  rw [Store.retained, Store.retained, Table.select, Table.select, hupdated, hrows,
    List.filter_append, List.filter_append, List.length_append, List.length_append,
    List.filter_cons, List.filter_cons, hrestored]
  by_cases hs : silicon = command.siliconUuid
  · cases hret : retainedHook silicon t row
    · simp [hs]
      omega
    · simp [hs]
  · have hnot : retainedHook silicon t row = false := by
      simp [retainedHook, howner, Ne.symm hs]
    simp [hs, hnot]

theorem retained_link {mapping : IdentityMapping} {clock : Instant} {database after : Database}
    (h : StoredIdentities database) (hd : IdentityMapping.Distinct mapping.rows)
    (hok : applyMapping mapping clock database = .ok (rekeyed, after)) (silicon : AccountUuid)
    (t : Instant) :
    after.db.retained silicon t = (database.db.hooks.select fun row =>
      retainedHook silicon t (mapping.linkedHook row)).length := by
  rw [Store.retained, Table.select, Table.select, (linkedBy_applyMapping h hd hok).hooks,
    List.filter_map, List.length_map]
  rfl

-- -----------------------------------------------------------------------------
-- What a creation has counted
-- -----------------------------------------------------------------------------

theorem countCreation_reserved {command : CreateHook}
    (h : countCreation command owner db = .ok .reserved) :
    db.retained owner command.recordedAt < maxRetainedHooksPerSilicon := by
  simp only [countCreation, Except.bind_ok] at h
  obtain ⟨⟨⟩, -, ⟨reservation, keys⟩, -, h⟩ := h
  cases reservation with
  | replayed response => cases h
  | reserved =>
    obtain ⟨⟨⟩, hslot, -⟩ := Except.bind_ok.mp h
    exact ensure_ok.mp hslot

theorem Database.insertCreation_db {command : CreateHook} {database after : Database}
    (h : database.insertCreation command = .ok ((), after)) :
    SiliconHook.insertCreation command database.db = .ok after.db := by
  obtain ⟨db, hdb, heq⟩ := Except.map_ok.mp (Database.audited_ok h)
  cases heq
  exact hdb

theorem StoredIdentities.insertCreation {command : CreateHook} {database : Database}
    (h : StoredIdentities database) (howned : command.Owned owner) :
    StoredIdentities (commit database (database.insertCreation command)) := by
  refine h.audited fun _ db' hc => ⟨?_, ?_⟩
  · obtain ⟨db, hdb, heq⟩ := Except.map_ok.mp hc
    cases heq
    obtain ⟨keys, hooks, hins, rfl⟩ := insertCreation_ok hdb
    exact h.keys.inserted howned hins
  · intro made hm
    obtain rfl := List.mem_singleton.mp hm
    show command.hook.siliconId.namesCarbon = false
    rw [howned.siliconId]
    exact fromAccountUuid_namesCarbon owner

namespace Retention

/-- What a creation nothing overtook has counted is still so, from its time on. -/
structure Counted (w : Retention) : Prop where
  identities : StoredIdentities w.database
  below : ∀ creation ∈ w.creations, creation.overtaken = false →
    ∀ t, creation.command.recordedAt ≤ t →
      w.database.db.retained creation.owner t < maxRetainedHooksPerSilicon

variable {w : Retention}

theorem creationOf_some {creation : CountedCreation} (h : w.creationOf owner = some creation) :
    creation ∈ w.creations ∧ creation.owner = owner :=
  ⟨List.mem_of_find?_eq_some h, by simpa using List.find?_some h⟩

/-- The hooks a restoration or a link run gives a Silicon are the only ones a
transaction adds without counting. -/
theorem stored_noMore {label : StoredLabel} (hcreates : label.creates = false)
    {owner : AccountUuid} (hgives : label.gives owner = false) (t : Instant) :
    (storedStep w.database label).db.retained owner t ≤ w.database.db.retained owner t := by
  by_cases hall : ∀ other, label.gives other = false
  · exact storedStep_noMore w.database label hcreates hall owner t
  · cases label with
    | restored command =>
      have hother : owner ≠ command.siliconUuid := by
        simpa [StoredLabel.gives, eq_comm] using hgives
      refine commit_keeps (P := fun after : Database =>
        after.db.retained owner t ≤ w.database.db.retained owner t) le_rfl ?_
      intro outcome after hok
      have hdb := Database.audited_ok hok
      cases outcome with
      | restored hook =>
        obtain ⟨row, -, hcount⟩ := retained_restore hdb
        rw [hcount, if_neg fun hs => hother hs.1, Nat.add_zero]
      | replayed hook response =>
        obtain ⟨-, ⟨_, _, _, -, -, -, -, hsame⟩ | ⟨_, _, _, _, -, -, -, -, -, heq, -⟩⟩ :=
          restoreHookRow_ok hdb
        · exact noMoreHooks_same (by rw [hsame]) owner t
        · cases heq
    | linked mapping distinct dryRun clock =>
      have hdry : dryRun = true := by simpa [StoredLabel.gives] using hgives
      exact absurd (fun _ => by simp [StoredLabel.gives, hdry]) hall
    | _ => exact absurd (fun _ => rfl) hall

theorem Counted.step (h : w.Counted) (label : RetentionLabel) : (w.step label).Counted := by
  cases label with
  | counted command owner owned =>
    unfold Retention.step
    dsimp only
    split
    · exact h
    · split
      · rename_i hcount
        refine ⟨h.identities, fun creation hm hfree t ht => ?_⟩
        obtain hm | hm := List.mem_append.mp hm
        · exact h.below creation hm hfree t ht
        · obtain rfl := List.mem_singleton.mp hm
          exact (w.database.db.retained_mono owner ht).trans_lt (countCreation_reserved hcount)
      · exact h
  | inserted owner =>
    unfold Retention.step
    dsimp only
    split
    · exact h
    · rename_i inserted hcreation
      obtain ⟨-, howner⟩ := creationOf_some hcreation
      refine ⟨h.identities.insertCreation inserted.owned, fun creation hm hfree t ht => ?_⟩
      obtain ⟨hm, hother⟩ := List.mem_filter.mp hm
      have hne : creation.owner ≠ inserted.owner := howner ▸ of_decide_eq_true hother
      refine commit_keeps (P := fun after : Database =>
        after.db.retained creation.owner t < maxRetainedHooksPerSilicon)
        (h.below creation hm hfree t ht) ?_
      intro _ after hok
      rw [retained_insertCreation inserted.owned (Database.insertCreation_db hok), if_neg hne]
      exact h.below creation hm hfree t ht
  | abandoned owner =>
    exact ⟨h.identities, fun creation hm => h.below creation (List.mem_filter.mp hm).1⟩
  | stored label =>
    unfold Retention.step
    dsimp only
    split
    · exact h
    · rename_i hcreates
      refine ⟨h.identities.step label, fun made hm hfree t ht => ?_⟩
      obtain ⟨creation, hcreation, rfl⟩ := List.mem_map.mp hm
      obtain ⟨hbefore, hgives⟩ := Bool.or_eq_false_iff.mp hfree
      exact (stored_noMore (Bool.eq_false_iff.mpr hcreates) hgives t).trans_lt
        (h.below creation hcreation hbefore t ht)
  | listed owner includeDeleted => exact ⟨h.identities, h.below⟩
  | answered listing => exact ⟨h.identities, h.below⟩
  | ticked now => exact ⟨h.identities, h.below⟩

-- -----------------------------------------------------------------------------
-- One step
-- -----------------------------------------------------------------------------

theorem CapHolds.of_noMore {w' : Retention} (h : w.CapHolds)
    (hlooks : ∀ owner t, w'.Looks owner t → ∃ t', w.Looks owner t' ∧ t' ≤ t)
    (hmore : ∀ owner t, w'.database.db.retained owner t ≤ w.database.db.retained owner t) :
    w'.CapHolds := by
  refine capHolds_iff.mpr fun owner t hl => ?_
  obtain ⟨t', hlook, ht⟩ := hlooks owner t hl
  calc w'.database.db.retained owner t
      ≤ w.database.db.retained owner t := hmore owner t
    _ ≤ w.database.db.retained owner t' := w.database.db.retained_mono owner ht
    _ ≤ maxRetainedHooksPerSilicon := capHolds_iff.mp h owner t' hlook

theorem capHolds_inserted {creation : CountedCreation}
    (hcreation : w.creationOf owner = some creation) :
    (w.step (.inserted owner)).CapHolds ↔ ∀ silicon t, w.Looks silicon t →
      (commit w.database (w.database.insertCreation creation.command)).db.retained silicon t ≤
        maxRetainedHooksPerSilicon := by
  rw [Retention.step, hcreation]
  exact capHolds_iff

theorem capHolds_stored {label : StoredLabel} (hcreates : label.creates = false) :
    (w.step (.stored label)).CapHolds ↔ ∀ silicon t, w.Looks silicon t →
      (storedStep w.database label).db.retained silicon t ≤ maxRetainedHooksPerSilicon := by
  rw [Retention.step, if_neg (Bool.eq_false_iff.mp hcreates)]
  exact capHolds_iff

theorem step_inserted (h : w.Counted) (hcap : w.CapHolds) (owner : AccountUuid) :
    (w.step (.inserted owner)).CapHolds ↔ w.Meets (.inserted owner) := by
  have hbefore := capHolds_iff.mp hcap
  cases hcreation : w.creationOf owner with
  | none =>
    have hstep : w.step (.inserted owner) = w := by rw [Retention.step, hcreation]
    rw [hstep]
    refine iff_of_true hcap fun creation hc => ?_
    rw [hcreation] at hc
    cases hc
  | some creation =>
    obtain ⟨hm, rfl⟩ := creationOf_some hcreation
    rw [capHolds_inserted hcreation]
    cases hinsert : w.database.insertCreation creation.command with
    | error e =>
      refine iff_of_true hbefore fun other hc db hdb => ?_
      obtain rfl := Option.some.inj (hcreation.symm.trans hc)
      rw [Database.insertCreation, Database.audited, hdb] at hinsert
      cases hinsert
    | ok answer =>
      obtain ⟨⟨⟩, after⟩ := answer
      have hdb := Database.insertCreation_db hinsert
      have hcount := retained_insertCreation creation.owned hdb
      simp only [commit, hcount]
      constructor
      · intro hall other hc db hok t hl
        obtain rfl := Option.some.inj (hcreation.symm.trans hc)
        have hle := hall creation.owner t hl
        rw [if_pos rfl] at hle
        exact .inr hle
      · intro hmeets silicon t hl
        split
        · rename_i hsilicon
          subst hsilicon
          obtain ⟨hfree, ht⟩ | hbelow := hmeets creation hcreation after.db hdb t hl
          · exact h.below creation hm hfree t ht
          · exact hbelow
        · exact hbefore silicon t hl

theorem step_restored (hcap : w.CapHolds) (command : RestoreHook) :
    (w.step (.stored (.restored command))).CapHolds ↔ w.Meets (.stored (.restored command)) := by
  have hbefore := capHolds_iff.mp hcap
  rw [capHolds_stored rfl, storedStep]
  cases hrestore : w.database.restoreHook command with
  | error e =>
    refine iff_of_true hbefore fun hook db hdb => ?_
    rw [Database.restoreHook, Database.audited, hdb] at hrestore
    cases hrestore
  | ok answer =>
    obtain ⟨outcome, after⟩ := answer
    have hdb := Database.audited_ok hrestore
    cases outcome with
    | replayed hook response =>
      obtain ⟨-, ⟨_, _, _, -, -, -, -, hafter⟩ | ⟨_, _, _, _, -, -, -, -, -, heq, -⟩⟩ :=
        restoreHookRow_ok hdb
      · refine iff_of_true (fun silicon t hl => ?_) fun other db hother => ?_
        · exact (noMoreHooks_same (by rw [commit, hafter]) silicon t).trans (hbefore silicon t hl)
        · rw [hdb] at hother
          cases hother
      · cases heq
    | restored hook =>
      obtain ⟨row, hfind, hcount⟩ := retained_restore hdb
      simp only [commit, hcount]
      constructor
      · intro hall other db hok t hl
        have hle := hall command.siliconUuid t hl
        cases hret : retainedHook command.siliconUuid t row with
        | true => exact .inl ⟨row, hfind, hret⟩
        | false =>
          rw [if_pos ⟨rfl, hret⟩] at hle
          exact .inr hle
      · intro hmeets silicon t hl
        split
        · rename_i hslot
          obtain ⟨rfl, hret⟩ := hslot
          obtain ⟨other, hother, hretained⟩ | hbelow := hmeets hook after.db hdb t hl
          · obtain rfl := Option.some.inj (hfind.symm.trans hother)
            rw [hret] at hretained
            cases hretained
          · exact hbelow
        · exact hbefore silicon t hl

theorem step_linked (h : w.Counted) (hcap : w.CapHolds) (mapping : IdentityMapping)
    (distinct : IdentityMapping.Distinct mapping.rows) (clock : Instant) :
    (w.step (.stored (.linked mapping distinct false clock))).CapHolds ↔
      w.Meets (.stored (.linked mapping distinct false clock)) := by
  rw [capHolds_stored rfl, storedStep, linkIdentities]
  cases happly : applyMapping mapping clock w.database with
  | error e =>
    refine iff_of_true (capHolds_iff.mp hcap) fun made hmade => ?_
    rw [happly] at hmade
    cases hmade
  | ok made =>
    obtain ⟨rekeyed, after⟩ := made
    have hcount := retained_link h.identities distinct happly
    constructor
    · intro hall _ _ owner t hl
      rw [← hcount]
      exact hall owner t hl
    · intro hmeets owner t hl
      show after.db.retained owner t ≤ maxRetainedHooksPerSilicon
      rw [hcount]
      exact hmeets _ happly owner t hl

/-- A step leaves the cap met exactly when the hooks it adds have their slots. -/
theorem step_capHolds (h : w.Counted) (hcap : w.CapHolds) (label : RetentionLabel) :
    (w.step label).CapHolds ↔ w.Meets label := by
  cases label with
  | counted command owner owned =>
    refine iff_of_true ?_ trivial
    unfold Retention.step
    dsimp only
    split
    · exact hcap
    · split
      · exact ⟨hcap.retained, hcap.listed⟩
      · exact hcap
  | inserted owner => exact step_inserted h hcap owner
  | abandoned owner => exact iff_of_true ⟨hcap.retained, hcap.listed⟩ trivial
  | stored label =>
    by_cases hcreates : label.creates = true
    · have hmeets : w.Meets (.stored label) := by
        cases label with
        | created => trivial
        | _ => cases hcreates
      refine iff_of_true ?_ hmeets
      rw [Retention.step, if_pos hcreates]
      exact hcap
    · by_cases hgives : ∀ owner, label.gives owner = false
      · have hmeets : w.Meets (.stored label) := by
          cases label with
          | restored command => exact absurd (hgives command.siliconUuid) (by simp [StoredLabel.gives])
          | linked mapping distinct dryRun clock =>
            have hdry : dryRun = true := by
              simpa [StoredLabel.gives] using hgives ⟨"8HV", by decide⟩
            subst hdry
            trivial
          | _ => trivial
        refine iff_of_true ?_ hmeets
        rw [Retention.step, if_neg hcreates]
        refine hcap.of_noMore (fun _ t hl => ⟨t, hl, le_rfl⟩) fun owner t => ?_
        exact stored_noMore (Bool.eq_false_iff.mpr hcreates) (hgives owner) t
      · cases label with
        | restored command => exact step_restored hcap command
        | linked mapping distinct dryRun clock =>
          cases dryRun with
          | false => exact step_linked h hcap mapping distinct clock
          | true => exact absurd (fun _ => rfl) hgives
        | _ => exact absurd (fun _ => rfl) hgives
  | listed owner includeDeleted =>
    refine iff_of_true (hcap.of_noMore (fun other t hl => ?_) fun _ _ => le_rfl) trivial
    obtain rfl | hm := hl
    · exact ⟨_, .inl rfl, le_rfl⟩
    · obtain hm | hm := List.mem_append.mp hm
      · exact ⟨t, .inr hm, le_rfl⟩
      · cases List.mem_singleton.mp hm
        exact ⟨_, .inl rfl, le_rfl⟩
  | answered listing =>
    refine iff_of_true (hcap.of_noMore (fun other t hl => ?_) fun _ _ => le_rfl) trivial
    exact ⟨t, hl.imp_right List.mem_of_mem_erase, le_rfl⟩
  | ticked now =>
    refine iff_of_true (hcap.of_noMore (fun other t hl => ?_) fun _ _ => le_rfl) trivial
    obtain rfl | hm := hl
    · exact ⟨w.clock, .inl rfl, le_max_left _ _⟩
    · exact ⟨t, .inr hm, le_rfl⟩

/-- In a run every Silicon stays within the cap, and no listing fails for it,
exactly when all the hooks added have their slots. -/
theorem cap_along (initial : Retention) (h : StoredIdentities initial.database)
    (hcreations : initial.creations = []) (hcap : initial.CapHolds)
    (labels : List RetentionLabel) :
    Always Retention.step CapHolds initial labels ↔
      Along Retention.step Meets initial labels := by
  have hcounted : initial.Counted := by
    refine ⟨h, fun creation hm => ?_⟩
    rw [hcreations] at hm
    cases hm
  exact always_iff_along (fun _ label h _ => h.step label)
    (fun _ label h _ hcap => step_capHolds h hcap label) hcounted hcap along_true

/-- A Silicon listed around the run that links its one hook. -/
def linkedOnce : Retention := ⟨LegacyHook.stored, 0, [], []⟩

theorem linkedOnce_distinct : IdentityMapping.Distinct LegacyHook.mapping.rows :=
  ⟨List.nodup_singleton _, List.nodup_singleton _⟩

theorem cap_along_linkedOnce : Always Retention.step CapHolds linkedOnce
    [.listed ⟨"8HV", by decide⟩ true,
      .stored (.linked LegacyHook.mapping linkedOnce_distinct false 3), .ticked 9,
      .answered ⟨⟨"8HV", by decide⟩, true, 0⟩] := by
  have hone : ∀ p : HookRow → Bool,
      (LegacyHook.stored.db.hooks.select p).length ≤ maxRetainedHooksPerSilicon :=
    fun _ => (List.length_filter_le _ _).trans (by decide)
  have hcap : linkedOnce.CapHolds := capHolds_iff.mpr fun _ _ _ => hone _
  exact (cap_along linkedOnce LegacyHook.stored_identities rfl hcap _).mpr
    ⟨trivial, fun _ _ _ _ _ => hone _, trivial, trivial, trivial⟩

end Retention

-- -----------------------------------------------------------------------------
-- A crowded Silicon
-- -----------------------------------------------------------------------------

namespace CrowdedSilicon

open Text

def crowded : AccountUuid := ⟨"SiCrowded", by decide⟩

def digit (n : Nat) : Char := Char.ofNat (48 + n % 10)

theorem digit_isAsciiDigit (n : Nat) : isAsciiDigit (digit n) = true := by
  have h : ∀ m < 10, isAsciiDigit (Char.ofNat (48 + m)) = true := by decide
  exact h _ (Nat.mod_lt n (by omega))

def endpointKey (n : Nat) : EndpointKey where
  value := String.ofList ['H', 'O', 'O', 'K', digit (n / 1000), digit (n / 100), digit (n / 10),
    digit n]
  valid := by
    rw [EndpointKey.isCanonical, String.toList_ofList]
    simp only [List.all_cons, List.all_nil, digit_isAsciiDigit]
    rfl

def hook (n : Nat) : HookRow := { LegacyHook.row with
  id := ⟨.ofNat 128 (n + 2)⟩
  siliconId := .fromAccountUuid crowded
  siliconUuid := some crowded
  endpointKey := endpointKey n
  createdBy := .account .silicon crowded }

/-- As many hooks as a Silicon may have, and one under its former id. -/
def rows : List HookRow := LegacyHook.row :: (List.range maxRetainedHooksPerSilicon).map hook

theorem rows_nodup : (rows.map Keyed.key).Nodup := by
  rw [rows, List.map_cons, List.map_map, List.nodup_cons]
  -- The ids are numbers far below the bound of the type.
  have hid : ∀ n < maxRetainedHooksPerSilicon, (hook n).id.uuid.toNat = n + 2 := by
    intro n hn
    exact Nat.mod_eq_of_lt (by unfold maxRetainedHooksPerSilicon at hn; omega)
  constructor
  · intro hm
    obtain ⟨n, hn, heq⟩ := List.mem_map.mp hm
    have hkey : n + 2 = 1 :=
      (hid n (List.mem_range.mp hn)).symm.trans (congrArg (fun id : HookId => id.uuid.toNat) heq)
    omega
  · refine List.Nodup.map_on (fun n hn m hm heq => ?_) List.nodup_range
    have hkey := congrArg (fun id : HookId => id.uuid.toNat) heq
    have hsame : n + 2 = m + 2 := by
      rw [← hid n (List.mem_range.mp hn), ← hid m (List.mem_range.mp hm)]
      exact hkey
    omega

def initial : Retention where
  database := ⟨{ Store.empty with hooks := ⟨rows, rows_nodup⟩ }, []⟩
  clock := 0
  creations := []
  listings := []

theorem initial_identities : StoredIdentities initial.database := by
  refine ⟨⟨?_, ?_, ?_, ?_, ?_, ?_⟩, ?_⟩
  · intro row hm
    obtain rfl | hm := List.mem_cons.mp hm
    · decide +kernel
    · obtain ⟨n, -, rfl⟩ := List.mem_map.mp hm
      exact fromAccountUuid_namesCarbon crowded
  all_goals exact List.forall_mem_nil _

theorem initial_capHolds : initial.CapHolds := by
  refine Retention.capHolds_iff.mpr fun silicon t hl => ?_
  have hlegacy : retainedHook silicon t LegacyHook.row = false := rfl
  show (rows.filter (retainedHook silicon t)).length ≤ maxRetainedHooksPerSilicon
  rw [rows, List.filter_cons_of_neg (by simp [hlegacy])]
  refine (List.length_filter_le _ _).trans ?_
  simp

def mapping : IdentityMapping := { LegacyHook.mapping with
  rows := LegacyHook.mapping.rows.map fun row => { row with accountsUuid := some crowded } }

theorem mapping_distinct : IdentityMapping.Distinct mapping.rows :=
  ⟨List.nodup_singleton _, List.nodup_singleton _⟩

def link : RetentionLabel := .stored (.linked mapping mapping_distinct false 0)

theorem initial_counted : initial.Counted := ⟨initial_identities, List.forall_mem_nil _⟩

theorem defaultsDistinct_linked (links : Table IdentityLinkRow) :
    defaultsDistinct (rekeyOwners links mapping.ids initial.database.db.hooks) = true := by
  have hkeeps : ∀ target (row : HookRow), row.isAccountsDefault = false →
      (HookRow.ownerColumn.assign target row).isAccountsDefault = false := by
    intro target row hrow
    unfold Column.assign
    cases target row <;> exact hrow
  have hnone : (rekeyOwners links mapping.ids initial.database.db.hooks).select
      HookRow.isAccountsDefault = [] := by
    rw [Table.select, rekeyOwners, Table.assign_rows, List.filter_eq_nil_iff]
    intro assigned hm
    obtain ⟨row, hrow, rfl⟩ := List.mem_map.mp hm
    refine Bool.eq_false_iff.mp (hkeeps _ row ?_)
    obtain rfl | hrow := List.mem_cons.mp hrow
    · rfl
    · obtain ⟨n, -, rfl⟩ := List.mem_map.mp hrow
      rfl
  rw [defaultsDistinct, hnone]
  rfl

theorem applyMapping_commits : ∃ made, applyMapping mapping 0 initial.database = .ok made :=
  ⟨(_, _), applyMapping_ok.mpr ⟨rfl, _, rfl, defaultsDistinct_linked _, rfl, rfl⟩⟩

theorem select_linked : (rows.filter fun row =>
    retainedHook crowded 0 (mapping.linkedHook row)).length = maxRetainedHooksPerSilicon + 1 := by
  have hall : ∀ row ∈ rows, retainedHook crowded 0 (mapping.linkedHook row) = true := by
    intro row hm
    obtain rfl | hm := List.mem_cons.mp hm
    · decide +kernel
    · obtain ⟨n, -, rfl⟩ := List.mem_map.mp hm
      rfl
  rw [List.filter_eq_self.mpr hall, rows, List.length_cons, List.length_map, List.length_range]

theorem link_exceeds : ¬ (initial.step link).CapHolds := by
  rw [link, Retention.step_linked initial_counted initial_capHolds]
  intro hmeets
  obtain ⟨made, hmade⟩ := applyMapping_commits
  have hle := hmeets made hmade crowded 0 (.inl rfl)
  have hlinked := select_linked
  exact absurd (hlinked ▸ hle) (by decide)

end CrowdedSilicon

/-- A link run can leave a Silicon with more hooks than can be listed. -/
theorem cap_exceeded : ¬ ∀ initial : Retention, StoredIdentities initial.database →
    initial.creations = [] → initial.CapHolds → ∀ labels : List RetentionLabel,
      Always Retention.step Retention.CapHolds initial labels := by
  intro h
  obtain ⟨-, hafter⟩ := h CrowdedSilicon.initial CrowdedSilicon.initial_identities rfl
    CrowdedSilicon.initial_capHolds [CrowdedSilicon.link]
  exact CrowdedSilicon.link_exceeds hafter

end SiliconHook
