import SiliconHook.Application.Concurrent
import SiliconHook.Properties.PolicyUpdates
import SiliconHook.Properties.StoredIdentities

/-!
# Deletions and updates among others

What a deletion that answers well, and an update that fails, have done to the
hook, whatever transactions ran between their store calls.
-/

namespace SiliconHook

open HookApplication

variable {ι : Type} {step : Database → ι → Database} {s s' : Shared Database ι}

-- -----------------------------------------------------------------------------
-- Deletion
-- -----------------------------------------------------------------------------

def Database.HookDeleted (database : Database) (hookId : HookId) : Prop :=
  ∃ row, database.db.hooks.find hookId = some row ∧ row.deletedAt.isSome = true

/-- The hook is deleted in a state the others leave it in, or in the last one. -/
def DeletedDuring (database : Database) (hookId : HookId) (after : Shared Database StoredLabel) :
    Prop :=
  (∃ n, (run storedStep database (after.others.take n)).HookDeleted hookId) ∨
    after.state.HookDeleted hookId

/-- The time of a deletion precedes the creation of the live hook, or its disabling. -/
def Database.RefusesTime (database : Database) (siliconUuid : AccountUuid) (hookId : HookId)
    (now : Instant) : Prop :=
  ∃ hook : Hook, getHook siliconUuid hookId database.db = .ok (some hook) ∧
    hook.status ≠ .deleted ∧
      (now < hook.snapshot.createdAt ∨ ∃ t, hook.snapshot.disabledAt = some t ∧ now < t)

/-- The deletion finds a live hook, and reaches the store with a time it refuses;
nothing else has deleted the hook since the call began. -/
structure DeleteHookCommand.Swallowed (command : DeleteHookCommand) (now : Instant)
    (database : Database) (turns : List (Turn StoredLabel)) : Prop where
  reads : authorizeAction command.authorization .readHook = .ok ()
  read : ((Shared.begin database turns).yield storedStep).1 = .answered
  live : ∃ hook : Hook, loadHook command.authorization.silicon.uuid command.hookId
    ((Shared.begin database turns).yield storedStep).2.state.db = .ok hook ∧ hook.status ≠ .deleted
  deletes : authorizeAction command.authorization .deleteHook = .ok ()
  reached : (((Shared.begin database turns).yield storedStep).2.yield storedStep).1 ≠ .rolledBack
  refused : (((Shared.begin database turns).yield storedStep).2.yield storedStep).2.state.RefusesTime
    command.authorization.silicon.uuid command.hookId now
  alone : ∀ n, ¬ (run storedStep database
    ((((Shared.begin database turns).yield storedStep).2.yield storedStep).2.others.take
      n)).HookDeleted command.hookId

theorem queryAmong_read (step : Database → ι → Database) (f : Store → Except ApplicationError α) :
    (queryAmong step f s).2 = (s.yield step).2 ∧ ∀ a, (queryAmong step f s).1 = .ok a ↔
      (s.yield step).1 = .answered ∧ f (s.yield step).2.state.db = .ok a :=
  Shared.call_read (f := fun database : Database => f database.db) _

theorem deleteHookAmong_eq (command : DeleteHookCommand) (now : Instant) :
    deleteHookAmong step command now s =
      match authorizeAction command.authorization .readHook with
      | .error e => (.error e, s)
      | .ok _ => match queryAmong step
          (loadHook command.authorization.silicon.uuid command.hookId) s with
        | (.error e, s) => (.error e, s)
        | (.ok hook, s) => match authorizeAction command.authorization .deleteHook with
          | .error e => (.error e, s)
          | .ok _ => if hook.status = .deleted then (.ok (), s)
            else match s.call step lostConnection (Database.deleteHook
                ⟨command.authorization.silicon.uuid, command.hookId, now⟩
                (actorRef command.authorization)) with
              | (.ok _, s) | (.error (.stateConflict _), s) => (.ok (), s)
              | (.error e, s) => (.error (mapStoreError e), s) := by
  unfold deleteHookAmong
  show Program.bind _ _ s = _
  rw [Program.bind]
  cases hreads : authorizeAction command.authorization .readHook with
  | error e => rfl
  | ok =>
    show Program.bind _ _ s = _
    rw [Program.bind]
    cases hquery : queryAmong step
        (loadHook command.authorization.silicon.uuid command.hookId) s with
    | mk answer s₁ =>
      cases answer with
      | error e => rfl
      | ok hook =>
        show Program.bind _ _ s₁ = _
        rw [Program.bind]
        cases hdeletes : authorizeAction command.authorization .deleteHook with
        | error e => rfl
        | ok =>
          dsimp only
          show (if hook.status = .deleted then Program.ofExcept (.ok ()) else _ :
            SharedCase ι Unit) s₁ = _
          by_cases hdeleted : hook.status = .deleted
          · rw [if_pos hdeleted, if_pos hdeleted]
            rfl
          · rw [if_neg hdeleted, if_neg hdeleted]
            show Program.bind _ _ s₁ = _
            rw [Program.bind, Program.attemptAmong]
            dsimp only
            cases hcall : s₁.call step lostConnection (Database.deleteHook
                ⟨command.authorization.silicon.uuid, command.hookId, now⟩
                (actorRef command.authorization)) with
            | mk answer s₂ =>
              cases answer with
              | ok => rfl
              | error e => cases e <;> rfl

section Deletion

variable {command : HookMutation} {actor : ActorRef} {database after : Database}

theorem deleteHook_deleted {deleted : Hook}
    (h : database.deleteHook command actor = .ok (deleted, after)) :
    after.HookDeleted command.hookId := by
  obtain ⟨row, hr, hd, -, hdb⟩ := deleteHookRow_ok (Database.audited_ok h)
  refine ⟨row.delete command.occurredAt, ?_, rfl⟩
  rw [hdb]
  show (database.db.hooks.update (liveHook command.hookId) (HookRow.delete command.occurredAt)
    (HookRow.delete_id command.occurredAt)).find command.hookId = _
  exact find_updateLive (Store.scopedHook_some.mp hr).1 hd

theorem Database.hookDeleted_of_status {hook : Hook}
    (h : getHook u k database.db = .ok (some hook)) (hs : hook.status = .deleted) :
    database.HookDeleted k := by
  obtain ⟨row, hr, hsnap⟩ := getHook_some.mp h
  refine ⟨row, (Store.scopedHook_some.mp hr).1, HookRow.status_deleted.mp ?_⟩
  rw [Hook.status, hsnap] at hs
  exact hs

theorem Hook.delete_error {hook : Hook} {now : Instant} {e : TransitionError}
    (h : hook.delete now = .error e) : hook.status = .deleted ∨
      (now < hook.snapshot.createdAt ∨ ∃ t, hook.snapshot.disabledAt = some t ∧ now < t) := by
  unfold Hook.delete at h
  split at h
  · rename_i hs
    exact .inl hs
  · split at h
    · rename_i hcreated
      exact .inr (.inl hcreated)
    · split at h
      · rename_i hdisabled
        rw [Option.any_eq_true] at hdisabled
        obtain ⟨t, ht, hlt⟩ := hdisabled
        exact .inr (.inr ⟨t, ht, of_decide_eq_true hlt⟩)
      · cases h

theorem Hook.delete_refused {hook : Hook} {now : Instant} (hs : hook.status ≠ .deleted)
    (h : now < hook.snapshot.createdAt ∨ ∃ t, hook.snapshot.disabledAt = some t ∧ now < t) :
    ∃ e, hook.delete now = .error e := by
  unfold Hook.delete
  rw [if_neg hs]
  split
  · exact ⟨_, rfl⟩
  · rename_i hcreated
    obtain hcreated' | ⟨t, ht, hlt⟩ := h
    · exact absurd hcreated' hcreated
    · rw [if_pos]
      · exact ⟨_, rfl⟩
      · rw [ht]
        exact decide_eq_true hlt

theorem deleteHook_conflict {entity : String}
    (h : database.deleteHook command actor = .error (.stateConflict entity)) :
    (∃ hook, getHook command.siliconUuid command.hookId database.db = .ok (some hook) ∧
      hook.status = .deleted) ∨
      database.RefusesTime command.siliconUuid command.hookId command.occurredAt := by
  have hrow : deleteHookRow command database.db = .error (.stateConflict entity) := by
    unfold Database.deleteHook Database.audited at h
    split at h
    · rename_i e hcall
      exact hcall.trans (congrArg _ (Except.error.inj h))
    · cases h
  unfold deleteHookRow at hrow
  cases hselect : selectScopedHookForUpdate command.siliconUuid command.hookId database.db with
  | error e =>
    -- a hook that is missing or cannot be read is no conflict
    rw [hselect] at hrow
    have he : e = .stateConflict entity := Except.error.inj hrow
    subst he
    unfold selectScopedHookForUpdate getHook at hselect
    cases hr : database.db.scopedHook command.siliconUuid command.hookId with
    | none =>
      rw [hr] at hselect
      cases hselect
    | some row =>
      rw [hr] at hselect
      dsimp only at hselect
      unfold HookRow.toHook at hselect
      cases hrehydrate : Hook.rehydrate row.snapshot <;> rw [hrehydrate] at hselect <;> cases hselect
  | ok hook =>
    rw [hselect] at hrow
    have hget := getHook_some.mpr (selectScopedHookForUpdate_ok.mp hselect)
    cases hdelete : hook.delete command.occurredAt with
    | error e =>
      obtain hs | htime := Hook.delete_error hdelete
      · exact .inl ⟨hook, hget, hs⟩
      · by_cases hs : hook.status = .deleted
        · exact .inl ⟨hook, hget, hs⟩
        · exact .inr ⟨hook, hget, hs, htime⟩
    | ok deleted =>
      -- the hook that was locked is live, so its row is there to update
      obtain ⟨row, hr, hsnap⟩ := getHook_some.mp hget
      obtain ⟨hs, -⟩ := Hook.delete_ok hdelete
      rw [Hook.status, hsnap] at hs
      have hlive : ∃ db', database.db.updateLiveHook command.hookId (fun row => { row with
          disabledAt := none
          deletedAt := some command.occurredAt }) (fun _ => rfl) = .ok db' :=
        ⟨_, Store.updateLiveHook_ok.mpr
          ⟨⟨row, (Store.scopedHook_some.mp hr).1, HookRow.status_ne_deleted.mp hs⟩, rfl⟩⟩
      obtain ⟨db', hlive⟩ := hlive
      have hmade : deleteHookRow command database.db = .ok (deleted, db') := by
        unfold deleteHookRow
        rw [hselect]
        refine Except.bind_ok.mpr ⟨hook, rfl, ?_⟩
        rw [hdelete]
        exact Except.bind_ok.mpr ⟨db', hlive, rfl⟩
      unfold deleteHookRow at hmade
      rw [hselect] at hmade
      exact absurd (hmade.symm.trans hrow) (by simp)

theorem refusesTime_conflict
    (h : database.RefusesTime command.siliconUuid command.hookId command.occurredAt) :
    database.deleteHook command actor = .error (.stateConflict "hook") := by
  obtain ⟨hook, hget, hs, htime⟩ := h
  obtain ⟨e, hdelete⟩ := Hook.delete_refused hs htime
  have hrow : deleteHookRow command database.db = .error (.stateConflict "hook") := by
    unfold deleteHookRow
    rw [selectScopedHookForUpdate_ok.mpr (getHook_some.mp hget)]
    simp only [bind, Except.bind, hdelete]
    rfl
  unfold Database.deleteHook Database.audited
  rw [hrow]

/-- A call that answers well read the hook; it was deleted then, or the store
deleted it, or answered with a conflict. -/
theorem deleteHookAmong_ok {command : DeleteHookCommand} {now : Instant}
    {s : Shared Database StoredLabel} (h : (deleteHookAmong storedStep command now s).1 = .ok ()) :
    authorizeAction command.authorization .readHook = .ok () ∧
    authorizeAction command.authorization .deleteHook = .ok () ∧
    (s.yield storedStep).1 = .answered ∧
    ∃ hook, loadHook command.authorization.silicon.uuid command.hookId
        (s.yield storedStep).2.state.db = .ok hook ∧
      ((hook.status = .deleted ∧ (deleteHookAmong storedStep command now s).2 =
          (s.yield storedStep).2) ∨
        hook.status ≠ .deleted ∧ ∃ answer, (s.yield storedStep).2.call storedStep lostConnection
          (Database.deleteHook ⟨command.authorization.silicon.uuid, command.hookId, now⟩
            (actorRef command.authorization)) =
            (answer, (deleteHookAmong storedStep command now s).2) ∧
          ((∃ deleted, answer = .ok deleted) ∨ ∃ entity, answer = .error (.stateConflict entity))) := by
  rw [deleteHookAmong_eq] at h ⊢
  cases hreads : authorizeAction command.authorization .readHook with
  | error e =>
    rw [hreads] at h
    cases h
  | ok =>
    rw [hreads] at h
    have hread := queryAmong_read storedStep
      (loadHook command.authorization.silicon.uuid command.hookId) (s := s)
    cases hquery : queryAmong storedStep
        (loadHook command.authorization.silicon.uuid command.hookId) s with
    | mk answer s₁ =>
      rw [hquery] at h hread
      obtain ⟨rfl, hanswers⟩ := hread
      cases answer with
      | error e => cases h
      | ok hook =>
        obtain ⟨hanswered, hload⟩ := (hanswers hook).mp rfl
        cases hdeletes : authorizeAction command.authorization .deleteHook with
        | error e =>
          rw [hdeletes] at h
          cases h
        | ok =>
          rw [hdeletes] at h
          dsimp only at h ⊢
          refine ⟨rfl, rfl, hanswered, hook, hload, ?_⟩
          by_cases hdeleted : hook.status = .deleted
          · rw [if_pos hdeleted]
            exact .inl ⟨hdeleted, rfl⟩
          · rw [if_neg hdeleted] at h ⊢
            refine .inr ⟨hdeleted, ?_⟩
            cases hcall : (s.yield storedStep).2.call storedStep lostConnection
                (Database.deleteHook ⟨command.authorization.silicon.uuid, command.hookId, now⟩
                  (actorRef command.authorization)) with
            | mk answer s₂ =>
              rw [hcall] at h
              cases answer with
              | ok deleted => exact ⟨_, rfl, .inl ⟨deleted, rfl⟩⟩
              | error e =>
                cases e with
                | stateConflict entity => exact ⟨_, rfl, .inr ⟨entity, rfl⟩⟩
                | _ => cases h

/-- A deletion that answers well has deleted the hook, or found it deleted, unless
the store refused its time. -/
theorem deletion_reported_iff (command : DeleteHookCommand) (now : Instant) (database : Database)
    (turns : List (Turn StoredLabel)) :
    ((deleteHookAmong storedStep command now (.begin database turns)).1 = .ok () →
      DeletedDuring database command.hookId
        (deleteHookAmong storedStep command now (.begin database turns)).2) ↔
      ¬ command.Swallowed now database turns := by
  have hfirst : ((Shared.begin database turns).yield storedStep).2.Untouched storedStep database :=
    (Shared.untouched_begin database turns).yield
  have hsecond := hfirst.yield
  have hlast {s : Shared Database StoredLabel} (h : s.Untouched storedStep database)
      (hdeleted : s.state.HookDeleted command.hookId) :
      ∃ n, (run storedStep database (s.others.take n)).HookDeleted command.hookId := by
    refine ⟨s.others.length, ?_⟩
    rw [List.take_length, ← h]
    exact hdeleted
  constructor
  · rintro hreported ⟨hreads, hread, ⟨hook, hload, hlive⟩, hdeletes, hreached, hrefused, halone⟩
    have hconflict : ((((Shared.begin database turns).yield storedStep).2.yield
        storedStep).2.state.deleteHook ⟨command.authorization.silicon.uuid, command.hookId, now⟩
          (actorRef command.authorization)) = .error (.stateConflict "hook") :=
      refusesTime_conflict hrefused
    have hcall : ((Shared.begin database turns).yield storedStep).2.call storedStep lostConnection
        (Database.deleteHook ⟨command.authorization.silicon.uuid, command.hookId, now⟩
          (actorRef command.authorization)) =
        (.error (.stateConflict "hook"),
          (((Shared.begin database turns).yield storedStep).2.yield storedStep).2) := by
      unfold Shared.call
      dsimp only
      rw [hconflict]
      cases hfate : (((Shared.begin database turns).yield storedStep).2.yield storedStep).1 with
      | rolledBack => exact absurd hfate hreached
      | answered | unconfirmed => rfl
    have hrun : deleteHookAmong storedStep command now (.begin database turns) = (.ok (),
        (((Shared.begin database turns).yield storedStep).2.yield storedStep).2) := by
      have hquery : queryAmong storedStep
          (loadHook command.authorization.silicon.uuid command.hookId) (.begin database turns) =
          (.ok hook, ((Shared.begin database turns).yield storedStep).2) := by
        obtain ⟨hleft, hanswers⟩ := queryAmong_read (s := Shared.begin database turns) storedStep
          (loadHook command.authorization.silicon.uuid command.hookId)
        exact Prod.ext ((hanswers hook).mpr ⟨hread, hload⟩) hleft
      rw [deleteHookAmong_eq, hreads, hquery, hdeletes]
      dsimp only
      rw [if_neg hlive, hcall]
    rw [hrun] at hreported
    obtain ⟨n, hn⟩ | hdeleted := hreported rfl
    · exact halone n hn
    · obtain ⟨n, hn⟩ := hlast hsecond hdeleted
      exact halone n hn
  · intro hswallowed hanswered
    obtain ⟨hreads, hdeletes, hread, hook, hload, ⟨hdeleted, hafter⟩ | ⟨hlive, answer, hcall,
      hanswer⟩⟩ := deleteHookAmong_ok hanswered
    · -- the hook it read was deleted
      obtain ⟨row, hr, hsnap⟩ := loadHook_ok.mp hload
      have hfound := Database.hookDeleted_of_status (getHook_some.mpr ⟨row, hr, hsnap⟩) hdeleted
      exact .inr (hafter ▸ hfound)
    · obtain ⟨deleted, rfl⟩ | ⟨entity, rfl⟩ := hanswer
      · exact .inr (deleteHook_deleted (Shared.call_ok hcall).1)
      · obtain ⟨hreached, hconflict, hafter⟩ | ⟨hlost, -⟩ | ⟨hlost, -⟩ := Shared.call_error hcall
        · obtain ⟨found, hget, hdeleted⟩ | hrefused := deleteHook_conflict hconflict
          · exact .inr (hafter ▸ Database.hookDeleted_of_status hget hdeleted)
          · -- a refused time is a deletion of another, or the conflict that is swallowed
            by_contra hnot
            refine hswallowed ⟨hreads, hread, ⟨hook, hload, hlive⟩, hdeletes, hreached, hrefused,
              fun n hn => hnot (.inl ⟨n, ?_⟩)⟩
            rw [hafter]
            exact hn
        · cases hlost
        · cases hlost

end Deletion

-- a hook made by an instance whose clock is ahead of the one that deletes it
namespace ClockBehind

def database : Database :=
  ⟨{ Store.empty with hooks := ⟨[{ StaleUpdate.row with createdAt := 10 }], by decide⟩ }, []⟩

def deletion : DeleteHookCommand := ⟨StaleUpdate.owner, StaleUpdate.hookId⟩

/-- The deletion answers well, and the hook accepts requests as before. -/
theorem swallowed_refusal : ¬ ∀ (command : DeleteHookCommand) (now : Instant)
    (database : Database) (turns : List (Turn StoredLabel)),
    (deleteHookAmong storedStep command now (.begin database turns)).1 = .ok () →
      DeletedDuring database command.hookId
        (deleteHookAmong storedStep command now (.begin database turns)).2 := by
  intro h
  have hrun : deleteHookAmong storedStep deletion 5 (.begin database []) =
      (.ok (), .begin database []) := by
    have halone := deleteHook_alone storedStep deletion 5 database
    have hdelete : (deleteHook deletion 5 database).1.toOption = some () ∧
        (deleteHook deletion 5 database).2 = database := by decide +kernel
    rw [halone, hdelete.2]
    cases hr : (deleteHook deletion 5 database).1 with
    | error e =>
      rw [hr] at hdelete
      cases hdelete.1
    | ok => rfl
  have hreported := h deletion 5 database []
  rw [hrun] at hreported
  have hlive : ¬ database.HookDeleted deletion.hookId := by
    rintro ⟨row, hrow, hdeleted⟩
    have hfound : (database.db.hooks.find deletion.hookId).any (·.deletedAt.isSome) = false := by
      decide +kernel
    rw [hrow] at hfound
    exact absurd (hfound.symm.trans hdeleted) Bool.false_ne_true
  obtain ⟨n, hn⟩ | hdeleted := hreported rfl
  · rw [show (Shared.begin database []).others.take n = ([] : List StoredLabel) from
      List.take_nil] at hn
    exact hlive hn
  · exact hlive hdeleted

end ClockBehind

-- -----------------------------------------------------------------------------
-- Update
-- -----------------------------------------------------------------------------

def UpdateHookCommand.activated (command : UpdateHookCommand) (now : Instant)
    (database : Database) : Database :=
  match command.patch.enabled with
  | none => database
  | some enabled => commit database (database.setHooksEnabled
      ⟨command.siliconUuid, [command.hookId], enabled, now⟩ (actorRef command.authorization))

def UpdateHookCommand.written (command : UpdateHookCommand) (changes : HookUpdate) (now : Instant)
    (database : Database) : Database :=
  commit database (database.updateHook ⟨command.siliconUuid, command.hookId, changes⟩
    (actorRef command.authorization) now)

/-- What others did, with the activation committed at some point among it. -/
def UpdateHookCommand.ActivatedAmong (command : UpdateHookCommand) (now : Instant)
    (database : Database) (others : List StoredLabel) (after : Database) : Prop :=
  ∃ first second, others = first ++ second ∧
    after = run storedStep (command.activated now (run storedStep database first)) second

inductive UpdateLeft (app : HookApplication) (command : UpdateHookCommand) (nonce : List UInt8)
    (activatedAt updatedAt : Instant) (database : Database) (e : ApplicationError) :
    List StoredLabel → Database → Prop
  /-- Nothing. -/
  | nothing (others : List StoredLabel) : UpdateLeft app command nonce activatedAt updatedAt
      database e others (run storedStep database others)
  /-- The activation, before the metadata failed or since its answer was lost. -/
  | activation (others : List StoredLabel) (after : Database)
    (enabled : command.patch.enabled.isSome = true)
    (then' : command.patch.changesMetadata = true ∨ e = mapStoreError lostConnection)
    (left : command.ActivatedAmong activatedAt database others after) :
    UpdateLeft app command nonce activatedAt updatedAt database e others after
  /-- The whole patch, the answer of its last transaction being lost. -/
  | everything (others : List StoredLabel) (before : Database) (changes : HookUpdate)
    (existing : Hook) (prepared : app.prepareUpdate command nonce existing = .ok changes)
    (metadata : command.patch.changesMetadata = true) (lost : e = mapStoreError lostConnection)
    (left : command.ActivatedAmong activatedAt database others before) :
    UpdateLeft app command nonce activatedAt updatedAt database e others
      (command.written changes updatedAt before)

section Update

variable {command : UpdateHookCommand} {database : Database}

theorem setHooksEnabled_answers {enabled : Bool} {now : Instant} {updated : List Hook}
    {db db' : Store}
    (h : setHooksEnabled ⟨u, [k], enabled, now⟩ db = .ok (updated, db')) :
    ∃ hook, updated.getLast? = some hook := by
  simp only [SiliconHook.setHooksEnabled, Except.bind_ok] at h
  obtain ⟨ids, hids, hooks, hlock, transitioned, htransitioned, -, -, h⟩ := h
  cases h
  obtain rfl : [k] = ids := Except.ok.inj ((activationHookIds_single u k enabled now).symm.trans hids)
  have hlength : updated.length = 1 := by
    rw [← (Except.mapM_ok.mp htransitioned).length_eq]
    unfold lockHooksForActivation at hlock
    dsimp only at hlock
    split at hlock
    · cases hlock
    · rename_i hrows
      rw [← (Except.mapM_ok.mp hlock).length_eq]
      exact not_not.mp hrows
  obtain ⟨hook, rfl⟩ := List.length_eq_one_iff.mp hlength
  exact ⟨hook, rfl⟩

theorem storeCallAmong_ok {call : Database → Except StoreError (α × Database)} {a : α}
    {s s' : Shared Database ι} (h : storeCallAmong step call s = (.ok a, s')) :
    call (s.yield step).2.state = .ok (a, s'.state) ∧ s'.others = (s.yield step).2.others := by
  have hcalled : s.call step (mapStoreError lostConnection)
      (fun database => liftStore (call database)) = (.ok a, s') := h
  obtain ⟨hcall, -, hothers⟩ := Shared.call_ok hcalled
  exact ⟨liftStore_ok.mp hcall, hothers⟩

/-- A store call that fails leaves what the others did, unless its answer is lost. -/
theorem storeCallAmong_error {call : Database → Except StoreError (α × Database)}
    {e : ApplicationError} {s s' : Shared Database ι}
    (h : storeCallAmong step call s = (.error e, s')) :
    s' = (s.yield step).2 ∨ (e = mapStoreError lostConnection ∧ ∃ a state,
      call (s.yield step).2.state = .ok (a, state) ∧ s' = { (s.yield step).2 with state }) := by
  have hcalled : s.call step (mapStoreError lostConnection)
      (fun database => liftStore (call database)) = (.error e, s') := h
  obtain ⟨-, -, hafter⟩ | ⟨-, hafter⟩ | ⟨hlost, -, a, state, hcall, hafter⟩ :=
    Shared.call_error hcalled
  · exact .inl hafter
  · exact .inl hafter
  · exact .inr ⟨hlost, a, state, liftStore_ok.mp hcall, hafter⟩

theorem UpdateHookCommand.activated_of_ok {enabled : Bool} {now : Instant} {updated : List Hook}
    {after : Database} (hpatch : command.patch.enabled = some enabled)
    (h : database.setHooksEnabled ⟨command.siliconUuid, [command.hookId], enabled, now⟩
      (actorRef command.authorization) = .ok (updated, after)) :
    command.activated now database = after := by
  rw [activated, hpatch]
  show commit database _ = after
  rw [h]
  rfl

theorem UpdateHookCommand.ActivatedAmong.yield {now : Instant} {s : Shared Database StoredLabel}
    (h : command.ActivatedAmong now database s.others s.state) :
    command.ActivatedAmong now database (s.yield storedStep).2.others
      (s.yield storedStep).2.state := by
  obtain ⟨first, second, hothers, hstate⟩ := h
  obtain ⟨fate, labels, hyield⟩ := @Shared.yield_steps _ _ storedStep s
  rw [hyield]
  exact ⟨first, second ++ labels, by rw [hothers, List.append_assoc], by
    dsimp only
    rw [run_append, ← hstate]⟩

theorem UpdateHookCommand.ActivatedAmong.untouched {now : Instant}
    {s : Shared Database StoredLabel} (h : command.ActivatedAmong now database s.others s.state)
    (hpatch : command.patch.enabled = none) : s.Untouched storedStep database := by
  obtain ⟨first, second, hothers, hstate⟩ := h
  rw [Shared.Untouched, hothers, run_append, hstate, activated, hpatch]

theorem updateAmong_error {app : HookApplication} {nonce : List UInt8}
    {activatedAt updatedAt : Instant} {s s' : Shared Database StoredLabel} {e : ApplicationError}
    (h : app.updateAmong storedStep command nonce activatedAt updatedAt s = (.error e, s')) :
    s' = s ∨ s' = (s.yield storedStep).2 ∨ ∃ existing changes,
      app.prepareUpdate command nonce existing = .ok changes ∧
        (activatePatchedAmong storedStep command existing activatedAt (s.yield storedStep).2 =
            (.error e, s') ∨
          ∃ current s₁, activatePatchedAmong storedStep command existing activatedAt
              (s.yield storedStep).2 = (.ok current, s₁) ∧
            command.patch.changesMetadata = true ∧
            storeCallAmong storedStep (Database.updateHook
              ⟨command.siliconUuid, command.hookId, changes⟩ (actorRef command.authorization)
                updatedAt) s₁ = (.error e, s')) := by
  unfold updateAmong at h
  obtain hreads | ⟨⟨⟩, s₁, hreads, h⟩ := Program.bind_error h
  · exact .inl (Program.lift_eq hreads).2.symm
  obtain rfl := (Program.lift_eq hreads).2
  have hleft := (queryAmong_read (s := s) storedStep
    (loadHook command.siliconUuid command.hookId)).1
  obtain hquery | ⟨existing, s₂, hquery, h⟩ := Program.bind_error h
  · rw [hquery] at hleft
    exact .inr (.inl hleft)
  rw [hquery] at hleft
  obtain rfl : s₂ = (s.yield storedStep).2 := hleft
  obtain hprepare | ⟨changes, s₃, hprepare, h⟩ := Program.bind_error h
  · exact .inr (.inl (Program.lift_eq hprepare).2.symm)
  obtain ⟨hprepared, rfl⟩ := Program.lift_eq hprepare
  refine .inr (.inr ⟨existing, changes, hprepared, ?_⟩)
  obtain hactivate | ⟨current, s₄, hactivate, h⟩ := Program.bind_error h
  · exact .inl hactivate
  · refine .inr ⟨current, s₄, hactivate, ?_⟩
    cases hmetadata : command.patch.changesMetadata with
    | false =>
      rw [hmetadata] at h
      cases h
    | true =>
      rw [hmetadata] at h
      exact ⟨rfl, h⟩

/-- An update that fails leaves nothing, its activation alone, or, where the answer
of its last transaction is lost, all it asks for; never part of the metadata. -/
theorem update_error_leaves (app : HookApplication) (command : UpdateHookCommand)
    (nonce : List UInt8) (activatedAt updatedAt : Instant) (database : Database)
    (turns : List (Turn StoredLabel)) (e : ApplicationError) (after : Shared Database StoredLabel)
    (h : app.updateAmong storedStep command nonce activatedAt updatedAt (.begin database turns) =
      (.error e, after)) :
    UpdateLeft app command nonce activatedAt updatedAt database e after.others after.state := by
  have hfirst : ((Shared.begin database turns).yield storedStep).2.Untouched storedStep database :=
    (Shared.untouched_begin database turns).yield
  have hnothing {s : Shared Database StoredLabel} (hs : s.Untouched storedStep database) :
      UpdateLeft app command nonce activatedAt updatedAt database e s.others s.state :=
    hs ▸ .nothing s.others
  obtain rfl | rfl | ⟨existing, changes, hprepared, hactivate | ⟨current, s₁, hactivate, hmetadata,
    hwrite⟩⟩ := updateAmong_error h
  · exact hnothing (Shared.untouched_begin database turns)
  · exact hnothing hfirst
  · -- the activation failed, or its answer was lost
    unfold activatePatchedAmong at hactivate
    cases hpatch : command.patch.enabled with
    | none =>
      rw [hpatch] at hactivate
      cases hactivate
    | some enabled =>
      rw [hpatch] at hactivate
      obtain hcall | ⟨updated, s₂, hcall, hanswer⟩ := Program.bind_error hactivate
      · obtain rfl | ⟨hlost, updated, state, hmade, rfl⟩ := storeCallAmong_error hcall
        · exact hnothing hfirst.yield
        · refine .activation _ _ (by rw [hpatch]; rfl) (.inr hlost) ⟨_, [], (List.append_nil _).symm, ?_⟩
          rw [run_nil, ← hfirst.yield]
          exact (command.activated_of_ok hpatch hmade).symm
      · obtain ⟨hook, hlast⟩ := setHooksEnabled_answers (Database.audited_ok (storeCallAmong_ok hcall).1)
        rw [hlast] at hanswer
        cases hanswer
  · have hactivated : command.ActivatedAmong activatedAt database s₁.others s₁.state := by
      unfold activatePatchedAmong at hactivate
      cases hpatch : command.patch.enabled with
      | none =>
        rw [hpatch] at hactivate
        cases hactivate
        refine ⟨_, [], (List.append_nil _).symm, ?_⟩
        rw [run_nil, ← hfirst, UpdateHookCommand.activated, hpatch]
      | some enabled =>
        rw [hpatch] at hactivate
        obtain ⟨updated, s₂, hcall, hanswer⟩ := Program.bind_ok hactivate
        obtain ⟨hmade, hothers⟩ := storeCallAmong_ok hcall
        obtain ⟨hook, hlast⟩ := setHooksEnabled_answers (Database.audited_ok hmade)
        rw [hlast] at hanswer
        cases hanswer
        refine ⟨_, [], (List.append_nil _).symm, ?_⟩
        rw [run_nil, hothers, ← hfirst.yield]
        exact (command.activated_of_ok hpatch hmade).symm
    obtain rfl | ⟨hlost, updated, state, hmade, rfl⟩ := storeCallAmong_error hwrite
    · cases hpatch : command.patch.enabled with
      | none =>
        have huntouched := hactivated.yield.untouched hpatch
        exact hnothing huntouched
      | some enabled =>
        exact .activation _ _ (by rw [hpatch]; rfl) (.inl hmetadata) hactivated.yield
    · have hwritten : command.written changes updatedAt (s₁.yield storedStep).2.state = state := by
        rw [UpdateHookCommand.written, hmade]
        rfl
      rw [← hwritten]
      exact .everything _ _ changes existing hprepared hmetadata hlost hactivated.yield

end Update

-- a pause and a new name, the connection failing between them
namespace HalfUpdate

def command : UpdateHookCommand :=
  ⟨StaleUpdate.owner, StaleUpdate.hookId, ⟨some ⟨"renamed", by decide⟩, none, none, some false, none⟩⟩

def database : Database := ⟨StaleUpdate.database, []⟩

def turns : List (Turn StoredLabel) := [⟨[], .answered⟩, ⟨[], .answered⟩, ⟨[], .rolledBack⟩]

def answer : Except ApplicationError Hook × Shared Database StoredLabel :=
  StaleUpdate.application.updateAmong storedStep command [] 1 2 (.begin database turns)

theorem answer_error : ∃ e, answer.1 = .error e := by
  have hfails : answer.1.toOption.isSome = false := by decide +kernel
  cases h : answer.1 with
  | error e => exact ⟨e, rfl⟩
  | ok hook =>
    rw [h] at hfails
    cases hfails

theorem left_something : ∃ e, answer.1 = .error e ∧
    UpdateLeft StaleUpdate.application command [] 1 2 database e answer.2.others answer.2.state := by
  obtain ⟨e, he⟩ := answer_error
  exact ⟨e, he, update_error_leaves StaleUpdate.application command [] 1 2 database turns e answer.2
    (Prod.ext he rfl)⟩

/-- The update fails and the hook stays paused. -/
theorem paused_hook : ¬ ∀ (app : HookApplication) (command : UpdateHookCommand)
    (nonce : List UInt8) (activatedAt updatedAt : Instant) (database : Database)
    (turns : List (Turn StoredLabel)) (e : ApplicationError) (after : Shared Database StoredLabel),
    app.updateAmong storedStep command nonce activatedAt updatedAt (.begin database turns) =
      (.error e, after) →
    after.state.db.hooks.find command.hookId =
      (run storedStep database after.others).db.hooks.find command.hookId := by
  intro h
  obtain ⟨e, he⟩ := answer_error
  have hsame := h StaleUpdate.application command [] 1 2 database turns e answer.2 (Prod.ext he rfl)
  have hothers : answer.2.others = [] := rfl
  rw [hothers] at hsame
  have hpaused : (answer.2.state.db.hooks.find command.hookId).any (·.disabledAt.isSome) = true ∧
      (database.db.hooks.find command.hookId).any (·.disabledAt.isSome) = false := by
    decide +kernel
  have hactive := congrArg (Option.any (·.disabledAt.isSome)) hsame
  exact absurd (hpaused.1.symm.trans (hactive.trans hpaused.2)) (by decide)

end HalfUpdate

end SiliconHook
