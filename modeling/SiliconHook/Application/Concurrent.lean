import SiliconHook.Application.Lifecycle
import SiliconHook.Library.Interleaving

/-!
# Hook use cases among others

The deletion and the update of a hook with other transactions between their
store calls, any of which can fail. Alone they are the use cases themselves.
-/

namespace SiliconHook

variable {ι : Type} (step : Database → ι → Database)

abbrev SharedCase (ι α : Type) := Program (Shared Database ι) ApplicationError α

/-- What a store answers when its connection fails. -/
def lostConnection : StoreError := .database "connection"

def storeCallAmong (call : Database → Except StoreError (α × Database)) : SharedCase ι α :=
  Program.transactAmong step (mapStoreError lostConnection) fun database => liftStore (call database)

def queryAmong (f : Store → Except ApplicationError α) : SharedCase ι α :=
  Program.transactAmong step (mapStoreError lostConnection) fun database =>
    (f database.db).map (·, database)

namespace HookApplication

def activatePatchedAmong (command : UpdateHookCommand) (existing : Hook) (now : Instant) :
    SharedCase ι Hook :=
  match command.patch.enabled with
  | none => return existing
  | some enabled => do
    let updated ← storeCallAmong step (Database.setHooksEnabled
      ⟨command.siliconUuid, [command.hookId], enabled, now⟩ (actorRef command.authorization))
    match updated.getLast? with
    | none => liftM (m := Except ApplicationError) (.error .internal)
    | some current => return current

def updateAmong (app : HookApplication) (command : UpdateHookCommand) (nonce : List UInt8)
    (activatedAt updatedAt : Instant) : SharedCase ι Hook := do
  authorizeAction command.authorization .readHook
  let existing ← queryAmong step (loadHook command.siliconUuid command.hookId)
  let changes ← app.prepareUpdate command nonce existing
  let current ← activatePatchedAmong step command existing activatedAt
  if !command.patch.changesMetadata then return current
  storeCallAmong step (Database.updateHook ⟨command.siliconUuid, command.hookId, changes⟩
    (actorRef command.authorization) updatedAt)

def deleteHookAmong (command : DeleteHookCommand) (now : Instant) : SharedCase ι Unit := do
  authorizeAction command.authorization .readHook
  let hook ← queryAmong step (loadHook command.authorization.silicon.uuid command.hookId)
  authorizeAction command.authorization .deleteHook
  if hook.status = .deleted then return ()
  match ← Program.attemptAmong step lostConnection (Database.deleteHook
      ⟨command.authorization.silicon.uuid, command.hookId, now⟩
      (actorRef command.authorization)) with
  | .ok _ | .error (.stateConflict _) => return ()
  | .error e => liftM (m := Except ApplicationError) (.error (mapStoreError e))

open Program

theorem storeCall_alone (call : Database → Except StoreError (α × Database)) :
    Alone (storeCallAmong step call) (storeCall call) := .transact _

theorem query_alone (f : Store → Except ApplicationError α) :
    Alone (queryAmong step f) (query f) := .read fun database : Database => f database.db

/-- Where nothing else steps, the update of the runs is that of the use case. -/
theorem update_alone (app : HookApplication) (command : UpdateHookCommand) (nonce : List UInt8)
    (activatedAt updatedAt : Instant) :
    Alone (app.updateAmong step command nonce activatedAt updatedAt)
      (app.update command nonce activatedAt updatedAt) := by
  refine .bind (.lift _) fun _ => .bind (query_alone step _) fun existing =>
    .bind (.lift _) fun changes => .bind ?_ fun current => ?_
  · unfold activatePatchedAmong activatePatched
    cases command.patch.enabled with
    | none => exact .pure _
    | some enabled =>
      refine .bind (storeCall_alone step _) fun updated => ?_
      cases updated.getLast? with
      | none => exact .lift _
      | some updated => exact .pure _
  · cases command.patch.changesMetadata with
    | false => exact .pure _
    | true => exact storeCall_alone step _

theorem deleteHook_alone (command : DeleteHookCommand) (now : Instant) :
    Alone (deleteHookAmong step command now) (deleteHook command now) := by
  refine .bind (.lift _) fun _ => .bind (query_alone step _) fun hook => .bind (.lift _) fun _ => ?_
  by_cases hdeleted : hook.status = .deleted
  · rw [if_pos hdeleted, if_pos hdeleted]
    exact .pure _
  · rw [if_neg hdeleted, if_neg hdeleted]
    refine .bind (.attempt _) fun made => ?_
    cases made with
    | ok deleted => exact .pure _
    | error e =>
      cases e with
      | stateConflict => exact .pure _
      | _ => exact .lift _

end HookApplication

end SiliconHook
