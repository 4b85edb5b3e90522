import SiliconHook.Domain.Identity

/-!
# Access to a Silicon's hooks

The Silicon and its custodian have full control; anyone else needs a grant.
-/

namespace SiliconHook

inductive GrantLevel
  | view
  | manage
  deriving DecidableEq, Repr

inductive Access
  | own
  | custodian
  | grant (level : GrantLevel)
  deriving DecidableEq, Repr

inductive Action
  | listHooks
  | readHook
  | readEvents
  | createHook
  | updateHook
  | setHookEnabled
  | deleteHook
  | restoreHook
  | rotateSecret
  | rotateEndpoint
  | connectAccountsHook
  | manageAccess
  | manageAllowList
  | observe
  deriving DecidableEq, Repr

structure SiliconRef where
  uuid : AccountUuid
  id : Option PublicId
  deriving DecidableEq, Repr

structure AuthorizationContext where
  actor : Actor
  silicon : SiliconRef
  access : Access
  deriving DecidableEq, Repr

inductive AuthorizationDecision
  | allowed
  | forbidden (reason : String)
  deriving DecidableEq, Repr

def Access.isFull : Access → Bool
  | .own | .custodian => true
  | .grant _ => false

def authorize (context : AuthorizationContext) (action : Action) : AuthorizationDecision :=
  let full := context.access.isFull
  let manage := full || context.access == .grant .manage
  match action with
  | .listHooks | .readHook | .readEvents => .allowed
  | .createHook | .updateHook | .setHookEnabled | .deleteHook | .restoreHook | .rotateSecret
  | .rotateEndpoint =>
    if manage then .allowed
    else .forbidden "changing hooks needs the Silicon itself, its custodian, or a manage grant; you have view access"
  | .connectAccountsHook | .manageAccess | .manageAllowList =>
    if full then .allowed
    else .forbidden "only the Silicon itself or its custodian can do this"
  | .observe =>
    if context.actor.kind ≠ .carbon then
      .forbidden "only Carbons observe a Silicon's events; the Silicon itself receives them directly"
    else if context.access = .own then
      .forbidden "a Silicon receives its own events directly"
    else .allowed

end SiliconHook
