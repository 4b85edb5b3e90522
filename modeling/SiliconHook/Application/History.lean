import SiliconHook.Application.Hooks
import SiliconHook.Infrastructure.CursorCodec

/-!
# Retained history

Pages of a Silicon's verified and withheld requests, each continued by the
cursor of the page before.
-/

namespace SiliconHook

structure ListHistoryCommand where
  authorization : AuthorizationContext
  hookId : Option HookId
  cursor : Option String
  limit : Nat

structure ListedHistory (ρ : Type) where
  items : List ρ
  nextCursor : Option String

namespace CursorCodec

variable (codec : CursorCodec)

def historyRequest (command : ListHistoryCommand) (collection : HistoryCollection) :
    Except ApplicationError (HistoryPageRequest × HistoryCursorScope) := do
  authorizeAction command.authorization .readEvents
  let siliconUuid := command.authorization.silicon.uuid
  ensure (command.limit ≠ 0 ∧ command.limit ≤ maxHistoryLimit) (.validation "limit")
  let scope : HistoryCursorScope := ⟨siliconUuid, collection, ⟨command.hookId⟩⟩
  let cursor ← (command.cursor.mapM (codec.decode scope)).mapError fun _ =>
    ApplicationError.validation "cursor"
  return (⟨siliconUuid, ⟨command.hookId⟩, cursor, command.limit⟩, scope)

def encodePage (page : HistoryPage ρ) (scope : HistoryCursorScope) : ListedHistory ρ :=
  ⟨page.items, page.nextCursor.map (codec.encode scope)⟩

variable (size : CapturedRequest → Nat) (command : ListHistoryCommand) (now : Instant) (db : Store)

def listEvents : Except ApplicationError (ListedHistory EventRecord) := do
  let (request, scope) ← codec.historyRequest command .events
  let page ← liftStore (SiliconHook.listEvents size request now db)
  return codec.encodePage page scope

def listBlockedRequests : Except ApplicationError (ListedHistory BlockedRequest) := do
  let (request, scope) ← codec.historyRequest command .blockedRequests
  let page ← liftStore (SiliconHook.listBlockedRequests size request now db)
  return codec.encodePage page scope

end CursorCodec

end SiliconHook
