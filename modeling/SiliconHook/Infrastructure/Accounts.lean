import SiliconHook.Library.Encoding
import SiliconHook.Library.Table
import SiliconHook.Domain.Identity

/-!
# Silicon Accounts

What Hook asks Silicon Accounts and what it remembers of the answers. Token
verification and the requests themselves are the Accounts client's: each call
is given the answers it gets.
-/

namespace SiliconHook

open Encoding

structure Claims where
  sub : String
  kind : Option ActorKind
  id : Option String
  iat : Option Int
  exp : Int
  deriving DecidableEq

inductive VerifyFailure
  | rejected (code message : String)
  | unavailable (message : String)
  deriving DecidableEq

structure ClientError where
  status : Option Nat
  code : String
  message : String
  deriving DecidableEq

inductive AccountsError
  | unavailable (message : String)
  | rejected (status : Nat) (code message : String)
  deriving DecidableEq

def AccountsError.ofClient (error : ClientError) : AccountsError :=
  match error.status with
  | some status =>
    if 400 ≤ status ∧ status < 500 ∧ status ≠ 429 then
      .rejected status error.code error.message
    else .unavailable error.message
  | none => .unavailable error.message

structure CustodianSummary where
  uuid : String
  id : String
  deriving DecidableEq

structure AccountSummary where
  uuid : String
  kind : ActorKind
  id : String
  status : String
  custodian : Option CustodianSummary
  deriving DecidableEq

structure Introspection where
  active : Bool
  clientId : Option String
  deriving DecidableEq

inductive Lookup
  | found (summary : AccountSummary)
  | notFound
  | deleted
  deriving DecidableEq

structure AccountsClient where
  verify : String → Except VerifyFailure Claims
  introspect : String → Except ClientError Introspection
  lookup : String → Except ClientError AccountSummary
  lookupById : String → Except ClientError AccountSummary

structure AccountsGateway where
  appId : String
  sha256 : List UInt8 → List UInt8

structure RememberedToken where
  digest : List UInt8
  instant : Instant
  deriving DecidableEq

instance : Keyed RememberedToken (List UInt8) := ⟨RememberedToken.digest⟩

/-- What the gateway keeps between calls, and the tokens it has asked Silicon
Accounts about. -/
structure GatewayMemory where
  inactiveTokens : Table RememberedToken
  afterSignOut : Table RememberedToken
  /-- Start of the current minute of lookups, and how many it saw. -/
  lookups : Instant × Nat
  introspected : List String
  deriving DecidableEq

def GatewayMemory.empty (now : Instant) : GatewayMemory := ⟨.empty, .empty, (now, 0), []⟩

def inactiveTokenMemory : Int := Instant.minutes 30
def lookupsPerMinute : Nat := 300
def maxRememberedInactiveTokens : Nat := 10000
def maxRememberedSameSecondTokens : Nat := 10000

/-- `HashMap::insert`. -/
def remember (tokens : Table RememberedToken) (digest : List UInt8) (instant : Instant) :
    Table RememberedToken :=
  tokens.upsert ⟨digest, instant⟩ (fun row => { row with instant := instant }) fun _ => rfl

/-- Forgets the tokens that are no longer refused, or all of them where every one
still is. -/
def GatewayMemory.rememberInactive (memory : GatewayMemory) (digest : List UInt8) (now : Instant) :
    GatewayMemory :=
  let tokens := memory.inactiveTokens
  let tokens :=
    if maxRememberedInactiveTokens ≤ tokens.rows.length then
      let live := tokens.delete fun row => decide (inactiveTokenMemory ≤ now - row.instant)
      if maxRememberedInactiveTokens ≤ live.rows.length then .empty else live
    else tokens
  { memory with inactiveTokens := remember tokens digest now }

def GatewayMemory.rememberAfterSignOut (memory : GatewayMemory) (digest : List UInt8)
    (signedOutAt : Instant) : GatewayMemory :=
  let tokens := memory.afterSignOut
  let tokens :=
    if maxRememberedSameSecondTokens ≤ tokens.rows.length then .empty else tokens
  { memory with afterSignOut := remember tokens digest signedOutAt }

namespace AccountsGateway

/-- Whether a token is still active. Only inactive answers are remembered. -/
def introspectActive (gateway : AccountsGateway) (client : AccountsClient) (token : String)
    (now : Instant) (memory : GatewayMemory) : Except AccountsError Bool × GatewayMemory :=
  let digest := gateway.sha256 (utf8 token)
  if (memory.inactiveTokens.find digest).any fun row => now - row.instant < inactiveTokenMemory then
    (.ok false, memory)
  else
    let memory := { memory with introspected := memory.introspected ++ [token] }
    match client.introspect token with
    | .error e => (.error (.ofClient e), memory)
    | .ok answer =>
      let active := answer.active && answer.clientId.all (· = gateway.appId)
      (.ok active, if active then memory else memory.rememberInactive digest now)

/-- Whether a token issued in the same second as a recorded sign-out was issued
after it. A confirmation is remembered per token and sign-out instant. -/
def issuedAfterSignOut (gateway : AccountsGateway) (client : AccountsClient) (token : String)
    (signedOutAt now : Instant) (memory : GatewayMemory) :
    Except AccountsError Bool × GatewayMemory :=
  let digest := gateway.sha256 (utf8 token)
  if (memory.afterSignOut.find digest).map RememberedToken.instant = some signedOutAt then
    (.ok true, memory)
  else
    match gateway.introspectActive client token now memory with
    | (.error e, memory) => (.error e, memory)
    | (.ok active, memory) =>
      (.ok active, if active then memory.rememberAfterSignOut digest signedOutAt else memory)

def spendLookup (now : Instant) (memory : GatewayMemory) :
    Except AccountsError Unit × GatewayMemory :=
  let budget :=
    if Instant.minutes 1 ≤ now - memory.lookups.1 then (now, 0) else memory.lookups
  if lookupsPerMinute ≤ budget.2 then
    (.error (.unavailable ("Hook already looked up " ++ toString lookupsPerMinute ++
      " accounts this minute; retry in a minute")), { memory with lookups := budget })
  else (.ok (), { memory with lookups := (budget.1, budget.2 + 1) })

def classifyLookup (result : Except ClientError AccountSummary) : Except AccountsError Lookup :=
  match result with
  | .ok summary => if summary.status = "deleted" then .ok .deleted else .ok (.found summary)
  | .error e =>
    if e.code = "account_deleted" then .ok .deleted
    else if e.code = "account_not_found" ∨ e.code = "invalid_id" ∨ e.code = "invalid_uuid" then
      .ok .notFound
    else .error (.ofClient e)

def lookup (client : AccountsClient) (value : String) (byId : Bool) (now : Instant)
    (memory : GatewayMemory) : Except AccountsError Lookup × GatewayMemory :=
  match spendLookup now memory with
  | (.error e, memory) => (.error e, memory)
  | (.ok (), memory) =>
    (classifyLookup (if byId then client.lookupById value else client.lookup value), memory)

-- -----------------------------------------------------------------------------
-- What is asked
-- -----------------------------------------------------------------------------

variable {gateway : AccountsGateway} {client : AccountsClient} {memory : GatewayMemory}

@[simp]
theorem spendLookup_introspected (now : Instant) (memory : GatewayMemory) :
    (spendLookup now memory).2.introspected = memory.introspected := by
  unfold spendLookup
  simp only
  split
  · rfl
  · split <;> rfl

@[simp]
theorem lookup_introspected (client : AccountsClient) (value : String) (byId : Bool) (now : Instant)
    (memory : GatewayMemory) :
    (lookup client value byId now memory).2.introspected = memory.introspected := by
  have hspend := spendLookup_introspected now memory
  unfold lookup
  split
  · rename_i h
    rwa [h] at hspend
  · rename_i h
    rwa [h] at hspend

end AccountsGateway

end SiliconHook
