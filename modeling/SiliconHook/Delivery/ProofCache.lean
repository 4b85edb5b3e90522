import SiliconHook.Delivery.Publisher
import SiliconHook.Infrastructure.Accounts
import SiliconHook.Library.Transition

/-!
# Proofs for Ting

A process keeps one verification proof a scope and asks Silicon Accounts for
another shortly before it expires, with the refresh token it holds or anew. The
lock over the cache is held while Accounts is asked; a caller that is dropped
meanwhile gives it back and leaves the cache as it is.
-/

namespace SiliconHook

structure IssuedProof where
  proofToken : String
  proofRefreshToken : Option String
  expiresAt : Option Instant
  deriving DecidableEq

structure CachedProof where
  token : String
  refresh : Option String
  expiresAt : Option Instant
  deriving DecidableEq

def renewBeforeExpiry : Int := 60 * Instant.second

def maxProofPause : Nat := 300

def CachedProof.fresh (cached : CachedProof) (now : Instant) : Bool :=
  cached.expiresAt.all fun expiresAt => decide (now + renewBeforeExpiry < expiresAt)

/-- The pause after this many failures in a row, in seconds. -/
def proofPause (failures : Nat) : Nat :=
  min (firstProofPause * 2 ^ min (failures - 1) 8) maxProofPause

example : [0, 1, 2, 3, 4, 5, 40].map proofPause = [30, 30, 60, 120, 240, 300, 300] := by decide

def AccountsError.toText : AccountsError → String
  | .unavailable message => "Silicon Accounts is unavailable: " ++ message
  | .rejected status code message =>
    "Silicon Accounts refused (" ++ toString status ++ " " ++ code ++ "): " ++ message

/-- `pausedUntil` is on the monotonic clock. -/
structure CacheState where
  proof : Option CachedProof
  failures : Nat
  pausedUntil : Option Instant
  lastFailure : String
  deriving DecidableEq

/-- What Accounts is asked for: a refresh with this token, or a proof; after the
refusal of a refresh token, that token. -/
inductive ProofRequest
  | refresh (token : String)
  | issue (refused : Option String)
  deriving DecidableEq

inductive ProofTurn
  | returns (result : Except DeliveryError String)
  | asks (request : ProofRequest)

def cache (issued : IssuedProof) : CachedProof :=
  ⟨issued.proofToken, issued.proofRefreshToken, issued.expiresAt⟩

namespace CacheState

def empty : CacheState := ⟨none, 0, none, ""⟩

def refreshToken (state : CacheState) : Option String := state.proof.bind CachedProof.refresh

def nextRequest (state : CacheState) : ProofRequest :=
  match state.refreshToken with
  | some token => .refresh token
  | none => .issue none

/-- `token` up to the request: a fresh proof, a pause, or a request. -/
def token (state : CacheState) (now elapsed : Instant) : ProofTurn :=
  match state.proof.filter (·.fresh now) with
  | some cached => .returns (.ok cached.token)
  | none =>
    match state.pausedUntil.filter (elapsed < ·) with
    | some pausedUntil =>
      .returns (.error (.proofPaused ((pausedUntil - elapsed) / Instant.second).toNat))
    | none => .asks state.nextRequest

def failed (state : CacheState) (error : AccountsError) (elapsed : Instant) : CacheState :=
  let failures := state.failures + 1
  { state with
    failures
    pausedUntil := some (elapsed + proofPause failures * Instant.second)
    lastFailure := error.toText }

/-- `token` from an answer on: a proof is kept, a refusal of the refresh token
leads to a new request, any other failure to a pause. -/
def answered (state : CacheState) (request : ProofRequest)
    (answer : Except AccountsError IssuedProof) (elapsed : Instant) : CacheState × ProofTurn :=
  match request, answer with
  | _, .ok issued =>
    ({ state with proof := some (cache issued), failures := 0, pausedUntil := none },
      .returns (.ok issued.proofToken))
  | .refresh refused, .error (.rejected ..) => (state, .asks (.issue (some refused)))
  | _, .error error => (state.failed error elapsed, .returns (.error .proof))

/-- Forgets the proof token after Ting refused it; the refresh token stays. -/
def forgetToken (state : CacheState) (refused : String) : CacheState :=
  { state with proof := state.proof.map fun cached =>
      if cached.token = refused then { cached with expiresAt := some 0 } else cached }

end CacheState

-- -----------------------------------------------------------------------------
-- Callers
-- -----------------------------------------------------------------------------

/-- The cache of one scope among its callers: the request the caller with the lock
waits for, and, as ledgers, the refresh tokens Accounts answered with and those it
was presented with. `lost` holds from the end of a call that presented the cached
refresh token and got no proof until the next proof. -/
structure ProofCache where
  state : CacheState
  lock : Option ProofRequest
  received : List String
  presented : List String
  lost : Bool

inductive ProofStep
  /-- A caller of `token` has the lock. -/
  | token (now elapsed : Instant)
  /-- Accounts answers the caller with the lock. -/
  | answer (result : Except AccountsError IssuedProof) (elapsed : Instant)
  /-- The caller with the lock is dropped. -/
  | cancel
  /-- A caller of `forget_token` has the lock. -/
  | forgetToken (refused : String)

def ProofRequest.spent : ProofRequest → Option String
  | .refresh token => some token
  | .issue refused => refused

namespace ProofCache

def new : ProofCache := ⟨.empty, none, [], [], false⟩

def asking (proofs : ProofCache) (request : ProofRequest) : ProofCache :=
  match request with
  | .refresh token =>
    { proofs with lock := some request, presented := token :: proofs.presented }
  | .issue _ => { proofs with lock := some request }

def turn (proofs : ProofCache) : ProofTurn → ProofCache
  | .returns _ => { proofs with lock := none }
  | .asks request => proofs.asking request

def step (proofs : ProofCache) (label : ProofStep) : ProofCache :=
  match label, proofs.lock with
  | .token now elapsed, none => proofs.turn (proofs.state.token now elapsed)
  | .answer result elapsed, some request =>
    let (state, turn) := proofs.state.answered request result elapsed
    let proofs := { proofs with state }
    match result, turn with
    | .ok issued, turn =>
      { proofs with
        received := issued.proofRefreshToken.toList ++ proofs.received
        lost := false }.turn turn
    | .error _, .returns result =>
      { proofs with lost := proofs.lost || request.spent.isSome }.turn (.returns result)
    | .error _, .asks request => proofs.turn (.asks request)
  | .cancel, some request =>
    { proofs with lock := none, lost := proofs.lost || request.spent.isSome }
  | .forgetToken refused, none => { proofs with state := proofs.state.forgetToken refused }
  | _, _ => proofs

end ProofCache

end SiliconHook
