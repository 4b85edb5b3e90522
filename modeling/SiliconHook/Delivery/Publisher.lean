import SiliconHook.Store.Ting

/-!
# The publisher

A publisher claims one send, checks that the claim still holds, sends the
request and records the outcome. No transaction spans the request.
-/

namespace SiliconHook

inductive TingError
  | invalidInput (code : String)
  | transport
  | invalidResponse
  | responseTooLarge
  | rejected (status : Nat) (code : String) (retryable : Bool) (retryAfter : Option Nat)
  deriving DecidableEq, Repr

namespace TingError

def retryable : TingError → Bool
  | .invalidInput _ => false
  | .transport | .invalidResponse | .responseTooLarge => true
  | .rejected _ _ retryable _ => retryable

def retryAfter : TingError → Option Nat
  | .rejected _ _ _ retryAfter => retryAfter
  | _ => none

end TingError

/-- Why a send was not confirmed; delays are in seconds. -/
inductive DeliveryError
  | proof
  | proofPaused (retryIn : Nat)
  | ting (error : TingError)
  deriving DecidableEq, Repr

structure TingAccepted where
  id : String
  silent : Bool
  deriving DecidableEq, Repr

def firstProofPause : Nat := 30
def publisherLease : Int := 180 * Instant.second

def retryDelay (attempts : Nat) (transient : Bool) : Nat :=
  if !transient then 300 else min (2 * 2 ^ min (attempts - 1) 8) 300

def failure (error : TingError) : TingSendFailure :=
  match error with
  | .transport => .transportUnavailable
  | .invalidResponse | .responseTooLarge => .invalidResponse
  | .rejected status code _ _ =>
    if status = 429 then .rateLimited
    else if 500 ≤ status ∧ status ≤ 599 then .tingUnavailable
    else if code = "recipient_not_registered" then .recipientNotRegistered
    else if code = "required_delivery_not_enabled" then .requiredDeliveryNotEnabled
    else if code = "idempotency_conflict" then .idempotencyConflict
    else if code = "permission_denied" then .consentRequired
    else if status = 401 ∨ status = 403 then .tingUnauthorized
    else if status = 404 then .typeNotRegistered
    else .requestRejected
  | .invalidInput _ => .requestRejected

def retryPlan (claim : TingOutboxClaim) (error : DeliveryError) : TingSendFailure × Nat :=
  match error with
  | .proof => (.proofUnavailable, firstProofPause)
  | .proofPaused retryIn => (.proofUnavailable, max retryIn firstProofPause)
  | .ting error =>
    (failure error, error.retryAfter.getD (retryDelay claim.attempts error.retryable))

/-- Records the outcome of a send. `observed` is the publisher's own clock, `now`
the database's. -/
def recordOutcome (claim : TingOutboxClaim) (result : Except DeliveryError TingAccepted)
    (observed now : Instant) (db : Store) : Except StoreError Store :=
  match result with
  | .ok accepted => (completeTing claim accepted.id accepted.silent now db).map Prod.snd
  | .error error =>
    let (failure, delay) := retryPlan claim error
    .ok (retryTing claim failure (observed + min delay 3600 * Instant.second) now db).2

end SiliconHook
