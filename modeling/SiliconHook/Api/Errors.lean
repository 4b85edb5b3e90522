import SiliconHook.Application.Hooks
import SiliconHook.Delivery.Prepare

/-!
# Refusals

The errors that cross the HTTP boundary: each has a status, a stable code and a
message, and an internal failure shows nothing of its cause.
-/

namespace SiliconHook

/-- What an answer of the API is made of, as far as a client reads it. -/
structure Response where
  status : Nat
  retryAfter : Option Nat
  body : List UInt8
  deriving DecidableEq

namespace Api

/-- Errors across the application and HTTP boundaries; the cause of an internal
one is left out. -/
inductive AppError
  | badRequest (code : String)
  | validation (code : String) (details : Option String)
  | unauthenticated
  | forbidden
  | blocked (retryAfter : Int)
  | notFound
  | gone (code : String)
  | conflict (code : String)
  | rateLimited (retryAfter : Int)
  | timeout
  | payloadTooLarge
  | unsupportedMediaType
  | methodNotAllowed
  | apiVersionUnsupported
  | providerUnavailable
  | internal
  | refused (status : Nat) (code message : String)
  deriving DecidableEq, Repr

def supportedApiVersions : List String := ["v3"]

namespace AppError

def status : AppError → Nat
  | badRequest _ => 400
  | validation _ _ => 422
  | unauthenticated => 401
  | forbidden | blocked _ => 403
  | refused status _ _ => status
  | notFound => 404
  | gone _ => 410
  | conflict _ => 409
  | rateLimited _ => 429
  | timeout => 408
  | payloadTooLarge => 413
  | unsupportedMediaType => 415
  | methodNotAllowed => 405
  | apiVersionUnsupported => 406
  | providerUnavailable => 503
  | internal => 500

structure PublicParts where
  code : String
  message : String
  details : Option String := none
  deriving DecidableEq, Repr

def publicParts : AppError → PublicParts
  | badRequest code => { code, message := "The request is malformed." }
  | validation code details =>
    { code, message := "The request contains invalid data.", details }
  | unauthenticated =>
    { code := "unauthenticated"
      message := "Authentication is required: send Authorization: Bearer <access token> with a " ++
        "Silicon Accounts access token issued to Hook." }
  | refused _ code message => { code, message }
  | forbidden =>
    { code := "forbidden", message := "The actor is not authorized for this action." }
  | blocked _ =>
    { code := "ip_blocked", message := "The client address is blocked for this endpoint." }
  | notFound =>
    { code := "not_found", message := "The requested resource was not found." }
  | gone code => { code, message := "The requested resource is no longer available." }
  | conflict code =>
    { code, message := "The request conflicts with the current resource state." }
  | rateLimited _ =>
    { code := "rate_limited", message := "Too many requests. Retry later." }
  | timeout =>
    { code := "request_timeout", message := "The request exceeded its processing deadline." }
  | payloadTooLarge =>
    { code := "payload_too_large", message := "The request body exceeds the allowed size." }
  | unsupportedMediaType =>
    { code := "unsupported_media_type", message := "The request media type is not supported." }
  | methodNotAllowed =>
    { code := "method_not_allowed"
      message := "The HTTP method is not allowed for this route." }
  | apiVersionUnsupported =>
    { code := "api_version_unsupported"
      message := "No API version is shared with the client."
      details := some ("supported: " ++ ", ".intercalate supportedApiVersions) }
  | providerUnavailable =>
    { code := "provider_unavailable"
      message := "A required dependency is temporarily unavailable." }
  | internal =>
    { code := "internal_error", message := "An internal service error occurred." }

def envelope (requestId : String) (error : AppError) : Json :=
  let parts := error.publicParts
  .object [("error", .object ([
    ("code", .string parts.code),
    ("message", .string parts.message),
    ("request_id", .string requestId)] ++
      (parts.details.map fun details => ("details", Json.string details)).toList))]

def retryAfter : AppError → Option Int
  | rateLimited retryAfter | blocked retryAfter => some retryAfter
  | _ => none

def intoResponse (requestId : String) (error : AppError) : Response where
  status := error.status
  retryAfter := error.retryAfter.map fun wait => (max (wait / Instant.second) 1).toNat
  body := (error.envelope requestId).toVec

end AppError

def mapApplicationError (now : Instant) : ApplicationError → AppError
  | .validation field => .validation ("invalid_" ++ field) none
  | .validationDetailed field detail => .validation ("invalid_" ++ field) (some detail)
  | .notFound => .notFound
  | .recoveryExpired => .gone "recovery_expired"
  | .endpointRetired => .gone "endpoint_retired"
  | .ipBlocked until' => .blocked (max (until' - now) 0)
  | .idempotencyConflict => .conflict "idempotency_conflict"
  | .stateConflict => .conflict "state_conflict"
  | .secretUnavailable => .gone "secret_unavailable"
  | .hookLimitReached => .conflict "hook_limit_reached"
  | .payloadTooLarge => .payloadTooLarge
  | .refused status code message =>
    .refused (if 100 ≤ status ∧ status < 1000 then status else 400) code message
  | .unavailable => .providerUnavailable
  | .internal => .internal

end Api

end SiliconHook
