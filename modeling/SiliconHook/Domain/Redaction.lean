import SiliconHook.Domain.Eval

/-!
# Redaction

What is taken out of a captured request before it is retained.
-/

namespace SiliconHook

open Encoding Text

namespace JsonValue

mutual

def same : JsonValue → JsonValue → Bool
  | .null, .null => true
  | .bool value, .bool other => value = other
  | .number text, .number other => text = other
  | .string value, .string other => value = other
  | .array values, .array others => sameAll values others
  | .object members, .object others => sameMembers members others
  | _, _ => false

def sameAll : List JsonValue → List JsonValue → Bool
  | [], [] => true
  | value :: rest, other :: others => same value other && sameAll rest others
  | _, _ => false

def sameMembers : List (String × JsonValue) → List (String × JsonValue) → Bool
  | [], [] => true
  | (name, value) :: rest, (name', other) :: others =>
    name = name' && same value other && sameMembers rest others
  | _, _ => false

end

mutual

theorem same_iff : ∀ value other : JsonValue, same value other = true ↔ value = other
  | .null, other => by cases other <;> simp [same]
  | .bool value, other => by cases other <;> simp [same]
  | .number text, other => by cases other <;> simp [same]
  | .string value, other => by cases other <;> simp [same]
  | .array values, other => by
    have hvalues := sameAll_iff values
    cases other <;> simp [same, hvalues]
  | .object members, other => by
    have hmembers := sameMembers_iff members
    cases other <;> simp [same, hmembers]

theorem sameAll_iff : ∀ values others : List JsonValue,
    sameAll values others = true ↔ values = others
  | [], others => by cases others <;> simp [sameAll]
  | value :: rest, others => by
    have hvalue := same_iff value
    have hrest := sameAll_iff rest
    cases others <;> simp [sameAll, hvalue, hrest]

theorem sameMembers_iff : ∀ members others : List (String × JsonValue),
    sameMembers members others = true ↔ members = others
  | [], others => by cases others <;> simp [sameMembers]
  | (name, value) :: rest, others => by
    have hvalue := same_iff value
    have hrest := sameMembers_iff rest
    cases others with
    | nil => simp [sameMembers]
    | cons other others =>
      obtain ⟨name', other⟩ := other
      simp [sameMembers, hvalue, hrest]

end

instance : DecidableEq JsonValue := fun value other => decidable_of_iff _ (same_iff value other)

end JsonValue

-- -----------------------------------------------------------------------------
-- Credentials
-- -----------------------------------------------------------------------------

def sensitive (name : String) : Bool :=
  ["authorization", "cookie", "set-cookie", "x-hook-test-key", "x-hook-test-app-secret",
    "x-testing-environment-key", "x-testing-application", "app_secret", "testing_key",
    "iam_test_key", "access_token", "refresh_token", "client_secret"].contains
      (asciiLowercase name)

def redactedText : String := "[REDACTED]"

mutual

def redact : JsonValue → JsonValue
  | .array values => .array (redactAll values)
  | .object members => .object (redactMembers members)
  | value => value

def redactAll : List JsonValue → List JsonValue
  | [] => []
  | value :: rest => redact value :: redactAll rest

def redactMembers : List (String × JsonValue) → List (String × JsonValue)
  | [] => []
  | (name, value) :: rest =>
    (name, if sensitive name then .string redactedText else redact value) :: redactMembers rest

end

def redactPair (pair : String × String) : String × String :=
  (pair.1, if sensitive pair.1 then redactedText else pair.2)

namespace CapturedRequest

/-- The body written anew where a member in it was redacted; its length is another then. -/
def redactBody (lib : ExpressionLibrary) (request : CapturedRequest) : CapturedRequest :=
  match lib.parseJson request.body with
  | some value =>
    if redact value ≠ value then
      { request with
        body := utf8 (redact value).render
        headers := request.headers.filter (·.1 ≠ "content-length") }
    else request
  | none => request

def redactQuery (lib : ExpressionLibrary) (request : CapturedRequest) : CapturedRequest :=
  let query := (lib.queryPairs request.url).map redactPair
  if query.any (sensitive ·.1) then
    { request with url := lib.withQuery (some query) request.url }
  else request

/-- Removes credential fields after signature verification and before retention. -/
def withoutCredentials (lib : ExpressionLibrary) (request : CapturedRequest) : CapturedRequest :=
  let request := { request with headers := request.headers.map redactPair }
  (request.redactBody lib).redactQuery lib

end CapturedRequest

end SiliconHook
