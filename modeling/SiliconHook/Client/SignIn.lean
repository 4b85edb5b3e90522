import SiliconHook.Library.Text

/-!
# Signing in from the client

What the client crate makes of the answers of Silicon Accounts to the sign-in
calls of Hook's public client: tokens, or a failure classified so that a caller
can act on it.
-/

namespace SiliconHook.Client

open Text

-- -----------------------------------------------------------------------------
-- Tokens
-- -----------------------------------------------------------------------------

inductive AccountKind
  | carbon
  | silicon
  | unknown
  deriving DecidableEq, Repr

structure Account where
  uuid : String
  kind : AccountKind
  id : String
  displayName : String
  deriving DecidableEq, Repr

/-- Hook tokens; times are seconds, the expiry of the access token from receipt. -/
structure Tokens where
  accessToken : String
  refreshToken : Option String
  expiresIn : Nat
  refreshExpiresAt : Option Int
  scope : Option String
  account : Option Account
  deriving DecidableEq, Repr

-- -----------------------------------------------------------------------------
-- Failures
-- -----------------------------------------------------------------------------

inductive SltRefusal
  | alreadyUsed
  | expired
  | wrongApp
  | unknown
  | notAnSlt
  | ended
  deriving DecidableEq, Repr

inductive SignInErrorKind
  | sltRefused (refusal : SltRefusal)
  | sessionEnded
  | denied
  | expired
  | notEnabled
  | unavailable (maybeProcessed : Bool)
  | rejected
  deriving DecidableEq, Repr

structure SignInError where
  kind : SignInErrorKind
  code : String
  message : String
  hint : String
  status : Option Nat
  deriving DecidableEq, Repr

inductive Step
  | slt
  | refresh
  | device
  | revoke
  deriving DecidableEq, Repr

/-- A failure as the client library of Silicon Accounts reports it. -/
inductive AccountsFailure
  | oauth (status : Nat) (error : String) (description : Option String)
  | api (status : Nat) (code message : String) (hint : Option String)
  | http (message : String) (isConnect isBuilder : Bool)
  | decode (message : String)
  | other (code message : String) (hint : Option String) (status : Option Nat)
  deriving DecidableEq, Repr

abbrev AccountsAnswer := Except AccountsFailure Tokens

def containsChars (part : List Char) : List Char → Bool
  | [] => part.isEmpty
  | c :: rest => part.isPrefixOf (c :: rest) || containsChars part rest

/-- `str::contains`. -/
def containsText (text part : String) : Bool := containsChars part.toList text.toList

def SltRefusal.fromDescription (description : String) : SltRefusal :=
  let text := asciiLowercase description
  if containsText text "already used" then .alreadyUsed
  else if containsText text "was issued for the app" || containsText text "not for '" then .wrongApp
  else if containsText text "not known" || containsText text "never issued" then .unknown
  else if containsText text "starts with slt_" || containsText text "must be a short-lived" then
    .notAnSlt
  else if containsText text "expired at" || containsText text "they last" then .expired
  else .ended

def sltCommand : String := "silicon-accounts login --app hook -q"

def defaultMessage (error : String) : String :=
  if error = "invalid_grant" then
    "Silicon Accounts refused the token: it was already used, it expired, it was revoked, or it belongs to another app."
  else if error = "access_denied" then "The sign-in was denied on the account site."
  else if error = "expired_token" then "The sign-in code expired before it was approved."
  else if error = "unauthorized_client" ∨ error = "invalid_client" then
    "Silicon Accounts does not allow this sign-in for Hook's command-line tool."
  else "Silicon Accounts refused the request (" ++ error ++ ")."

/-- The message of an OAuth error: its description, where one says something. -/
def oauthMessage (error : String) (description : Option String) : String :=
  (description.filter fun text => !(trim text).isEmpty).getD (defaultMessage error)

def SignInError.oauth (step : Step) (status : Nat) (error : String) (description : Option String) :
    SignInError :=
  let message := oauthMessage error description
  if step = .slt ∧ error = "invalid_grant" then
    ⟨.sltRefused (.fromDescription message), error, message,
      "Mint a fresh one and sign in again right away (it works once, for two minutes): \x60" ++
        sltCommand ++ " | hook login --slt-stdin\x60.", some status⟩
  else if step = .slt ∧ error = "invalid_request" ∧ containsText message "slt_" then
    ⟨.sltRefused .notAnSlt, error, message,
      "Hook signs Silicons in with a Silicon Accounts short-lived token: \x60" ++ sltCommand ++
        "\x60.", some status⟩
  else if step = .refresh ∧ error = "invalid_grant" then
    ⟨.sessionEnded, error, message,
      "Sign in again: \x60hook login\x60 (Carbons) or \x60silicon-accounts login --app hook -q | hook login --slt-stdin\x60 (Silicons).",
      some status⟩
  else if step = .device ∧ error = "access_denied" then
    ⟨.denied, error, message, "Run \x60hook login\x60 again if that was a mistake.", some status⟩
  else if step = .device ∧ error = "expired_token" then
    ⟨.expired, error, message,
      "Run \x60hook login\x60 again for a new code and approve it within 10 minutes.", some status⟩
  else if error = "unauthorized_client" ∨ error = "invalid_client" then
    ⟨.notEnabled, error, message,
      "Hook's command-line sign-in needs \x60device_flow\x60 (Carbons) and \x60public_client\x60 (Silicons) in Hook's sign-in setup at this Silicon Accounts. Check ACCOUNTS_URL, or ask Hook's operator.",
      some status⟩
  else if error = "slow_down" ∨ error = "temporarily_unavailable" then
    ⟨.unavailable false, error, message, "Wait a moment and retry.", some status⟩
  else
    ⟨.rejected, error, message,
      if step = .revoke then
        "The local sign-in is removed anyway; revoke the session from your Silicon Accounts sessions if it still shows."
      else "Read the message above; \x60hook docs signin\x60 explains how signing in works.",
      some status⟩

def unreachableAccounts (message : String) (maybeProcessed : Bool) : SignInError :=
  ⟨.unavailable maybeProcessed, "unavailable", message,
    "Check the network and ACCOUNTS_URL, then retry.", none⟩

def SignInError.fromAccounts (step : Step) : AccountsFailure → SignInError
  | .oauth status error description => .oauth step status error description
  | .api status code message hint =>
    if 500 ≤ status ∨ status = 429 then
      ⟨.unavailable false, code, message,
        hint.getD "Silicon Accounts is busy or failing; retry shortly.", some status⟩
    else ⟨.rejected, code, message, hint.getD "", some status⟩
  | .http message isConnect isBuilder => unreachableAccounts message (!isConnect && !isBuilder)
  | .decode message =>
    ⟨.unavailable true, "invalid_response", message,
      "Silicon Accounts answered with something this client does not understand; check ACCOUNTS_URL.",
      none⟩
  | .other code message hint status => ⟨.rejected, code, message, hint.getD "", status⟩

/-- Rotates the refresh token: what `SignIn::refresh` makes of the answer. -/
def refresh (answer : AccountsAnswer) : Except SignInError Tokens :=
  answer.mapError (.fromAccounts .refresh)

-- -----------------------------------------------------------------------------
-- Refreshes
-- -----------------------------------------------------------------------------

/-- A failed refresh that is taken to have left the refresh token as it was. -/
def SignInError.leavesToken (error : SignInError) : Bool :=
  error.kind ≠ .sessionEnded ∧ error.kind ≠ .unavailable true

/-- The same of the failure itself: neither an `invalid_grant`, nor an answer that
could not be read, nor one that never came to a request that was sent. -/
def AccountsFailure.leavesToken : AccountsFailure → Bool
  | .oauth _ error _ => error ≠ "invalid_grant"
  | .api .. => true
  | .http _ isConnect isBuilder => isConnect || isBuilder
  | .decode _ => false
  | .other .. => true

theorem fromAccounts_leavesToken (failure : AccountsFailure) :
    (SignInError.fromAccounts .refresh failure).leavesToken = failure.leavesToken := by
  cases failure with
  | oauth status error description =>
    simp only [SignInError.fromAccounts, SignInError.oauth, AccountsFailure.leavesToken,
      SignInError.leavesToken]
    by_cases hgrant : error = "invalid_grant"
    · simp [hgrant]
    · -- no other code ends the session or leaves open what happened
      by_cases hdisabled : error = "unauthorized_client" ∨ error = "invalid_client"
      · simp [hgrant, hdisabled]
      · by_cases hbusy : error = "slow_down" ∨ error = "temporarily_unavailable"
        · simp [hgrant, hdisabled, hbusy]
        · simp [hgrant, hdisabled, hbusy]
  | api status code message hint =>
    simp only [SignInError.fromAccounts, AccountsFailure.leavesToken]
    split <;> simp [SignInError.leavesToken]
  | http message isConnect isBuilder =>
    cases isConnect <;> cases isBuilder <;> rfl
  | decode message => rfl
  | other code message hint status => rfl

end SiliconHook.Client
