import SiliconHook.Client.SignIn
import SiliconHook.Library.Table

/-!
# The state of the command-line tool

`profiles.json` of one state directory: the settings and the sign-in of every
profile, read without a lock and changed under one.
-/

namespace SiliconHook.Cli

open Client

-- -----------------------------------------------------------------------------
-- Errors
-- -----------------------------------------------------------------------------

def exitFailure : Nat := 1
def exitInvalid : Nat := 2
def exitAuth : Nat := 3
def exitNotFound : Nat := 4
def exitConflict : Nat := 5
def exitRateLimited : Nat := 6

structure CliError where
  exit : Nat
  code : String
  message : String
  hint : Option String
  status : Option Nat
  deriving DecidableEq, Repr

abbrev CliResult (α : Type) := Except CliError α

def CliError.new (exit : Nat) (code message hint : String) : CliError :=
  ⟨exit, code, message, if hint.isEmpty then none else some hint, none⟩

def CliError.invalid (message hint : String) : CliError := .new exitInvalid "invalid_input" message hint

def CliError.notSignedIn (profile : String) : CliError :=
  .new exitAuth "not_signed_in" ("Profile \x60" ++ profile ++ "\x60 is not signed in to Hook.")
    "Carbons: \x60hook login\x60 (approve the code in a browser). Silicons: \x60silicon-accounts login --app hook -q | hook login --slt-stdin\x60."

def exitForStatus (status : Nat) : Nat :=
  if status = 400 ∨ status = 410 ∨ status = 413 ∨ status = 415 ∨ status = 422 then exitInvalid
  else if status = 401 ∨ status = 403 then exitAuth
  else if status = 404 then exitNotFound
  else if status = 409 then exitConflict
  else if status = 429 then exitRateLimited
  else exitFailure

def CliError.ofSignIn (error : SignInError) : CliError :=
  let exit := match error.kind with
    | .sltRefused _ | .sessionEnded | .denied | .expired | .notEnabled => exitAuth
    | .unavailable _ => exitFailure
    | .rejected => error.status.elim exitFailure exitForStatus
  { CliError.new exit error.code error.message error.hint with status := error.status }

-- -----------------------------------------------------------------------------
-- The saved state
-- -----------------------------------------------------------------------------

structure SessionAccount where
  uuid : String
  kind : AccountKind
  id : String
  displayName : String
  deriving DecidableEq, Repr

/-- A Silicon Accounts sign-in to Hook; times are seconds. -/
structure Session where
  appId : String
  accountsUrl : String
  url : String
  accessToken : String
  refreshToken : Option String
  expiresAt : Int
  refreshExpiresAt : Option Int
  scope : Option String
  account : SessionAccount
  method : String
  signedInAt : Int
  /-- Set while a refresh is in flight. -/
  refreshStartedAt : Option Int
  deriving DecidableEq, Repr

def Session.who (session : Session) : String :=
  if session.account.id.isEmpty then session.account.uuid
  else session.account.id ++ " (" ++ session.account.uuid ++ ")"

structure Profile where
  url : Option String
  accountsUrl : Option String
  silicon : Option String
  session : Option Session
  previousVersionSession : Bool
  deriving DecidableEq, Repr

def Profile.default : Profile := ⟨none, none, none, none, false⟩

structure NamedProfile where
  name : String
  profile : Profile
  deriving DecidableEq, Repr

instance : Keyed NamedProfile String := ⟨NamedProfile.name⟩

structure State where
  profiles : Table NamedProfile
  deriving DecidableEq

namespace State

def profile (state : State) (name : String) : Profile :=
  ((state.profiles.find name).map NamedProfile.profile).getD .default

/-- `profile(name).session = session`: the entry is made where there is none. -/
def setSession (state : State) (name : String) (session : Option Session) : State where
  profiles := state.profiles.upsert ⟨name, { Profile.default with session }⟩
    (fun row => { row with profile := { row.profile with session } }) fun _ => rfl

def Holds (state : State) (name : String) (session : Session) : Prop :=
  ∃ row, state.profiles.find name = some row ∧ row.profile.session = some session

theorem holds_setSession {state : State} {name other : String} {session : Option Session}
    {held : Session} : (state.setSession name session).Holds other held ↔
      if other = name then session = some held else state.Holds other held := by
  unfold Holds setSession
  have hkey : Keyed.key (⟨name, { Profile.default with session }⟩ : NamedProfile) = name := rfl
  simp only [Table.find_upsert, hkey]
  split
  · rename_i heq
    subst heq
    cases state.profiles.find other with
    | none => simp
    | some row => simp
  · rfl

theorem holds_profile {state : State} {name : String} {session : Session} :
    (state.profile name).session = some session ↔ state.Holds name session := by
  unfold profile Holds
  cases state.profiles.find name with
  | none => simp [Profile.default]
  | some row => simp

end State

/-- What `profiles.json` holds: a state, or text that is none. -/
abbrev StateFile := Except String State

end SiliconHook.Cli
