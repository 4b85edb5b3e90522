import SiliconHook.Cli.Store
import SiliconHook.Library.Text

/-!
# A usable access token

Tokens are refreshed under the state lock. What a command does between two calls
to the outside is one function here: the first look at the state, the decision
under the lock, what an answer is made of, and the end of a sign-in whose refresh
token may be spent.
-/

namespace SiliconHook.Cli

open Client Text

def refreshMargin : Int := 60

def i64Max : Int := 9223372036854775807

structure Args where
  profile : String
  url : Option String
  accountsUrl : Option String
  deriving DecidableEq, Repr

structure Urls where
  hook : String
  hookSource : String
  accounts : String
  accountsSource : String

def defaultUrl : String := "https://api.hook.teamofsilicons.com"
def defaultAccountsUrl : String := "https://accounts.teamofsilicons.com"

def trimEndSlashes (text : String) : String :=
  String.ofList (text.toList.reverse.dropWhile (· = '/')).reverse

def pickUrl (explicit stored : Option String) (byDefault : String) : String × String :=
  match (explicit.map trim).filter (fun value => !value.isEmpty), stored with
  | some value, _ => (trimEndSlashes value, "flag or environment")
  | none, some value => (trimEndSlashes value, "profile")
  | none, none => (byDefault, "default")

def urls (args : Args) (profile : Profile) : Urls :=
  let hook := pickUrl args.url profile.url defaultUrl
  let accounts := pickUrl args.accountsUrl profile.accountsUrl defaultAccountsUrl
  ⟨hook.1, hook.2, accounts.1, accounts.2⟩

def sameUrl (a b : String) : Bool := trimEndSlashes a = trimEndSlashes b

def bindingProblem (session : Session) (urls : Urls) : Option CliError :=
  if ¬ sameUrl session.accountsUrl urls.accounts then
    some (.new exitAuth "signed_in_elsewhere"
      ("This profile signed in with the Silicon Accounts at " ++ session.accountsUrl ++ ", but " ++
        urls.accounts ++ " is in effect (" ++ urls.accountsSource ++ ").")
      "Sign in again for this Silicon Accounts (\x60hook login\x60), or use another --profile.")
  else if ¬ sameUrl session.url urls.hook then
    some (.new exitAuth "signed_in_elsewhere"
      ("This profile signed in for the Hook at " ++ session.url ++ ", but " ++ urls.hook ++
        " is in effect (" ++ urls.hookSource ++
        "); its token is only sent to the Hook it signed in for.")
      "Sign in again with this URL (\x60hook login\x60), or use another --profile.")
  else none

def previousVersionError (profile : String) : CliError :=
  .new exitAuth "previous_version_session"
    ("Profile \x60" ++ profile ++ "\x60 was signed in with Hook before 1.0. Hook now signs in with Silicon Accounts, and that sign-in was not carried over.")
    "Carbons: \x60hook login\x60. Silicons: \x60silicon-accounts login --app hook -q | hook login --slt-stdin\x60."

/-- The URL check of `SignIn::new`: what is wrong with a Silicon Accounts URL. -/
abbrev UrlProblem := String → Option String

def signIn (problem : UrlProblem) (accountsUrl : String) : CliResult Unit :=
  match problem accountsUrl with
  | none => .ok ()
  | some message => .error (.invalid message
      "Set ACCOUNTS_URL (or --accounts-url, or \x60hook config set accounts-url\x60) to the Silicon Accounts origin.")

def accountOf (tokens : Tokens) (previous : Session) : SessionAccount :=
  match tokens.account with
  | some account => ⟨account.uuid, account.kind, account.id, account.displayName⟩
  | none => previous.account

/-- Turns fresh tokens into the session that follows a saved one; an expiry beyond
an `i64` counts as thirty minutes. -/
def sessionFrom (tokens : Tokens) (issued : Int) (previous : Session) : Session where
  appId := previous.appId
  accountsUrl := previous.accountsUrl
  url := previous.url
  accessToken := tokens.accessToken
  refreshToken := tokens.refreshToken
  expiresAt := min i64Max (issued +
    if (tokens.expiresIn : Int) ≤ i64Max then tokens.expiresIn else 1800)
  refreshExpiresAt := tokens.refreshExpiresAt
  scope := tokens.scope
  account := accountOf tokens previous
  method := previous.method
  signedInAt := previous.signedInAt
  refreshStartedAt := none

abbrev FreshResult := CliResult (Session × Profile)

-- -----------------------------------------------------------------------------
-- Before the lock
-- -----------------------------------------------------------------------------

/-- What the state read without a lock leads to. -/
inductive FirstLook
  | done (result : FreshResult)
  | locks (seen : Session)

/-- The access token has its margin, and no refresh was left unfinished. -/
def Session.usable (session : Session) (now : Int) : Bool :=
  session.refreshStartedAt.isNone && decide (refreshMargin ≤ session.expiresAt - now)

def firstLook (args : Args) (force : Bool) (now : Int) : StateFile → FirstLook
  | .error problem => .done (.error (.new exitFailure "state_unreadable" problem
      "Move the file aside, then sign in again with \x60hook login\x60."))
  | .ok state =>
    let profile := state.profile args.profile
    match profile.session with
    | none => .done (.error (if profile.previousVersionSession then
        previousVersionError args.profile else .notSignedIn args.profile))
    | some seen =>
      match bindingProblem seen (urls args profile) with
      | some problem => .done (.error problem)
      | none =>
        if !force && seen.usable now then .done (.ok (seen, profile)) else .locks seen

-- -----------------------------------------------------------------------------
-- Under the lock
-- -----------------------------------------------------------------------------

inductive LockedTurn
  | done (result : FreshResult)
  /-- Revoke the refresh token of a session and forget the session. -/
  | ends (state : State) (session : Session) (what : String)
  /-- Save a state and answer. -/
  | saves (state : State) (result : FreshResult)
  /-- Save the state with the session marked, then send its refresh token. -/
  | refreshes (state : State) (session : Session) (refreshToken : String)

def interrupted : String := "A token refresh by an earlier hook command did not finish"
def unanswered : String := "The token refresh request was sent but its answer never arrived"

def underLock (problem : UrlProblem) (args : Args) (force : Bool) (now : Int) (seen : Session) :
    StateFile → LockedTurn
  | .error text => .done (.error (.new exitFailure "state_unreadable"
      (text ++ ", so Hook will not overwrite it.")
      "Move the file aside (it may hold other profiles' settings), then sign in again with \x60hook login\x60."))
  | .ok state =>
    match (state.profile args.profile).session with
    | none => .done (.error (.notSignedIn args.profile))
    | some session =>
      let refreshedMeanwhile := session.accessToken ≠ seen.accessToken
      if session.usable now ∧ (force = false ∨ refreshedMeanwhile) then
        .done (.ok (session, state.profile args.profile))
      else
        match signIn problem session.accountsUrl with
        | .error e => .done (.error e)
        | .ok () =>
          if session.refreshStartedAt.isSome then .ends state session interrupted
          else
            match session.refreshToken with
            | none => .saves (state.setSession args.profile none)
                (.error (.new exitAuth "session_ended"
                  "The saved sign-in has no refresh token and its access token has expired."
                  "Sign in again with \x60hook login\x60 (Carbons) or \x60hook login --slt-stdin\x60 (Silicons)."))
            | some refreshToken =>
              let session := { session with refreshStartedAt := some now }
              .refreshes (state.setSession args.profile (some session)) session refreshToken

def refreshInterrupted (session : Session) (what : String) : CliError :=
  .new exitAuth "refresh_interrupted"
    (what ++ ", so the saved refresh token of " ++ session.who ++
      " may already be spent. Hook does not present a possibly spent token (Silicon Accounts would end every Hook sign-in of the account); this sign-in was ended instead.")
    "Sign in again: \x60hook login\x60 (Carbons) or \x60silicon-accounts login --app hook -q | hook login --slt-stdin\x60 (Silicons)."

def afterAnswer (args : Args) (now : Int) (state : State) (session : Session) :
    Except SignInError Tokens → LockedTurn
  | .ok tokens =>
    let next := sessionFrom tokens now session
    let state := state.setSession args.profile (some next)
    .saves state (.ok (next, state.profile args.profile))
  | .error error =>
    match error.kind with
    | .sessionEnded => .saves (state.setSession args.profile none)
        (.error (.new exitAuth "session_ended"
          ("The sign-in as " ++ session.who ++ " has ended: " ++ error.message) error.hint))
    | .unavailable true => .ends state session unanswered
    | _ =>
      .saves (state.setSession args.profile (some { session with refreshStartedAt := none }))
        (.error (.ofSignIn error))

end SiliconHook.Cli
