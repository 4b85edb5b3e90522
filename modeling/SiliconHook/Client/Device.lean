import SiliconHook.Client.SignIn

/-!
# The device sign-in

A Carbon approves a code on the account site while the client polls for it: at the
interval it was given, five seconds more each time it is asked to slow down, and until
the code expires. Times are nanoseconds of the client's monotonic clock.
-/

namespace SiliconHook.Client

structure DeviceCode where
  deviceCode : String
  userCode : String
  verificationUri : String
  verificationUriComplete : Option String
  expiresIn : Nat
  interval : Nat
  deriving DecidableEq, Repr

inductive AccountsPoll
  | pending
  | slowDown
  | tokens (tokens : Tokens)
  | denied
  | expired
  | unknown
  deriving DecidableEq, Repr

inductive DevicePoll
  | pending
  | slowDown
  | approved (tokens : Tokens)
  deriving DecidableEq, Repr

inductive DeviceError
  | signIn (error : SignInError)
  | protocol (message : String)
  deriving DecidableEq, Repr

namespace DeviceError

def expired (device : DeviceCode) : DeviceError :=
  .signIn (.oauth .device 400 "expired_token"
    (some ("The sign-in code " ++ device.userCode ++ " expired before it was approved.")))

def denied (device : DeviceCode) : DeviceError :=
  .signIn (.oauth .device 400 "access_denied"
    (some ("The sign-in request " ++ device.userCode ++ " was denied on the account site.")))

def transient : DeviceError → Bool
  | signIn error => error.kind = .unavailable true ∨ error.kind = .unavailable false
  | protocol _ => false

end DeviceError

def startDevice (answer : Except AccountsFailure DeviceCode) : Except DeviceError DeviceCode :=
  answer.mapError fun failure => .signIn (.fromAccounts .device failure)

def pollDevice (device : DeviceCode) :
    Except AccountsFailure AccountsPoll → Except DeviceError DevicePoll
  | .error failure => .error (.signIn (.fromAccounts .device failure))
  | .ok .pending => .ok .pending
  | .ok .slowDown => .ok .slowDown
  | .ok (.tokens tokens) => .ok (.approved tokens)
  | .ok .denied => .error (.denied device)
  | .ok .expired => .error (.expired device)
  | .ok .unknown =>
    .error (.protocol "Silicon Accounts answered the device poll with an unknown state")

-- -----------------------------------------------------------------------------
-- Waiting
-- -----------------------------------------------------------------------------

def seconds (n : Nat) : Nat := n * 1000000000

inductive DeviceEvent
  | pending
  | slowDown (interval : Nat)
  | retrying (error : DeviceError) (retryIn : Nat)
  deriving DecidableEq, Repr

/-- What one turn of the loop meets: how much longer the sleep took than it was asked
for, how long the poll took, and its answer. -/
structure PollDraw where
  late : Nat
  took : Nat
  answer : Except AccountsFailure AccountsPoll

structure DeviceTurn where
  began : Nat
  interval : Nat
  sent : Nat
  answered : Nat
  event : Option DeviceEvent
  deriving DecidableEq, Repr

structure DeviceWait where
  turns : List DeviceTurn
  result : Except DeviceError Tokens
  ended : Nat

def DeviceWait.after (turn : DeviceTurn) (wait : DeviceWait) : DeviceWait :=
  { wait with turns := turn :: wait.turns }

namespace DeviceCode

def patience (device : DeviceCode) : Nat := seconds (min (max device.expiresIn 1) 1800)

def firstInterval (device : DeviceCode) : Nat := seconds (min (max device.interval 1) 60)

/-- The loop of `wait_for_device`; it returns nothing only while the world has not answered. -/
def waitLoop (device : DeviceCode) (deadline : Nat) :
    List PollDraw → Nat → Nat → Option DeviceWait
  | [], now, _ => if deadline ≤ now then some ⟨[], .error (.expired device), now⟩ else none
  | draw :: draws, now, interval =>
    if deadline ≤ now then some ⟨[], .error (.expired device), now⟩
    else
      let sent := now + min interval (deadline - now) + draw.late
      let answered := sent + draw.took
      match pollDevice device draw.answer with
      | .ok (.approved tokens) =>
        some ⟨[⟨now, interval, sent, answered, none⟩], .ok tokens, answered⟩
      | .ok .pending =>
        (device.waitLoop deadline draws answered interval).map
          (.after ⟨now, interval, sent, answered, some .pending⟩)
      | .ok .slowDown =>
        (device.waitLoop deadline draws answered (interval + seconds 5)).map
          (.after ⟨now, interval, sent, answered, some (.slowDown (interval + seconds 5))⟩)
      | .error error =>
        if error.transient then
          (device.waitLoop deadline draws answered interval).map
            (.after ⟨now, interval, sent, answered, some (.retrying error interval)⟩)
        else some ⟨[⟨now, interval, sent, answered, none⟩], .error error, answered⟩

def waitForDevice (device : DeviceCode) (started : Nat) (draws : List PollDraw) :
    Option DeviceWait :=
  device.waitLoop (started + device.patience) draws started device.firstInterval

end DeviceCode

end SiliconHook.Client
