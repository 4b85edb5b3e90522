import SiliconHook.Cli.Session
import SiliconHook.Library.Transition

/-!
# Refreshes of the command-line tool

Any number of commands that share a state directory, each between two of its
calls to the outside; Silicon Accounts, which may process a refresh it was sent at
any time; and crashes anywhere.
-/

namespace SiliconHook.Cli

open Client

-- -----------------------------------------------------------------------------
-- Refresh requests
-- -----------------------------------------------------------------------------

/-- A refresh request that was sent: whether its token was spent then, whether
Accounts has processed it, and the answer its sender saw. -/
structure RefreshRequest where
  refreshToken : String
  reused : Bool
  processed : Bool
  answer : Option AccountsAnswer
  deriving DecidableEq

def RefreshRequest.dismissed (request : RefreshRequest) : Bool :=
  match request.answer with
  | some (.error failure) => failure.leavesToken
  | _ => false

structure RefreshLedger where
  requests : List RefreshRequest
  spent : List String
  issued : List String
  deriving DecidableEq

namespace RefreshLedger

def sent (ledger : RefreshLedger) (refreshToken : String) : RefreshLedger :=
  { ledger with
    requests := ledger.requests ++
      [⟨refreshToken, decide (refreshToken ∈ ledger.spent), false, none⟩] }

def answered (ledger : RefreshLedger) (index : Nat) (request : RefreshRequest)
    (answer : AccountsAnswer) : RefreshLedger :=
  { ledger with
    requests := ledger.requests.set index { request with answer := some answer }
    issued := (answer.toOption.bind Tokens.refreshToken).toList ++ ledger.issued }

def processed (ledger : RefreshLedger) (index : Nat) (request : RefreshRequest) : RefreshLedger :=
  { ledger with
    requests := ledger.requests.set index { request with processed := true }
    spent := request.refreshToken :: ledger.spent }

end RefreshLedger

-- -----------------------------------------------------------------------------
-- A command on its way
-- -----------------------------------------------------------------------------

inductive FreshStage
  | begun
  | waiting (seen : Session)
  | revoking (state : State) (session : Session) (what : String)
  | saving (state : State) (result : FreshResult)
  | marking (state : State) (session : Session) (refreshToken : String)
  | sending (state : State) (session : Session) (refreshToken : String)
  | awaiting (state : State) (session : Session) (request : Nat)
  | finished (result : FreshResult)
  | dead

/-- The stages under the lock; the lock goes with the process. -/
def FreshStage.holds : FreshStage → Bool
  | .revoking .. | .saving .. | .marking .. | .sending .. | .awaiting .. => true
  | .begun | .waiting _ | .finished _ | .dead => false

def LockedTurn.stage : LockedTurn → FreshStage
  | .done result => .finished result
  | .ends state session what => .revoking state session what
  | .saves state result => .saving state result
  | .refreshes state session refreshToken => .marking state session refreshToken

structure FreshCall where
  args : Args
  force : Bool
  stage : FreshStage

structure RefreshWorld where
  file : StateFile
  lock : Option Nat
  calls : List FreshCall
  ledger : RefreshLedger

/-- A write that fails may have replaced the file before it did. -/
inductive SaveOutcome
  | written
  | failed (error : CliError) (replaced : Bool)

inductive RefreshLabel
  | performed (call : Nat) (now : Int) (save : SaveOutcome)
  | answered (call : Nat) (now : Int) (answer : AccountsAnswer)
  | crashed (call : Nat)
  | processed (request : Nat)

/-- `Locked::save`: the file afterwards, and the error. -/
def saveState (file : StateFile) (state : State) : SaveOutcome → StateFile × Option CliError
  | .written => (.ok state, none)
  | .failed error true => (.ok state, some error)
  | .failed error false => (file, some error)

def afterSave (next : FreshStage) : Option CliError → FreshStage
  | none => next
  | some error => .finished (.error error)

namespace RefreshWorld

def start (file : StateFile) (spent issued : List String) (calls : List (Args × Bool)) :
    RefreshWorld :=
  ⟨file, none, calls.map fun made => ⟨made.1, made.2, .begun⟩, ⟨[], spent, issued⟩⟩

def placed (world : RefreshWorld) (call : Nat) (made : FreshCall) (stage : FreshStage) :
    RefreshWorld :=
  { world with calls := world.calls.set call { made with stage := stage } }

def turned (world : RefreshWorld) (call : Nat) (made : FreshCall) (stage : FreshStage)
    (file : StateFile) (ledger : RefreshLedger) : RefreshWorld :=
  { file := file
    lock := if stage.holds then some call else none
    calls := world.calls.set call { made with stage := stage }
    ledger := ledger }

def perform (problem : UrlProblem) (world : RefreshWorld) (call : Nat) (made : FreshCall)
    (now : Int) (save : SaveOutcome) : RefreshWorld :=
  match made.stage with
  | .begun =>
    match firstLook made.args made.force now world.file with
    | .done result => world.placed call made (.finished result)
    | .locks seen => world.placed call made (.waiting seen)
  | .waiting seen =>
    if world.lock.isSome then world
    else world.turned call made
      (underLock problem made.args made.force now seen world.file).stage world.file world.ledger
  | .revoking state session what =>
    world.turned call made (.saving (state.setSession made.args.profile none)
      (.error (refreshInterrupted session what))) world.file world.ledger
  | .saving state result =>
    let saved := saveState world.file state save
    world.turned call made (afterSave (.finished result) saved.2) saved.1 world.ledger
  | .marking state session refreshToken =>
    let saved := saveState world.file state save
    world.turned call made (afterSave (.sending state session refreshToken) saved.2) saved.1
      world.ledger
  | .sending state session refreshToken =>
    world.turned call made (.awaiting state session world.ledger.requests.length) world.file
      (world.ledger.sent refreshToken)
  | .awaiting .. | .finished _ | .dead => world

def receive (world : RefreshWorld) (call : Nat) (made : FreshCall) (now : Int)
    (answer : AccountsAnswer) : RefreshWorld :=
  match made.stage with
  | .awaiting state session index =>
    match world.ledger.requests[index]? with
    | none => world
    | some request =>
      world.turned call made (afterAnswer made.args now state session (refresh answer)).stage
        world.file (world.ledger.answered index request answer)
  | _ => world

def step (problem : UrlProblem) (world : RefreshWorld) : RefreshLabel → RefreshWorld
  | .performed call now save =>
    match world.calls[call]? with
    | none => world
    | some made => world.perform problem call made now save
  | .answered call now answer =>
    match world.calls[call]? with
    | none => world
    | some made => world.receive call made now answer
  | .crashed call =>
    match world.calls[call]? with
    | none => world
    | some made =>
      { world.placed call made .dead with
        lock := if world.lock = some call then none else world.lock }
  | .processed index =>
    match world.ledger.requests[index]? with
    | none => world
    | some request => { world with ledger := world.ledger.processed index request }

end RefreshWorld

-- -----------------------------------------------------------------------------
-- What is claimed
-- -----------------------------------------------------------------------------

/-- Marked, or with an unspent refresh token. -/
def Session.Safe (session : Session) (spent : List String) : Prop :=
  session.refreshStartedAt.isSome = true ∨
    ∃ token, session.refreshToken = some token ∧ token ∉ spent

/-- No spent token was sent to be refreshed, and every saved session is marked or
holds an unspent one. -/
structure RefreshWorld.Protected (world : RefreshWorld) : Prop where
  sent : ∀ request ∈ world.ledger.requests, request.reused = false
  saved : ∀ state, world.file = .ok state → ∀ name session, state.Holds name session →
    session.Safe world.ledger.spent

/-- A refresh that Accounts answers with tokens brings a refresh token never issued
before. -/
def RefreshWorld.Rotates (world : RefreshWorld) : RefreshLabel → Prop
  | .answered _ _ (.ok tokens) =>
    ∃ token ∈ tokens.refreshToken, token ∉ world.ledger.issued
  | _ => True

def RefreshWorld.awaited (world : RefreshWorld) (call : Nat) : Option RefreshRequest :=
  match world.calls[call]? with
  | some ⟨_, _, .awaiting _ _ index⟩ => world.ledger.requests[index]?
  | _ => none

/-- No request is both processed and answered by a failure that leaves the token
with its sender, whichever comes first. -/
def RefreshWorld.Settles (world : RefreshWorld) : RefreshLabel → Prop
  | .answered call _ (.error failure) =>
    failure.leavesToken = true → ∀ request ∈ world.awaited call, request.processed = false
  | .processed index =>
    ∀ request ∈ world.ledger.requests[index]?, request.dismissed = false
  | _ => True

/-- The state file a run may begin with: every saved session is safe, and no two
profiles hold one refresh token. -/
structure StateFile.Sound (file : StateFile) (spent issued : List String) : Prop where
  safe : ∀ state, file = .ok state → ∀ name session, state.Holds name session → session.Safe spent
  apart : ∀ state, file = .ok state → ∀ name other session session',
    state.Holds name session → state.Holds other session' → ∀ token,
    session.refreshToken = some token → session'.refreshToken = some token → name = other
  held : ∀ state, file = .ok state → ∀ name session, state.Holds name session →
    ∀ token, session.refreshToken = some token → token ∈ issued
  spent : ∀ token ∈ spent, token ∈ issued

instance {world : RefreshWorld} {label : RefreshLabel} : Decidable (world.Rotates label) := by
  unfold RefreshWorld.Rotates
  split <;> infer_instance

instance {world : RefreshWorld} {label : RefreshLabel} : Decidable (world.Settles label) := by
  unfold RefreshWorld.Settles
  split <;> infer_instance

-- -----------------------------------------------------------------------------
-- Idle tokens
-- -----------------------------------------------------------------------------

/-- A token that may be presented: unspent, and nothing sent with it is still to be
processed. -/
structure RefreshLedger.Idle (ledger : RefreshLedger) (token : String) : Prop where
  unspent : token ∉ ledger.spent
  dismissed : ∀ request ∈ ledger.requests, request.refreshToken = token → request.dismissed = true

structure RefreshLedger.Clean (ledger : RefreshLedger) : Prop where
  fresh : ∀ request ∈ ledger.requests, request.reused = false
  requested : ∀ request ∈ ledger.requests, request.refreshToken ∈ ledger.issued
  spent : ∀ token ∈ ledger.spent, token ∈ ledger.issued

namespace RefreshLedger

variable {ledger : RefreshLedger} {token refreshToken : String} {request : RefreshRequest}
  {index : Nat} {answer : AccountsAnswer}

theorem Idle.sent (h : ledger.Idle token) (hne : token ≠ refreshToken) :
    (ledger.sent refreshToken).Idle token := by
  refine ⟨h.unspent, ?_⟩
  intro other hm hother
  obtain hm | hm := List.mem_append.mp hm
  · exact h.dismissed other hm hother
  · obtain rfl := List.mem_singleton.mp hm
    exact absurd hother.symm hne

/-- A request under way has no answer yet, so it was not sent with an idle token. -/
theorem Idle.answered (h : ledger.Idle token) (hr : ledger.requests[index]? = some request)
    (hnone : request.answer = none) : (ledger.answered index request answer).Idle token := by
  refine ⟨h.unspent, ?_⟩
  intro other hm hother
  obtain hm | rfl := List.mem_or_eq_of_mem_set hm
  · exact h.dismissed other hm hother
  · have hdismissed := h.dismissed request (List.mem_of_getElem? hr) hother
    simp only [RefreshRequest.dismissed, hnone, Bool.false_eq_true] at hdismissed

theorem Idle.processed (h : ledger.Idle token) (hr : ledger.requests[index]? = some request)
    (hopen : request.dismissed = false) : (ledger.processed index request).Idle token := by
  have hne : request.refreshToken ≠ token := by
    intro heq
    have hdismissed := h.dismissed request (List.mem_of_getElem? hr) heq
    rw [hopen] at hdismissed
    cases hdismissed
  refine ⟨?_, ?_⟩
  · intro hm
    obtain heq | hm := List.mem_cons.mp hm
    · exact hne heq.symm
    · exact h.unspent hm
  · intro other hm hother
    obtain hm | rfl := List.mem_or_eq_of_mem_set hm
    · exact h.dismissed other hm hother
    · exact absurd hother hne

theorem Clean.idle (h : ledger.Clean) (hnew : token ∉ ledger.issued) : ledger.Idle token := by
  refine ⟨fun hm => hnew (h.spent token hm), ?_⟩
  rintro request hm rfl
  exact absurd (h.requested request hm) hnew

theorem Clean.sent (h : ledger.Clean) (hidle : ledger.Idle token) (hissued : token ∈ ledger.issued) :
    (ledger.sent token).Clean := by
  refine ⟨?_, ?_, h.spent⟩
  · intro request hm
    obtain hm | hm := List.mem_append.mp hm
    · exact h.fresh request hm
    · obtain rfl := List.mem_singleton.mp hm
      exact decide_eq_false hidle.unspent
  · intro request hm
    obtain hm | hm := List.mem_append.mp hm
    · exact h.requested request hm
    · obtain rfl := List.mem_singleton.mp hm
      exact hissued

theorem Clean.answered (h : ledger.Clean) (hr : ledger.requests[index]? = some request) :
    (ledger.answered index request answer).Clean := by
  have hmem := List.mem_of_getElem? hr
  refine ⟨?_, ?_, fun token hm => List.mem_append_right _ (h.spent token hm)⟩
  · intro other hm
    obtain hm | rfl := List.mem_or_eq_of_mem_set hm
    · exact h.fresh other hm
    · exact h.fresh request hmem
  · intro other hm
    obtain hm | rfl := List.mem_or_eq_of_mem_set hm
    · exact List.mem_append_right _ (h.requested other hm)
    · exact List.mem_append_right _ (h.requested request hmem)

theorem Clean.processed (h : ledger.Clean) (hr : ledger.requests[index]? = some request) :
    (ledger.processed index request).Clean := by
  have hmem := List.mem_of_getElem? hr
  refine ⟨?_, ?_, ?_⟩
  · intro other hm
    obtain hm | rfl := List.mem_or_eq_of_mem_set hm
    · exact h.fresh other hm
    · exact h.fresh request hmem
  · intro other hm
    obtain hm | rfl := List.mem_or_eq_of_mem_set hm
    · exact h.requested other hm
    · exact h.requested request hmem
  · intro token hm
    obtain rfl | hm := List.mem_cons.mp hm
    · exact h.requested request hmem
    · exact h.spent token hm

end RefreshLedger

-- -----------------------------------------------------------------------------
-- States that may be saved
-- -----------------------------------------------------------------------------

/-- Sessions that are not marked hold an idle token, and no token is held twice. -/
structure State.Kept (state : State) (ledger : RefreshLedger) : Prop where
  idle : ∀ name session, state.Holds name session → session.refreshStartedAt = none →
    ∃ token, session.refreshToken = some token ∧ ledger.Idle token
  issued : ∀ name session token, state.Holds name session → session.refreshToken = some token →
    token ∈ ledger.issued
  apart : ∀ name other session session' token, state.Holds name session →
    state.Holds other session' → session.refreshToken = some token →
    session'.refreshToken = some token → name = other

namespace State.Kept

variable {state : State} {ledger ledger' : RefreshLedger} {name : String} {session : Session}

theorem safe (h : state.Kept ledger) (hs : state.Holds name session) :
    session.Safe ledger.spent := by
  cases hmark : session.refreshStartedAt with
  | some t =>
    left
    rw [hmark]
    rfl
  | none =>
    obtain ⟨token, htoken, hidle⟩ := h.idle name session hs hmark
    exact .inr ⟨token, htoken, hidle.unspent⟩

/-- A ledger that leaves the held tokens idle and forgets none that was issued. -/
theorem mono (h : state.Kept ledger)
    (hidle : ∀ token, (∃ name session, state.Holds name session ∧
      session.refreshStartedAt = none ∧ session.refreshToken = some token) →
      ledger.Idle token → ledger'.Idle token)
    (hissued : ∀ token ∈ ledger.issued, token ∈ ledger'.issued) : state.Kept ledger' := by
  refine ⟨?_, fun name session token hs ht => hissued token (h.issued name session token hs ht),
    h.apart⟩
  intro name session hs hmark
  obtain ⟨token, htoken, hi⟩ := h.idle name session hs hmark
  exact ⟨token, htoken, hidle token ⟨name, session, hs, hmark, htoken⟩ hi⟩

theorem forget (h : state.Kept ledger) (name : String) :
    (state.setSession name none).Kept ledger := by
  have hkept : ∀ {other session}, (state.setSession name none).Holds other session →
      state.Holds other session := by
    intro other session hs
    rw [State.holds_setSession] at hs
    split at hs
    · cases hs
    · exact hs
  exact ⟨fun other session hs => h.idle other session (hkept hs),
    fun other session token hs => h.issued other session token (hkept hs),
    fun _ _ _ _ token hs hs' => h.apart _ _ _ _ token (hkept hs) (hkept hs')⟩

/-- A profile's session replaced by one with its token or with a token of no other. -/
theorem replace (h : state.Kept ledger) {next : Session}
    (hidle : next.refreshStartedAt = none →
      ∃ token, next.refreshToken = some token ∧ ledger.Idle token)
    (hissued : ∀ token, next.refreshToken = some token → token ∈ ledger.issued)
    (hapart : ∀ other session token, state.Holds other session →
      session.refreshToken = some token → next.refreshToken = some token → other = name) :
    (state.setSession name (some next)).Kept ledger := by
  have hcases : ∀ {other session}, (state.setSession name (some next)).Holds other session →
      other = name ∧ next = session ∨ other ≠ name ∧ state.Holds other session := by
    intro other session hs
    rw [State.holds_setSession] at hs
    split at hs
    · rename_i heq
      exact .inl ⟨heq, Option.some.inj hs⟩
    · rename_i hne
      exact .inr ⟨hne, hs⟩
  refine ⟨?_, ?_, ?_⟩
  · intro other session hs hmark
    obtain ⟨-, rfl⟩ | ⟨-, hs⟩ := hcases hs
    · exact hidle hmark
    · exact h.idle other session hs hmark
  · intro other session token hs htoken
    obtain ⟨-, rfl⟩ | ⟨-, hs⟩ := hcases hs
    · exact hissued token htoken
    · exact h.issued other session token hs htoken
  · intro first second session session' token hs hs' htoken htoken'
    obtain ⟨hfirst, rfl⟩ | ⟨-, hold⟩ := hcases hs
    · obtain ⟨hsecond, rfl⟩ | ⟨-, hold'⟩ := hcases hs'
      · exact hfirst.trans hsecond.symm
      · exact hfirst.trans (hapart second session' token hold' htoken' htoken).symm
    · obtain ⟨hsecond, rfl⟩ | ⟨-, hold'⟩ := hcases hs'
      · exact (hapart first session token hold htoken htoken').trans hsecond.symm
      · exact h.apart first second session session' token hold hold' htoken htoken'

theorem remark (h : state.Kept ledger) (hs : state.Holds name session) {mark : Option Int}
    (hidle : mark = none → ∃ token, session.refreshToken = some token ∧ ledger.Idle token) :
    (state.setSession name (some { session with refreshStartedAt := mark })).Kept ledger :=
  h.replace hidle (fun token ht => h.issued name session token hs ht)
    fun other held token ho ht ht' => h.apart other name held session token ho hs ht ht'

end State.Kept

-- -----------------------------------------------------------------------------
-- Stages
-- -----------------------------------------------------------------------------

structure Marked (state : State) (name : String) (session : Session) (token : String) : Prop where
  held : state.Holds name session
  token : session.refreshToken = some token
  marked : session.refreshStartedAt.isSome = true

/-- The request of a call that awaits its answer: no other with its token can be
processed, so the token is spent only where this one was. -/
structure Awaits (ledger : RefreshLedger) (index : Nat) (token : String) : Prop where
  sent : ∃ request, ledger.requests[index]? = some request ∧ request.refreshToken = token ∧
    request.answer = none ∧ (token ∈ ledger.spent → request.processed = true)
  others : ∀ other request, other ≠ index → ledger.requests[other]? = some request →
    request.refreshToken = token → request.dismissed = true

def FreshStage.Ready (ledger : RefreshLedger) (file : StateFile) (name : String) :
    FreshStage → Prop
  | .revoking state _ _ | .saving state _ => state.Kept ledger
  | .marking state session token =>
    state.Kept ledger ∧ Marked state name session token ∧ ledger.Idle token
  | .sending state session token =>
    file = .ok state ∧ Marked state name session token ∧ ledger.Idle token
  | .awaiting state session index =>
    state.Kept ledger ∧ ∃ token, Marked state name session token ∧ Awaits ledger index token
  | .begun | .waiting _ | .finished _ | .dead => True

theorem FreshStage.ready_of_not_holds {stage : FreshStage} {file : StateFile} {name : String}
    {ledger : RefreshLedger} (h : stage.holds = false) : stage.Ready ledger file name := by
  cases stage <;> trivial

section

variable {state : State} {ledger : RefreshLedger} {file : StateFile} {name token : String}
  {session : Session} {index : Nat} {request : RefreshRequest} {args : Args}

theorem underLock_ready {problem : UrlProblem} {seen : Session}
    (h : ∀ state, file = .ok state → state.Kept ledger) :
    (underLock problem args force now seen file).stage.Ready ledger file args.profile := by
  cases file with
  | error text => trivial
  | ok state =>
    have hkept := h state rfl
    unfold underLock
    dsimp only
    split
    · trivial
    · rename_i session hsession
      have hheld := State.holds_profile.mp hsession
      split
      · trivial
      · split
        · trivial
        · split
          · exact hkept
          · rename_i hmark
            have hmark : session.refreshStartedAt = none := by
              simpa using hmark
            split
            · exact hkept.forget args.profile
            · rename_i token htoken
              obtain ⟨token', htoken', hidle⟩ := hkept.idle _ _ hheld hmark
              obtain rfl : token = token' := Option.some.inj (htoken.symm.trans htoken')
              refine ⟨hkept.remark hheld (by simp), ⟨?_, htoken, rfl⟩, hidle⟩
              rw [State.holds_setSession, if_pos rfl]

theorem State.Kept.sent (h : state.Kept ledger) (hm : Marked state name session token) :
    state.Kept (ledger.sent token) := by
  refine h.mono ?_ fun _ hissued => hissued
  rintro other ⟨name', session', hheld, hmark, htoken⟩ hidle
  refine hidle.sent ?_
  rintro rfl
  obtain rfl := h.apart _ _ _ _ _ hheld hm.held htoken hm.token
  obtain ⟨row, hrow, hsession⟩ := hheld
  obtain ⟨row', hrow', hsession'⟩ := hm.held
  obtain rfl : row = row' := Option.some.inj (hrow.symm.trans hrow')
  obtain rfl : session' = session := Option.some.inj (hsession.symm.trans hsession')
  have hmarked := hm.marked
  rw [hmark] at hmarked
  cases hmarked

theorem awaits_sent (h : ledger.Idle token) :
    Awaits (ledger.sent token) ledger.requests.length token := by
  refine ⟨⟨_, List.getElem?_concat_length, rfl, rfl, fun hspent => absurd hspent h.unspent⟩, ?_⟩
  intro other request hne hr htoken
  have hr' : ledger.requests[other]? = some request := by
    simp only [RefreshLedger.sent] at hr
    rw [List.getElem?_append] at hr
    split at hr
    · exact hr
    · rename_i hlt
      rw [List.getElem?_singleton, if_neg (by omega)] at hr
      cases hr
  exact h.dismissed request (List.mem_of_getElem? hr') htoken

/-- What an answer leads to may be saved: new tokens, the session as it was where
its token is still idle, or no session. -/
theorem afterAnswer_ready {answer : AccountsAnswer} (hkept : state.Kept ledger)
    (hclean : ledger.Clean) (hm : Marked state args.profile session token)
    (ha : Awaits ledger index token) (hr : ledger.requests[index]? = some request)
    (hrotates : ∀ tokens, answer = .ok tokens →
      ∃ token ∈ tokens.refreshToken, token ∉ ledger.issued)
    (hsettles : ∀ failure, answer = .error failure → failure.leavesToken = true →
      request.processed = false) :
    (afterAnswer args now state session (refresh answer)).stage.Ready
      (ledger.answered index request answer) file args.profile := by
  obtain ⟨⟨request', hr', htoken, hnone, hspent⟩, hothers⟩ := ha
  obtain rfl : request' = request := Option.some.inj (hr'.symm.trans hr)
  have hkept' : state.Kept (ledger.answered index request' answer) :=
    hkept.mono (fun _ _ hidle => hidle.answered hr hnone) fun _ hi => List.mem_append_right _ hi
  cases answer with
  | ok tokens =>
    obtain ⟨new, hnew, hfresh⟩ := hrotates tokens rfl
    have hnew : tokens.refreshToken = some new := hnew
    refine hkept'.replace ?_ ?_ ?_
    · exact fun _ => ⟨new, hnew, (hclean.idle hfresh).answered hr hnone⟩
    · intro other hother
      have hmem : other ∈ tokens.refreshToken.toList := Option.mem_toList.mpr hother
      exact List.mem_append_left _ hmem
    · intro other held token' hheld htoken' hother
      have heq : new = token' := Option.some.inj (hnew.symm.trans hother)
      exact absurd (hkept.issued other held token' hheld htoken') (heq ▸ hfresh)
  | error failure =>
    have hleaves := fromAccounts_leavesToken failure
    show (afterAnswer args now state session (.error (.fromAccounts .refresh failure))).stage.Ready
      _ file args.profile
    simp only [afterAnswer]
    split
    · exact hkept'.forget args.profile
    · exact hkept'
    · rename_i hended huncertain
      have hkind : failure.leavesToken = true := by
        rw [← hleaves]
        simp only [SignInError.leavesToken, decide_eq_true_eq]
        exact ⟨hended, huncertain⟩
      have hunprocessed := hsettles failure rfl hkind
      refine hkept'.remark hm.held fun _ => ⟨token, hm.token, ?_, ?_⟩
      · intro hmem
        rw [hspent hmem] at hunprocessed
        cases hunprocessed
      · intro other hmem hother
        obtain ⟨position, hposition⟩ := List.getElem?_of_mem hmem
        simp only [RefreshLedger.answered] at hposition
        rw [List.getElem?_set] at hposition
        split at hposition
        · split at hposition
          · cases hposition
            exact hkind
          · cases hposition
        · rename_i hne
          exact hothers position other (Ne.symm hne) hposition hother

theorem FreshStage.Ready.processed {stage : FreshStage} (h : stage.Ready ledger file name)
    (hr : ledger.requests[index]? = some request) (hopen : request.dismissed = false) :
    stage.Ready (ledger.processed index request) file name := by
  have hkept : ∀ {state : State}, state.Kept ledger → state.Kept (ledger.processed index request) :=
    fun hk => hk.mono (fun _ _ hidle => hidle.processed hr hopen) fun _ hi => hi
  cases stage with
  | revoking state session what => exact hkept h
  | saving state result => exact hkept h
  | marking state session token => exact ⟨hkept h.1, h.2.1, h.2.2.processed hr hopen⟩
  | sending state session token => exact ⟨h.1, h.2.1, h.2.2.processed hr hopen⟩
  | awaiting state session awaited =>
    obtain ⟨hk, token, hm, ⟨sent, hsent, htoken, hnone, hspent⟩, hothers⟩ := h
    refine ⟨hkept hk, token, hm, ?_, ?_⟩
    · by_cases heq : index = awaited
      · subst heq
        obtain rfl : sent = request := Option.some.inj (hsent.symm.trans hr)
        refine ⟨{ sent with processed := true }, ?_, htoken, hnone, fun _ => rfl⟩
        exact List.getElem?_set_self (List.getElem?_eq_some_iff.mp hr).1
      · refine ⟨sent, ?_, htoken, hnone, ?_⟩
        · exact (List.getElem?_set_ne heq).trans hsent
        · intro hmem
          obtain htoken' | hmem := List.mem_cons.mp hmem
          · have hdismissed := hothers index request heq hr htoken'.symm
            rw [hopen] at hdismissed
            cases hdismissed
          · exact hspent hmem
    · intro other found hne hfound htoken'
      simp only [RefreshLedger.processed] at hfound
      rw [List.getElem?_set] at hfound
      split at hfound
      · rename_i heq
        subst heq
        split at hfound
        · cases hfound
          exact hothers index request hne hr htoken'
        · cases hfound
      · exact hothers other found hne hfound htoken'
  | begun | waiting seen | finished result | dead => trivial

end

-- -----------------------------------------------------------------------------
-- Runs
-- -----------------------------------------------------------------------------

namespace RefreshWorld

/-- One call at a time is under the lock, and it is about to save and send nothing
but what may be. -/
structure Guarded (world : RefreshWorld) : Prop where
  saved : ∀ state, world.file = .ok state → state.Kept world.ledger
  locked : ∀ (call : Nat) (made : FreshCall), world.calls[call]? = some made →
    made.stage.holds = true → world.lock = some call
  ready : ∀ (call : Nat) (made : FreshCall), world.calls[call]? = some made →
    made.stage.Ready world.ledger world.file made.args.profile
  clean : world.ledger.Clean

variable {problem : UrlProblem} {world : RefreshWorld} {call : Nat} {made : FreshCall}

theorem Guarded.protected (h : world.Guarded) : world.Protected :=
  ⟨h.clean.fresh, fun state hfile _ _ hs => (h.saved state hfile).safe hs⟩

theorem Guarded.placed (h : world.Guarded) {stage : FreshStage} (hstage : stage.holds = false)
    {lock : Option Nat}
    (hlock : ∀ other, other ≠ call → world.lock = some other → lock = some other) :
    Guarded { world.placed call made stage with lock := lock } := by
  refine ⟨h.saved, ?_, ?_, h.clean⟩
  · intro other found hfound hholds
    simp only [RefreshWorld.placed, List.getElem?_set] at hfound
    split at hfound
    · split at hfound
      · cases hfound
        rw [hstage] at hholds
        cases hholds
      · cases hfound
    · rename_i hne
      exact hlock other (Ne.symm hne) (h.locked other found hfound hholds)
  · intro other found hfound
    simp only [RefreshWorld.placed, List.getElem?_set] at hfound
    split at hfound
    · split at hfound
      · cases hfound
        exact FreshStage.ready_of_not_holds hstage
      · cases hfound
    · exact h.ready other found hfound

theorem Guarded.turned (h : world.Guarded)
    (hlock : ∀ other, other ≠ call → world.lock ≠ some other) {stage : FreshStage}
    {file : StateFile} {ledger : RefreshLedger}
    (hsaved : ∀ state, file = .ok state → state.Kept ledger) (hclean : ledger.Clean)
    (hready : stage.Ready ledger file made.args.profile) :
    (world.turned call made stage file ledger).Guarded := by
  refine ⟨hsaved, ?_, ?_, hclean⟩
  · intro other found hfound hholds
    simp only [RefreshWorld.turned, List.getElem?_set] at hfound ⊢
    split at hfound
    · rename_i heq
      split at hfound
      · cases hfound
        rw [← heq]
        exact if_pos hholds
      · cases hfound
    · rename_i hne
      exact absurd (h.locked other found hfound hholds) (hlock other (Ne.symm hne))
  · intro other found hfound
    simp only [RefreshWorld.turned, List.getElem?_set] at hfound ⊢
    split at hfound
    · split at hfound
      · cases hfound
        exact hready
      · cases hfound
    · rename_i hne
      refine FreshStage.ready_of_not_holds ?_
      by_contra hholds
      rw [Bool.not_eq_false] at hholds
      exact hlock other (Ne.symm hne) (h.locked other found hfound hholds)

theorem Guarded.alone (h : world.Guarded) (hcall : world.calls[call]? = some made)
    (hholds : made.stage.holds = true) : ∀ other, other ≠ call → world.lock ≠ some other := by
  intro other hne hlock
  rw [h.locked call made hcall hholds] at hlock
  exact hne (Option.some.inj hlock).symm

/-- A file is saved whole or not at all. -/
theorem saveState_kept {file : StateFile} {state : State} {ledger : RefreshLedger}
    (hfile : ∀ state, file = .ok state → state.Kept ledger) (hstate : state.Kept ledger)
    (save : SaveOutcome) :
    ∀ stored, (saveState file state save).1 = .ok stored → stored.Kept ledger := by
  intro stored hstored
  cases save with
  | written =>
    cases hstored
    exact hstate
  | failed error replaced =>
    cases replaced with
    | true =>
      cases hstored
      exact hstate
    | false => exact hfile stored hstored

theorem Guarded.perform (h : world.Guarded) (hcall : world.calls[call]? = some made) (now : Int)
    (save : SaveOutcome) : (world.perform problem call made now save).Guarded := by
  have hready := h.ready call made hcall
  have halone := fun hholds : made.stage.holds = true => h.alone hcall hholds
  unfold RefreshWorld.perform
  cases hstage : made.stage with
  | begun =>
    dsimp only
    split
    · exact h.placed rfl fun _ _ hlock => hlock
    · exact h.placed rfl fun _ _ hlock => hlock
  | waiting seen =>
    dsimp only
    split
    · exact h
    · rename_i hfree
      have hfree : world.lock = none := by simpa using hfree
      refine h.turned ?_ h.saved h.clean (underLock_ready h.saved)
      intro other _ hlock
      rw [hfree] at hlock
      cases hlock
  | revoking state session what =>
    rw [hstage] at hready halone
    exact h.turned (halone rfl) h.saved h.clean (hready.forget made.args.profile)
  | saving state result =>
    rw [hstage] at hready halone
    refine h.turned (halone rfl) (saveState_kept h.saved hready save) h.clean ?_
    cases (saveState world.file state save).2 <;> trivial
  | marking state session token =>
    rw [hstage] at hready halone
    obtain ⟨hkept, hmarked, hidle⟩ := hready
    refine h.turned (halone rfl) (saveState_kept h.saved hkept save) h.clean ?_
    cases save with
    | written => exact ⟨rfl, hmarked, hidle⟩
    | failed error replaced => cases replaced <;> trivial
  | sending state session token =>
    rw [hstage] at hready halone
    obtain ⟨hfile, hmarked, hidle⟩ := hready
    have hkept := h.saved state hfile
    have hsent : state.Kept (world.ledger.sent token) := hkept.sent hmarked
    refine h.turned (halone rfl) ?_ (h.clean.sent hidle
      (hkept.issued _ _ _ hmarked.held hmarked.token)) ⟨hsent, token, hmarked, awaits_sent hidle⟩
    intro stored hstored
    obtain rfl : state = stored := Except.ok.inj (hfile.symm.trans hstored)
    exact hsent
  | awaiting state session index => exact h
  | finished result => exact h
  | dead => exact h

theorem Guarded.receive (h : world.Guarded) (hcall : world.calls[call]? = some made) (now : Int)
    {answer : AccountsAnswer} (hrotates : world.Rotates (.answered call now answer))
    (hsettles : world.Settles (.answered call now answer)) :
    (world.receive call made now answer).Guarded := by
  unfold RefreshWorld.receive
  cases hstage : made.stage with
  | awaiting state session index =>
    dsimp only
    have hready := h.ready call made hcall
    rw [hstage] at hready
    obtain ⟨hkept, token, hmarked, hawaits⟩ := hready
    obtain ⟨⟨request, hrequest, -, hnone, -⟩, -⟩ := id hawaits
    simp only [hrequest]
    refine h.turned (h.alone hcall (by rw [hstage]; rfl)) ?_ (h.clean.answered hrequest)
      (afterAnswer_ready hkept h.clean hmarked hawaits hrequest ?_ ?_)
    · intro stored hstored
      exact (h.saved stored hstored).mono (fun _ _ hidle => hidle.answered hrequest hnone)
        fun _ hissued => List.mem_append_right _ hissued
    · rintro tokens rfl
      exact hrotates
    · rintro failure rfl hleaves
      have hawaited : world.awaited call = some request := by
        obtain ⟨args, force, stage⟩ := made
        cases hstage
        simp only [RefreshWorld.awaited, hcall, hrequest]
      exact hsettles hleaves request hawaited
  | _ => exact h

theorem Guarded.step (h : world.Guarded) (label : RefreshLabel) (hrotates : world.Rotates label)
    (hsettles : world.Settles label) : (world.step problem label).Guarded := by
  cases label with
  | performed call now save =>
    cases hcall : world.calls[call]? with
    | none => simpa only [RefreshWorld.step, hcall] using h
    | some made => simpa only [RefreshWorld.step, hcall] using h.perform hcall now save
  | answered call now answer =>
    cases hcall : world.calls[call]? with
    | none => simpa only [RefreshWorld.step, hcall] using h
    | some made =>
      simpa only [RefreshWorld.step, hcall] using h.receive hcall now hrotates hsettles
  | crashed call =>
    cases hcall : world.calls[call]? with
    | none => simpa only [RefreshWorld.step, hcall] using h
    | some made =>
      simp only [RefreshWorld.step, hcall]
      refine h.placed rfl fun other hne hlock => ?_
      rw [if_neg, hlock]
      rw [hlock]
      exact fun heq => hne (Option.some.inj heq)
  | processed index =>
    cases hrequest : world.ledger.requests[index]? with
    | none => simpa only [RefreshWorld.step, hrequest] using h
    | some request =>
      simp only [RefreshWorld.step, hrequest]
      have hopen : request.dismissed = false := hsettles request hrequest
      refine ⟨?_, h.locked, fun call made hcall => (h.ready call made hcall).processed hrequest hopen,
        h.clean.processed hrequest⟩
      intro state hstate
      exact (h.saved state hstate).mono (fun _ _ hidle => hidle.processed hrequest hopen)
        fun _ hissued => hissued

theorem start_guarded {file : StateFile} {spent issued : List String}
    (h : file.Sound spent issued) (calls : List (Args × Bool)) :
    (start file spent issued calls).Guarded := by
  have hbegun : ∀ (call : Nat) (made : FreshCall),
      (start file spent issued calls).calls[call]? = some made → made.stage = .begun := by
    intro call made hcall
    simp only [start, List.getElem?_map, Option.map_eq_some_iff] at hcall
    obtain ⟨_, -, rfl⟩ := hcall
    rfl
  refine ⟨?_, ?_, ?_, ?_⟩
  · intro state hfile
    refine ⟨?_, fun name session token hs => h.held state hfile name session hs token,
      fun name other session session' token hs hs' =>
        h.apart state hfile name other session session' hs hs' token⟩
    intro name session hs hmark
    obtain hmarked | ⟨token, htoken, hunspent⟩ := h.safe state hfile name session hs
    · rw [hmark] at hmarked
      cases hmarked
    · exact ⟨token, htoken, hunspent, List.forall_mem_nil _⟩
  · intro call made hcall hholds
    rw [hbegun call made hcall] at hholds
    cases hholds
  · intro call made hcall
    rw [hbegun call made hcall]
    trivial
  · exact ⟨List.forall_mem_nil _, List.forall_mem_nil _, h.spent⟩

/-- Where no request is both processed and answered by a failure that leaves the
token with its sender, no run presents a spent token again or saves one. -/
theorem protected_along (problem : UrlProblem) (file : StateFile) (spent issued : List String)
    (calls : List (Args × Bool)) (labels : List RefreshLabel) (h : file.Sound spent issued)
    (hlabels : Along (step problem) (fun world label => world.Rotates label ∧ world.Settles label)
      (start file spent issued calls) labels) :
    Always (step problem) Protected (start file spent issued calls) labels :=
  always_of_invariant (fun _ label hguarded hl => Guarded.step hguarded label hl.1 hl.2)
    (fun _ hguarded => Guarded.protected hguarded) (start_guarded h calls) hlabels

end RefreshWorld

namespace FailingAccounts

def args : Args := ⟨"default", none, none⟩

def session : Session where
  appId := "hook"
  accountsUrl := defaultAccountsUrl
  url := defaultUrl
  accessToken := "access-1"
  refreshToken := some "sar_1"
  expiresAt := 0
  refreshExpiresAt := none
  scope := none
  account := ⟨"0190a1b2", .silicon, "si:queue", ""⟩
  method := "slt"
  signedInAt := 0
  refreshStartedAt := none

def row : NamedProfile := ⟨args.profile, { Profile.default with session := some session }⟩

def state : State := ⟨⟨[row], by decide⟩⟩

def calls : List (Args × Bool) := [(args, false), (args, false), (args, false)]

def world : RefreshWorld := .start (.ok state) [] ["sar_1"] calls

def performed (call steps : Nat) : List RefreshLabel :=
  List.replicate steps (.performed call 100 .written)

def failure : AccountsFailure := .api 500 "internal" "Something went wrong." none

/-- Accounts rotates the token of the first call and then fails; the second call
presents what the first one put back. -/
def failed : List RefreshLabel :=
  performed 0 4 ++ [.processed 0, .answered 0 101 (.error failure)] ++ performed 0 1 ++
    performed 1 4

theorem spent_presented : ¬ (run (RefreshWorld.step fun _ => none) world failed).Protected := by
  intro h
  have hreused : ∃ request ∈ (run (RefreshWorld.step fun _ => none) world failed).ledger.requests,
      request.reused = true := by
    decide +kernel
  obtain ⟨request, hm, hreused⟩ := hreused
  rw [h.sent request hm] at hreused
  cases hreused

/-- The first call is refused unprocessed, the second dies once its request is
processed, and the third ends the sign-in it finds marked. -/
def interruptedRun : List RefreshLabel :=
  performed 0 4 ++ [.answered 0 101 (.error failure)] ++ performed 0 1 ++
    performed 1 4 ++ [.processed 1, .crashed 1] ++ performed 2 4

theorem file_sound : StateFile.Sound (.ok state) [] ["sar_1"] := by
  have hheld : ∀ {stored : State} {name : String} {found : Session},
      (.ok state : StateFile) = .ok stored → stored.Holds name found →
        name = args.profile ∧ found = session := by
    rintro _ name found ⟨⟩ ⟨held, hfind, hsession⟩
    obtain ⟨hm, hname⟩ := Table.find_some.mp hfind
    obtain rfl := List.mem_singleton.mp hm
    exact ⟨hname.symm, (Option.some.inj hsession).symm⟩
  refine ⟨?_, ?_, ?_, List.forall_mem_nil _⟩
  · intro stored hfile name found hs
    obtain ⟨-, rfl⟩ := hheld hfile hs
    exact .inr ⟨"sar_1", rfl, List.not_mem_nil⟩
  · intro stored hfile name other found found' hs hs' _ _ _
    exact (hheld hfile hs).1.trans (hheld hfile hs').1.symm
  · intro stored hfile name found hs token htoken
    obtain ⟨-, rfl⟩ := hheld hfile hs
    exact List.mem_singleton.mpr (Option.some.inj htoken).symm

theorem interrupted_protected : Always (RefreshWorld.step fun _ => none) RefreshWorld.Protected
    world interruptedRun :=
  RefreshWorld.protected_along (fun _ => none) (.ok state) [] ["sar_1"] calls interruptedRun
    file_sound (by decide +kernel)

end FailingAccounts

end SiliconHook.Cli
