import Mathlib.Algebra.Ring.Nat
import Mathlib.Data.List.Chain
import SiliconHook.Client.Device

/-!
# Waiting for a device sign-in

Whatever Silicon Accounts answers and however long each poll takes, the client stops
in time, never polls faster than it was asked to, and returns what the first answer
that settles the sign-in says.
-/

namespace SiliconHook.Client

variable {device : DeviceCode} {deadline now interval least : Nat} {draws : List PollDraw}
  {wait : DeviceWait}

-- -----------------------------------------------------------------------------
-- Answers
-- -----------------------------------------------------------------------------

/-- What an answer settles: nothing while the client goes on polling. -/
def settles (device : DeviceCode) (draw : PollDraw) : Option (Except DeviceError Tokens) :=
  match pollDevice device draw.answer with
  | .ok (.approved tokens) => some (.ok tokens)
  | .ok .pending | .ok .slowDown => none
  | .error error => if error.transient then none else some (.error error)

def slowsBy (device : DeviceCode) (draw : PollDraw) : Nat :=
  if pollDevice device draw.answer = .ok .slowDown then seconds 5 else 0

def reported (device : DeviceCode) (draw : PollDraw) (interval : Nat) : DeviceEvent :=
  match pollDevice device draw.answer with
  | .ok .slowDown => .slowDown (interval + seconds 5)
  | .ok _ => .pending
  | .error error => .retrying error interval

def turnOf (device : DeviceCode) (deadline : Nat) (draw : PollDraw) (now interval : Nat) :
    DeviceTurn :=
  let sent := now + min interval (deadline - now) + draw.late
  ⟨now, interval, sent, sent + draw.took,
    if (settles device draw).isSome then none else some (reported device draw interval)⟩

theorem waitLoop_stop (h : deadline ≤ now) :
    device.waitLoop deadline draws now interval = some ⟨[], .error (.expired device), now⟩ := by
  cases draws with
  | nil => exact if_pos h
  | cons draw draws => exact if_pos h

theorem waitLoop_cons {draw : PollDraw} (h : now < deadline) :
    device.waitLoop deadline (draw :: draws) now interval =
      match settles device draw with
      | some result => some ⟨[turnOf device deadline draw now interval], result,
          (turnOf device deadline draw now interval).answered⟩
      | none => (device.waitLoop deadline draws (turnOf device deadline draw now interval).answered
          (interval + slowsBy device draw)).map
            (.after (turnOf device deadline draw now interval)) := by
  rw [DeviceCode.waitLoop, if_neg (Nat.not_le.mpr h)]
  unfold turnOf settles reported slowsBy
  cases hp : pollDevice device draw.answer with
  | ok poll => cases poll <;> simp
  | error error =>
    cases ht : error.transient <;> simp [ht]

-- -----------------------------------------------------------------------------
-- Turns
-- -----------------------------------------------------------------------------

variable {draw : PollDraw}

theorem turnOf_sent (device : DeviceCode) (deadline : Nat) (draw : PollDraw) (now interval : Nat) :
    now + min interval (deadline - now) ≤ (turnOf device deadline draw now interval).sent :=
  Nat.le_add_right _ _

theorem turnOf_answered (device : DeviceCode) (deadline : Nat) (draw : PollDraw)
    (now interval : Nat) : (turnOf device deadline draw now interval).sent ≤
      (turnOf device deadline draw now interval).answered := Nat.le_add_right _ _

theorem turnOf_spends (device : DeviceCode) (deadline : Nat) (draw : PollDraw) (now : Nat)
    (h : least ≤ interval) :
    now + least ≤ (turnOf device deadline draw now interval).answered ∨
      deadline ≤ (turnOf device deadline draw now interval).answered := by
  have hsent := turnOf_sent device deadline draw now interval
  have hanswered := turnOf_answered device deadline draw now interval
  omega

theorem turnOf_answered_le (device : DeviceCode) (h : now < deadline) :
    (turnOf device deadline draw now interval).answered ≤ deadline + draw.late + draw.took := by
  show now + min interval (deadline - now) + draw.late + draw.took ≤ _
  omega

inductive Waits (device : DeviceCode) (deadline : Nat) :
    List PollDraw → Nat → Nat → DeviceWait → Prop
  | expired (draws : List PollDraw) {now : Nat} (interval : Nat) (h : deadline ≤ now) :
    Waits device deadline draws now interval ⟨[], .error (.expired device), now⟩
  | settled {draw : PollDraw} (draws : List PollDraw) {now : Nat} (interval : Nat)
      {result : Except DeviceError Tokens} (h : now < deadline)
      (hs : settles device draw = some result) :
    Waits device deadline (draw :: draws) now interval
      ⟨[turnOf device deadline draw now interval], result,
        (turnOf device deadline draw now interval).answered⟩
  | goesOn {draw : PollDraw} {draws : List PollDraw} {now interval : Nat} {wait : DeviceWait}
      (h : now < deadline) (hs : settles device draw = none)
      (rest : Waits device deadline draws (turnOf device deadline draw now interval).answered
        (interval + slowsBy device draw) wait) :
    Waits device deadline (draw :: draws) now interval
      (wait.after (turnOf device deadline draw now interval))

theorem waits_of_waitLoop (h : device.waitLoop deadline draws now interval = some wait) :
    Waits device deadline draws now interval wait := by
  induction draws generalizing now interval wait with
  | nil =>
    by_cases hd : deadline ≤ now
    · rw [waitLoop_stop hd] at h
      cases h
      exact .expired _ _ hd
    · rw [DeviceCode.waitLoop, if_neg hd] at h
      cases h
  | cons draw draws ih =>
    by_cases hd : deadline ≤ now
    · rw [waitLoop_stop hd] at h
      cases h
      exact .expired _ _ hd
    · have hnow := Nat.not_le.mp hd
      rw [waitLoop_cons hnow] at h
      cases hs : settles device draw with
      | some result =>
        rw [hs] at h
        cases h
        exact .settled _ _ hnow hs
      | none =>
        rw [hs] at h
        obtain ⟨rest, hrest, rfl⟩ := Option.map_eq_some_iff.mp h
        exact .goesOn hnow hs (ih hrest)

/-- The loop needs no more turns than there are intervals before the deadline. -/
theorem waitLoop_returns (hi : least ≤ interval)
    (h : deadline ≤ now + draws.length * least) :
    ∃ wait, device.waitLoop deadline draws now interval = some wait := by
  induction draws generalizing now interval with
  | nil => exact ⟨_, waitLoop_stop (by simpa using h)⟩
  | cons draw draws ih =>
    by_cases hd : deadline ≤ now
    · exact ⟨_, waitLoop_stop hd⟩
    · rw [waitLoop_cons (Nat.not_le.mp hd)]
      cases settles device draw with
      | some result => exact ⟨_, rfl⟩
      | none =>
        have hspent : deadline ≤ (turnOf device deadline draw now interval).answered +
            draws.length * least := by
          rw [List.length_cons, Nat.succ_mul] at h
          rcases turnOf_spends device deadline draw now hi with hs | hs <;> omega
        obtain ⟨wait, hw⟩ := ih (Nat.le_trans hi (Nat.le_add_right _ _)) hspent
        exact ⟨_, by rw [hw]; rfl⟩

-- -----------------------------------------------------------------------------
-- Calls
-- -----------------------------------------------------------------------------

namespace Waits

theorem polls (h : Waits device deadline draws now interval wait) (hleast : 0 < least)
    (hi : least ≤ interval) : wait.turns.length * least < deadline - now + least := by
  induction h with
  | @expired draws now interval h =>
    show 0 * least < deadline - now + least
    rw [Nat.zero_mul]
    exact Nat.lt_of_lt_of_le hleast (Nat.le_add_left _ _)
  | settled draws interval h hs =>
    rw [List.length_singleton, Nat.one_mul]
    omega
  | @goesOn draw draws now interval wait h hs rest ih =>
    have hrest := ih (Nat.le_trans hi (Nat.le_add_right _ _))
    rw [DeviceWait.after, List.length_cons, Nat.succ_mul]
    by_cases hlate : (turnOf device deadline draw now interval).answered < deadline
    · rcases turnOf_spends device deadline draw now hi with hspent | hspent <;> omega
    · have hnone : wait.turns.length * least < least := by omega
      have hzero : wait.turns.length = 0 := by
        by_contra hne
        have hone := Nat.mul_le_mul_right least (Nat.one_le_iff_ne_zero.mpr hne)
        omega
      rw [hzero]
      omega

theorem intervals (h : Waits device deadline draws now interval wait) {k : Nat} {turn : DeviceTurn}
    (hk : wait.turns[k]? = some turn) :
    turn.interval = interval + ((draws.take k).map (slowsBy device)).sum := by
  induction h generalizing k with
  | expired draws interval h => cases hk
  | settled draws interval h hs =>
    cases k with
    | zero =>
      cases hk
      rfl
    | succ k => cases hk
  | goesOn h hs rest ih =>
    cases k with
    | zero =>
      cases hk
      rfl
    | succ k =>
      rw [ih hk, List.take_succ_cons, List.map_cons, List.sum_cons, Nat.add_assoc]

theorem events (h : Waits device deadline draws now interval wait) {k : Nat} {turn : DeviceTurn}
    {draw : PollDraw} (hk : wait.turns[k]? = some turn) (hd : draws[k]? = some draw) :
    turn.event = if (settles device draw).isSome then none
      else some (reported device draw turn.interval) := by
  induction h generalizing k with
  | expired draws interval h => cases hk
  | settled draws interval h hs =>
    cases k with
    | zero =>
      cases hk
      cases hd
      rfl
    | succ k => cases hk
  | goesOn h hs rest ih =>
    cases k with
    | zero =>
      cases hk
      cases hd
      rfl
    | succ k => exact ih hk hd

theorem spaced (h : Waits device deadline draws now interval wait) :
    ∀ turn ∈ wait.turns, turn.began < deadline ∧ turn.sent ≤ turn.answered ∧
      (turn.began + turn.interval ≤ turn.sent ∨ deadline ≤ turn.sent) := by
  have hturn : ∀ {draw : PollDraw} {now interval : Nat}, now < deadline →
      now < deadline ∧
        (turnOf device deadline draw now interval).sent ≤
          (turnOf device deadline draw now interval).answered ∧
        (now + interval ≤ (turnOf device deadline draw now interval).sent ∨
          deadline ≤ (turnOf device deadline draw now interval).sent) := by
    intro draw now interval h
    have hsent := turnOf_sent device deadline draw now interval
    exact ⟨h, turnOf_answered device deadline draw now interval, by omega⟩
  induction h with
  | expired draws interval h => exact fun turn hm => absurd hm List.not_mem_nil
  | settled draws interval h hs =>
    intro turn hm
    obtain rfl := List.mem_singleton.mp hm
    exact hturn h
  | goesOn h hs rest ih => exact List.forall_mem_cons.mpr ⟨hturn h, ih⟩

theorem first (h : Waits device deadline draws now interval wait) :
    ∀ turn ∈ wait.turns.head?, turn.began = now := by
  cases h with
  | expired draws interval h => exact fun turn hm => by cases hm
  | settled draws interval h hs =>
    intro turn hm
    cases hm
    rfl
  | goesOn h hs rest =>
    intro turn hm
    cases hm
    rfl

theorem chained (h : Waits device deadline draws now interval wait) :
    wait.turns.IsChain fun turn next => next.began = turn.answered := by
  induction h with
  | expired draws interval h => exact .nil
  | settled draws interval h hs => exact .singleton _
  | goesOn h hs rest ih => exact List.isChain_cons.mpr ⟨rest.first, ih⟩

theorem outcome (h : Waits device deadline draws now interval wait) :
    (∃ before draw after, draws = before ++ draw :: after ∧
      wait.turns.length = before.length + 1 ∧
      (∀ draw ∈ before, settles device draw = none) ∧
      settles device draw = some wait.result) ∨
    wait.result = .error (.expired device) ∧ deadline ≤ wait.ended ∧
      ∀ draw ∈ draws.take wait.turns.length, settles device draw = none := by
  induction h with
  | expired draws interval h => exact .inr ⟨rfl, h, fun draw hm => absurd hm List.not_mem_nil⟩
  | @settled draw draws now interval result h hs =>
    exact .inl ⟨[], draw, draws, rfl, rfl, fun _ hm => absurd hm List.not_mem_nil, hs⟩
  | @goesOn draw draws now interval wait h hs rest ih =>
    rcases ih with ⟨before, last, after, hdraws, hlength, hbefore, hlast⟩ |
      ⟨hresult, hended, hall⟩
    · refine .inl ⟨draw :: before, last, after, by rw [hdraws]; rfl, ?_,
        List.forall_mem_cons.mpr ⟨hs, hbefore⟩, hlast⟩
      rw [DeviceWait.after, List.length_cons, hlength, List.length_cons]
    · exact .inr ⟨hresult, hended, List.forall_mem_cons.mpr ⟨hs, hall⟩⟩

theorem timed (h : Waits device deadline draws now interval wait) {k : Nat} {turn : DeviceTurn}
    {draw : PollDraw} (hk : wait.turns[k]? = some turn) (hd : draws[k]? = some draw) :
    turn.sent = min (turn.began + turn.interval) deadline + draw.late ∧
      turn.answered = turn.sent + draw.took := by
  have hturn : ∀ {draw : PollDraw} {now interval : Nat}, now < deadline →
      (turnOf device deadline draw now interval).sent =
          min (now + interval) deadline + draw.late ∧
        (turnOf device deadline draw now interval).answered =
          (turnOf device deadline draw now interval).sent + draw.took := by
    intro draw now interval h
    refine ⟨?_, rfl⟩
    show now + min interval (deadline - now) + draw.late = _
    omega
  induction h generalizing k with
  | expired draws interval h => cases hk
  | settled draws interval h hs =>
    cases k with
    | zero =>
      cases hk
      cases hd
      exact hturn h
    | succ k => cases hk
  | goesOn h hs rest ih =>
    cases k with
    | zero =>
      cases hk
      cases hd
      exact hturn h
    | succ k => exact ih hk hd

theorem returns (h : Waits device deadline draws now interval wait) (hnow : now < deadline) :
    ∃ draw turn, draws[wait.turns.length - 1]? = some draw ∧ wait.turns.getLast? = some turn ∧
      wait.ended = turn.answered ∧ turn.answered ≤ deadline + draw.late + draw.took := by
  induction h with
  | expired draws interval h => exact absurd hnow (Nat.not_lt.mpr h)
  | @settled draw draws now interval result h hs =>
    exact ⟨draw, _, rfl, rfl, rfl, turnOf_answered_le device h⟩
  | @goesOn draw draws now interval wait h hs rest ih =>
    by_cases hlate : (turnOf device deadline draw now interval).answered < deadline
    · obtain ⟨last, turn, hlast, hturn, hended, hle⟩ := ih hlate
      refine ⟨last, turn, ?_, ?_, hended, hle⟩
      · have hpos : 0 < wait.turns.length :=
          List.length_pos_iff.mpr fun hnil => by rw [hnil] at hturn; cases hturn
        rw [DeviceWait.after, List.length_cons, Nat.add_sub_cancel,
          show wait.turns.length = wait.turns.length - 1 + 1 by omega, List.getElem?_cons_succ]
        exact hlast
      · rw [DeviceWait.after, List.getLast?_cons, hturn]
        rfl
    · -- the answer came past the deadline, so nothing is polled after it
      cases rest with
      | expired draws interval hrest =>
        exact ⟨draw, _, rfl, rfl, rfl, turnOf_answered_le device h⟩
      | settled draws interval hrest hs => exact absurd hrest hlate
      | goesOn hrest hs rest => exact absurd hrest hlate

end Waits

-- -----------------------------------------------------------------------------
-- What a Carbon waits for
-- -----------------------------------------------------------------------------

/-- What the failures are after which the client polls again: those that say to retry,
and those that leave open what happened. -/
def AccountsFailure.passes : AccountsFailure → Bool
  | .oauth _ error _ => error = "slow_down" ∨ error = "temporarily_unavailable"
  | .api status _ _ _ => 500 ≤ status ∨ status = 429
  | .http .. | .decode _ => true
  | .other .. => false

theorem fromAccounts_transient (failure : AccountsFailure) :
    (DeviceError.signIn (.fromAccounts .device failure)).transient = failure.passes := by
  cases failure with
  | oauth status error description =>
    simp only [SignInError.fromAccounts, SignInError.oauth, AccountsFailure.passes,
      DeviceError.transient]
    by_cases hbusy : error = "slow_down" ∨ error = "temporarily_unavailable"
    · rcases hbusy with rfl | rfl <;> simp
    · -- every other code is an answer
      by_cases hdenied : error = "access_denied"
      · simp [hdenied]
      · by_cases hexpired : error = "expired_token"
        · simp [hexpired]
        · by_cases hdisabled : error = "unauthorized_client" ∨ error = "invalid_client"
          · simp [hbusy, hdenied, hexpired, hdisabled]
          · simp [hbusy, hdenied, hexpired, hdisabled]
  | api status code message hint =>
    simp only [SignInError.fromAccounts, AccountsFailure.passes, DeviceError.transient]
    split <;> simp_all
  | http message isConnect isBuilder => cases isConnect <;> cases isBuilder <;> rfl
  | decode message => rfl
  | other code message hint status => rfl

/-- An answer settles nothing exactly where the Carbon has not decided yet or the failure passes. -/
theorem settles_none {draw : PollDraw} : settles device draw = none ↔
    draw.answer = .ok .pending ∨ draw.answer = .ok .slowDown ∨
      ∃ failure, draw.answer = .error failure ∧ failure.passes = true := by
  unfold settles
  cases draw.answer with
  | error failure =>
    dsimp only [pollDevice]
    rw [fromAccounts_transient]
    cases hp : failure.passes <;> simp [hp]
  | ok poll => cases poll <;> simp [pollDevice, DeviceError.transient, DeviceError.denied,
      DeviceError.expired, SignInError.oauth]

structure DeviceKept (device : DeviceCode) (started : Nat) (draws : List PollDraw)
    (wait : DeviceWait) : Prop where
  polls : wait.turns.length * device.firstInterval < device.patience + device.firstInterval
  first : ∀ turn ∈ wait.turns.head?, turn.began = started
  chained : wait.turns.IsChain fun turn next => next.began = turn.answered
  spaced : ∀ turn ∈ wait.turns, turn.began < started + device.patience ∧
    turn.sent ≤ turn.answered ∧
    (turn.began + turn.interval ≤ turn.sent ∨ started + device.patience ≤ turn.sent)
  intervals : ∀ (k : Nat) turn, wait.turns[k]? = some turn →
    turn.interval = device.firstInterval + ((draws.take k).map (slowsBy device)).sum
  events : ∀ (k : Nat) turn draw, wait.turns[k]? = some turn → draws[k]? = some draw →
    turn.event = if (settles device draw).isSome then none
      else some (reported device draw turn.interval)
  outcome : (∃ before draw after, draws = before ++ draw :: after ∧
      wait.turns.length = before.length + 1 ∧
      (∀ draw ∈ before, settles device draw = none) ∧
      settles device draw = some wait.result) ∨
    wait.result = .error (.expired device) ∧ started + device.patience ≤ wait.ended ∧
      ∀ draw ∈ draws.take wait.turns.length, settles device draw = none
  timed : ∀ (k : Nat) turn draw, wait.turns[k]? = some turn → draws[k]? = some draw →
    turn.sent = min (turn.began + turn.interval) (started + device.patience) + draw.late ∧
      turn.answered = turn.sent + draw.took
  /-- It returns with its last answer, which its last sleep and poll bound. -/
  returns : ∃ draw turn, draws[wait.turns.length - 1]? = some draw ∧
    wait.turns.getLast? = some turn ∧ wait.ended = turn.answered ∧
      wait.ended ≤ started + device.patience + draw.late + draw.took

theorem device_waits (device : DeviceCode) (started : Nat) (draws : List PollDraw)
    (h : device.patience ≤ draws.length * device.firstInterval) :
    ∃ wait, device.waitForDevice started draws = some wait ∧
      DeviceKept device started draws wait := by
  have hinterval : 0 < device.firstInterval := by
    unfold DeviceCode.firstInterval seconds
    omega
  have hpatience : 0 < device.patience := by
    unfold DeviceCode.patience seconds
    omega
  obtain ⟨wait, hwait⟩ : ∃ wait, device.waitLoop (started + device.patience) draws started
      device.firstInterval = some wait :=
    waitLoop_returns (Nat.le_refl _) (Nat.add_le_add_left h _)
  have hw := waits_of_waitLoop hwait
  refine ⟨wait, hwait, ?_, hw.first, hw.chained, hw.spaced, fun k turn hk => hw.intervals hk,
    fun k turn draw hk hd => hw.events hk hd, hw.outcome, fun k turn draw hk hd => hw.timed hk hd,
    ?_⟩
  · have hpolls := hw.polls hinterval (Nat.le_refl _)
    rw [Nat.add_sub_cancel_left] at hpolls
    exact hpolls
  · obtain ⟨draw, turn, hdraw, hturn, hended, hle⟩ :=
      hw.returns (Nat.lt_add_of_pos_right hpatience)
    exact ⟨draw, turn, hdraw, hturn, hended, hended ▸ hle⟩

-- -----------------------------------------------------------------------------
-- A slow approval
-- -----------------------------------------------------------------------------

namespace SlowApproval

/-- A code for half a minute, polled every ten seconds. -/
def code : DeviceCode := ⟨"dc_slow", "WDJB-MJHT", "http://localhost/device", none, 30, 10⟩

/-- Told to slow down, then not answered, then approved. -/
def answers : List PollDraw := [
  ⟨0, 0, .ok .slowDown⟩,
  ⟨0, seconds 1, .error (.http "timed out" false false)⟩,
  ⟨0, 0, .ok (.tokens ⟨"sat_1", none, 1800, none, none, none⟩)⟩]

theorem answers_awaited : ∃ wait, code.waitForDevice 0 answers = some wait ∧
    DeviceKept code 0 answers wait :=
  device_waits code 0 answers (by decide)

end SlowApproval

end SiliconHook.Client
