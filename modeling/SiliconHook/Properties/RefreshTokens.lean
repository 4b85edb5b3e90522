import SiliconHook.Delivery.ProofCache

/-!
# Refresh tokens

The lock lets one caller ask at a time, and a proof that is kept brings a refresh
token of its own. So a refresh token is presented twice exactly where the call that
presented it ended without a proof and a later call asks again.
-/

namespace SiliconHook

namespace ProofCache

/-- A refresh token Accounts answers with is a new one. -/
def Rotates (proofs : ProofCache) : ProofStep → Prop
  | .answer (.ok issued) _ => ∀ token ∈ issued.proofRefreshToken, token ∉ proofs.received
  | _ => True

instance : ∀ proofs label, Decidable (Rotates proofs label)
  | proofs, .answer (.ok issued) _ =>
    inferInstanceAs (Decidable (∀ token ∈ issued.proofRefreshToken, token ∉ proofs.received))
  | _, .answer (.error _) _ | _, .token .. | _, .cancel | _, .forgetToken _ => isTrue trivial

/-- No call finds the cached proof stale, and no pause on, after a call that presented its
refresh token was lost. -/
def Settled (proofs : ProofCache) : ProofStep → Prop
  | .token now elapsed => proofs.lock = none →
    (∀ cached ∈ proofs.state.proof, cached.fresh now = false) →
    (∀ pausedUntil ∈ proofs.state.pausedUntil, ¬ elapsed < pausedUntil) → proofs.lost = false
  | _ => True

def PresentedOnce (proofs : ProofCache) : Prop := proofs.presented.Nodup

structure Tracked (proofs : ProofCache) : Prop where
  received : ∀ token ∈ proofs.presented, token ∈ proofs.received
  cached : ∀ token ∈ proofs.state.refreshToken, token ∈ proofs.received
  /-- The caller with the lock asks for the cached proof. -/
  asked : ∀ request ∈ proofs.lock, request.spent = proofs.state.refreshToken
  /-- The cached refresh token was presented by the caller with the lock or by one
  that was lost. -/
  spent : ∀ token ∈ proofs.state.refreshToken,
    token ∈ proofs.presented ↔ proofs.lost = true ∨ proofs.lock.isSome = true
  lost : proofs.lost = true → proofs.state.refreshToken.isSome = true

section

variable {proofs : ProofCache} {state : CacheState} {now elapsed : Instant}

theorem token_asks : state.token now elapsed = .asks request ↔
    request = state.nextRequest ∧ (∀ cached ∈ state.proof, cached.fresh now = false) ∧
      ∀ pausedUntil ∈ state.pausedUntil, ¬ elapsed < pausedUntil := by
  have hstale : state.proof.filter (·.fresh now) = none ↔
      ∀ cached ∈ state.proof, cached.fresh now = false := by
    simp [Option.filter_eq_none_iff]
  have hpaused : state.pausedUntil.filter (elapsed < ·) = none ↔
      ∀ pausedUntil ∈ state.pausedUntil, ¬ elapsed < pausedUntil := by
    simp [Option.filter_eq_none_iff]
  rw [← hstale, ← hpaused, CacheState.token]
  cases state.proof.filter (·.fresh now) with
  | some cached => simp
  | none =>
    cases state.pausedUntil.filter (elapsed < ·) with
    | some pausedUntil => simp
    | none => simp [eq_comm]

theorem nextRequest_spent (state : CacheState) :
    state.nextRequest.spent = state.refreshToken := by
  rw [CacheState.nextRequest]
  cases state.refreshToken <;> rfl

theorem forgetToken_refreshToken (state : CacheState) (refused : String) :
    (state.forgetToken refused).refreshToken = state.refreshToken := by
  rw [CacheState.forgetToken, CacheState.refreshToken, CacheState.refreshToken]
  cases state.proof with
  | none => rfl
  | some cached =>
    simp only [Option.map_some, Option.bind_some]
    split <;> rfl

/-- A call asks for the cached proof: it presents its refresh token, where it has one. -/
theorem asking_nextRequest (proofs : ProofCache) :
    proofs.asking proofs.state.nextRequest = { proofs with
      lock := some proofs.state.nextRequest
      presented := proofs.state.refreshToken.toList ++ proofs.presented } := by
  rw [CacheState.nextRequest]
  cases proofs.state.refreshToken <;> rfl

theorem step_idle {label : ProofStep} (h : match label with
    | .token .. | .forgetToken _ => proofs.lock.isSome = true
    | .answer .. | .cancel => proofs.lock = none) : proofs.step label = proofs := by
  obtain ⟨state, lock, received, presented, lost⟩ := proofs
  cases label <;> cases lock <;> first | rfl | cases h

theorem step_token (hlock : proofs.lock = none) :
    proofs.step (.token now elapsed) = proofs.turn (proofs.state.token now elapsed) := by
  obtain ⟨state, lock, received, presented, lost⟩ := proofs
  obtain rfl : lock = none := hlock
  rfl

theorem step_forgetToken (hlock : proofs.lock = none) (refused : String) :
    proofs.step (.forgetToken refused) =
      { proofs with state := proofs.state.forgetToken refused } := by
  obtain ⟨state, lock, received, presented, lost⟩ := proofs
  obtain rfl : lock = none := hlock
  rfl

theorem step_cancel {request : ProofRequest} (hlock : proofs.lock = some request) :
    proofs.step .cancel =
      { proofs with lock := none, lost := proofs.lost || request.spent.isSome } := by
  obtain ⟨state, lock, received, presented, lost⟩ := proofs
  obtain rfl : lock = some request := hlock
  rfl

/-- What an answer without a proof leaves: the caller asks on after the refusal of its
refresh token, or ends. -/
theorem step_refused {request : ProofRequest} {error : AccountsError}
    (hlock : proofs.lock = some request) :
    (∃ refused, request = .refresh refused ∧ proofs.step (.answer (.error error) elapsed) =
      { proofs with lock := some (.issue (some refused)) }) ∨
    proofs.step (.answer (.error error) elapsed) = { proofs with
      state := proofs.state.failed error elapsed
      lock := none
      lost := proofs.lost || request.spent.isSome } := by
  obtain ⟨state, lock, received, presented, lost⟩ := proofs
  obtain rfl : lock = some request := hlock
  cases request with
  | issue refused =>
    right
    cases error <;> rfl
  | refresh refused =>
    cases error with
    | rejected status code message => exact .inl ⟨refused, rfl, rfl⟩
    | unavailable message => exact .inr rfl

theorem step_issued {request : ProofRequest} {issued : IssuedProof}
    (hlock : proofs.lock = some request) : proofs.step (.answer (.ok issued) elapsed) =
      { proofs with
        state := { proofs.state with
          proof := some (cache issued), failures := 0, pausedUntil := none }
        received := issued.proofRefreshToken.toList ++ proofs.received
        lost := false
        lock := none } := by
  obtain ⟨state, lock, received, presented, lost⟩ := proofs
  obtain rfl : lock = some request := hlock
  cases request <;> rfl

theorem Tracked.asking (h : proofs.Tracked) :
    (proofs.asking proofs.state.nextRequest).Tracked := by
  rw [asking_nextRequest]
  refine ⟨fun token hm => ?_, h.cached, ?_, fun token hm => ?_, h.lost⟩
  · rcases List.mem_append.mp hm with hm | hm
    · exact h.cached token (Option.mem_toList.mp hm)
    · exact h.received token hm
  · rintro request ⟨⟩
    exact nextRequest_spent proofs.state
  · exact iff_of_true (List.mem_append_left _ (Option.mem_toList.mpr hm)) (.inr rfl)

theorem Tracked.ended {request : ProofRequest} (h : proofs.Tracked)
    (hlock : proofs.lock = some request) (hstate : state.refreshToken = proofs.state.refreshToken) :
    ({ proofs with state, lock := none, lost := proofs.lost || request.spent.isSome } :
      ProofCache).Tracked := by
  have hspent := h.asked request hlock
  constructor
  · exact h.received
  · exact fun token hm => h.cached token (hstate ▸ hm)
  · exact fun _ hm => nomatch hm
  · intro token hm
    have hm' : token ∈ proofs.state.refreshToken := hstate ▸ hm
    refine (h.spent token hm').trans ?_
    rw [hspent, hlock, Option.mem_def.mp hm']
    simp
  · intro hlost
    show state.refreshToken.isSome = true
    rw [hstate]
    rcases Bool.or_eq_true_iff.mp hlost with hlost | hsome
    · exact h.lost hlost
    · rw [← hspent]
      exact hsome

theorem Tracked.issued {request : ProofRequest} {issued : IssuedProof} (h : proofs.Tracked)
    (hlock : proofs.lock = some request) (hrotates : proofs.Rotates (.answer (.ok issued) elapsed)) :
    (proofs.step (.answer (.ok issued) elapsed)).Tracked := by
  rw [step_issued hlock]
  constructor
  · exact fun token hm => List.mem_append_right _ (h.received token hm)
  · exact fun token hm => List.mem_append_left _ (Option.mem_toList.mpr hm)
  · exact fun _ hm => nomatch hm
  · intro token hm
    have hnew : token ∉ proofs.presented := fun hm' => hrotates token hm (h.received token hm')
    exact iff_of_false hnew (by simp)
  · exact fun hlost => nomatch hlost

theorem Tracked.step (h : proofs.Tracked) {label : ProofStep} (hrotates : proofs.Rotates label) :
    (proofs.step label).Tracked := by
  cases hlock : proofs.lock with
  | none =>
    cases label with
    | token now elapsed =>
      rw [step_token hlock]
      cases hturn : proofs.state.token now elapsed with
      | returns result =>
        rw [turn, ← hlock]
        exact h
      | asks request =>
        rw [turn, (token_asks.mp hturn).1]
        exact h.asking
    | forgetToken refused =>
      rw [step_forgetToken hlock]
      have hkept := forgetToken_refreshToken proofs.state refused
      exact ⟨h.received, fun token hm => h.cached token (hkept ▸ hm),
        fun request hm => (h.asked request hm).trans hkept.symm,
        fun token hm => h.spent token (hkept ▸ hm),
        fun hlost => (congrArg Option.isSome hkept).trans (h.lost hlost)⟩
    | answer | cancel =>
      rw [step_idle hlock]
      exact h
  | some request =>
    have hheld : proofs.lock.isSome = true := by rw [hlock]; rfl
    cases label with
    | token | forgetToken =>
      rw [step_idle hheld]
      exact h
    | cancel =>
      rw [step_cancel hlock]
      exact h.ended hlock rfl
    | answer result elapsed =>
      cases result with
      | ok issued => exact h.issued hlock hrotates
      | error error =>
        rcases step_refused hlock with ⟨refused, rfl, hstep⟩ | hstep
        · rw [hstep]
          refine ⟨h.received, h.cached, ?_, fun token hm => ?_, h.lost⟩
          · rintro _ ⟨⟩
            exact h.asked (.refresh refused) hlock
          · rw [h.spent token hm, hlock]
            simp
        · rw [hstep]
          exact h.ended hlock rfl

/-- A refresh token is presented again exactly by a call that asks after one was lost. -/
theorem Tracked.presentedOnce_step (h : proofs.Tracked) (hp : proofs.PresentedOnce)
    (label : ProofStep) : (proofs.step label).PresentedOnce ↔ proofs.Settled label := by
  cases hlock : proofs.lock with
  | none =>
    cases label with
    | token now elapsed =>
      rw [step_token hlock]
      cases hturn : proofs.state.token now elapsed with
      | returns result =>
        refine iff_of_true hp fun _ hstale hpaused => ?_
        have hasks := token_asks.mpr ⟨rfl, hstale, hpaused⟩
        rw [hturn] at hasks
        cases hasks
      | asks request =>
        obtain ⟨hrequest, hstale, hpaused⟩ := token_asks.mp hturn
        have hsettled : proofs.Settled (.token now elapsed) ↔ proofs.lost = false :=
          ⟨fun hs => hs hlock hstale hpaused, fun hlost _ _ _ => hlost⟩
        rw [turn, hrequest, asking_nextRequest, hsettled]
        show (proofs.state.refreshToken.toList ++ proofs.presented).Nodup ↔ _
        cases htoken : proofs.state.refreshToken with
        | none =>
          refine iff_of_true hp (Bool.eq_false_iff.mpr fun hlost => ?_)
          have hsome := h.lost hlost
          rw [htoken] at hsome
          cases hsome
        | some token =>
          have hspent := h.spent token htoken
          rw [hlock] at hspent
          rw [Option.toList_some, List.singleton_append, List.nodup_cons, hspent]
          simp [show proofs.presented.Nodup from hp]
    | forgetToken refused =>
      rw [step_forgetToken hlock]
      exact iff_of_true hp trivial
    | answer | cancel =>
      rw [step_idle hlock]
      exact iff_of_true hp trivial
  | some request =>
    have hheld : proofs.lock.isSome = true := by rw [hlock]; rfl
    cases label with
    | token now elapsed =>
      rw [step_idle hheld]
      exact iff_of_true hp fun hfree => by rw [hfree] at hlock; cases hlock
    | forgetToken =>
      rw [step_idle hheld]
      exact iff_of_true hp trivial
    | cancel =>
      rw [step_cancel hlock]
      exact iff_of_true hp trivial
    | answer result elapsed =>
      cases result with
      | ok issued =>
        rw [step_issued hlock]
        exact iff_of_true hp trivial
      | error error =>
        rcases step_refused hlock with ⟨_, -, hstep⟩ | hstep
        · rw [hstep]
          exact iff_of_true hp trivial
        · rw [hstep]
          exact iff_of_true hp trivial

theorem new_tracked : new.Tracked where
  received _ hm := by cases hm
  cached _ hm := by cases hm
  asked _ hm := by cases hm
  spent _ hm := by cases hm
  lost hlost := by cases hlost

end

/-- Where Accounts answers each time with a new refresh token, none is presented twice in a
run exactly when no call finds the proof stale, outside a pause, after a call that presented
the cached one was lost. -/
theorem presented_once_iff {labels : List ProofStep} (h : Along step Rotates new labels) :
    Always step PresentedOnce new labels ↔ Along step Settled new labels :=
  always_iff_along (I := Tracked) (fun _ _ htracked hrotates => htracked.step hrotates)
    (fun _ label htracked _ hp => htracked.presentedOnce_step hp label) new_tracked List.nodup_nil h

namespace DroppedRefresh

def issued : IssuedProof := ⟨"proof-1", some "refresh-1", some (100 * Instant.second)⟩

/-- A proof is issued; near its expiry a refresh is sent, and the sender's timeout drops
the call before the answer. -/
def dropped : List ProofStep :=
  [.token 0 0, .answer (.ok issued) 0, .token (50 * Instant.second) (50 * Instant.second), .cancel]

theorem dropped_once :
    Always step PresentedOnce new dropped ↔ Along step Settled new dropped :=
  presented_once_iff (by decide +kernel)

/-- The next send presents the refresh token again. -/
theorem presented_again :
    Along step Rotates new (dropped ++ [.token (110 * Instant.second) (110 * Instant.second)]) ∧
    ¬ Always step PresentedOnce new
      (dropped ++ [.token (110 * Instant.second) (110 * Instant.second)]) := by
  refine ⟨by decide +kernel, fun h => ?_⟩
  have hend : (run step new
      (dropped ++ [.token (110 * Instant.second) (110 * Instant.second)])).presented =
      ["refresh-1", "refresh-1"] := by decide +kernel
  have honce : List.Nodup _ := h.run
  rw [hend] at honce
  exact absurd honce (by decide)

end DroppedRefresh

end ProofCache

end SiliconHook
