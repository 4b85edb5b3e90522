import SiliconHook.Delivery.Subscriptions
import SiliconHook.Library.Transition
import SiliconHook.Store.AccountsEvents

/-!
# Sign-outs that arrive late

A sign-out is applied when it is delivered, and ends every observer
subscription the account then has. It takes only the older ones exactly where
the account has none that is newer than the sign-out.
-/

namespace SiliconHook

def AccountsChange.signsOut : AccountsChange → Option AccountUuid
  | .signedOut uuid reason => if reason = some "app_revoked" then none else some uuid
  | .accessRemoved uuid => some uuid
  | _ => none

def AccountsChange.isSignOut : AccountsChange → Bool
  | .signedOut .. | .accessRemoved _ => true
  | _ => false

-- -----------------------------------------------------------------------------
-- Runs
-- -----------------------------------------------------------------------------

/-- The store, and when each subscription was created. -/
structure ObservingWorld where
  db : Store
  clock : Instant
  created : List (Uuid × Instant)

inductive ObservingLabel
  | elapsed (micros : Nat)
  | delivered (event : AccountsEvent)
  | subscribed (id : Uuid) (silicon recipient : AccountUuid)
  | elsewhere (other : Store) (removed : SubscriptionRow → Bool)

namespace ObservingWorld

def start (clock : Instant) : ObservingWorld := ⟨.empty, clock, []⟩

def subscribe (w : ObservingWorld) (id : Uuid) (silicon recipient : AccountUuid) :
    ObservingWorld :=
  match SiliconHook.subscribe id silicon recipient w.db with
  | .error _ => w
  | .ok (row, db) =>
    if (w.db.observerSubscriptions.find (silicon, recipient)).isSome then { w with db }
    else { w with db, created := (row.id, w.clock) :: w.created }

/-- Other calls may write any table and remove subscriptions, but make none. -/
def step (w : ObservingWorld) : ObservingLabel → ObservingWorld
  | .elapsed micros => { w with clock := w.clock + micros }
  | .delivered event => { w with db := deliver event w.clock w.db }
  | .subscribed id silicon recipient => w.subscribe id silicon recipient
  | .elsewhere other removed => { w with
      db := { other with
        observerSubscriptions := w.db.observerSubscriptions.delete removed } }

def CreatedBy (w : ObservingWorld) (subscription : Uuid) (at' : Instant) : Prop :=
  ∃ created, w.created.lookup subscription = some created ∧ created ≤ at'

def CreatedAfter (w : ObservingWorld) (subscription : Uuid) (at' : Instant) : Prop :=
  ∃ created, w.created.lookup subscription = some created ∧ at' < created

/-- A delivered sign-out removes only subscriptions created at or before it, and
only their queued sends. -/
def RemovesOlder (w : ObservingWorld) : ObservingLabel → Prop
  | .delivered event => event.change.isSignOut = true →
    let db := (w.step (.delivered event)).db
    (∀ row ∈ w.db.observerSubscriptions.rows, row ∉ db.observerSubscriptions.rows →
      w.CreatedBy row.id event.occurredAt) ∧
    ∀ send ∈ w.db.tingOutbox.rows, send ∉ db.tingOutbox.rows →
      ∃ subscription, send.observerSubscriptionId = some subscription ∧
        w.CreatedBy subscription event.occurredAt
  | _ => True

/-- Where a sign-out is applied, its account has no newer subscription. -/
def Timely (w : ObservingWorld) : ObservingLabel → Prop
  | .delivered event => ∀ account ∈ event.change.signsOut, event.Admitted w.db →
      ∀ row ∈ w.db.observerSubscriptions.rows, row.recipientUuid = account →
        ¬ w.CreatedAfter row.id event.occurredAt
  | _ => True

def Dated (w : ObservingWorld) : Prop :=
  ∀ row ∈ w.db.observerSubscriptions.rows, (w.created.lookup row.id).isSome

variable {w : ObservingWorld} {event : AccountsEvent}

-- -----------------------------------------------------------------------------
-- Steps
-- -----------------------------------------------------------------------------

theorem Dated.not_after (h : Dated w) {row : SubscriptionRow}
    (hm : row ∈ w.db.observerSubscriptions.rows) :
    ¬ w.CreatedAfter row.id at' ↔ w.CreatedBy row.id at' := by
  obtain ⟨created, hc⟩ := Option.isSome_iff_exists.mp (h row hm)
  simp [CreatedAfter, CreatedBy, hc]

theorem Dated.of_subset {db : Store} (h : Dated w)
    (hsub : ∀ row ∈ db.observerSubscriptions.rows, row ∈ w.db.observerSubscriptions.rows) :
    Dated { w with db } := fun row hm => h row (hsub row hm)

theorem Dated.subscribed (h : Dated w) (id : Uuid) (silicon recipient : AccountUuid) :
    Dated (w.subscribe id silicon recipient) := by
  unfold ObservingWorld.subscribe
  split
  · exact h
  · rename_i row db hcall
    unfold SiliconHook.subscribe at hcall
    split at hcall
    · rename_i existing hfind
      cases hcall
      rw [if_pos (by rw [hfind]; rfl)]
      exact h
    · rename_i hnone
      split at hcall
      · cases hcall
      · split at hcall
        · cases hcall
        · split at hcall
          · cases hcall
          · split at hcall
            · cases hcall
            · rename_i subscriptions hins
              cases hcall
              rw [if_neg (by rw [hnone]; exact Bool.false_ne_true)]
              intro other hm
              simp only [List.lookup_cons]
              obtain hm | rfl := (Table.mem_insert hins).mp hm
              · split
                · rfl
                · exact h other hm
              · simp

theorem Dated.step (h : Dated w) (label : ObservingLabel) : Dated (w.step label) := by
  cases label with
  | elapsed micros => exact h
  | delivered event =>
    refine h.of_subset fun row hm => ?_
    obtain ⟨p, hp⟩ := deliver_removes event w.clock w.db
    rw [hp.subscriptions] at hm
    exact (Table.mem_delete.mp hm).1
  | subscribed id silicon recipient => exact h.subscribed id silicon recipient
  | elsewhere other removed =>
    exact h.of_subset fun row hm => (Table.mem_delete.mp hm).1

-- -----------------------------------------------------------------------------
-- Deliveries
-- -----------------------------------------------------------------------------

theorem deliver_signsOut {account : AccountUuid} (clock : Instant)
    (hs : event.change.signsOut = some account) (ha : event.Admitted w.db) :
    Store.Removes (fun row => row.recipientUuid = account) w.db (deliver event clock w.db) := by
  obtain ⟨recorded, -, heq⟩ := deliver_admitted clock ha
  have hrevoke : event.change.apply event.occurredAt clock
      { w.db with accountsEvents := recorded } =
        .ok (revoke account event.occurredAt { w.db with accountsEvents := recorded }) := by
    cases hc : event.change with
    | signedOut uuid reason =>
      rw [hc, AccountsChange.signsOut] at hs
      split at hs
      · cases hs
      · rename_i hreason
        cases hs
        simp only [AccountsChange.apply, if_neg hreason]
    | accessRemoved uuid =>
      rw [hc] at hs
      cases hs
      rfl
    | idChanged | updated | custodianChanged | deleted | nothing =>
      rw [hc] at hs
      cases hs
  rw [heq, hrevoke]
  exact ⟨rfl, rfl, rfl⟩

/-- A repeated, retired or malformed delivery and Hook's own revocation end nothing. -/
theorem deliver_idle (clock : Instant) (hchange : event.change.isSignOut = true)
    (h : event.change.signsOut = none ∨ ¬ event.Admitted w.db) :
    (deliver event clock w.db).observerSubscriptions = w.db.observerSubscriptions ∧
      (deliver event clock w.db).tingOutbox = w.db.tingOutbox := by
  by_cases ha : event.Admitted w.db
  · have hnone := h.resolve_right fun hn => hn ha
    obtain ⟨recorded, -, heq⟩ := deliver_admitted clock ha
    rw [heq]
    cases hc : event.change with
    | signedOut uuid reason =>
      rw [hc, AccountsChange.signsOut] at hnone
      split at hnone
      · rename_i hreason
        have hkept : (AccountsChange.signedOut uuid reason).apply event.occurredAt clock
            { w.db with accountsEvents := recorded } =
              .ok { w.db with accountsEvents := recorded } := by
          rw [AccountsChange.apply, if_pos hreason]
        rw [hkept]
        exact ⟨rfl, rfl⟩
      · cases hnone
    | accessRemoved uuid =>
      rw [hc] at hnone
      cases hnone
    | idChanged | updated | custodianChanged | deleted | nothing =>
      rw [hc] at hchange
      cases hchange
  · obtain ⟨events, heq⟩ := deliver_not_admitted clock ha
    rw [heq]
    exact ⟨rfl, rfl⟩

/-- A sign-out takes only older subscriptions exactly where its account has no
newer one. -/
theorem removesOlder_iff (hw : Dated w) (label : ObservingLabel) :
    w.RemovesOlder label ↔ w.Timely label := by
  cases label with
  | elapsed | subscribed | elsewhere => exact .rfl
  | delivered event =>
    constructor
    · intro h account hs ha row hm hrow
      have hchange : event.change.isSignOut = true := by
        cases hc : event.change with
        | signedOut | accessRemoved => rfl
        | idChanged | updated | custodianChanged | deleted | nothing =>
          rw [hc] at hs
          cases hs
      refine (hw.not_after hm).mpr ((h hchange).1 row hm fun hkept => ?_)
      have hremoves := deliver_signsOut (w := w) w.clock hs ha
      rw [show (w.step (.delivered event)).db = deliver event w.clock w.db from rfl,
        hremoves.subscriptions] at hkept
      have hkeep := (Table.mem_delete.mp hkept).2
      rw [hrow] at hkeep
      simp at hkeep
    · intro h hchange
      show (∀ row ∈ _, row ∉ (deliver event w.clock w.db).observerSubscriptions.rows → _) ∧
        ∀ send ∈ _, send ∉ (deliver event w.clock w.db).tingOutbox.rows → _
      cases hs : event.change.signsOut with
      | none =>
        obtain ⟨hsubs, hsends⟩ := deliver_idle (w := w) w.clock hchange (.inl hs)
        rw [hsubs, hsends]
        exact ⟨fun _ hm hn => absurd hm hn, fun _ hm hn => absurd hm hn⟩
      | some account =>
        by_cases ha : event.Admitted w.db
        · have holder : ∀ row ∈ w.db.observerSubscriptions.rows, row.recipientUuid = account →
              w.CreatedBy row.id event.occurredAt :=
            fun row hm hrow => (hw.not_after hm).mp (h account hs ha row hm hrow)
          have hremoves := deliver_signsOut (w := w) w.clock hs ha
          rw [hremoves.subscriptions, hremoves.outbox]
          constructor
          · intro row hm hn
            refine holder row hm ?_
            by_contra hne
            exact hn (Table.mem_delete.mpr ⟨hm, decide_eq_false hne⟩)
          · intro send hm hn
            cases hsend : send.observerSubscriptionId with
            | none =>
              refine absurd (Table.mem_delete.mpr ⟨hm, ?_⟩) hn
              rw [hsend]
              rfl
            | some subscription =>
              refine ⟨subscription, rfl, ?_⟩
              by_contra hlate
              refine hn (Table.mem_delete.mpr ⟨hm, ?_⟩)
              simp only [hsend, Option.any_some, List.contains_eq_mem, decide_eq_false_iff_not,
                List.mem_map, not_exists, not_and]
              rintro row hrow rfl
              obtain ⟨hrow, hrecipient⟩ := List.mem_filter.mp hrow
              exact hlate (holder row hrow (of_decide_eq_true hrecipient))
        · obtain ⟨hsubs, hsends⟩ := deliver_idle (w := w) w.clock hchange (.inr ha)
          rw [hsubs, hsends]
          exact ⟨fun _ hm hn => absurd hm hn, fun _ hm hn => absurd hm hn⟩

theorem Dated.start (clock : Instant) : Dated (ObservingWorld.start clock) :=
  fun _ hm => nomatch hm

end ObservingWorld

/-- In a run every sign-out removes only subscriptions created at or before it,
and their queued sends, exactly where none is applied while its account has a
newer subscription. -/
theorem sign_outs_remove_older_iff (clock : Instant) (labels : List ObservingLabel) :
    Along ObservingWorld.step ObservingWorld.RemovesOlder (.start clock) labels ↔
      Along ObservingWorld.step ObservingWorld.Timely (.start clock) labels :=
  along_iff_of_invariant (fun _ label h => ObservingWorld.Dated.step h label)
    (fun _ label h => ObservingWorld.removesOlder_iff h label) (ObservingWorld.Dated.start clock)

namespace LateDelivery

def silicon : AccountUuid := ⟨"SiWatched", by decide⟩
def carbon : AccountUuid := ⟨"CaReturns", by decide⟩

/-- Signed out at 10, signed in and subscribed again at 20, told at 30. -/
def labels : List ObservingLabel :=
  [.elapsed 20, .subscribed 1 silicon carbon, .elapsed 10,
    .delivered ⟨"evt-1", "membership.signed_out", 10, .signedOut carbon none⟩]

theorem late_sign_out_unsubscribes :
    ¬ ∀ (clock : Instant) (labels : List ObservingLabel),
      Along ObservingWorld.step ObservingWorld.RemovesOlder (.start clock) labels := by
  intro h
  obtain ⟨-, -, -, hlate, -⟩ := h 0 labels
  obtain ⟨created, hcreated, hle⟩ := (hlate rfl).1 ⟨1, silicon, carbon⟩ (by decide) (by decide)
  have hat : created = 20 := Option.some.inj (hcreated.symm.trans (by decide))
  subst hat
  exact absurd hle (by decide)

end LateDelivery

end SiliconHook
