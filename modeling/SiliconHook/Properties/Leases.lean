import SiliconHook.Delivery.Publisher
import SiliconHook.Library.Transition
import Mathlib.Data.List.Pairwise

/-!
# Leases on queued sends

Publishers claim sends, crash, overrun their leases and come back. What each
call can do to one row is said once; that rows stay sound, that nothing is
undone and that late calls do nothing follow from it.
-/

namespace SiliconHook

-- -----------------------------------------------------------------------------
-- The outbox and its publishers
-- -----------------------------------------------------------------------------

structure OutboxWorld where
  db : Store
  clock : Instant
  /-- The claims each publisher holds. -/
  publishers : Nat → List TingOutboxClaim
  /-- Every claim made so far, in order. -/
  claims : List TingOutboxClaim
  /-- The ids drawn for sends so far. -/
  sends : List Uuid

inductive OutboxLabel
  | enqueued (id : Uuid) (event : EventRecord) (recipient : AccountUuid) (body : List UInt8)
      (observer : Option Uuid)
  | claimed (publisher limit : Nat) (leaseDuration : Int) (leaseIds : Uuid → Uuid)
  | completed (publisher : Nat) (claim : TingOutboxClaim) (tingId : String) (silent : Bool)
  | retried (publisher : Nat) (claim : TingOutboxClaim) (failure : TingSendFailure)
      (retryAt : Instant)
  | crashed (publisher : Nat)
  /-- Rows go with their event or their subscription. -/
  | removed (p : OutboxRow → Bool)
  | advanced (duration : Nat)

namespace OutboxWorld

abbrev rows (world : OutboxWorld) : List OutboxRow := world.db.tingOutbox.rows

def step (codec : DeliveryCodec) (world : OutboxWorld) : OutboxLabel → OutboxWorld
  | .enqueued id event recipient body observer =>
    match codec.enqueueTing id event recipient body observer world.clock world.db with
    | .ok (_, db) => { world with db, sends := world.sends ++ [id] }
    | .error _ => world
  | .claimed publisher limit leaseDuration leaseIds =>
    match claimTing limit leaseDuration leaseIds world.clock world.db with
    | .ok (made, db) => { world with
        db
        publishers := Function.update world.publishers publisher
          (world.publishers publisher ++ made)
        claims := world.claims ++ made }
    | .error _ => world
  | .completed publisher claim tingId silent =>
    if claim ∈ world.publishers publisher then
      match completeTing claim tingId silent world.clock world.db with
      | .ok (_, db) => { world with db }
      | .error _ => world
    else world
  | .retried publisher claim failure retryAt =>
    if claim ∈ world.publishers publisher then
      { world with db := (retryTing claim failure retryAt world.clock world.db).2 }
    else world
  | .crashed publisher => { world with publishers := Function.update world.publishers publisher [] }
  | .removed p => { world with db := { world.db with tingOutbox := world.db.tingOutbox.delete p } }
  | .advanced duration => { world with clock := world.clock + duration }

def Fresh (world : OutboxWorld) : OutboxLabel → Prop
  | .enqueued id .. => id ∉ world.sends
  | .claimed _ _ _ leaseIds =>
    ∀ row ∈ world.rows, leaseIds row.id ∉ world.claims.map TingOutboxClaim.leaseId
  | _ => True

instance (world : OutboxWorld) : ∀ label, Decidable (world.Fresh label)
  | .enqueued id .. => inferInstanceAs (Decidable (id ∉ world.sends))
  | .claimed _ _ _ leaseIds => inferInstanceAs (Decidable
      (∀ row ∈ world.rows, leaseIds row.id ∉ world.claims.map TingOutboxClaim.leaseId))
  | .completed .. | .retried .. | .crashed _ | .removed _ | .advanced _ => isTrue trivial

end OutboxWorld

-- -----------------------------------------------------------------------------
-- One row
-- -----------------------------------------------------------------------------

inductive OutboxRow.Moves (now : Instant) (row : OutboxRow) :
    OutboxRow → List TingOutboxClaim → Prop
  | kept : Moves now row row []
  | leased (leaseId : Uuid) (seconds : Int) (due : row.due now = true) :
    Moves now row (row.lease leaseId seconds now) [row.claim leaseId seconds now]
  | completed (claim : TingOutboxClaim) (tingId : String) (silent : Bool)
      (held : row.heldBy claim now = true) : Moves now row (row.complete tingId silent now) []
  | retried (claim : TingOutboxClaim) (failure : TingSendFailure) (retryAt : Instant)
      (held : row.heldBy claim now = true) : Moves now row (row.retry failure retryAt now) []

structure OutboxRow.Sound (row : OutboxRow) (own : List TingOutboxClaim) : Prop where
  accepted : row.acceptedAt.isSome = row.tingId.isSome
  silent : row.acceptedAt.isSome = row.silent.isSome
  leased : row.leaseId.isSome = row.leaseUntil.isSome
  leaseEnds : ∀ until' ∈ row.leaseUntil, until' ≤ row.expiresAt
  attempts : row.attempts = own.length
  holder : ∀ leaseId ∈ row.leaseId,
    ∃ last, own.getLast? = some last ∧ last.leaseId = leaseId ∧ row.leaseUntil = some last.leaseUntil

structure OutboxRow.Became (row row' : OutboxRow) : Prop where
  id : row'.id = row.id
  idempotencyKey : row'.idempotencyKey = row.idempotencyKey
  requestBody : row'.requestBody = row.requestBody
  expiresAt : row'.expiresAt = row.expiresAt
  accepted : row.acceptedAt.isSome →
    row'.acceptedAt = row.acceptedAt ∧ row'.tingId = row.tingId ∧ row'.silent = row.silent

namespace OutboxRow

variable {row row' row'' : OutboxRow} {now : Instant} {own made : List TingOutboxClaim}
  {claim : TingOutboxClaim}

theorem due_spec (h : row.due now = true) : row.acceptedAt = none ∧ now < row.expiresAt := by
  simp only [due, Bool.and_eq_true, Option.isNone_iff_eq_none, decide_eq_true_eq] at h
  exact ⟨h.1.1.1.1, h.1.1.1.2⟩

theorem heldBy_spec (h : row.heldBy claim now = true) :
    row.id = claim.id ∧ row.leaseId = some claim.leaseId ∧ row.acceptedAt = none ∧
      ∃ until', row.leaseUntil = some until' ∧ now < until' := by
  simp only [heldBy, Bool.and_eq_true, Option.isNone_iff_eq_none, decide_eq_true_eq,
    Option.any_eq_true] at h
  exact ⟨h.1.1.1.1, h.1.1.1.2, h.1.1.2, h.1.2⟩

theorem Moves.key (h : row.Moves now row' made) : Keyed.key row' = Keyed.key row := by
  cases h <;> rfl

theorem Moves.became (h : row.Moves now row' made) : row.Became row' := by
  cases h with
  | kept => exact ⟨rfl, rfl, rfl, rfl, fun _ => ⟨rfl, rfl, rfl⟩⟩
  | leased => exact ⟨rfl, rfl, rfl, rfl, fun _ => ⟨rfl, rfl, rfl⟩⟩
  | completed claim tingId silent held =>
    refine ⟨rfl, rfl, rfl, rfl, fun ha => ?_⟩
    rw [(heldBy_spec held).2.2.1] at ha
    cases ha
  | retried => exact ⟨rfl, rfl, rfl, rfl, fun _ => ⟨rfl, rfl, rfl⟩⟩

theorem Became.trans (h : row.Became row') (h' : row'.Became row'') : row.Became row'' := by
  refine ⟨h'.id.trans h.id, h'.idempotencyKey.trans h.idempotencyKey,
    h'.requestBody.trans h.requestBody, h'.expiresAt.trans h.expiresAt, fun ha => ?_⟩
  obtain ⟨h1, h2, h3⟩ := h.accepted ha
  obtain ⟨h1', h2', h3'⟩ := h'.accepted (h1 ▸ ha)
  exact ⟨h1'.trans h1, h2'.trans h2, h3'.trans h3⟩

theorem Sound.move (h : row.Sound own) (hm : row.Moves now row' made) :
    row'.Sound (own ++ made) := by
  cases hm with
  | kept =>
    rw [List.append_nil]
    exact h
  | leased leaseId seconds due =>
    refine ⟨h.accepted, h.silent, rfl, ?_, by simp [lease, h.attempts], ?_⟩
    · rintro _ ⟨⟩
      exact min_le_left _ _
    · rintro _ ⟨⟩
      exact ⟨row.claim leaseId seconds now, by simp, rfl, rfl⟩
  | completed claim tingId silent held =>
    rw [List.append_nil]
    refine ⟨rfl, rfl, rfl, ?_, h.attempts, ?_⟩
    · rintro _ ⟨⟩
    · rintro _ ⟨⟩
  | retried claim failure retryAt held =>
    rw [List.append_nil]
    refine ⟨h.accepted, h.silent, rfl, ?_, h.attempts, ?_⟩
    · rintro _ ⟨⟩
    · rintro _ ⟨⟩

theorem Sound.queued {id : Uuid} {expires : Instant} :
    (OutboxRow.queued id event recipient key body observer expires now).Sound [] := by
  refine ⟨rfl, rfl, rfl, ?_, rfl, ?_⟩
  · rintro _ ⟨⟩
  · rintro _ ⟨⟩

end OutboxRow

-- -----------------------------------------------------------------------------
-- One step
-- -----------------------------------------------------------------------------

namespace OutboxWorld

variable {codec : DeliveryCodec} {world world' : OutboxWorld} {label : OutboxLabel}

structure Steps (world world' : OutboxWorld) (made : List TingOutboxClaim)
    (added : Option OutboxRow) : Prop where
  clock : world.clock ≤ world'.clock
  sends : ∀ id ∈ world.sends, id ∈ world'.sends
  claims : world'.claims = world.claims ++ made
  due : ∀ claim ∈ made, claim.leaseId ∉ world.claims.map TingOutboxClaim.leaseId ∧
    ∃ row ∈ world.rows, row.due world.clock = true ∧ row.id = claim.id
  distinct : made.Pairwise fun claim claim' => claim.id ≠ claim'.id
  rows : ∀ row' ∈ world'.rows, added = some row' ∨
    ∃ row ∈ world.rows, row.Moves world.clock row' (made.filter (·.id = row.id))
  queued : ∀ row' ∈ added, row'.Sound [] ∧ row'.id ∉ world.sends ∧ row'.id ∈ world'.sends ∧
    made = []

def Apart (claim claim' : TingOutboxClaim) : Prop :=
  claim.id = claim'.id → claim.leaseId ≠ claim'.leaseId

instance : Std.Symm Apart := ⟨fun _ _ h hid => (h hid.symm).symm⟩

/-- Ids name one row, and rows and claims agree. -/
structure Inv (world : OutboxWorld) : Prop where
  ids : ∀ row ∈ world.rows, ∀ other ∈ world.rows, row.id = other.id → row = other
  known : ∀ row ∈ world.rows, row.id ∈ world.sends
  claimed : ∀ claim ∈ world.claims, claim.id ∈ world.sends
  distinct : world.claims.Pairwise Apart
  sound : ∀ row ∈ world.rows, row.Sound (world.claims.filter (·.id = row.id))

theorem Steps.quiet (clock : world.clock ≤ world'.clock) (sends : world'.sends = world.sends)
    (claims : world'.claims = world.claims)
    (rows : ∀ row' ∈ world'.rows, ∃ row ∈ world.rows, row.Moves world.clock row' []) :
    Steps world world' [] none :=
  ⟨clock, sends ▸ fun _ h => h, by simp [claims], by simp, .nil, fun row' h => .inr (rows row' h),
    by simp⟩

theorem Steps.idle : Steps world world [] none :=
  .quiet le_rfl rfl rfl fun row h => ⟨row, h, .kept⟩

theorem mem_updateHeld {db : Store} {claim : TingOutboxClaim} {f : OutboxRow → OutboxRow}
    {hf : ∀ row, Keyed.key (f row) = Keyed.key row}
    (h : row' ∈ (updateHeld claim f hf now db).2.tingOutbox.rows) :
    ∃ row ∈ db.tingOutbox.rows, row' = row ∨ row.heldBy claim now = true ∧ row' = f row := by
  obtain ⟨row, hm, rfl⟩ := (Table.mem_update hf).mp h
  refine ⟨row, hm, ?_⟩
  split
  · rename_i hh
    exact .inr ⟨hh, rfl⟩
  · exact .inl rfl

theorem steps_enqueued (event : EventRecord) (recipient : AccountUuid) (body : List UInt8)
    (observer : Option Uuid) {id : Uuid} (hf : id ∉ world.sends) :
    ∃ added, Steps world (world.step codec (.enqueued id event recipient body observer)) [] added := by
  simp only [step]
  split
  · rename_i drawn db hok
    have hsends : ∀ other ∈ world.sends, other ∈ world.sends ++ [id] := fun _ h =>
      List.mem_append_left _ h
    obtain ⟨key, -, ⟨stored, queued, -, -, hq, -, -, rfl⟩ | hexists⟩ := enqueueTing_ok hok
    · refine ⟨some (.queued id event.id recipient key body observer stored.expiresAt world.clock),
        le_rfl, hsends, by simp, by simp, .nil, fun row' hm => ?_, ?_⟩
      · obtain hm | rfl := (Table.mem_insert hq).mp hm
        · exact .inr ⟨row', hm, .kept⟩
        · exact .inl rfl
      · rintro _ ⟨⟩
        exact ⟨.queued, hf, List.mem_append_right _ (List.mem_singleton_self id), rfl⟩
    · obtain ⟨rfl, -⟩ := existingSend_ok.mp hexists
      exact ⟨none, le_rfl, hsends, by simp, by simp, .nil, fun row' hm => .inr ⟨row', hm, .kept⟩,
        by simp⟩
  · exact ⟨none, .idle⟩

theorem filter_claims {due : List OutboxRow} {claim : OutboxRow → TingOutboxClaim}
    (hid : ∀ row, (claim row).id = row.id) (hn : due.Nodup)
    (hu : ∀ other ∈ due, other.id = row.id → other = row) :
    (due.map claim).filter (·.id = row.id) = if row ∈ due then [claim row] else [] := by
  have hfilter : due.filter (fun other => decide (other.id = row.id)) =
      due.filter (fun other => decide (other = row)) := by
    refine List.filter_congr fun other hm => ?_
    rw [decide_eq_decide]
    exact ⟨hu other hm, fun h => h ▸ rfl⟩
  have hcomp : ((fun c : TingOutboxClaim => decide (c.id = row.id)) ∘ claim) =
      fun other => decide (other.id = row.id) := by
    funext other
    simp [hid]
  rw [List.filter_map, hcomp, hfilter, List.filter_eq]
  split
  · rename_i hm
    simp [List.count_eq_one_of_mem hn hm]
  · rename_i hm
    simp [List.count_eq_zero_of_not_mem hm]

theorem Inv.steps_claimed (h : world.Inv) (publisher limit : Nat) (leaseDuration : Int)
    {leaseIds : Uuid → Uuid}
    (hf : ∀ row ∈ world.rows, leaseIds row.id ∉ world.claims.map TingOutboxClaim.leaseId) :
    ∃ made, Steps world (world.step codec (.claimed publisher limit leaseDuration leaseIds)) made
      none := by
  simp only [step]
  split
  · rename_i made db hok
    obtain ⟨-, -, rfl, rfl⟩ := claimTing_ok.mp hok
    have hunique : ∀ row ∈ world.rows, ∀ other ∈ dueSends limit world.clock world.db,
        other.id = row.id → other = row := fun row hm other ho hid =>
      h.ids other (mem_dueSends ho).1 row hm hid
    refine ⟨_, le_rfl, fun _ h => h, rfl, ?_, ?_, ?_, by simp⟩
    · intro claim hm
      obtain ⟨row, hmem, rfl⟩ := List.mem_map.mp hm
      obtain ⟨hrow, hdue⟩ := mem_dueSends hmem
      exact ⟨hf row hrow, row, hrow, hdue, rfl⟩
    · refine List.pairwise_map.mpr ((dueSends_nodup _ _ world.db).imp_of_mem ?_)
      intro row other hm ho hne hid
      exact hne (h.ids row (mem_dueSends hm).1 other (mem_dueSends ho).1 hid)
    · intro row' hm
      obtain ⟨row, hrow, rfl⟩ := (Table.mem_update (by exact fun _ => rfl)).mp hm
      refine .inr ⟨row, hrow, ?_⟩
      rw [filter_claims (fun _ => rfl) (dueSends_nodup ..) (hunique row hrow)]
      by_cases hmem : row ∈ dueSends limit world.clock world.db
      · have hc : ((dueSends limit world.clock world.db).map OutboxRow.id).contains row.id = true :=
          List.contains_iff_mem.mpr (List.mem_map_of_mem hmem)
        rw [if_pos hc, if_pos hmem]
        exact .leased _ _ (mem_dueSends hmem).2
      · have hc : ¬ ((dueSends limit world.clock world.db).map OutboxRow.id).contains row.id =
            true := by
          intro hc
          obtain ⟨other, ho, hid⟩ := List.mem_map.mp (List.contains_iff_mem.mp hc)
          exact hmem (hunique row hrow other ho hid ▸ ho)
        rw [if_neg hc, if_neg hmem]
        exact .kept
  · exact ⟨[], .idle⟩

theorem Inv.steps (h : world.Inv) (hf : world.Fresh label) :
    ∃ made added, Steps world (world.step codec label) made added := by
  cases label with
  | enqueued id event recipient body observer =>
    exact ⟨[], steps_enqueued event recipient body observer hf⟩
  | claimed publisher limit leaseDuration leaseIds =>
    obtain ⟨made, hs⟩ := h.steps_claimed publisher limit leaseDuration hf
    exact ⟨made, none, hs⟩
  | completed publisher claim tingId silent =>
    refine ⟨[], none, ?_⟩
    simp only [step]
    split
    · unfold completeTing
      split
      · rename_i hok
        split at hok
        · cases hok
        · cases hok
          refine .quiet le_rfl rfl rfl fun row' hm => ?_
          obtain ⟨row, hrow, rfl | ⟨hheld, rfl⟩⟩ := mem_updateHeld hm
          · exact ⟨row', hrow, .kept⟩
          · exact ⟨row, hrow, .completed claim tingId silent hheld⟩
      · exact .idle
    · exact .idle
  | retried publisher claim failure retryAt =>
    refine ⟨[], none, ?_⟩
    simp only [step]
    split
    · refine .quiet le_rfl rfl rfl fun row' hm => ?_
      obtain ⟨row, hrow, rfl | ⟨hheld, rfl⟩⟩ := mem_updateHeld hm
      · exact ⟨row', hrow, .kept⟩
      · exact ⟨row, hrow, .retried claim failure retryAt hheld⟩
    · exact .idle
  | crashed publisher =>
    exact ⟨[], none, .quiet le_rfl rfl rfl fun row hm => ⟨row, hm, .kept⟩⟩
  | removed p =>
    exact ⟨[], none, .quiet le_rfl rfl rfl fun row hm => ⟨row, (Table.mem_delete.mp hm).1, .kept⟩⟩
  | advanced duration =>
    exact ⟨[], none, .quiet (Int.le_add_of_nonneg_right (Int.natCast_nonneg duration)) rfl rfl
      fun row hm => ⟨row, hm, .kept⟩⟩

-- -----------------------------------------------------------------------------
-- Whole runs
-- -----------------------------------------------------------------------------

theorem Inv.empty {db : Store} (hdb : db.tingOutbox.rows = []) (clock : Instant) :
    Inv ⟨db, clock, fun _ => [], [], []⟩ := by
  have hrows : ∀ row, row ∉ db.tingOutbox.rows := by simp [hdb]
  exact ⟨fun row hm => absurd hm (hrows row), fun row hm => absurd hm (hrows row), by simp, .nil,
    fun row hm => absurd hm (hrows row)⟩

theorem Inv.next {made : List TingOutboxClaim} {added : Option OutboxRow} (h : world.Inv)
    (hs : Steps world world' made added) : world'.Inv := by
  -- a row of the next state and where it comes from
  have hknown : ∀ row' ∈ world'.rows, added = some row' ∨
      ∃ row ∈ world.rows, row'.id = row.id ∧ Keyed.key row' = Keyed.key row := by
    intro row' hm
    obtain ha | ⟨row, hrow, hmove⟩ := hs.rows row' hm
    · exact .inl ha
    · exact .inr ⟨row, hrow, hmove.became.id, hmove.key⟩
  constructor
  · intro row' hm other' ho hid
    obtain ha | ⟨row, hrow, hri, hrk⟩ := hknown row' hm
    · obtain hb | ⟨other, hother, hoi, -⟩ := hknown other' ho
      · exact Option.some.inj (ha.symm.trans hb)
      · exact absurd (hid ▸ hoi ▸ h.known other hother) (hs.queued row' ha).2.1
    · obtain hb | ⟨other, hother, hoi, hok⟩ := hknown other' ho
      · exact absurd (hid ▸ hri ▸ h.known row hrow) (hs.queued other' hb).2.1
      · have hsame := h.ids row hrow other hother (hri.symm.trans (hid.trans hoi))
        have hkey := hrk.trans ((congrArg _ hsame).trans hok.symm)
        exact Option.some.inj ((Table.mem_rows.mp hm).symm.trans
          (hkey ▸ Table.mem_rows.mp ho))
  · intro row' hm
    obtain ha | ⟨row, hrow, hri, -⟩ := hknown row' hm
    · exact (hs.queued row' ha).2.2.1
    · exact hri ▸ hs.sends _ (h.known row hrow)
  · intro claim hm
    rw [hs.claims] at hm
    obtain hm | hm := List.mem_append.mp hm
    · exact hs.sends _ (h.claimed claim hm)
    · obtain ⟨-, row, hrow, -, hid⟩ := hs.due claim hm
      exact hid ▸ hs.sends _ (h.known row hrow)
  · rw [hs.claims, List.pairwise_append]
    refine ⟨h.distinct, hs.distinct.imp fun hne hid => absurd hid hne, ?_⟩
    intro claim hm claim' hm' _ hlease
    exact (hs.due claim' hm').1 (hlease ▸ List.mem_map_of_mem hm)
  · intro row' hm
    rw [hs.claims, List.filter_append]
    obtain ha | ⟨row, hrow, hmove⟩ := hs.rows row' hm
    · obtain ⟨hsound, hfresh, -, hmade⟩ := hs.queued row' ha
      have hnone : world.claims.filter (·.id = row'.id) = [] := by
        rw [List.filter_eq_nil_iff]
        intro claim hc
        have hne : claim.id ≠ row'.id := fun he => hfresh (he ▸ h.claimed claim hc)
        simpa using hne
      rw [hnone, hmade]
      exact hsound
    · rw [hmove.became.id]
      exact (h.sound row hrow).move hmove

/-- Nothing the first state settled is undone or claimed again in the second. -/
structure Extends (world world' : OutboxWorld) : Prop where
  clock : world.clock ≤ world'.clock
  sends : ∀ id ∈ world.sends, id ∈ world'.sends
  rows : ∀ row' ∈ world'.rows, row'.id ∈ world.sends → ∃ row ∈ world.rows, row.Became row'
  claims : ∃ later, world'.claims = world.claims ++ later ∧
    ∀ row ∈ world.rows, row.acceptedAt.isSome ∨ row.expiresAt ≤ world.clock →
      ∀ claim ∈ later, claim.id ≠ row.id

theorem Extends.refl : world.Extends world :=
  ⟨le_rfl, fun _ h => h, fun row hm _ => ⟨row, hm, rfl, rfl, rfl, rfl, fun _ => ⟨rfl, rfl, rfl⟩⟩,
    [], by simp, by simp⟩

theorem Extends.next {world'' : OutboxWorld} {made : List TingOutboxClaim}
    {added : Option OutboxRow} (h : world.Extends world') (hi : world.Inv)
    (hs : Steps world' world'' made added) : world.Extends world'' := by
  refine ⟨h.clock.trans hs.clock, fun id hm => hs.sends id (h.sends id hm), ?_, ?_⟩
  · intro row'' hm hid
    obtain ha | ⟨row', hrow', hmove⟩ := hs.rows row'' hm
    · exact absurd (h.sends _ hid) (hs.queued row'' ha).2.1
    · have hbecame := hmove.became
      obtain ⟨row, hrow, hb⟩ := h.rows row' hrow' (hbecame.id ▸ hid)
      exact ⟨row, hrow, hb.trans hbecame⟩
  · obtain ⟨later, hlater, hnever⟩ := h.claims
    refine ⟨later ++ made, by rw [hs.claims, hlater, List.append_assoc], ?_⟩
    intro row hrow hover claim hm
    obtain hm | hm := List.mem_append.mp hm
    · exact hnever row hrow hover claim hm
    · -- the claim is of a due row, which the settled one cannot have become
      intro hid
      obtain ⟨-, row', hrow', hdue, hid'⟩ := hs.due claim hm
      obtain ⟨hopen, hlive⟩ := OutboxRow.due_spec hdue
      obtain ⟨origin, horigin, hb⟩ := h.rows row' hrow' (by
        rw [hid', hid]
        exact hi.known row hrow)
      obtain rfl : origin = row := hi.ids origin horigin row hrow
        (hb.id.symm.trans (hid'.trans hid))
      obtain ha | he := hover
      · rw [(hb.accepted ha).1] at hopen
        rw [hopen] at ha
        cases ha
      · rw [hb.expiresAt] at hlive
        exact absurd (hlive.trans_le he) (not_lt.mpr h.clock)

def Replaced (claim : TingOutboxClaim) (world : OutboxWorld) : Prop :=
  ∃ earlier later, world.claims = earlier ++ claim :: later ∧ ∃ next ∈ later, next.id = claim.id

/-- A claim whose lease has expired or been replaced holds no row. -/
theorem Inv.stale (h : world.Inv) {claim : TingOutboxClaim} (hc : claim ∈ world.claims)
    (hs : claim.leaseUntil ≤ world.clock ∨ Replaced claim world) :
    ∀ row ∈ world.rows, row.heldBy claim world.clock = false := by
  intro row hrow
  by_contra hheld
  obtain ⟨hid, hlease, -, until', huntil, hlive⟩ :=
    OutboxRow.heldBy_spec (eq_true_of_ne_false hheld)
  obtain ⟨last, hlast, hll, hlu⟩ := (h.sound row hrow).holder _ hlease
  have hmem : last ∈ world.claims ∧ last.id = row.id := by
    simpa using List.mem_of_getLast? hlast
  -- lease ids of one send are drawn once, so the claim is the last of them
  obtain rfl : claim = last := by
    by_contra hne
    exact h.distinct.forall hc hmem.1 hne (hid.symm.trans hmem.2.symm) hll.symm
  obtain hexpired | ⟨earlier, later, hsplit, next, hnext, hnid⟩ := hs
  · cases huntil.symm.trans hlu
    exact absurd hlive (not_lt.mpr hexpired)
  · have hafter : ((claim :: later).filter (·.id = row.id)).getLast? = some claim := by
      have hne : (claim :: later).filter (·.id = row.id) ≠ [] := by simp [hid]
      rwa [hsplit, List.filter_append, List.getLast?_append_of_ne_nil _ hne] at hlast
    have hlater : claim ∈ later := by
      have hne : later.filter (·.id = row.id) ≠ [] :=
        List.ne_nil_of_mem (List.mem_filter.mpr ⟨hnext, by simp [hnid, hid]⟩)
      have hcons : (claim :: later).filter (·.id = row.id) =
          [claim] ++ later.filter (·.id = row.id) := by simp [hid]
      rw [hcons, List.getLast?_append_of_ne_nil _ hne] at hafter
      exact List.mem_of_mem_filter (List.mem_of_getLast? hafter)
    have hpair := h.distinct
    rw [hsplit, List.pairwise_append, List.pairwise_cons] at hpair
    exact hpair.2.1.1 claim hlater rfl rfl

structure Safe (world : OutboxWorld) : Prop where
  /-- An acceptance and Ting's id for it are recorded together. -/
  accepted : ∀ row ∈ world.rows, row.acceptedAt.isSome = row.tingId.isSome
  leased : ∀ row ∈ world.rows, row.leaseId.isSome = row.leaseUntil.isSome
  leaseEnds : ∀ row ∈ world.rows, ∀ until' ∈ row.leaseUntil, until' ≤ row.expiresAt
  attempts : ∀ row ∈ world.rows, row.attempts = world.claims.countP (·.id = row.id)
  /-- A claim takes sends that are neither accepted nor expired. -/
  claims : ∀ limit leaseDuration leaseIds made db,
    claimTing limit leaseDuration leaseIds world.clock world.db = .ok (made, db) →
      ∀ claim ∈ made, ∀ row ∈ world.rows, row.id = claim.id →
        row.acceptedAt = none ∧ world.clock < row.expiresAt
  /-- A late completion or retry does nothing. -/
  stale : ∀ claim ∈ world.claims,
    claim.leaseUntil ≤ world.clock ∨ Replaced claim world →
      (∀ tingId silent, validIdentifier tingId 255 = true →
        completeTing claim tingId silent world.clock world.db = .ok (false, world.db)) ∧
      ∀ failure retryAt, retryTing claim failure retryAt world.clock world.db = (false, world.db)

theorem Inv.safe (h : world.Inv) : world.Safe := by
  refine ⟨fun row hm => (h.sound row hm).accepted, fun row hm => (h.sound row hm).leased,
    fun row hm => (h.sound row hm).leaseEnds, fun row hm => ?_, ?_, ?_⟩
  · rw [List.countP_eq_length_filter]
    exact (h.sound row hm).attempts
  · intro limit leaseDuration leaseIds made db hok claim hm row hrow hid
    obtain ⟨-, -, rfl, -⟩ := claimTing_ok.mp hok
    obtain ⟨due, hdue, rfl⟩ := List.mem_map.mp hm
    obtain ⟨hmem, hd⟩ := mem_dueSends hdue
    obtain rfl : row = due := h.ids row hrow due hmem hid
    exact OutboxRow.due_spec hd
  · intro claim hc hs
    have hnone := h.stale hc hs
    refine ⟨fun tingId silent hv => ?_, fun failure retryAt => ?_⟩
    · simp only [completeTing, hv, Bool.not_true, Bool.false_eq_true, if_false]
      exact congrArg Except.ok (updateHeld_stale _ hnone)
    · exact updateHeld_stale _ hnone

structure Keeps (world world' : OutboxWorld) : Prop where
  rows : ∀ row ∈ world.rows, ∀ row' ∈ world'.rows, row'.id = row.id → row.Became row'
  claims : ∃ later, world'.claims = world.claims ++ later ∧
    ∀ row ∈ world.rows, row.acceptedAt.isSome ∨ row.expiresAt ≤ world.clock →
      ∀ claim ∈ later, claim.id ≠ row.id

theorem Extends.keeps (h : world.Extends world') (hi : world.Inv) : world.Keeps world' := by
  refine ⟨fun row hm row' hm' hid => ?_, h.claims⟩
  obtain ⟨origin, horigin, hb⟩ := h.rows row' hm' (hid ▸ hi.known row hm)
  obtain rfl : origin = row := hi.ids origin horigin row hm (hb.id.symm.trans hid)
  exact hb

end OutboxWorld

/-- However publishers interleave, every state of the outbox is safe and every
later one keeps what it settled. -/
theorem outbox_leases_safe (codec : DeliveryCodec) (db : Store) (clock : Instant)
    (labels rest : List OutboxLabel) (hdb : db.tingOutbox.rows = [])
    (hfresh : Along (OutboxWorld.step codec) OutboxWorld.Fresh ⟨db, clock, fun _ => [], [], []⟩
      (labels ++ rest)) :
    let world := run (OutboxWorld.step codec) ⟨db, clock, fun _ => [], [], []⟩ labels
    world.Safe ∧ world.Keeps (run (OutboxWorld.step codec) world rest) := by
  obtain ⟨hfirst, hsecond⟩ := along_append.mp hfresh
  have hinv := run_invariant (I := OutboxWorld.Inv) (fun _ _ hi hf => by
    obtain ⟨made, added, hs⟩ := hi.steps hf
    exact hi.next hs) (.empty hdb clock) hfirst
  have hlater := run_invariant
    (I := fun later => later.Inv ∧ (run (OutboxWorld.step codec) _ labels).Extends later)
    (fun _ _ hi hf => by
      obtain ⟨made, added, hs⟩ := hi.1.steps hf
      exact ⟨hi.1.next hs, hi.2.next hinv hs⟩) ⟨hinv, .refl⟩ hsecond
  exact ⟨hinv.safe, hlater.2.keeps hinv⟩

namespace OverrunLease

def silicon : AccountUuid := ⟨"SiQueue", by decide⟩

def event : EventRecord where
  id := ⟨7⟩
  siliconId := .fromAccountUuid silicon
  siliconUuid := some silicon
  hookId := ⟨1⟩
  provider := ⟨"billing", by decide⟩
  summary := "billing triggered"
  request := ⟨"POST", "/", [], [], "192.0.2.1", 0⟩
  deliverySequence := ⟨3, by decide⟩
  receivedAt := 0

def send : Json := .object [
  ("data", .object []), ("for", .object [("uuid", .string "SiQueue")]), ("key", .string "hook:7"),
  ("type", .string "hook.webhook.received")]

def codec : DeliveryCodec :=
  ⟨id, fun _ => .ok "1970-01-01T00:00:00Z", fun body => if body = send.toVec then some send else none⟩

def db : Store := { Store.empty with
  events := ⟨[⟨event.id, event.hookId, event.siliconId, event.siliconUuid, event.provider,
    event.summary, 1, event.request, 0, Instant.days 14⟩], by decide⟩ }

/-- The second publisher takes the send over after the first one's lease. -/
def takenOver : List OutboxLabel :=
  [.enqueued 1 event silicon send.toVec none, .claimed 0 1 publisherLease fun _ => 10,
    .advanced 181000000, .claimed 1 1 publisherLease fun _ => 11]

def overrun : OutboxWorld := run (OutboxWorld.step codec) ⟨db, 0, fun _ => [], [], []⟩ takenOver

def first : TingOutboxClaim where
  id := 1
  eventId := event.id
  recipientId := silicon
  observerSubscriptionId := none
  idempotencyKey := "hook:7"
  requestBody := send.toVec
  attempts := 1
  leaseId := 10
  leaseUntil := 180000000
  expiresAt := Instant.days 14

theorem late_completion_ignored :
    completeTing first "ting-1" false overrun.clock overrun.db = .ok (false, overrun.db) :=
  ((outbox_leases_safe codec db 0 takenOver [] rfl (by decide +kernel)).1.stale first
    (by decide +kernel) (.inl (by decide +kernel))).1 "ting-1" false (by decide +kernel)

end OverrunLease

end SiliconHook
