import SiliconHook.Store.AccountsEvents
import SiliconHook.Library.Transition
import Mathlib.Data.Finset.Max

/-!
# The custodian of a Silicon

Custodian changes, profiles and lookup answers all write a Silicon's custodian.
Applied in any order, they keep that of the latest observation as long as none
of them gets past its guard after a later one.
-/

namespace SiliconHook

-- -----------------------------------------------------------------------------
-- Observations
-- -----------------------------------------------------------------------------

inductive CustodianObservation
  | delivered (event : AccountsEvent)
  | lookedUp (view : AccountView) (at' : Instant)
  deriving DecidableEq

namespace CustodianObservation

def time : CustodianObservation → Instant
  | .delivered event => event.occurredAt
  | .lookedUp _ at' => at'

def custodian : CustodianObservation → Option AccountUuid
  | .delivered event =>
    match event.change with
    | .custodianChanged _ _ to' => to'.map Prod.fst
    | .updated profile => profile.custodian.map Prod.fst
    | _ => none
  | .lookedUp view _ => view.custodian.map Prod.fst

/-- The observation is of this Silicon, whose custodian is another account. -/
def About (silicon : AccountUuid) (obs : CustodianObservation) : Prop :=
  obs.custodian ≠ some silicon ∧
    match obs with
    | .delivered event =>
      match event.change with
      | .custodianChanged uuid _ _ => uuid = silicon
      | .updated profile => profile.uuid = silicon ∧ profile.kind = .silicon
      | _ => False
    | .lookedUp view _ => view.uuid = silicon ∧ view.kind = .silicon

def perform (obs : CustodianObservation) (clock : Instant) (db : Store) : Store :=
  match obs with
  | .delivered event => deliver event clock db
  | .lookedUp view at' =>
    match recordAccountView view at' db with
    | .ok (_, db) => db
    | .error _ => db

def version : CustodianObservation → Option Int
  | .delivered event =>
    match event.change with
    | .updated profile => some profile.version
    | _ => none
  | .lookedUp .. => none

def Admitted (obs : CustodianObservation) (db : Store) : Prop :=
  match obs with
  | .delivered event => event.Admitted db
  | .lookedUp .. => True

def Passes (obs : CustodianObservation) (row : AccountRow) : Prop :=
  match obs with
  | .delivered event =>
    match event.change with
    | .custodianChanged .. => row.custodianChangedAt.all (· < event.occurredAt)
    | .updated profile =>
      row.profileVersion < profile.version ∧ row.custodianChangedAt.all (· ≤ event.occurredAt)
    | _ => False
  | .lookedUp .. => True

end CustodianObservation

structure CustodianWorld where
  db : Store
  /-- The observations applied so far. -/
  applied : List CustodianObservation

def CustodianWorld.step (world : CustodianWorld) (label : CustodianObservation × Instant) :
    CustodianWorld :=
  ⟨label.1.perform label.2 world.db, world.applied ++ [label.1]⟩

def CustodianWorld.Latest (silicon : AccountUuid) (world : CustodianWorld) : Prop :=
  ∀ obs ∈ world.applied, (∀ other ∈ world.applied, other.time ≤ obs.time) →
    (world.db.accountRow silicon).custodianUuid = obs.custodian

/-- The observation carries the stored custodian, or it is older than one
already applied and stopped, or it is the latest and admitted. -/
def CustodianWorld.InOrder (silicon : AccountUuid) (world : CustodianWorld)
    (label : CustodianObservation × Instant) : Prop :=
  label.1.custodian = (world.db.accountRow silicon).custodianUuid ∨
    if ∃ other ∈ world.applied, label.1.time < other.time then
      ¬ (label.1.Admitted world.db ∧ label.1.Passes (world.db.accountRow silicon))
    else label.1.Admitted world.db ∧ ∀ version ∈ label.1.version, 0 < version

-- -----------------------------------------------------------------------------
-- One observation
-- -----------------------------------------------------------------------------

structure CustodianObservation.Effect (obs : CustodianObservation) (taken : Prop)
    (row row' : AccountRow) : Prop where
  takes : taken → row'.custodianUuid = obs.custodian
  stops : ¬ taken → row'.custodianUuid = row.custodianUuid
  deletedAt : row'.deletedAt = row.deletedAt
  kind : row'.kind ≠ some .carbon
  changedAt : row'.custodianChangedAt = row.custodianChangedAt ∨
    row'.custodianChangedAt = some obs.time
  version : row'.profileVersion = row.profileVersion ∨
    row.profileVersion < row'.profileVersion ∧ obs.version = some row'.profileVersion

namespace CustodianObservation

variable {obs : CustodianObservation} {row row' : AccountRow} {db : Store}
  {silicon : AccountUuid} {event : AccountsEvent}

theorem Effect.idle (hk : row.kind ≠ some .carbon) (h : ¬ p) : obs.Effect p row row :=
  ⟨fun hp => absurd hp h, fun _ => rfl, rfl, hk, .inl rfl, .inl rfl⟩

theorem kind_learnKind (hk : row.kind ≠ some .carbon) :
    (row.learnKind .silicon).kind = some .silicon := by
  cases hr : row.kind with
  | none => simp [AccountRow.learnKind, hr]
  | some k =>
    cases k with
    | carbon => exact absurd hr hk
    | silicon => simp [AccountRow.learnKind, hr]

theorem effect_applyCustodian (hk : row.kind ≠ some .carbon) (clock : Instant)
    (hc : event.change = .custodianChanged u from' to') :
    Effect (.delivered event) (Passes (.delivered event) row) row
      (row.applyCustodian (to'.map Prod.fst) event.occurredAt clock) := by
  have hs := kind_learnKind hk
  have hpass : Passes (.delivered event) row ↔
      (row.learnKind .silicon).takesCustodianChange event.occurredAt = true := by
    simp only [Passes, hc, AccountRow.takesCustodianChange, hs, decide_true, Bool.true_and]
    rfl
  rw [hpass, AccountRow.applyCustodian]
  split
  · rename_i ht
    exact ⟨fun _ => by simp only [custodian, hc], fun h => absurd ht h, rfl, by simp [hs],
      .inr rfl, .inl rfl⟩
  · rename_i ht
    exact ⟨fun h => absurd h ht, fun _ => rfl, rfl, by simp [hs], .inl rfl, .inl rfl⟩

theorem withProfile_frame (row : AccountRow) (profile : Profile) (at' : Instant) :
    (row.withProfile profile at').custodianUuid = row.custodianUuid ∧
      (row.withProfile profile at').custodianChangedAt = row.custodianChangedAt ∧
      (row.withProfile profile at').deletedAt = row.deletedAt ∧
      (row.withProfile profile at').profileVersion =
        if row.takesProfile profile.version then profile.version else row.profileVersion := by
  unfold AccountRow.withProfile AccountRow.advancePublicId
  split <;> split <;> simp_all

theorem effect_applyProfile (hk : row.kind ≠ some .carbon) (hd : row.deletedAt = none)
    (clock : Instant) (hc : event.change = .updated profile) (hs : profile.kind = .silicon) :
    Effect (.delivered event) (Passes (.delivered event) row) row
      (row.applyProfile profile event.occurredAt clock) := by
  have hkind := kind_learnKind hk
  obtain ⟨hcust, hchanged, hdel, hver⟩ := withProfile_frame (row.learnKind .silicon) profile
    event.occurredAt
  have hpass : Passes (.delivered event) row ↔
      ((row.learnKind .silicon).takesProfile profile.version &&
        ((row.learnKind .silicon).withProfile profile
          event.occurredAt).takesProfileCustodian event.occurredAt) = true := by
    simp only [Passes, hc, AccountRow.takesProfile, AccountRow.takesProfileCustodian, hchanged,
      Bool.and_eq_true, decide_eq_true_eq]
    simp [AccountRow.learnKind, hd]
  have hversion : ((row.learnKind .silicon).withProfile profile event.occurredAt).profileVersion =
      row.profileVersion ∨ row.profileVersion < ((row.learnKind .silicon).withProfile profile
        event.occurredAt).profileVersion ∧ version (.delivered event) =
        some ((row.learnKind .silicon).withProfile profile event.occurredAt).profileVersion := by
    rw [hver]
    split
    · rename_i ht
      simp only [AccountRow.takesProfile, Bool.and_eq_true, decide_eq_true_eq] at ht
      exact .inr ⟨ht.2, by simp only [version, hc]⟩
    · exact .inl rfl
  have hsilicon : ((row.learnKind .silicon).withProfile profile event.occurredAt).kind ≠
      some .carbon := by
    rw [AccountRow.withProfile_kind, hkind]
    simp
  rw [hpass, AccountRow.applyProfile]
  simp only [hs, decide_true, Bool.and_true]
  split
  · rename_i ht
    exact ⟨fun _ => by simp only [custodian, hc], fun h => absurd ht h, hdel, hsilicon,
      .inl hchanged, hversion⟩
  · rename_i ht
    exact ⟨fun h => absurd h ht, fun _ => hcust, hdel, hsilicon, .inl hchanged, hversion⟩

theorem About.custodian_ne (h : obs.About silicon) {c : AccountUuid × Option PublicId}
    (hc : obs.custodian = some c.1) : c.1 ≠ silicon := by
  rintro rfl
  exact h.1 hc

theorem apply_total (h : About silicon (.delivered event))
    (hk : (db.accountRow silicon).kind ≠ some .carbon) (clock : Instant) (events) :
    ∃ db', event.change.apply event.occurredAt clock { db with accountsEvents := events } =
      .ok db' := by
  have hne := fun c hc => h.custodian_ne (c := c) hc
  obtain ⟨-, h⟩ := h
  cases hc : event.change with
  | updated profile =>
    simp only [hc] at h
    obtain ⟨rfl, hs⟩ := h
    refine updated_total event.occurredAt clock (fun _ c hm => hne c ?_) fun _ => hk
    rw [custodian, hc]
    exact congrArg (Option.map Prod.fst) hm
  | custodianChanged uuid from' to' => exact ⟨_, rfl⟩
  | _ => simp [hc] at h

theorem perform_delivered (h : About silicon (.delivered event))
    (hk : (db.accountRow silicon).kind ≠ some .carbon)
    (hd : (db.accountRow silicon).deletedAt = none) (clock : Instant) :
    Effect (.delivered event)
      (Admitted (.delivered event) db ∧ Passes (.delivered event) (db.accountRow silicon))
      (db.accountRow silicon) ((perform (.delivered event) clock db).accountRow silicon) := by
  by_cases ha : event.Admitted db
  · obtain ⟨recorded, -, hdel⟩ := deliver_admitted clock ha
    obtain ⟨db', happ⟩ := apply_total h hk clock recorded
    have hadm : Admitted (.delivered event) db := ha
    have hperform : perform (.delivered event) clock db = db' := by
      rw [perform, hdel, happ]
    have hrow : Store.accountRow { db with accountsEvents := recorded } silicon =
        db.accountRow silicon := Store.accountRow_congr rfl
    have hne := fun c hc => h.custodian_ne (c := c) hc
    obtain ⟨-, h⟩ := h
    rw [hperform]
    simp only [hadm, true_and]
    cases hc : event.change with
    | updated profile =>
      simp only [hc] at h
      obtain ⟨rfl, hs⟩ := h
      rw [hc] at happ
      have hfind := find_updated happ fun _ c hm => hne c (by
        rw [custodian, hc]
        exact congrArg (Option.map Prod.fst) hm)
      rw [Store.accountRow_of_find hfind, hrow]
      exact effect_applyProfile hk hd clock hc hs
    | custodianChanged uuid from' to' =>
      simp only [hc] at h
      subst h
      rw [hc] at happ
      cases happ
      have hfind := find_custodianChanged { db with accountsEvents := recorded } from'
        event.occurredAt clock fun c hm => hne c (by
          rw [custodian, hc]
          exact congrArg (Option.map Prod.fst) hm)
      rw [Store.accountRow_of_find hfind, hrow]
      exact effect_applyCustodian hk clock hc
    | _ => simp [hc] at h
  · obtain ⟨events, hdel⟩ := deliver_not_admitted clock ha
    rw [perform, hdel, Store.accountRow_congr rfl]
    exact .idle hk fun hp => ha hp.1

theorem perform_lookedUp {view : AccountView} (h : About silicon (.lookedUp view at'))
    (hk : (db.accountRow silicon).kind ≠ some .carbon)
    (hd : (db.accountRow silicon).deletedAt = none) (clock : Instant) :
    Effect (.lookedUp view at') True (db.accountRow silicon)
      ((perform (.lookedUp view at') clock db).accountRow silicon) := by
  have hne := fun c hc => h.custodian_ne (c := c) hc
  obtain ⟨-, rfl, hs⟩ := h
  have hok : ∃ row db', recordAccountView view at' db = .ok (row, db') := by
    simp [recordAccountView, hs]
  obtain ⟨row, db', hok⟩ := hok
  obtain ⟨-, hfind, hrow⟩ := recordAccountView_ok hok
  rw [perform, hok, Store.accountRow_of_find hfind]
  have hother : ∀ c ∈ view.custodian, c.1 ≠ view.uuid := fun c hm => hne c (by
    rw [custodian]
    exact congrArg (Option.map Prod.fst) hm)
  cases hf : db.accounts.find view.uuid with
  | none =>
    have hnone : (upsertCustodian view.custodian at' db).accounts.find view.uuid = none := by
      rw [find_upsertCustodian_ne at' hother, hf]
    rw [hnone] at hrow
    rw [hrow, Store.accountRow, hf]
    exact ⟨fun _ => rfl, fun hn => absurd trivial hn, rfl, by simp [AccountRow.ofView, hs],
      .inl rfl, .inl rfl⟩
  | some stored =>
    rw [find_upsertCustodian_ne at' hother, hf] at hrow
    simp only at hrow
    rw [Store.accountRow_of_find hf] at hk hd ⊢
    have hkind := kind_learnKind hk
    rw [hrow, AccountRow.applyView, hs, hd]
    simp only [Option.isSome_none, Bool.false_eq_true, if_false, hkind, if_true]
    exact ⟨fun _ => rfl, fun hn => absurd trivial hn, rfl, by simp, .inl rfl, .inl rfl⟩

theorem perform_effect (h : obs.About silicon) (hk : (db.accountRow silicon).kind ≠ some .carbon)
    (hd : (db.accountRow silicon).deletedAt = none) (clock : Instant) :
    obs.Effect (obs.Admitted db ∧ obs.Passes (db.accountRow silicon)) (db.accountRow silicon)
      ((obs.perform clock db).accountRow silicon) := by
  cases obs with
  | delivered event => exact perform_delivered h hk hd clock
  | lookedUp view at' =>
    simp only [Admitted, Passes, and_self]
    exact perform_lookedUp h hk hd clock

end CustodianObservation

-- -----------------------------------------------------------------------------
-- Whole runs
-- -----------------------------------------------------------------------------

structure Store.Unobserved (db : Store) (silicon : AccountUuid) : Prop where
  kind : (db.accountRow silicon).kind ≠ some .carbon
  deletedAt : (db.accountRow silicon).deletedAt = none
  changedAt : (db.accountRow silicon).custodianChangedAt = none
  version : (db.accountRow silicon).profileVersion = 0

/-- Distinct observations have distinct times, and later profiles of the Silicon
larger versions. -/
structure TimeOrdered (observed : Set CustodianObservation) : Prop where
  times : ∀ a ∈ observed, ∀ b ∈ observed, a.time = b.time → a = b
  versions : ∀ a ∈ observed, ∀ b ∈ observed, a.time < b.time →
    ∀ v ∈ a.version, ∀ w ∈ b.version, v < w

/-- What the guards have seen is what has been applied. -/
structure CustodianWorld.Tracked (silicon : AccountUuid) (observed : Set CustodianObservation)
    (world : CustodianWorld) : Prop where
  applied : ∀ obs ∈ world.applied, obs ∈ observed
  kind : (world.db.accountRow silicon).kind ≠ some .carbon
  deletedAt : (world.db.accountRow silicon).deletedAt = none
  changedAt : ∀ t ∈ (world.db.accountRow silicon).custodianChangedAt,
    ∃ obs ∈ world.applied, obs.time = t
  version : (world.db.accountRow silicon).profileVersion = 0 ∨
    0 < (world.db.accountRow silicon).profileVersion ∧ ∃ obs ∈ world.applied,
      obs.version = some (world.db.accountRow silicon).profileVersion
  recorded : ∀ event, .delivered event ∈ world.applied → event.check = .ok () →
    (world.db.accountsEvents.find event.eventId).isSome

namespace CustodianWorld

open CustodianObservation

variable {silicon : AccountUuid} {observed : Set CustodianObservation} {world : CustodianWorld}
  {obs : CustodianObservation}

theorem mem_step : other ∈ (world.step (obs, clock)).applied ↔
    other ∈ world.applied ∨ other = obs := by
  simp [step]

theorem Tracked.step (h : world.Tracked silicon observed) (hu : obs ∈ observed)
    (habout : obs.About silicon) (clock : Instant) :
    (world.step (obs, clock)).Tracked silicon observed := by
  have he := perform_effect habout h.kind h.deletedAt clock
  refine ⟨?_, he.kind, he.deletedAt.trans h.deletedAt, ?_, ?_, ?_⟩
  · intro other hm
    obtain hm | rfl := mem_step.mp hm
    · exact h.applied other hm
    · exact hu
  · intro t ht
    obtain hsame | hnew := he.changedAt
    · obtain ⟨other, hm, ho⟩ := h.changedAt t (hsame ▸ ht)
      exact ⟨other, mem_step.mpr (.inl hm), ho⟩
    · cases (hnew.symm.trans ht)
      exact ⟨obs, mem_step.mpr (.inr rfl), rfl⟩
  · obtain hsame | ⟨hlt, hnew⟩ := he.version
    · rw [CustodianWorld.step, hsame]
      refine h.version.imp_right fun ⟨hpos, other, hm, ho⟩ => ⟨hpos, other, ?_, ho⟩
      exact mem_step.mpr (.inl hm)
    · refine .inr ⟨?_, obs, mem_step.mpr (.inr rfl), hnew⟩
      obtain h0 | ⟨hpos, -⟩ := h.version
      · exact h0 ▸ hlt
      · exact hpos.trans hlt
  · intro event hm hc
    obtain hm | rfl := mem_step.mp hm
    · have hrec := h.recorded event hm hc
      cases obs with
      | delivered other => exact deliver_keeps_recorded other clock hrec
      | lookedUp view at' =>
        simp only [CustodianWorld.step, perform]
        split
        · rename_i hok
          rw [recordAccountView_accountsEvents hok]
          exact hrec
        · exact hrec
    · exact deliver_records clock hc fun events => apply_total habout h.kind clock events

theorem Tracked.passes (h : world.Tracked silicon observed) (ho : TimeOrdered observed)
    (hu : obs ∈ observed) (habout : obs.About silicon) (ha : obs.Admitted world.db)
    (hpos : ∀ version ∈ obs.version, 0 < version)
    (hlast : ∀ other ∈ world.applied, other.time ≤ obs.time) :
    obs.Passes (world.db.accountRow silicon) := by
  cases obs with
  | lookedUp view at' => trivial
  | delivered event =>
    -- the observation itself is not among the applied ones: its id is new
    have hlt : ∀ other ∈ world.applied, other.time < event.occurredAt := by
      intro other hm
      refine lt_of_le_of_ne (hlast other hm) fun heq => ?_
      cases ho.times other (h.applied other hm) _ hu heq
      have := h.recorded event hm ha.check
      rw [ha.fresh] at this
      cases this
    have hchanged : ∀ t ∈ (world.db.accountRow silicon).custodianChangedAt,
        t < event.occurredAt := by
      intro t ht
      obtain ⟨other, hm, rfl⟩ := h.changedAt t ht
      exact hlt other hm
    obtain ⟨-, habout⟩ := habout
    cases hc : event.change with
    | custodianChanged uuid from' to' =>
      simp only [Passes, hc]
      cases hr : (world.db.accountRow silicon).custodianChangedAt with
      | none => rfl
      | some t => simpa using hchanged t hr
    | updated profile =>
      simp only [Passes, hc]
      have hv : CustodianObservation.version (.delivered event) = some profile.version := by
        simp only [CustodianObservation.version, hc]
      refine ⟨?_, ?_⟩
      · obtain h0 | ⟨-, other, hm, hov⟩ := h.version
        · rw [h0]
          exact hpos _ hv
        · exact ho.versions other (h.applied other hm) _ hu (hlt other hm) _ hov _ hv
      · cases hr : (world.db.accountRow silicon).custodianChangedAt with
        | none => rfl
        | some t => simpa using (hchanged t hr).le
    | _ => simp [hc] at habout

theorem Tracked.version_pos (h : world.Tracked silicon observed)
    (hpass : obs.Passes (world.db.accountRow silicon)) : ∀ version ∈ obs.version, 0 < version := by
  cases obs with
  | lookedUp view at' => simp [CustodianObservation.version]
  | delivered event =>
    cases hc : event.change with
    | updated profile =>
      simp only [Passes, hc] at hpass
      simp only [CustodianObservation.version, hc]
      rintro _ ⟨⟩
      obtain h0 | ⟨hpos, -⟩ := h.version
      · exact h0 ▸ hpass.1
      · exact hpos.trans hpass.1
    | _ => simp [CustodianObservation.version, hc]

theorem exists_latest (h : obs ∈ world.applied) :
    ∃ latest ∈ world.applied, ∀ other ∈ world.applied, other.time ≤ latest.time := by
  obtain ⟨latest, hm, hmax⟩ := world.applied.toFinset.exists_max_image CustodianObservation.time
    ⟨obs, List.mem_toFinset.mpr h⟩
  exact ⟨latest, List.mem_toFinset.mp hm, fun other ho => hmax other (List.mem_toFinset.mpr ho)⟩

/-- One observation keeps the latest custodian stored exactly when it comes in
order. -/
theorem Tracked.latest_step (h : world.Tracked silicon observed) (ho : TimeOrdered observed)
    (hu : obs ∈ observed) (habout : obs.About silicon) (hp : world.Latest silicon)
    (clock : Instant) :
    (world.step (obs, clock)).Latest silicon ↔ world.InOrder silicon (obs, clock) := by
  have he := perform_effect habout h.kind h.deletedAt clock
  have hstored : ((world.step (obs, clock)).db.accountRow silicon).custodianUuid =
      ((obs.perform clock world.db).accountRow silicon).custodianUuid := rfl
  unfold InOrder
  by_cases hsame : obs.custodian = (world.db.accountRow silicon).custodianUuid
  · -- either way the stored custodian stays
    refine iff_of_true ?_ (.inl hsame)
    have hkeep : ((obs.perform clock world.db).accountRow silicon).custodianUuid =
        (world.db.accountRow silicon).custodianUuid := by
      by_cases ht : obs.Admitted world.db ∧ obs.Passes (world.db.accountRow silicon)
      · exact (he.takes ht).trans hsame
      · exact he.stops ht
    intro other hm hlast
    rw [hstored, hkeep]
    obtain hm | rfl := mem_step.mp hm
    · exact hp other hm fun o hmo => hlast o (mem_step.mpr (.inl hmo))
    · exact hsame.symm
  · simp only [hsame, false_or]
    split
    · rename_i hnewer
      obtain ⟨newer, hmn, hlt⟩ := hnewer
      obtain ⟨latest, hml, hmax⟩ := exists_latest hmn
      have hlatest : ∀ o ∈ (world.step (obs, clock)).applied, o.time ≤ latest.time := by
        intro o hm
        obtain hm | rfl := mem_step.mp hm
        · exact hmax o hm
        · exact hlt.le.trans (hmax newer hmn)
      constructor
      · intro hl ht
        have hafter := hl latest (mem_step.mpr (.inl hml)) hlatest
        rw [hstored, he.takes ht, ← hp latest hml hmax] at hafter
        exact hsame hafter
      · intro ht other hm hlast
        rw [hstored, he.stops ht]
        obtain hm | rfl := mem_step.mp hm
        · exact hp other hm fun o hmo => hlast o (mem_step.mpr (.inl hmo))
        · exact absurd (hlast newer (mem_step.mpr (.inl hmn))) (not_le.mpr hlt)
    · rename_i hnone
      have hlast : ∀ other ∈ world.applied, other.time ≤ obs.time := by
        intro other hm
        exact not_lt.mp fun hlt => hnone ⟨other, hm, hlt⟩
      have hself : ∀ o ∈ (world.step (obs, clock)).applied, o.time ≤ obs.time := by
        intro o hm
        obtain hm | rfl := mem_step.mp hm
        · exact hlast o hm
        · exact le_rfl
      constructor
      · intro hl
        have hafter := hl obs (mem_step.mpr (.inr rfl)) hself
        rw [hstored] at hafter
        by_cases ht : obs.Admitted world.db ∧ obs.Passes (world.db.accountRow silicon)
        · exact ⟨ht.1, h.version_pos ht.2⟩
        · exact absurd (hafter.symm.trans (he.stops ht)) hsame
      · rintro ⟨ha, hpos⟩ other hm hmax
        have ht := h.passes ho hu habout ha hpos hlast
        rw [hstored, he.takes ⟨ha, ht⟩]
        obtain hm | rfl := mem_step.mp hm
        · have heq := le_antisymm (hlast other hm) (hmax obs (mem_step.mpr (.inr rfl)))
          rw [ho.times other (h.applied other hm) obs hu heq]
        · rfl

end CustodianWorld

/-- The stored custodian is that of the latest observation throughout a run
exactly when every observation comes in order. -/
theorem custodian_latest_iff {db : Store} {silicon : AccountUuid}
    {labels : List (CustodianObservation × Instant)} (hdb : db.Unobserved silicon)
    (habout : ∀ label ∈ labels, label.1.About silicon)
    (htime : TimeOrdered { obs | ∃ label ∈ labels, label.1 = obs }) :
    Always CustodianWorld.step (CustodianWorld.Latest silicon) ⟨db, []⟩ labels ↔
      Along CustodianWorld.step (CustodianWorld.InOrder silicon) ⟨db, []⟩ labels := by
  refine always_iff_along
    (I := CustodianWorld.Tracked silicon { obs | ∃ label ∈ labels, label.1 = obs })
    (L := fun _ label => label ∈ labels) ?_ ?_ ?_ ?_ (along_of_forall fun _ h => h)
  · rintro world ⟨obs, clock⟩ h hl
    exact h.step ⟨_, hl, rfl⟩ (habout _ hl) clock
  · rintro world ⟨obs, clock⟩ h hl hp
    exact h.latest_step htime ⟨_, hl, rfl⟩ (habout _ hl) hp clock
  · exact ⟨by simp, hdb.kind, hdb.deletedAt, by simp [hdb.changedAt], .inl hdb.version, by simp⟩
  · intro obs hm
    cases hm

namespace LateCustodianChange

def silicon : AccountUuid := ⟨"Si1", by decide⟩
def former : AccountUuid := ⟨"CaFormer", by decide⟩
def current : AccountUuid := ⟨"CaCurrent", by decide⟩

/-- The Silicon passes to its former custodian … -/
def change : CustodianObservation := .delivered
  ⟨"evt-1", "silicon.custodian_changed", 10, .custodianChanged silicon none (some (former, none))⟩

/-- … and later on is found with the current one. -/
def lookup : CustodianObservation := .lookedUp ⟨silicon, .silicon, none, some (current, none)⟩ 20

/-- The event delivered after the lookup gives the Silicon back. -/
theorem not_latest :
    ¬ (run CustodianWorld.step ⟨.empty, []⟩ [(lookup, 21), (change, 22)]).Latest silicon := by
  intro h
  have hlast := h lookup (by decide) (by decide)
  revert hlast
  decide

theorem empty_unobserved : Store.empty.Unobserved silicon := by
  constructor <;> decide

theorem in_order : Along CustodianWorld.step (CustodianWorld.InOrder silicon) ⟨.empty, []⟩
    [(change, 11), (lookup, 21)] := by
  refine ⟨.inr ?_, .inr ?_, trivial⟩
  · rw [if_neg (by decide)]
    exact ⟨⟨rfl, rfl, rfl⟩, by decide⟩
  · rw [if_neg (by decide)]
    exact ⟨trivial, by decide⟩

theorem in_order_latest : Always CustodianWorld.step (CustodianWorld.Latest silicon) ⟨.empty, []⟩
    [(change, 11), (lookup, 21)] := by
  refine (custodian_latest_iff empty_unobserved ?_ ⟨?_, ?_⟩).mpr in_order
  · intro label hm
    simp only [List.mem_cons, List.not_mem_nil, or_false] at hm
    obtain rfl | rfl := hm
    · exact ⟨by decide, rfl⟩
    · exact ⟨by decide, rfl, rfl⟩
  · rintro _ ⟨a, ha, rfl⟩ _ ⟨b, hb, rfl⟩
    revert a b
    decide
  · rintro _ ⟨a, ha, rfl⟩ _ ⟨b, hb, rfl⟩
    revert a b
    decide

end LateCustodianChange

end SiliconHook
