import SiliconHook.Store.AccountsEvents
import SiliconHook.Library.Transition
import Mathlib.Data.List.Induction

/-!
# Convergence of Accounts events

What Hook shows of an account is a face whose parts only move forward, so the
events and tokens of the account leave the same face in every order and with
any repetition. The store refines it.
-/

namespace SiliconHook

open LastWriter HighWater

-- -----------------------------------------------------------------------------
-- Faces
-- -----------------------------------------------------------------------------

/-- What is recorded of an account that events and tokens decide. Stamps no
longer matter once the account is deleted. -/
structure AccountFace where
  deleted : Bool
  publicId : Option Instant × Option PublicId
  profile : Option Int × (Option String × Option String)
  revokedBefore : Option Instant
  known : Set PublicId

structure AccountEffect where
  publicId : Option (Instant × Option PublicId)
  profile : Option (Int × (Option String × Option String))
  revokes : Option Instant
  deletes : Bool
  known : List PublicId

def put? [LinearOrder τ] (register : Option τ × β) (write : Option (τ × β)) : Option τ × β :=
  write.elim register (put register)

def raise? [LinearOrder τ] (register : Option τ) (mark : Option τ) : Option τ :=
  mark.elim register (raise register)

/-- A register of a deleted account is frozen, and blank after a deletion event. -/
def write [LinearOrder τ] (blank : β) (deleted deletes : Bool) (register : Option τ × β)
    (w : Option (τ × β)) : Option τ × β :=
  if deletes then (none, blank) else if deleted then register else put? register w

def AccountFace.absorb (face : AccountFace) (effect : AccountEffect) : AccountFace where
  deleted := face.deleted || effect.deletes
  publicId := write none face.deleted effect.deletes face.publicId effect.publicId
  profile := write (none, none) face.deleted effect.deletes face.profile effect.profile
  revokedBefore := raise? face.revokedBefore effect.revokes
  known := face.known ∪ { id | id ∈ effect.known }

/-- Writes with one stamp are one write. -/
def Distinct (a b : Option (τ × β)) : Prop := ∀ v ∈ a, ∀ w ∈ b, v.1 = w.1 → v = w

theorem put?_idem [LinearOrder τ] (register : Option τ × β) (w : Option (τ × β)) :
    put? (put? register w) w = put? register w := by
  cases w with
  | none => rfl
  | some w => exact put_idem register w

theorem put?_comm [LinearOrder τ] {a b : Option (τ × β)} (h : Distinct a b)
    (register : Option τ × β) : put? (put? register a) b = put? (put? register b) a := by
  cases a with
  | none => rfl
  | some v =>
    cases b with
    | none => rfl
    | some w => exact put_comm (h v rfl w rfl) register

theorem raise?_idem [LinearOrder τ] (register : Option τ) (m : Option τ) :
    raise? (raise? register m) m = raise? register m := by
  cases m with
  | none => rfl
  | some m => exact raise_idem register m

theorem raise?_comm [LinearOrder τ] (register : Option τ) (a b : Option τ) :
    raise? (raise? register a) b = raise? (raise? register b) a := by
  cases a with
  | none => rfl
  | some a =>
    cases b with
    | none => rfl
    | some b => exact raise_comm register a b

theorem write_idem [LinearOrder τ] (blank : β) (deleted deletes : Bool)
    (register : Option τ × β) (w : Option (τ × β)) :
    write blank (deleted || deletes) deletes (write blank deleted deletes register w) w =
      write blank deleted deletes register w := by
  cases deletes with
  | true => simp [write]
  | false => cases deleted <;> simp [write, put?_idem]

theorem write_comm [LinearOrder τ] (blank : β) (deleted d d' : Bool) (register : Option τ × β)
    {w w' : Option (τ × β)} (h : Distinct w w') :
    write blank (deleted || d) d' (write blank deleted d register w) w' =
      write blank (deleted || d') d (write blank deleted d' register w') w := by
  cases d <;> cases d' <;> cases deleted <;> simp [write, put?_comm h]

theorem AccountFace.absorb_idem (face : AccountFace) (e : AccountEffect) :
    (face.absorb e).absorb e = face.absorb e := by
  simp only [absorb, raise?_idem, write_idem, Set.union_assoc, Set.union_self, Bool.or_assoc,
    Bool.or_self]

theorem AccountFace.absorb_comm {a b : AccountEffect} (hid : Distinct a.publicId b.publicId)
    (hprofile : Distinct a.profile b.profile) (face : AccountFace) :
    (face.absorb a).absorb b = (face.absorb b).absorb a := by
  simp only [absorb, raise?_comm _ a.revokes, write_comm _ _ a.deletes _ _ hid,
    write_comm _ _ a.deletes _ _ hprofile, Set.union_assoc, Bool.or_assoc,
    Set.union_comm { id | id ∈ a.known }, Bool.or_comm a.deletes]

/-- Effects whose stamps are distinct leave one face in every order. -/
theorem absorb_confluent {effects : Set AccountEffect}
    (hid : ∀ a ∈ effects, ∀ b ∈ effects, Distinct a.publicId b.publicId)
    (hprofile : ∀ a ∈ effects, ∀ b ∈ effects, Distinct a.profile b.profile) :
    Confluent AccountFace.absorb effects where
  comm a ha b hb := AccountFace.absorb_comm (hid a ha b hb) (hprofile a ha b hb)
  idem a _ face := face.absorb_idem a

-- -----------------------------------------------------------------------------
-- What a run of effects leaves
-- -----------------------------------------------------------------------------

/-- The face reads off the effects: the latest id and the largest version unless
deleted, the greatest revocation, every id seen. -/
structure AccountFace.Settles (first : AccountFace) (effects : List AccountEffect)
    (face : AccountFace) : Prop where
  deleted : face.deleted = true ↔ first.deleted = true ∨ ∃ e ∈ effects, e.deletes = true
  wiped : (∃ e ∈ effects, e.deletes = true) →
    face.publicId = (none, none) ∧ face.profile = (none, (none, none))
  publicId : face.deleted = false →
    LastWriter.Settled first.publicId { w | ∃ e ∈ effects, e.publicId = some w } face.publicId
  profile : face.deleted = false →
    LastWriter.Settled first.profile { w | ∃ e ∈ effects, e.profile = some w } face.profile
  revokedBefore : HighWater.Holds face.revokedBefore
    { m | first.revokedBefore = some m ∨ ∃ e ∈ effects, e.revokes = some m }
  known : face.known = first.known ∪ { id | ∃ e ∈ effects, id ∈ e.known }

theorem AccountFace.Settles.start (first : AccountFace) : first.Settles [] first where
  deleted := by simp
  wiped := by simp
  publicId _ := by simpa using LastWriter.Settled.empty first.publicId
  profile _ := by simpa using LastWriter.Settled.empty first.profile
  revokedBefore := by simpa using HighWater.Holds.first first.revokedBefore
  known := by simp

theorem exists_mem_concat {effects : List AccountEffect} {p : AccountEffect → Prop} :
    (∃ x ∈ effects ++ [e], p x) ↔ (∃ x ∈ effects, p x) ∨ p e := by
  simp [or_and_right, exists_or]

theorem settled_put? [LinearOrder τ] {first register : Option τ × β}
    {effects : List AccountEffect} {f : AccountEffect → Option (τ × β)}
    (h : LastWriter.Settled first { w | ∃ x ∈ effects, f x = some w } register)
    (e : AccountEffect) :
    LastWriter.Settled first { w | ∃ x ∈ effects ++ [e], f x = some w }
      (put? register (f e)) := by
  simp only [exists_mem_concat]
  cases hf : f e with
  | none => simpa [put?] using h
  | some w =>
    have hset : { w' | (∃ x ∈ effects, f x = some w') ∨ some w = some w' } =
        insert w { w' | ∃ x ∈ effects, f x = some w' } := by
      ext w'
      simp [or_comm, eq_comm]
    rw [hset]
    exact h.put w

theorem AccountFace.Settles.absorb {first face : AccountFace} {effects : List AccountEffect}
    (h : first.Settles effects face) (e : AccountEffect) :
    first.Settles (effects ++ [e]) (face.absorb e) where
  deleted := by
    rw [exists_mem_concat, ← or_assoc, ← h.deleted]
    simp [AccountFace.absorb]
  wiped := by
    rw [exists_mem_concat]
    intro hd
    by_cases he : e.deletes = true
    · simp [AccountFace.absorb, write, he]
    · obtain hd | hd := hd
      · have hdel : face.deleted = true := h.deleted.mpr (.inr hd)
        simp [AccountFace.absorb, write, he, hdel, h.wiped hd]
      · exact absurd hd he
  publicId hd := by
    simp only [AccountFace.absorb, Bool.or_eq_false_iff] at hd ⊢
    simp only [write, hd.1, hd.2, Bool.false_eq_true, if_false]
    exact settled_put? (h.publicId hd.1) e
  profile hd := by
    simp only [AccountFace.absorb, Bool.or_eq_false_iff] at hd ⊢
    simp only [write, hd.1, hd.2, Bool.false_eq_true, if_false]
    exact settled_put? (h.profile hd.1) e
  revokedBefore := by
    simp only [exists_mem_concat, ← or_assoc, AccountFace.absorb]
    have hm := h.revokedBefore
    cases hr : e.revokes with
    | none => simpa [raise?] using hm
    | some m =>
      have hset : { m' | (first.revokedBefore = some m' ∨ ∃ x ∈ effects, x.revokes = some m') ∨
          some m = some m' } =
          insert m { m' | first.revokedBefore = some m' ∨ ∃ x ∈ effects, x.revokes = some m' } := by
        ext m'
        simp [or_comm, eq_comm]
      rw [hset]
      exact hm.raise m
  known := by
    simp only [exists_mem_concat, AccountFace.absorb, h.known]
    ext id
    simp [or_assoc]

theorem run_settles (first : AccountFace) (effects : List AccountEffect) :
    first.Settles effects (run AccountFace.absorb first effects) := by
  induction effects using List.reverseRecOn with
  | nil => exact .start first
  | append_singleton effects e ih =>
    rw [run_append]
    exact ih.absorb e

-- -----------------------------------------------------------------------------
-- Events and tokens of one account
-- -----------------------------------------------------------------------------

inductive AccountOperation
  | delivered (event : AccountsEvent)
  | token (kind : ActorKind) (publicId : Option PublicId) (issuedAt : Instant)
  deriving DecidableEq

namespace AccountOperation

def time : AccountOperation → Instant
  | .delivered event => event.occurredAt
  | .token _ _ issuedAt => issuedAt

def version : AccountOperation → Option Int
  | .delivered event =>
    match event.change with
    | .updated profile => some profile.version
    | _ => none
  | .token .. => none

/-- The operation is of this account, which is of this kind and nobody's
custodian but another's. -/
def Concerns (uuid : AccountUuid) (kind : ActorKind) : AccountOperation → Prop
  | .token k _ _ => k = kind
  | .delivered event =>
    match event.change with
    | .idChanged u k _ newId => u = uuid ∧ k.getD newId.kind = kind
    | .updated profile => profile.uuid = uuid ∧ profile.kind = kind ∧
      (kind = .silicon → ∀ c ∈ profile.custodian, c.1 ≠ uuid)
    | .custodianChanged u _ to' => u = uuid ∧ kind = .silicon ∧ ∀ c ∈ to', c.1 ≠ uuid
    | .signedOut u _ | .accessRemoved u | .deleted u => u = uuid
    | .nothing => False

def perform (uuid : AccountUuid) (op : AccountOperation) (clock : Instant) (db : Store) : Store :=
  match op with
  | .delivered event => deliver event clock db
  | .token kind publicId issuedAt => (observeTokenAccount uuid kind publicId issuedAt db).2

def effect : AccountOperation → AccountEffect
  | .token _ publicId issuedAt =>
    ⟨publicId.map fun id => (issuedAt, some id), none, none, false, publicId.toList⟩
  | .delivered event =>
    match event.change with
    | .idChanged _ _ oldId newId =>
      ⟨some (event.occurredAt, some newId), none, none, false, newId :: oldId.toList⟩
    | .updated profile =>
      ⟨profile.publicId.map fun id => (event.occurredAt, some id),
        some (profile.version,
          (profile.displayName.map fun name =>
            String.ofList (name.toList.take maxDisplayNameLength),
          profile.pfpUrl.filter fun url => url.utf8ByteSize ≤ maxPfpUrlLength)),
        none, false, profile.publicId.toList⟩
    | .signedOut _ reason =>
      ⟨none, none, if reason = some "app_revoked" then none else some event.occurredAt, false, []⟩
    | .accessRemoved _ => ⟨none, none, some event.occurredAt, false, []⟩
    | .deleted _ => ⟨none, none, some event.occurredAt, true, []⟩
    | .custodianChanged .. | .nothing => ⟨none, none, none, false, []⟩

end AccountOperation

def AccountRow.face (row : AccountRow) (known : Set PublicId) : AccountFace where
  deleted := row.deletedAt.isSome
  publicId := (if row.deletedAt.isSome then none else row.publicIdAt, row.publicId)
  profile :=
    (if row.deletedAt.isSome then none else some row.profileVersion,
      (row.displayName, row.pfpUrl))
  revokedBefore := row.revokedBefore
  known := known

def Store.face (db : Store) (uuid : AccountUuid) : AccountFace :=
  (db.accountRow uuid).face { id | db.knows uuid id }

-- -----------------------------------------------------------------------------
-- The store refines the face
-- -----------------------------------------------------------------------------

section

variable {row : AccountRow} {known : Set PublicId}

theorem face_advancePublicId (publicId : Option PublicId) (at' : Instant) (seen : List PublicId) :
    (row.advancePublicId publicId at').face (known ∪ { id | id ∈ seen }) =
      (row.face known).absorb
        ⟨publicId.map fun id => (at', some id), none, none, false, seen⟩ := by
  unfold AccountRow.advancePublicId
  cases publicId with
  | none => cases hd : row.deletedAt <;> simp [AccountRow.face, AccountFace.absorb, write, put?,
      raise?, hd]
  | some id =>
    cases hd : row.deletedAt with
    | some t => simp [AccountRow.face, AccountFace.absorb, write, raise?, hd]
    | none =>
      cases hlater : row.publicIdAt.all (· < at') with
      | true => simp [AccountRow.face, AccountFace.absorb, write, put?, put, raise?, hd, hlater]
      | false => simp [AccountRow.face, AccountFace.absorb, write, put?, put, raise?, hd, hlater]

theorem face_writeProfile (profile : Profile) (name url : Option String) :
    (if row.takesProfile profile.version then
      { row with displayName := name, pfpUrl := url, profileVersion := profile.version }
    else row).face known =
      (row.face known).absorb ⟨none, some (profile.version, (name, url)), none, false, []⟩ := by
  cases hd : row.deletedAt with
  | some t =>
    simp [AccountRow.takesProfile, AccountRow.face, AccountFace.absorb, write, raise?, hd]
  | none =>
    by_cases hlater : row.profileVersion < profile.version
    · simp [AccountRow.takesProfile, AccountRow.face, AccountFace.absorb, write, put?, put, raise?,
        hd, hlater]
    · simp [AccountRow.takesProfile, AccountRow.face, AccountFace.absorb, write, put?, put, raise?,
        hd, hlater]

theorem face_applyProfile (profile : Profile) (at' clock : Instant) :
    (row.applyProfile profile at' clock).face (known ∪ { id | id ∈ profile.publicId.toList }) =
      ((row.learnKind profile.kind).withProfile profile at').face
        (known ∪ { id | id ∈ profile.publicId.toList }) := by
  unfold AccountRow.applyProfile
  simp only
  split <;> rfl

theorem face_applyCustodian (custodian : Option AccountUuid) (at' clock : Instant) :
    (row.applyCustodian custodian at' clock).face known = row.face known := by
  unfold AccountRow.applyCustodian
  split <;> rfl

theorem face_revokeBefore (at' : Instant) :
    (row.revokeBefore at').face known =
      (row.face known).absorb ⟨none, none, some at', false, []⟩ := by
  cases hd : row.deletedAt <;>
    simp [AccountRow.revokeBefore, AccountRow.face, AccountFace.absorb, write, put?, raise?, hd]

theorem face_markDeleted (at' : Instant) :
    (row.markDeleted at').face known =
      (row.face known).absorb ⟨none, none, some at', true, []⟩ := by
  cases hd : row.deletedAt <;>
    simp [AccountRow.markDeleted, AccountRow.revokeBefore, AccountRow.face, AccountFace.absorb,
      write, raise?, hd]

theorem absorb_nothing (face : AccountFace) : face.absorb ⟨none, none, none, false, []⟩ = face := by
  obtain ⟨deleted, -, -, -, -⟩ := face
  cases deleted <;> simp [AccountFace.absorb, write, put?, raise?]

theorem absorb_profile (face : AccountFace) (publicId : Option (Instant × Option PublicId))
    (profile : Option (Int × (Option String × Option String))) (known : List PublicId) :
    (face.absorb ⟨none, profile, none, false, []⟩).absorb ⟨publicId, none, none, false, known⟩ =
      face.absorb ⟨publicId, profile, none, false, known⟩ := by
  cases hd : face.deleted <;> simp [AccountFace.absorb, write, put?, raise?, hd]

end

namespace AccountOperation

variable {uuid : AccountUuid} {kind : ActorKind} {event : AccountsEvent} {db db' : Store}

theorem face_apply (h : Concerns uuid kind (.delivered event))
    (ha : event.change.apply event.occurredAt clock db = .ok db') :
    db'.face uuid = (db.face uuid).absorb (effect (.delivered event)) := by
  cases hc : event.change with
  | idChanged u k oldId newId =>
    simp only [Concerns, hc] at h
    obtain ⟨rfl, -⟩ := h
    rw [hc] at ha
    cases ha
    have hknown : { id | (idChanged u k oldId newId event.occurredAt db).knows u id } =
        { id | db.knows u id } ∪ { id | id ∈ newId :: oldId.toList } := by
      ext id
      exact knows_idChanged
    simp only [Store.face, effect, hc, hknown, Store.accountRow_of_find (find_idChanged ..)]
    exact face_advancePublicId (some newId) event.occurredAt (newId :: oldId.toList)
  | updated profile =>
    simp only [Concerns, hc] at h
    obtain ⟨rfl, rfl, hcust⟩ := h
    rw [hc] at ha
    have hknown : { id | db'.knows profile.uuid id } =
        { id | db.knows profile.uuid id } ∪ { id | id ∈ profile.publicId.toList } := by
      ext id
      exact knows_updated ha hcust
    simp only [Store.face, effect, hc, hknown, Store.accountRow_of_find (find_updated ha hcust),
      face_applyProfile, AccountRow.withProfile, face_advancePublicId, face_writeProfile]
    exact absorb_profile ..
  | custodianChanged u from' to' =>
    simp only [Concerns, hc] at h
    obtain ⟨rfl, -, hcust⟩ := h
    rw [hc] at ha
    cases ha
    have hknown : { id | (custodianChanged u from' to' event.occurredAt clock db).knows u id } =
        { id | db.knows u id } := by
      ext id
      exact knows_custodianChanged from' event.occurredAt clock hcust
    simp only [Store.face, effect, hc, hknown, absorb_nothing, face_applyCustodian,
      Store.accountRow_of_find (find_custodianChanged db from' event.occurredAt clock hcust)]
  | signedOut u reason =>
    simp only [Concerns, hc] at h
    subst h
    rw [hc] at ha
    simp only [AccountsChange.apply] at ha
    simp only [effect, hc]
    split at ha
    · rename_i hr
      cases ha
      rw [if_pos hr, absorb_nothing]
    · rename_i hr
      cases ha
      have hfind := find_revoke db u u event.occurredAt
      rw [if_pos rfl] at hfind
      rw [if_neg hr, Store.face, Store.accountRow_of_find hfind]
      exact face_revokeBefore event.occurredAt
  | accessRemoved u =>
    simp only [Concerns, hc] at h
    subst h
    rw [hc] at ha
    cases ha
    have hfind := find_revoke db u u event.occurredAt
    rw [if_pos rfl] at hfind
    rw [Store.face, Store.accountRow_of_find hfind]
    simp only [effect, hc]
    exact face_revokeBefore event.occurredAt
  | deleted u =>
    simp only [Concerns, hc] at h
    subst h
    rw [hc] at ha
    cases ha
    have hfind := find_deleted db u u event.occurredAt clock
    rw [if_pos rfl] at hfind
    have hknown : { id | (deleted u event.occurredAt clock db).knows u id } =
        { id | db.knows u id } := by
      ext id
      exact knows_deleted event.occurredAt clock
    simp only [Store.face, Store.accountRow_of_find hfind, hknown, effect, hc]
    exact face_markDeleted event.occurredAt
  | nothing => simp [Concerns, hc] at h

theorem face_token (k : ActorKind) (publicId : Option PublicId) (issuedAt : Instant) :
    ((observeTokenAccount uuid k publicId issuedAt db).2).face uuid =
      (db.face uuid).absorb (effect (.token k publicId issuedAt)) := by
  have hfind := find_upsertKnownAccount db uuid uuid k publicId issuedAt
  rw [if_pos rfl] at hfind
  have hknown : { id | (upsertKnownAccount uuid k publicId issuedAt db).knows uuid id } =
      { id | db.knows uuid id } ∪ { id | id ∈ publicId.toList } := by
    ext id
    simp [knows_upsertKnownAccount]
  simp only [observeTokenAccount, Store.face, Store.accountRow_of_find hfind, hknown, effect]
  exact face_advancePublicId publicId issuedAt publicId.toList

theorem apply_total (h : Concerns uuid kind (.delivered event))
    (hk : ∀ k ∈ (db.accountRow uuid).kind, k = kind) (clock : Instant) (events) :
    ∃ db', event.change.apply event.occurredAt clock { db with accountsEvents := events } =
      .ok db' := by
  cases hc : event.change with
  | updated profile =>
    simp only [Concerns, hc] at h
    obtain ⟨rfl, rfl, hcust⟩ := h
    refine updated_total event.occurredAt clock hcust fun hs hcarbon => ?_
    have := hk .carbon hcarbon
    rw [hs] at this
    cases this
  | signedOut u reason =>
    simp only [AccountsChange.apply]
    split <;> exact ⟨_, rfl⟩
  | _ => exact ⟨_, rfl⟩

theorem kind_learnKind {row : AccountRow} (hk : ∀ k ∈ row.kind, k = kind) :
    ∀ k ∈ (row.learnKind kind).kind, k = kind := by
  cases hr : row.kind with
  | none => simp [AccountRow.learnKind, hr]
  | some k =>
    have := hk k hr
    subst this
    simp [AccountRow.learnKind, hr]

theorem kind_apply (h : Concerns uuid kind (.delivered event))
    (ha : event.change.apply event.occurredAt clock db = .ok db')
    (hk : ∀ k ∈ (db.accountRow uuid).kind, k = kind) :
    ∀ k ∈ (db'.accountRow uuid).kind, k = kind := by
  have hlearn := kind_learnKind hk
  cases hc : event.change with
  | idChanged u k oldId newId =>
    simp only [Concerns, hc] at h
    obtain ⟨rfl, rfl⟩ := h
    rw [hc] at ha
    cases ha
    rw [Store.accountRow_of_find (find_idChanged ..), AccountRow.advancePublicId_kind]
    exact hlearn
  | updated profile =>
    simp only [Concerns, hc] at h
    obtain ⟨rfl, rfl, hcust⟩ := h
    rw [hc] at ha
    rw [Store.accountRow_of_find (find_updated ha hcust), AccountRow.applyProfile]
    split
    · simp only [AccountRow.withProfile_kind]
      exact hlearn
    · simp only [AccountRow.withProfile_kind]
      exact hlearn
  | custodianChanged u from' to' =>
    simp only [Concerns, hc] at h
    obtain ⟨rfl, rfl, hcust⟩ := h
    rw [hc] at ha
    cases ha
    rw [Store.accountRow_of_find (find_custodianChanged db from' event.occurredAt clock hcust),
      AccountRow.applyCustodian]
    split <;> exact hlearn
  | signedOut u reason =>
    simp only [Concerns, hc] at h
    subst h
    rw [hc] at ha
    simp only [AccountsChange.apply] at ha
    split at ha
    · cases ha
      exact hk
    · cases ha
      have hfind := find_revoke db u u event.occurredAt
      rw [if_pos rfl] at hfind
      rw [Store.accountRow_of_find hfind]
      exact hk
  | accessRemoved u =>
    simp only [Concerns, hc] at h
    subst h
    rw [hc] at ha
    cases ha
    have hfind := find_revoke db u u event.occurredAt
    rw [if_pos rfl] at hfind
    rw [Store.accountRow_of_find hfind]
    exact hk
  | deleted u =>
    simp only [Concerns, hc] at h
    subst h
    rw [hc] at ha
    cases ha
    have hfind := find_deleted db u u event.occurredAt clock
    rw [if_pos rfl] at hfind
    rw [Store.accountRow_of_find hfind]
    exact hk
  | nothing => simp [Concerns, hc] at h

end AccountOperation

-- -----------------------------------------------------------------------------
-- Runs
-- -----------------------------------------------------------------------------

open AccountOperation

def accountStep (uuid : AccountUuid) (db : Store) (label : AccountOperation × Instant) : Store :=
  label.1.perform uuid label.2 db

/-- Tokens count, and events the store at the start of the run admits. -/
def AccountOperation.Counts (first : Store) : AccountOperation → Bool
  | .delivered event => decide (event.Admitted first)
  | .token .. => true

def effectsOf (first : Store) (labels : List (AccountOperation × Instant)) : List AccountEffect :=
  (labels.filter fun label => label.1.Counts first).map fun label => label.1.effect

/-- One account's events and tokens as Silicon Accounts makes them: of one kind,
told apart by their ids and times, with versions that grow with time. -/
structure Consistent (uuid : AccountUuid) (kind : ActorKind) (ops : Set AccountOperation) :
    Prop where
  concerns : ∀ op ∈ ops, op.Concerns uuid kind
  ids : ∀ a b, .delivered a ∈ ops → .delivered b ∈ ops → a.eventId = b.eventId → a = b
  times : ∀ a ∈ ops, ∀ b ∈ ops, a.time = b.time → a = b
  versions : ∀ a ∈ ops, ∀ b ∈ ops, a.time < b.time → ∀ v ∈ a.version, ∀ w ∈ b.version, v < w

theorem AccountOperation.effect_publicId {op : AccountOperation}
    (h : op.effect.publicId = some w) : w.1 = op.time := by
  cases op with
  | token kind publicId issuedAt =>
    simp only [effect, Option.map_eq_some_iff] at h
    obtain ⟨id, -, rfl⟩ := h
    rfl
  | delivered event =>
    cases hc : event.change with
    | idChanged => simp only [effect, hc] at h; cases h; rfl
    | updated profile =>
      simp only [effect, hc, Option.map_eq_some_iff] at h
      obtain ⟨id, -, rfl⟩ := h
      rfl
    | _ => simp [effect, hc] at h

theorem AccountOperation.effect_profile {op : AccountOperation}
    (h : op.effect.profile = some w) : op.version = some w.1 := by
  cases op with
  | token => simp [effect] at h
  | delivered event =>
    cases hc : event.change with
    | updated profile =>
      simp only [effect, hc, Option.some.injEq] at h
      subst h
      simp only [version, hc]
    | _ => simp [effect, hc] at h

theorem Consistent.confluent {ops : Set AccountOperation} (h : Consistent uuid kind ops) :
    Confluent AccountFace.absorb { e | ∃ op ∈ ops, op.effect = e } := by
  refine absorb_confluent ?_ ?_
  · rintro _ ⟨a, ha, rfl⟩ _ ⟨b, hb, rfl⟩ v hv w hw heq
    have htime : a.time = b.time := (effect_publicId hv).symm.trans (heq.trans (effect_publicId hw))
    cases h.times a ha b hb htime
    exact Option.some.inj (hv.symm.trans hw)
  · rintro _ ⟨a, ha, rfl⟩ _ ⟨b, hb, rfl⟩ v hv w hw heq
    have hva := effect_profile hv
    have hwb := effect_profile hw
    have htime : a.time = b.time := by
      rcases lt_trichotomy a.time b.time with hlt | heq' | hlt
      · exact absurd heq (h.versions a ha b hb hlt _ hva _ hwb).ne
      · exact heq'
      · exact absurd heq (h.versions b hb a ha hlt _ hwb _ hva).ne'
    cases h.times a ha b hb htime
    exact Option.some.inj (hv.symm.trans hw)

/-- Where a run has come: the face its effects leave, and the ids recorded. -/
structure Reached (uuid : AccountUuid) (kind : ActorKind) (first : Store)
    (labels : List (AccountOperation × Instant)) (db : Store) : Prop where
  face : db.face uuid = run AccountFace.absorb (first.face uuid) (effectsOf first labels)
  kind : ∀ k ∈ (db.accountRow uuid).kind, k = kind
  ledger : db.accountsUuid128Map = first.accountsUuid128Map
  kept : ∀ k, (first.accountsEvents.find k).isSome → (db.accountsEvents.find k).isSome
  recorded : ∀ event clock, (.delivered event, clock) ∈ labels → event.check = .ok () →
    (db.accountsEvents.find event.eventId).isSome
  traced : ∀ k, (db.accountsEvents.find k).isSome → (first.accountsEvents.find k).isSome ∨
    ∃ event clock, (.delivered event, clock) ∈ labels ∧ event.eventId = k

namespace Reached

variable {uuid : AccountUuid} {kind : ActorKind} {event : AccountsEvent} {first db : Store}
  {labels : List (AccountOperation × Instant)} {op : AccountOperation}

theorem start (hk : ∀ k ∈ (first.accountRow uuid).kind, k = kind) :
    Reached uuid kind first [] first :=
  ⟨rfl, hk, rfl, fun _ h => h, by simp, fun _ h => .inl h⟩

theorem mem_concat {other : AccountOperation} {t : Instant} :
    (other, t) ∈ labels ++ [(op, clock)] ↔ (other, t) ∈ labels ∨ (other = op ∧ t = clock) := by
  simp

theorem effectsOf_concat : effectsOf first (labels ++ [(op, clock)]) =
    effectsOf first labels ++ if op.Counts first then [op.effect] else [] := by
  simp only [effectsOf, List.filter_append, List.map_append]
  by_cases hc : op.Counts first = true <;> simp [hc]

/-- An event admitted now is one the first store admits, not delivered before. -/
theorem admitted_iff (h : Reached uuid kind first labels db) {ops : Set AccountOperation}
    (ho : Consistent uuid kind ops) (hl : ∀ label ∈ labels, label.1 ∈ ops)
    (hop : .delivered event ∈ ops) :
    event.Admitted db ↔ event.Admitted first ∧
      ∀ clock, (.delivered event, clock) ∉ labels := by
  have hretired : event.retired db = event.retired first := by
    simp only [AccountsEvent.retired, h.ledger]
  constructor
  · rintro ⟨hc, hf, hr⟩
    have hnone : ¬ (db.accountsEvents.find event.eventId).isSome := by simp [hf]
    refine ⟨⟨hc, ?_, hretired ▸ hr⟩, fun clock hm => hnone (h.recorded event clock hm hc)⟩
    by_contra hne
    exact hnone (h.kept _ (Option.isSome_iff_ne_none.mpr hne))
  · rintro ⟨⟨hc, hf, hr⟩, hnew⟩
    refine ⟨hc, ?_, hretired.trans hr⟩
    by_contra hne
    obtain hsome | ⟨other, clock, hm, hid⟩ := h.traced _ (Option.isSome_iff_ne_none.mpr hne)
    · simp [hf] at hsome
    · cases ho.ids other event (hl _ hm) hop hid
      exact hnew clock hm

theorem step_token (h : Reached uuid kind first labels db)
    (hop : (AccountOperation.token k publicId issuedAt).Concerns uuid kind) (clock : Instant) :
    Reached uuid kind first (labels ++ [(.token k publicId issuedAt, clock)])
      (accountStep uuid db (.token k publicId issuedAt, clock)) := by
  have hevents : (accountStep uuid db (.token k publicId issuedAt, clock)).accountsEvents =
      db.accountsEvents := upsertKnownAccount_accountsEvents
  refine ⟨?_, ?_, ?_, ?_, ?_, ?_⟩
  · have hcounts : Counts first (.token k publicId issuedAt) = true := rfl
    rw [effectsOf_concat, if_pos hcounts, run_append, ← h.face]
    exact face_token k publicId issuedAt
  · have hfind := find_upsertKnownAccount db uuid uuid k publicId issuedAt
    rw [if_pos rfl] at hfind
    have hrow := Store.accountRow_of_find hfind
    simp only [accountStep, perform, observeTokenAccount, hrow, AccountRow.advancePublicId_kind]
    cases (show k = kind from hop)
    exact kind_learnKind h.kind
  · exact upsertKnownAccount_ledger.trans h.ledger
  · rw [hevents]
    exact h.kept
  · intro event t hm hc
    rw [hevents]
    obtain hm | ⟨hop, -⟩ := mem_concat.mp hm
    · exact h.recorded event t hm hc
    · cases hop
  · intro id hsome
    rw [hevents] at hsome
    refine (h.traced id hsome).imp_right ?_
    rintro ⟨event, t, hm, hid⟩
    exact ⟨event, t, mem_concat.mpr (.inl hm), hid⟩

theorem step_delivered (h : Reached uuid kind first labels db) {ops : Set AccountOperation}
    (ho : Consistent uuid kind ops) (hl : ∀ label ∈ labels, label.1 ∈ ops)
    (hop : .delivered event ∈ ops) (clock : Instant) :
    Reached uuid kind first (labels ++ [(.delivered event, clock)])
      (accountStep uuid db (.delivered event, clock)) := by
  have hconcerns := ho.concerns _ hop
  obtain ⟨hledger, hother⟩ := deliver_frame event clock db
  have hface : (accountStep uuid db (.delivered event, clock)).face uuid =
      run AccountFace.absorb (first.face uuid)
        (effectsOf first (labels ++ [(.delivered event, clock)])) ∧
      ∀ k ∈ ((accountStep uuid db (.delivered event, clock)).accountRow uuid).kind, k = kind := by
    rw [effectsOf_concat, run_append, ← h.face]
    by_cases ha : event.Admitted db
    · have hcounts : Counts first (.delivered event) = true :=
        decide_eq_true ((h.admitted_iff ho hl hop).mp ha).1
      obtain ⟨recorded, -, hdel⟩ := deliver_admitted clock ha
      obtain ⟨db', happ⟩ := apply_total hconcerns h.kind clock recorded
      have hstep : accountStep uuid db (.delivered event, clock) = db' := by
        rw [accountStep, perform, hdel, happ]
      have hsame : Store.face { db with accountsEvents := recorded } uuid = db.face uuid := rfl
      rw [hstep, if_pos hcounts, ← hsame]
      exact ⟨face_apply hconcerns happ, kind_apply hconcerns happ h.kind⟩
    · obtain ⟨events, hdel⟩ := deliver_not_admitted clock ha
      have hstep : accountStep uuid db (.delivered event, clock) =
          { db with accountsEvents := events } := hdel
      rw [hstep]
      refine ⟨?_, h.kind⟩
      have hsame : Store.face { db with accountsEvents := events } uuid = db.face uuid := rfl
      rw [hsame]
      split
      · -- the event counts, and has been absorbed before
        rename_i hcounts
        have hfirst : event.Admitted first := of_decide_eq_true hcounts
        have hbefore : ∃ t, (.delivered event, t) ∈ labels := by
          by_contra hnone
          exact ha ((h.admitted_iff ho hl hop).mpr ⟨hfirst, fun t hm => hnone ⟨t, hm⟩⟩)
        obtain ⟨t, hm⟩ := hbefore
        have heffect : effect (.delivered event) ∈ effectsOf first labels :=
          List.mem_map.mpr ⟨_, List.mem_filter.mpr ⟨hm, hcounts⟩, rfl⟩
        have hall : ∀ e ∈ effectsOf first labels, e ∈ { e | ∃ op ∈ ops, op.effect = e } := by
          intro e he
          obtain ⟨label, hmem, rfl⟩ := List.mem_map.mp he
          exact ⟨label.1, hl label (List.mem_filter.mp hmem).1, rfl⟩
        rw [h.face]
        exact (ho.confluent.run_absorbs hall heffect).symm
      · rfl
  refine ⟨hface.1, hface.2, hledger.trans h.ledger, fun k hk => ?_, ?_, ?_⟩
  · exact deliver_keeps_recorded event clock (h.kept k hk)
  · intro other t hm hc
    obtain hm | ⟨hop', -⟩ := mem_concat.mp hm
    · exact deliver_keeps_recorded event clock (h.recorded other t hm hc)
    · cases hop'
      exact deliver_records clock hc fun events => apply_total hconcerns h.kind clock events
  · intro k hsome
    by_cases hk : k = event.eventId
    · exact .inr ⟨event, clock, mem_concat.mpr (.inr ⟨rfl, rfl⟩), hk.symm⟩
    · have hsome' : (db.accountsEvents.find k).isSome := by
        rw [← hother k hk]
        exact hsome
      refine (h.traced k hsome').imp_right ?_
      rintro ⟨other, t, hm, hid⟩
      exact ⟨other, t, mem_concat.mpr (.inl hm), hid⟩

theorem run {ops : Set AccountOperation} (ho : Consistent uuid kind ops)
    (hk : ∀ k ∈ (first.accountRow uuid).kind, k = kind) (hl : ∀ label ∈ labels, label.1 ∈ ops) :
    Reached uuid kind first labels (SiliconHook.run (accountStep uuid) first labels) := by
  induction labels using List.reverseRecOn with
  | nil => exact .start hk
  | append_singleton labels label ih =>
    rw [run_append]
    have hl' := fun l hm => hl l (List.mem_append_left [label] hm)
    have hlabel := hl label (List.mem_append_right labels (List.mem_singleton_self _))
    obtain ⟨op, clock⟩ := label
    cases op with
    | delivered event => exact (ih hl').step_delivered ho hl' hlabel clock
    | token k publicId issuedAt => exact (ih hl').step_token (ho.concerns _ hlabel) clock

end Reached

/-- One account's events and tokens leave the same face in every order and with
any repetition, the one their effects settle, and a recorded event changes
nothing again. -/
theorem accounts_events_converge {db : Store} {uuid : AccountUuid} {kind : ActorKind}
    {labels others : List (AccountOperation × Instant)}
    (hk : ∀ k ∈ (db.accountRow uuid).kind, k = kind)
    (ho : Consistent uuid kind { op | ∃ label ∈ labels, label.1 = op })
    (hsame : ∀ op, (∃ label ∈ labels, label.1 = op) ↔ ∃ label ∈ others, label.1 = op) :
    (run (accountStep uuid) db labels).face uuid = (run (accountStep uuid) db others).face uuid ∧
      (db.face uuid).Settles (effectsOf db labels)
        ((run (accountStep uuid) db labels).face uuid) ∧
      ∀ event clock, .delivered event ∈ labels.map Prod.fst → event.check = .ok () →
        applyAccountsEvent event clock (run (accountStep uuid) db labels) =
          .ok (.duplicate, run (accountStep uuid) db labels) := by
  have hl : ∀ label ∈ labels, label.1 ∈ { op | ∃ label ∈ labels, label.1 = op } :=
    fun label hm => ⟨label, hm, rfl⟩
  have hreached := Reached.run ho hk hl
  have hreached' : Reached uuid kind db others (run (accountStep uuid) db others) :=
    Reached.run ho hk fun label hm => (hsame label.1).mpr ⟨label, hm, rfl⟩
  refine ⟨?_, ?_, ?_⟩
  · rw [hreached.face, hreached'.face]
    refine ho.confluent.run_eq ?_ ?_
    · intro e he
      obtain ⟨label, hm, rfl⟩ := List.mem_map.mp he
      exact ⟨label.1, hl label (List.mem_filter.mp hm).1, rfl⟩
    · have hmem : ∀ (xs ys : List (AccountOperation × Instant)) e,
          (∀ op, (∃ label ∈ xs, label.1 = op) → ∃ label ∈ ys, label.1 = op) →
          e ∈ effectsOf db xs → e ∈ effectsOf db ys := by
        intro xs ys e hsub he
        obtain ⟨label, hm, rfl⟩ := List.mem_map.mp he
        obtain ⟨hm, hcounts⟩ := List.mem_filter.mp hm
        obtain ⟨label', hm', heq⟩ := hsub label.1 ⟨label, hm, rfl⟩
        exact List.mem_map.mpr ⟨label', List.mem_filter.mpr ⟨hm', heq ▸ hcounts⟩,
          congrArg _ heq⟩
      intro e
      exact ⟨hmem _ _ e fun op => (hsame op).mp, hmem _ _ e fun op => (hsame op).mpr⟩
  · rw [hreached.face]
    exact run_settles ..
  · intro event clock hm hc
    obtain ⟨⟨op, t⟩, hm, rfl⟩ := List.mem_map.mp hm
    exact applyAccountsEvent_duplicate clock hc (hreached.recorded event t hm hc)

namespace RenamedThenSignedOut

def carbon : AccountUuid := ⟨"Ca1", by decide⟩

def renamed : AccountOperation := .delivered
  ⟨"evt-1", "account.id_changed", 20, .idChanged carbon (some .carbon) none
    ⟨"c:new", .carbon, by decide⟩⟩

def signedOut : AccountOperation := .delivered
  ⟨"evt-2", "membership.signed_out", 30, .signedOut carbon none⟩

def token : AccountOperation := .token .carbon (some ⟨"c:old", .carbon, by decide⟩) 10

def inOrder : List (AccountOperation × Instant) := [(token, 11), (renamed, 21), (signedOut, 31)]

def reordered : List (AccountOperation × Instant) :=
  [(signedOut, 31), (renamed, 32), (signedOut, 33), (token, 34)]

theorem consistent :
    Consistent carbon .carbon { op | ∃ label ∈ inOrder, label.1 = op } where
  concerns := by
    rintro _ ⟨label, hm, rfl⟩
    simp only [inOrder, List.mem_cons, List.not_mem_nil, or_false] at hm
    obtain rfl | rfl | rfl := hm
    · exact rfl
    · exact ⟨rfl, rfl⟩
    · exact rfl
  ids := by
    rintro a b ⟨l, hl, ha⟩ ⟨l', hl', hb⟩ hid
    simp only [inOrder, List.mem_cons, List.not_mem_nil, or_false] at hl hl'
    obtain rfl | rfl | rfl := hl <;> obtain rfl | rfl | rfl := hl' <;> cases ha <;> cases hb <;>
      first | rfl | exact absurd hid (by decide)
  times := by
    rintro _ ⟨a, ha, rfl⟩ _ ⟨b, hb, rfl⟩
    revert a b
    decide
  versions := by
    rintro _ ⟨a, ha, rfl⟩ _ ⟨b, hb, rfl⟩
    revert a b
    decide

theorem reordered_face : (run (accountStep carbon) .empty inOrder).face carbon =
    (run (accountStep carbon) .empty reordered).face carbon := by
  have hk : ∀ k ∈ (Store.empty.accountRow carbon).kind, k = .carbon := by decide
  refine (accounts_events_converge hk consistent fun op => ?_).1
  constructor
  · rintro ⟨label, hm, rfl⟩
    revert label
    decide
  · rintro ⟨label, hm, rfl⟩
    revert label
    decide

end RenamedThenSignedOut

end SiliconHook
