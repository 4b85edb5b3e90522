import Mathlib.Data.List.Pairwise
import SiliconHook.Properties.IdentityLinks

/-!
# Delivery streams

Events are numbered under the namespace key of their hook and read as the
stream of the Silicon the hook belongs to. A Silicon with hooks under two keys
has two counters.
-/

namespace SiliconHook

structure NumberedEvent where
  hookId : HookId
  key : SiliconId
  sequence : Int
  deriving DecidableEq

structure Streams where
  database : Database
  accepted : List NumberedEvent

inductive StreamLabel
  | created (command : CreateHook) (owner : AccountUuid) (owned : command.Owned owner)
  | accepted (codec : DeliveryCodec) (deliverySummary : SummaryRenderer) (command : AcceptEvent)
      (sendId : Uuid) (sendIds : Uuid → Uuid) (now : Instant)
  | linked (mapping : IdentityMapping) (distinct : IdentityMapping.Distinct mapping.rows)
      (dryRun : Bool) (clock : Instant)

/-- The hook a request was verified against has the key of its row. -/
def AcceptEvent.readFrom (command : AcceptEvent) (db : Store) : Bool :=
  (db.hooks.find command.hook.id).all fun row => row.siliconId = command.hook.siliconId

def Store.lastSequence (db : Store) (key : SiliconId) : Int :=
  ((db.deliverySequences.find key).map SequenceRow.lastSequence).getD 0

namespace Streams

def step (w : Streams) : StreamLabel → Streams
  | .created command owner owned =>
    { w with database := storedStep w.database (.created command owner owned) }
  | .accepted codec deliverySummary command sendId sendIds now =>
    -- a hook's key is never written, so no copy of another key is ever presented
    if !command.readFrom w.database.db then w
    else match codec.acceptEvent deliverySummary command sendId sendIds now w.database.db with
      | .error _ => w
      | .ok (event, db) =>
        { database := { w.database with db := db }
          accepted := w.accepted ++
            [⟨event.hookId, command.hook.siliconId, event.deliverySequence.value⟩] }
  | .linked mapping distinct dryRun clock =>
    { w with database := storedStep w.database (.linked mapping distinct dryRun clock) }

def owner (w : Streams) (hookId : HookId) : Option AccountUuid :=
  (w.database.db.hooks.find hookId).bind HookRow.siliconUuid

def stream (w : Streams) (silicon : AccountUuid) : List NumberedEvent :=
  w.accepted.filter fun event => w.owner event.hookId = some silicon

def keyed (w : Streams) (key : SiliconId) : List NumberedEvent :=
  w.accepted.filter fun event => event.key = key

-- -----------------------------------------------------------------------------
-- The contract
-- -----------------------------------------------------------------------------

/-- The Silicon's positions start at one and only ever grow. -/
structure InOrder (w : Streams) (silicon : AccountUuid) : Prop where
  first : ∀ event ∈ (w.stream silicon).head?, event.sequence = 1
  rising : (w.stream silicon).Pairwise fun earlier later => earlier.sequence < later.sequence

def linkedOwner (w : Streams) (mapping : IdentityMapping) (hookId : HookId) : Option AccountUuid :=
  (w.database.db.hooks.find hookId).bind fun row => (mapping.linkedHook row).siliconUuid

/-- An accepted event joins a stream with no other key, and a link run joins no
events with different keys. -/
def Meets (w : Streams) : StreamLabel → Prop
  | .created .. => True
  | .accepted codec deliverySummary command sendId sendIds now =>
    command.readFrom w.database.db = true →
    ∀ made, codec.acceptEvent deliverySummary command sendId sendIds now w.database.db = .ok made →
      ∀ silicon, w.owner command.hook.id = some silicon →
        ∀ event ∈ w.stream silicon, event.key = command.hook.siliconId
  | .linked _ _ true _ => True
  | .linked mapping _ false clock =>
    ∀ made, applyMapping mapping clock w.database = .ok made →
      ∀ silicon, ∀ first ∈ w.accepted, ∀ second ∈ w.accepted,
        w.linkedOwner mapping first.hookId = some silicon →
          w.linkedOwner mapping second.hookId = some silicon → first.key = second.key

-- -----------------------------------------------------------------------------
-- The invariant
-- -----------------------------------------------------------------------------

/-- Hooks of one key have one owner, the account itself where its uuid is the key. -/
structure OneOwner (hooks : List HookRow) : Prop where
  same : ∀ first ∈ hooks, ∀ second ∈ hooks, first.siliconId = second.siliconId →
    first.siliconUuid = second.siliconUuid
  own : ∀ row ∈ hooks, ∀ uuid, row.siliconId = .fromAccountUuid uuid → row.siliconUuid = some uuid

/-- Every event is of a stored hook, and the events of a key are numbered from
one up to what its counter says. -/
structure Numbered (w : Streams) : Prop where
  identities : StoredIdentities w.database
  oneOwner : OneOwner w.database.db.hooks.rows
  stored : ∀ event ∈ w.accepted, w.database.db.HasHook event.hookId event.key
  counter : ∀ key, w.database.db.lastSequence key = (w.keyed key).length
  dense : ∀ key, (w.keyed key).map NumberedEvent.sequence =
    (List.range (w.keyed key).length).map fun n : Nat => (n : Int) + 1

def OneKey (w : Streams) : Prop :=
  ∀ silicon, ∀ first ∈ w.stream silicon, ∀ second ∈ w.stream silicon, first.key = second.key

variable {w : Streams} {silicon : AccountUuid} {first second : NumberedEvent}

theorem mem_stream : first ∈ w.stream silicon ↔
    first ∈ w.accepted ∧ w.owner first.hookId = some silicon := by
  simp [stream]

theorem mem_keyed {key : SiliconId} : first ∈ w.keyed key ↔ first ∈ w.accepted ∧ first.key = key := by
  simp [keyed]

namespace Numbered

theorem owner_eq (h : w.Numbered) (hfirst : first ∈ w.accepted) (hsecond : second ∈ w.accepted)
    (hkey : first.key = second.key) : w.owner first.hookId = w.owner second.hookId := by
  obtain ⟨row, hrow, hid⟩ := h.stored first hfirst
  obtain ⟨row', hrow', hid'⟩ := h.stored second hsecond
  rw [owner, owner, hrow, hrow']
  exact h.oneOwner.same row (Table.find_some.mp hrow).1 row' (Table.find_some.mp hrow').1
    (hid.trans (hkey.trans hid'.symm))

theorem keyed_stream (h : w.Numbered) (hfirst : first ∈ w.stream silicon) :
    ∀ event ∈ w.keyed first.key, event ∈ w.stream silicon := by
  intro event hm
  obtain ⟨haccepted, hkey⟩ := mem_keyed.mp hm
  obtain ⟨hfirst, howner⟩ := mem_stream.mp hfirst
  exact mem_stream.mpr ⟨haccepted, (h.owner_eq haccepted hfirst hkey).trans howner⟩

/-- A key under which events were numbered has numbered one with position one. -/
theorem exists_first (h : w.Numbered) (hfirst : first ∈ w.accepted) :
    ∃ event ∈ w.keyed first.key, event.sequence = 1 := by
  have hm : first ∈ w.keyed first.key := mem_keyed.mpr ⟨hfirst, rfl⟩
  have hone : (1 : Int) ∈ (w.keyed first.key).map NumberedEvent.sequence := by
    rw [h.dense]
    exact List.mem_map.mpr ⟨0, List.mem_range.mpr (List.length_pos_of_mem hm), rfl⟩
  obtain ⟨event, hevent, hsequence⟩ := List.mem_map.mp hone
  exact ⟨event, hevent, hsequence⟩

theorem stream_eq_keyed (h : w.Numbered) (hone : w.OneKey) (hfirst : first ∈ w.stream silicon) :
    w.stream silicon = w.keyed first.key := by
  refine List.filter_congr fun event hm => ?_
  rw [Bool.eq_iff_iff, decide_eq_true_iff, decide_eq_true_iff]
  constructor
  · intro howner
    exact hone silicon event (mem_stream.mpr ⟨hm, howner⟩) first hfirst
  · intro hkey
    exact (mem_stream.mp (h.keyed_stream hfirst event (mem_keyed.mpr ⟨hm, hkey⟩))).2

/-- The streams are in order exactly when no Silicon has events of two keys. -/
theorem inOrder_iff (h : w.Numbered) : (∀ silicon, w.InOrder silicon) ↔ w.OneKey := by
  constructor
  · intro hall silicon first hfirst second hsecond
    by_contra hne
    obtain ⟨one, hone, hsequence⟩ := h.exists_first (mem_stream.mp hfirst).1
    obtain ⟨other, hother, hsame⟩ := h.exists_first (mem_stream.mp hsecond).1
    have hdistinct : one ≠ other := by
      rintro rfl
      exact hne ((mem_keyed.mp hone).2.symm.trans (mem_keyed.mp hother).2)
    have hunequal : (w.stream silicon).Pairwise fun earlier later =>
        earlier.sequence ≠ later.sequence := (hall silicon).rising.imp fun hlt => hlt.ne
    have hsymm : Std.Symm fun earlier later : NumberedEvent =>
        earlier.sequence ≠ later.sequence := ⟨fun _ _ hab => hab.symm⟩
    exact hunequal.forall (h.keyed_stream hfirst one hone) (h.keyed_stream hsecond other hother) hdistinct
      (hsequence.trans hsame.symm)
  · intro hone silicon
    cases hstream : w.stream silicon with
    | nil => exact ⟨by simp [hstream], by simp [hstream]⟩
    | cons event rest =>
      have hm : event ∈ w.stream silicon := hstream ▸ List.mem_cons_self
      have hkeyed := h.stream_eq_keyed hone hm
      have hdense := h.dense event.key
      rw [← hkeyed] at hdense
      constructor
      · intro head hhead
        rw [hstream, List.head?_cons, Option.mem_some_iff] at hhead
        subst hhead
        rw [hstream, List.length_cons, List.range_succ_eq_map, List.map_cons, List.map_cons] at hdense
        exact (List.cons.inj hdense).1
      · have hrising : ((w.stream silicon).map NumberedEvent.sequence).Pairwise (· < ·) := by
          rw [hdense]
          exact List.pairwise_lt_range.map _ fun n m hlt => by omega
        exact List.pairwise_map.mp hrising

theorem of_counters (h : w.Numbered) {database : Database} (hidentities : StoredIdentities database)
    (howner : OneOwner database.db.hooks.rows)
    (hstored : ∀ hookId key, w.database.db.HasHook hookId key → database.db.HasHook hookId key)
    (hcounters : database.db.deliverySequences = w.database.db.deliverySequences) :
    Numbered { w with database := database } := by
  refine ⟨hidentities, howner, fun event hm => hstored _ _ (h.stored event hm), fun key => ?_,
    h.dense⟩
  show database.db.lastSequence key = _
  rw [Store.lastSequence, hcounters]
  exact h.counter key

end Numbered

end Streams

-- -----------------------------------------------------------------------------
-- What the transactions do to hooks and counters
-- -----------------------------------------------------------------------------

section Transactions

variable {db db' : Store} {key : SiliconId}

theorem createHookRow_counters {command : CreateHook}
    (h : createHookRow command db = .ok (outcome, db')) :
    db'.deliverySequences = db.deliverySequences ∧ (db'.hooks = db.hooks ∨
      db.hooks.insert (command.hook.row command.isAccountsDefault) = some db'.hooks) := by
  obtain ⟨-, _, -, ⟨_, _, _, -, -, -, -, -, rfl⟩ | ⟨_, _, _, -, -, hins, -, -, rfl⟩⟩ :=
    createHookRow_ok h
  · exact ⟨rfl, .inl rfl⟩
  · exact ⟨rfl, .inr hins⟩

theorem nextSequence_fst : (nextSequence key db).1 = db.lastSequence key + 1 := by
  have hkey : Keyed.key (SequenceRow.mk key 1) = key := rfl
  rw [nextSequence, Store.lastSequence, Table.upserted, hkey]
  cases db.deliverySequences.find key with
  | none => rfl
  | some row => rfl

theorem lastSequence_next (other : SiliconId) : (nextSequence key db).2.lastSequence other =
    db.lastSequence other + if other = key then 1 else 0 := by
  unfold nextSequence Store.lastSequence
  dsimp only
  rw [Table.find_upsert]
  show (Option.map SequenceRow.lastSequence (if other = key then _ else _)).getD 0 = _
  by_cases hkey : other = key
  · rw [if_pos hkey, if_pos hkey]
    cases db.deliverySequences.find other with
    | none => rfl
    | some row => rfl
  · rw [if_neg hkey, if_neg hkey, Int.add_zero]

theorem acceptEvent_numbered {codec : DeliveryCodec} {deliverySummary : SummaryRenderer}
    {command : AcceptEvent} {event : EventRecord} {sendIds : Uuid → Uuid}
    (h : codec.acceptEvent deliverySummary command sendId sendIds now db = .ok (event, db')) :
    event.hookId = command.hook.id ∧
      event.deliverySequence.value = db.lastSequence command.hook.siliconId + 1 ∧
      (∀ other, db'.lastSequence other =
        db.lastSequence other + if other = command.hook.siliconId then 1 else 0) ∧
      ∃ row, db.hooks.find command.hook.id = some row := by
  obtain ⟨mid, happended, hqueued⟩ := acceptEvent_ok h
  obtain ⟨_, _, hfind, -, -, rfl⟩ := happended.stored
  have hcounters : db'.deliverySequences =
      (nextSequence command.hook.siliconId db).2.deliverySequences := by
    split at hqueued
    · obtain ⟨_, rfl⟩ := queueSends_frame hqueued
      rfl
    · rw [hqueued]
  refine ⟨congrArg EventRecord.hookId happended.record, happended.sequence.trans nextSequence_fst,
    fun other => ?_, ?_⟩
  · rw [Store.lastSequence, hcounters]
    exact lastSequence_next other
  · obtain ⟨row, hrow, -⟩ := Option.map_eq_some_iff.mp hfind
    exact ⟨row, hrow⟩

theorem LinkedBy.find_hook {mapping : IdentityMapping} {before after : Database}
    (h : LinkedBy mapping before after) (hookId : HookId) :
    after.db.hooks.find hookId = (before.db.hooks.find hookId).map mapping.linkedHook := by
  rw [Table.find, Table.find, h.hooks, List.find?_map]
  rfl

theorem rowFor_accountUuid (mapping : IdentityMapping) (uuid : AccountUuid) :
    mapping.rowFor (SiliconId.fromAccountUuid uuid).value = none := by
  have hcolon : Text.isAsciiAlphanumeric ':' = false ∧ isLowerHex ':' = false := by decide
  have hsplit : PublicId.split uuid.value.toList = none := by
    have hv := uuid.valid
    unfold PublicId.split
    split
    · rename_i rest hchars
      simp [AccountUuid.looksLike, isCanonicalUuid, hchars, hcolon] at hv
    · rename_i rest hchars
      simp [AccountUuid.looksLike, isCanonicalUuid, hchars, hcolon] at hv
    · rfl
  refine List.find?_eq_none.mpr fun row _ hid => ?_
  have hvalue : row.iamPublicId.value = uuid.value := of_decide_eq_true hid
  have hvalid := row.iamPublicId.valid
  rw [PublicId.check, hvalue, hsplit] at hvalid
  cases hvalid

end Transactions

namespace Streams

variable {w : Streams}

-- -----------------------------------------------------------------------------
-- Owners
-- -----------------------------------------------------------------------------

namespace OneOwner

theorem insert {hooks hooks' : Table HookRow} {row : HookRow} {owner : AccountUuid}
    (h : OneOwner hooks.rows) (hins : hooks.insert row = some hooks')
    (hid : row.siliconId = .fromAccountUuid owner) (huuid : row.siliconUuid = some owner) :
    OneOwner hooks'.rows := by
  have hown : ∀ other ∈ hooks.rows, other.siliconId = row.siliconId →
      other.siliconUuid = row.siliconUuid := by
    intro other hm hsame
    rw [huuid]
    exact h.own other hm owner (hsame.trans hid)
  constructor
  · intro first hfirst second hsecond hsame
    obtain hfirst | rfl := (Table.mem_insert hins).mp hfirst
    · obtain hsecond | rfl := (Table.mem_insert hins).mp hsecond
      · exact h.same first hfirst second hsecond hsame
      · exact hown first hfirst hsame
    · obtain hsecond | rfl := (Table.mem_insert hins).mp hsecond
      · exact (hown second hsecond hsame.symm).symm
      · rfl
  · intro other hm uuid hother
    obtain hm | rfl := (Table.mem_insert hins).mp hm
    · exact h.own other hm uuid hother
    · rw [huuid, SiliconId.fromAccountUuid_injective (hid.symm.trans hother)]

theorem update {hooks : Table HookRow} {p : HookRow → Bool} {f : HookRow → HookRow}
    (h : OneOwner hooks.rows) (hf : ∀ row, Keyed.key (f row) = Keyed.key row)
    (hid : ∀ row, (f row).siliconId = row.siliconId)
    (huuid : ∀ row, (f row).siliconUuid = row.siliconUuid) :
    OneOwner (hooks.update p f hf).rows := by
  have hsame : ∀ row ∈ (hooks.update p f hf).rows, ∃ old ∈ hooks.rows,
      row.siliconId = old.siliconId ∧ row.siliconUuid = old.siliconUuid := by
    intro row hm
    obtain ⟨old, hold, rfl⟩ := List.mem_map.mp hm
    refine ⟨old, hold, ?_⟩
    split
    · exact ⟨hid old, huuid old⟩
    · exact ⟨rfl, rfl⟩
  constructor
  · intro first hfirst second hsecond hids
    obtain ⟨a, ha, hida, huuida⟩ := hsame first hfirst
    obtain ⟨b, hb, hidb, huuidb⟩ := hsame second hsecond
    rw [huuida, huuidb]
    exact h.same a ha b hb (hida.symm.trans (hids.trans hidb))
  · intro row hm uuid hrow
    obtain ⟨old, hold, hidold, huuidold⟩ := hsame row hm
    rw [huuidold]
    exact h.own old hold uuid (hidold.symm.trans hrow)

theorem link {before after : Database} {mapping : IdentityMapping}
    (h : OneOwner before.db.hooks.rows) (hl : LinkedBy mapping before after) :
    OneOwner after.db.hooks.rows := by
  rw [hl.hooks]
  constructor
  · intro first hfirst second hsecond hsame
    obtain ⟨a, ha, rfl⟩ := List.mem_map.mp hfirst
    obtain ⟨b, hb, rfl⟩ := List.mem_map.mp hsecond
    have hids : a.siliconId = b.siliconId := hsame
    show mapping.uuidFor a.siliconId.value a.siliconUuid =
      mapping.uuidFor b.siliconId.value b.siliconUuid
    rw [hids, h.same a ha b hb hids]
  · intro row hm uuid hrow
    obtain ⟨old, hold, rfl⟩ := List.mem_map.mp hm
    have hid : old.siliconId = .fromAccountUuid uuid := hrow
    show mapping.uuidFor old.siliconId.value old.siliconUuid = _
    rw [IdentityMapping.uuidFor, hid, rowFor_accountUuid]
    exact h.own old hold uuid hid

end OneOwner

-- -----------------------------------------------------------------------------
-- One step
-- -----------------------------------------------------------------------------

theorem OneKey.of_owner {w' : Streams} (h : w.OneKey) (haccepted : w'.accepted = w.accepted)
    (howner : ∀ event ∈ w.accepted, w'.owner event.hookId = w.owner event.hookId) : w'.OneKey := by
  have hsame : ∀ silicon, w'.stream silicon = w.stream silicon := by
    intro silicon
    rw [stream, haccepted]
    refine List.filter_congr fun event hm => ?_
    rw [howner event hm]
  intro silicon
  rw [hsame]
  exact h silicon

theorem created_step (h : w.Numbered) (command : CreateHook) (owner : AccountUuid)
    (owned : command.Owned owner) :
    (w.step (.created command owner owned)).Numbered ∧
      (w.OneKey → (w.step (.created command owner owned)).OneKey) := by
  have hidentities : StoredIdentities (commit w.database (w.database.createHook command)) :=
    h.identities.step (.created command owner owned)
  have hstep : w.step (.created command owner owned) =
      { w with database := commit w.database (w.database.createHook command) } := rfl
  rw [hstep]
  cases hcreate : w.database.createHook command with
  | error e => exact ⟨h, id⟩
  | ok answer =>
    obtain ⟨outcome, after⟩ := answer
    rw [hcreate] at hidentities
    obtain ⟨hcounters, hhooks⟩ := createHookRow_counters (Database.audited_ok hcreate)
    have hfind : ∀ hookId row, w.database.db.hooks.find hookId = some row →
        after.db.hooks.find hookId = some row := by
      intro hookId row hrow
      obtain hsame | hins := hhooks
      · rw [hsame]
        exact hrow
      · rw [Table.find_insert hins, if_neg]
        · exact hrow
        · rintro rfl
          rw [Table.insert_fresh hins] at hrow
          cases hrow
    have howner : OneOwner after.db.hooks.rows := by
      obtain hsame | hins := hhooks
      · rw [hsame]
        exact h.oneOwner
      · exact h.oneOwner.insert hins owned.siliconId owned.siliconUuid
    refine ⟨h.of_counters hidentities howner ?_ hcounters, fun hone => hone.of_owner rfl ?_⟩
    · rintro hookId key ⟨row, hrow, hid⟩
      exact ⟨row, hfind hookId row hrow, hid⟩
    · intro event hm
      obtain ⟨row, hrow, -⟩ := h.stored event hm
      show (after.db.hooks.find event.hookId).bind _ = (w.database.db.hooks.find event.hookId).bind _
      rw [hfind event.hookId row hrow, hrow]

theorem linked_step (h : w.Numbered) (mapping : IdentityMapping)
    (distinct : IdentityMapping.Distinct mapping.rows) (dryRun : Bool) (clock : Instant) :
    (w.step (.linked mapping distinct dryRun clock)).Numbered ∧
      (w.OneKey → ((w.step (.linked mapping distinct dryRun clock)).OneKey ↔
        w.Meets (.linked mapping distinct dryRun clock))) := by
  have hidentities : StoredIdentities (linkIdentities mapping dryRun clock w.database).2 :=
    h.identities.step (.linked mapping distinct dryRun clock)
  have hstep : w.step (.linked mapping distinct dryRun clock) =
      { w with database := (linkIdentities mapping dryRun clock w.database).2 } := rfl
  rw [hstep]
  unfold linkIdentities at hidentities ⊢
  cases happly : applyMapping mapping clock w.database with
  | error e =>
    refine ⟨h, fun hone => iff_of_true hone ?_⟩
    cases dryRun with
    | true => trivial
    | false =>
      intro made hmade
      rw [happly] at hmade
      cases hmade
  | ok made =>
    obtain ⟨rekeyed, after⟩ := made
    rw [happly] at hidentities
    cases dryRun with
    | true => exact ⟨h, fun hone => iff_of_true hone trivial⟩
    | false =>
      have hlinked := linkedBy_applyMapping h.identities distinct happly
      have hcounters : after.db.deliverySequences = w.database.db.deliverySequences := by
        rw [hlinked.elsewhere]
      have hnumbered : Numbered { w with database := after } := by
        refine h.of_counters hidentities (h.oneOwner.link hlinked) ?_ hcounters
        rintro hookId key ⟨row, hrow, hid⟩
        exact ⟨mapping.linkedHook row, by rw [hlinked.find_hook, hrow, Option.map_some], hid⟩
      have howner : ∀ hookId, Streams.owner { w with database := after } hookId =
          w.linkedOwner mapping hookId := by
        intro hookId
        show (after.db.hooks.find hookId).bind _ = _
        rw [hlinked.find_hook, Option.bind_map]
        rfl
      refine ⟨hnumbered, fun _ => ⟨?_, ?_⟩⟩
      · intro hone _ _ silicon first hfirst second hsecond hof hos
        refine hone silicon first ?_ second ?_
        · exact mem_stream.mpr ⟨hfirst, (howner first.hookId).trans hof⟩
        · exact mem_stream.mpr ⟨hsecond, (howner second.hookId).trans hos⟩
      · intro hmeets silicon first hfirst second hsecond
        obtain ⟨hfirst, hof⟩ := mem_stream.mp hfirst
        obtain ⟨hsecond, hos⟩ := mem_stream.mp hsecond
        exact hmeets _ happly silicon first hfirst second hsecond
          ((howner first.hookId).symm.trans hof) ((howner second.hookId).symm.trans hos)

def append (w : Streams) (db : Store) (event : NumberedEvent) : Streams where
  database := { w.database with db := db }
  accepted := w.accepted ++ [event]

theorem Numbered.append (h : w.Numbered) {db : Store} {event : NumberedEvent}
    (hidentities : StoredIdentities { w.database with db := db })
    (howner : OneOwner db.hooks.rows)
    (hstored : ∀ hookId key, w.database.db.HasHook hookId key → db.HasHook hookId key)
    (hhook : db.HasHook event.hookId event.key)
    (hsequence : event.sequence = w.database.db.lastSequence event.key + 1)
    (hcounters : ∀ other, db.lastSequence other =
      w.database.db.lastSequence other + if other = event.key then 1 else 0) :
    (w.append db event).Numbered := by
  have hkeyed : ∀ key, (w.append db event).keyed key =
      w.keyed key ++ if key = event.key then [event] else [] := by
    intro key
    rw [keyed, Streams.append, List.filter_append, List.filter_singleton]
    simp [keyed, eq_comm]
  refine ⟨hidentities, howner, ?_, fun key => ?_, fun key => ?_⟩
  · intro other hm
    obtain hm | hm := List.mem_append.mp hm
    · exact hstored _ _ (h.stored other hm)
    · obtain rfl := List.mem_singleton.mp hm
      exact hhook
  · show db.lastSequence key = _
    rw [hcounters, h.counter, hkeyed]
    split <;> simp
  · rw [hkeyed]
    split
    · rename_i hkey
      subst hkey
      rw [List.map_append, List.length_append, h.dense, List.length_singleton, List.range_succ,
        List.map_append, List.map_singleton, List.map_singleton, hsequence, h.counter]
    · rw [List.append_nil]
      exact h.dense key

theorem append_oneKey (hone : w.OneKey) {db : Store} {event : NumberedEvent}
    (howner : ∀ hookId, (w.append db event).owner hookId = w.owner hookId) :
    (w.append db event).OneKey ↔ ∀ silicon, w.owner event.hookId = some silicon →
      ∀ other ∈ w.stream silicon, other.key = event.key := by
  have hmem : ∀ silicon other, other ∈ (w.append db event).stream silicon ↔
      other ∈ w.stream silicon ∨ other = event ∧ w.owner event.hookId = some silicon := by
    intro silicon other
    rw [mem_stream, mem_stream, howner]
    show other ∈ w.accepted ++ [event] ∧ _ ↔ _
    rw [List.mem_append, List.mem_singleton]
    constructor
    · rintro ⟨hm | rfl, ho⟩
      · exact .inl ⟨hm, ho⟩
      · exact .inr ⟨rfl, ho⟩
    · rintro (⟨hm, ho⟩ | ⟨rfl, ho⟩)
      · exact ⟨.inl hm, ho⟩
      · exact ⟨.inr rfl, ho⟩
  constructor
  · intro h silicon ho other hother
    exact h silicon other ((hmem silicon other).mpr (.inl hother)) event
      ((hmem silicon event).mpr (.inr ⟨rfl, ho⟩))
  · intro h silicon first hfirst second hsecond
    rcases (hmem silicon first).mp hfirst with hold | ⟨rfl, ho⟩
    · rcases (hmem silicon second).mp hsecond with hold' | ⟨rfl, ho⟩
      · exact hone silicon first hold second hold'
      · exact h silicon ho first hold
    · rcases (hmem silicon second).mp hsecond with hold' | ⟨rfl, -⟩
      · exact (h silicon ho second hold').symm
      · rfl

section Accepted

variable (codec : DeliveryCodec) (deliverySummary : SummaryRenderer) (command : AcceptEvent)
  (sendId : Uuid) (sendIds : Uuid → Uuid) (now : Instant)

theorem step_accepted : w.step (.accepted codec deliverySummary command sendId sendIds now) =
    if command.readFrom w.database.db then
      match codec.acceptEvent deliverySummary command sendId sendIds now w.database.db with
      | .error _ => w
      | .ok (event, db) =>
        w.append db ⟨event.hookId, command.hook.siliconId, event.deliverySequence.value⟩
    else w := by
  rw [Streams.step]
  cases command.readFrom w.database.db <;> rfl

theorem accepted_step (h : w.Numbered) :
    (w.step (.accepted codec deliverySummary command sendId sendIds now)).Numbered ∧
      (w.OneKey → ((w.step (.accepted codec deliverySummary command sendId sendIds now)).OneKey ↔
        w.Meets (.accepted codec deliverySummary command sendId sendIds now))) := by
  have hidentities : StoredIdentities { w.database with
      db := commit w.database.db
        (codec.acceptEvent deliverySummary command sendId sendIds now w.database.db) } :=
    h.identities.step (.accepted codec deliverySummary command sendId sendIds now)
  rw [step_accepted]
  by_cases hread : command.readFrom w.database.db = true
  swap
  · rw [if_neg hread]
    exact ⟨h, fun hone => iff_of_true hone fun htrue => absurd htrue hread⟩
  rw [if_pos hread]
  cases haccept : codec.acceptEvent deliverySummary command sendId sendIds now w.database.db with
  | error e =>
    refine ⟨h, fun hone => iff_of_true hone fun _ made hmade => ?_⟩
    rw [haccept] at hmade
    cases hmade
  | ok made =>
    obtain ⟨event, db⟩ := made
    rw [haccept] at hidentities
    obtain ⟨hid, hsequence, hcounters, row, hrow⟩ := acceptEvent_numbered haccept
    have hreceived : ∀ row : HookRow,
        Keyed.key (row.received command.request.receivedAt) = Keyed.key row := fun _ => rfl
    have hkept : ∀ row : HookRow,
        (row.received command.request.receivedAt).siliconId = row.siliconId := fun _ => rfl
    have huuid : ∀ row : HookRow,
        (row.received command.request.receivedAt).siliconUuid = row.siliconUuid := fun _ => rfl
    have hhooks : db.hooks = w.database.db.hooks.update (activeHook command.hook.id)
        (HookRow.received command.request.receivedAt) hreceived := acceptEvent_hooks haccept
    have hkey : row.siliconId = command.hook.siliconId := by
      rw [AcceptEvent.readFrom, hrow] at hread
      exact of_decide_eq_true hread
    have hstored : ∀ hookId key, w.database.db.HasHook hookId key → db.HasHook hookId key := by
      intro hookId key hhook
      exact StoredKeys.hasHook_update hreceived hkept hhooks hhook
    have howner : ∀ hookId, (w.append db ⟨event.hookId, command.hook.siliconId,
        event.deliverySequence.value⟩).owner hookId = w.owner hookId := by
      intro hookId
      show (db.hooks.find hookId).bind HookRow.siliconUuid = _
      rw [hhooks, Table.find_update, owner]
      cases w.database.db.hooks.find hookId with
      | none => rfl
      | some found =>
        rw [Option.map_some, Option.bind_some, Option.bind_some]
        split <;> rfl
    refine ⟨h.append hidentities ?_ hstored ?_ hsequence hcounters, fun hone => ?_⟩
    · rw [hhooks]
      exact h.oneOwner.update hreceived hkept huuid
    · exact hstored _ _ ⟨row, hid ▸ hrow, hkey⟩
    · refine (append_oneKey hone howner).trans ?_
      rw [hid]
      exact ⟨fun hall _ _ _ => hall, fun hall => hall hread _ haccept⟩

end Accepted

theorem Numbered.step (h : w.Numbered) (label : StreamLabel) : (w.step label).Numbered := by
  cases label with
  | created command owner owned => exact (created_step h command owner owned).1
  | accepted codec deliverySummary command sendId sendIds now =>
    exact (accepted_step codec deliverySummary command sendId sendIds now h).1
  | linked mapping distinct dryRun clock => exact (linked_step h mapping distinct dryRun clock).1

theorem step_oneKey (h : w.Numbered) (hone : w.OneKey) (label : StreamLabel) :
    (w.step label).OneKey ↔ w.Meets label := by
  cases label with
  | created command owner owned =>
    exact iff_of_true ((created_step h command owner owned).2 hone) trivial
  | accepted codec deliverySummary command sendId sendIds now =>
    exact (accepted_step codec deliverySummary command sendId sendIds now h).2 hone
  | linked mapping distinct dryRun clock =>
    exact (linked_step h mapping distinct dryRun clock).2 hone

/-- Every Silicon's positions start at one and only grow, throughout a run,
exactly when no step joins events of two keys in one stream. -/
theorem inOrder_along (initial : Streams) (h : initial.Numbered)
    (hordered : ∀ silicon, initial.InOrder silicon) (labels : List StreamLabel) :
    Always Streams.step (fun w => ∀ silicon, w.InOrder silicon) initial labels ↔
      Along Streams.step Meets initial labels := by
  refine always_iff_along (fun _ label h _ => h.step label) (fun w label h _ hordered => ?_) h
    hordered along_true
  rw [(h.step label).inOrder_iff]
  exact step_oneKey h (h.inOrder_iff.mp hordered) label

end Streams

-- -----------------------------------------------------------------------------
-- A Silicon with hooks under two keys
-- -----------------------------------------------------------------------------

namespace TwoKeys

def silicon : AccountUuid := ⟨"SiTwoKeys", by decide⟩

def newHook : HookRow := { LegacyHook.row with
  id := ⟨2⟩
  siliconId := .fromAccountUuid silicon
  siliconUuid := some silicon
  endpointKey := ⟨"AAAAAAB1", by decide⟩
  createdBy := .account .silicon silicon }

def request : CapturedRequest := ⟨"POST", "/", [], [], "192.0.2.1", 0⟩

def codec : DeliveryCodec := ⟨id, fun _ => .ok "1970-01-01T00:00:00Z", fun _ => none⟩

def accepted (eventId : Uuid) (hook : Hook) : StreamLabel :=
  .accepted codec (fun name _ _ => name.value) ⟨none, ⟨eventId⟩, hook, request⟩ 0 id 0

def legacyEvent : StreamLabel :=
  accepted 1 ⟨LegacyHook.row.snapshot, by decide, by decide, by decide, by decide⟩

def newEvent : StreamLabel :=
  accepted 2 ⟨newHook.snapshot, by decide, by decide, by decide, by decide⟩

def mapping : IdentityMapping := { LegacyHook.mapping with
  rows := LegacyHook.mapping.rows.map fun row => { row with accountsUuid := some silicon } }

theorem mapping_distinct : IdentityMapping.Distinct mapping.rows :=
  ⟨List.nodup_singleton _, List.nodup_singleton _⟩

def link : StreamLabel := .linked mapping mapping_distinct false 0

def initial : Streams where
  database := ⟨{ Store.empty with hooks := ⟨[LegacyHook.row, newHook], by decide⟩ }, []⟩
  accepted := []

theorem initial_numbered : initial.Numbered := by
  have hrows : ∀ row ∈ initial.database.db.hooks.rows, row = LegacyHook.row ∨ row = newHook := by
    intro row hm
    simpa [initial] using hm
  have hids : LegacyHook.row.siliconId ≠ newHook.siliconId := by decide +kernel
  refine ⟨⟨⟨?_, ?_, ?_, ?_, ?_, ?_⟩, ?_⟩, ⟨?_, ?_⟩, ?_, fun _ => rfl, fun _ => rfl⟩
  · intro row hm
    rcases hrows row hm with rfl | rfl
    · decide +kernel
    · exact fromAccountUuid_namesCarbon silicon
  iterate 6 exact List.forall_mem_nil _
  · intro first hfirst second hsecond hsame
    rcases hrows first hfirst with rfl | rfl
    · rcases hrows second hsecond with rfl | rfl
      · rfl
      · exact absurd hsame hids
    · rcases hrows second hsecond with rfl | rfl
      · exact absurd hsame.symm hids
      · rfl
  · intro row hm uuid hid
    rcases hrows row hm with rfl | rfl
    · have hvalue : "si:cos" = uuid.value := congrArg SiliconId.value hid
      have hvalid := uuid.valid
      rw [← hvalue] at hvalid
      exact absurd hvalid (by decide)
    · exact congrArg some (SiliconId.fromAccountUuid_injective hid)
  · exact List.forall_mem_nil _

theorem initial_inOrder (owner : AccountUuid) : initial.InOrder owner := by
  constructor
  · exact fun _ hm => absurd hm (Option.not_mem_none _)
  · exact .nil

/-- The events of either hook are numbered alone, and both are the first. -/
theorem linked_sequences :
    ((run Streams.step initial [legacyEvent, newEvent, link]).stream silicon).map
      NumberedEvent.sequence = [1, 1] := by
  decide +kernel

/-- With events of one key only, the stream stays in order when it is linked. -/
theorem legacy_inOrder : Always Streams.step (fun w => ∀ silicon, w.InOrder silicon) initial
    [legacyEvent, link] := by
  have hone : (initial.step legacyEvent).accepted =
      [⟨⟨1⟩, LegacyHook.row.siliconId, 1⟩] := by decide +kernel
  refine (Streams.inOrder_along initial initial_numbered initial_inOrder _).mpr ⟨?_, ?_, trivial⟩
  · exact fun _ _ _ _ _ => List.forall_mem_nil _
  · intro _ _ _ first hfirst second hsecond _ _
    rw [hone, List.mem_singleton] at hfirst hsecond
    rw [hfirst, hsecond]

end TwoKeys

/-- Linking a Silicon's former hooks repeats positions of its stream. -/
theorem sequences_repeat : ¬ ∀ initial : Streams, initial.Numbered →
    (∀ silicon, initial.InOrder silicon) → ∀ labels : List StreamLabel,
      Always Streams.step (fun w => ∀ silicon, w.InOrder silicon) initial labels := by
  intro h
  have hrun := (h TwoKeys.initial TwoKeys.initial_numbered TwoKeys.initial_inOrder
    [TwoKeys.legacyEvent, TwoKeys.newEvent, TwoKeys.link]).run TwoKeys.silicon
  have hrising := List.pairwise_map.mpr hrun.rising
  rw [TwoKeys.linked_sequences] at hrising
  exact absurd hrising (by decide)

end SiliconHook
