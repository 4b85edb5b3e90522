import SiliconHook.Library.Column
import SiliconHook.Store.Audit
import SiliconHook.Store.MappingFile

/-!
# Linking IAM-era identities

One transaction records the links of a mapping file and fills the uuid columns
of the rows that hold a mapped id; the id columns never change. A refused run
and a dry run roll back.
-/

namespace SiliconHook

inductive LinkError
  | conflicts (conflicts : List String)
  | database (constraint : String)
  deriving DecidableEq, Repr

/-- Rows whose uuid columns one run filled or changed. -/
structure RekeyedRows where
  hooks : Nat
  hookCreators : Nat
  events : Nat
  blockedRequests : Nat
  retiredEndpointKeys : Nat
  auditSilicons : Nat
  auditActors : Nat
  deriving DecidableEq, Repr

structure LinkReport where
  dryRun : Bool
  mappingSha256 : String
  rowsInFile : Nat
  linked : Nat
  unlinked : Nat
  rekeyed : RekeyedRows
  notInHookData : List String
  unmatchedInHookData : List String
  hooksWithoutOwner : Nat
  deriving DecidableEq, Repr

def IdentityMapping.ids (mapping : IdentityMapping) : List String :=
  mapping.rows.map fun row => row.iamPublicId.value

-- -----------------------------------------------------------------------------
-- Refusals
-- -----------------------------------------------------------------------------

def sortTexts (texts : List String) : List String := texts.insertionSort fun a b => a ≤ b

/-- Accounts known to be of the other kind than the ids the file gives them to. -/
def kindMismatches (mapping : IdentityMapping) (db : Store) : List String :=
  mapping.rows.filterMap fun row => do
    let uuid ← row.accountsUuid
    let account ← db.accounts.find uuid
    let kind ← account.kind
    if kind = row.iamPublicId.kind then none
    else some (row.iamPublicId.value ++ " cannot be linked to " ++ uuid.value ++
      ": that account is a " ++ kind.asStr)

/-- The links of other ids to uuids the file gives away. -/
def conflictingLinks (mapping : IdentityMapping) (db : Store) : List (AccountUuid × String) :=
  ((db.identityLinks.rows.filterMap fun link => do
    let uuid ← link.accountsUuid
    if (mapping.rows.filterMap MappingRow.accountsUuid).contains uuid &&
        !mapping.ids.contains link.iamPublicId.value then some (uuid, link.iamPublicId.value)
    else none).insertionSort fun a b => a.1.value ≤ b.1.value)

def conflictText (conflict : AccountUuid × String) : String :=
  conflict.1.value ++ " is linked to " ++ conflict.2 ++ " by an earlier run; add " ++ conflict.2 ++
    " to the file (with its correct uuid, or an empty uuid to unlink it)"

def rejectConflicts (mapping : IdentityMapping) (db : Store) : Except LinkError Unit :=
  if kindMismatches mapping db ≠ [] then .error (.conflicts (kindMismatches mapping db))
  else if conflictingLinks mapping db ≠ [] then
    .error (.conflicts ((conflictingLinks mapping db).map conflictText))
  else .ok ()

-- -----------------------------------------------------------------------------
-- Links
-- -----------------------------------------------------------------------------

def IdentityLinkRow.unlinked (link : IdentityLinkRow) : IdentityLinkRow :=
  { link with accountsUuid := none, linkedAt := none }

theorem IdentityLinkRow.unlinked_key (link : IdentityLinkRow) :
    Keyed.key link.unlinked = Keyed.key link := rfl

def MappingRow.link (row : MappingRow) (source : String) (clock : Instant) : IdentityLinkRow where
  iamPublicId := row.iamPublicId
  kind := row.iamPublicId.kind
  iamPrincipalId := row.iamPrincipalId
  accountsUuid := row.accountsUuid
  linkedAt := row.accountsUuid.map fun _ => clock
  source := source
  inHookData := false

/-- What a conflicting insertion writes over the row that is there. -/
def IdentityLinkRow.relink (new old : IdentityLinkRow) : IdentityLinkRow :=
  { old with
    iamPrincipalId := new.iamPrincipalId <|> old.iamPrincipalId
    accountsUuid := new.accountsUuid
    linkedAt := new.linkedAt
    source := new.source }

theorem IdentityLinkRow.relink_key (new old : IdentityLinkRow) :
    Keyed.key (new.relink old) = Keyed.key old := rfl

/-- One uuid is linked to one id. -/
def insertLink (links : Table IdentityLinkRow) (new : IdentityLinkRow) :
    Except LinkError (Table IdentityLinkRow) :=
  if links.rows.any fun other => other.iamPublicId.value ≠ new.iamPublicId.value &&
      other.accountsUuid.isSome && other.accountsUuid = new.accountsUuid then
    .error (.database "identity_links_one_iam_id_per_account")
  else .ok (links.upsert new new.relink new.relink_key)

/-- Unlinks first, so a uuid can move from one id to another in one file. -/
def writeLinks (mapping : IdentityMapping) (clock : Instant) (links : Table IdentityLinkRow) :
    Except LinkError (Table IdentityLinkRow) :=
  let unlinked := links.update (fun link => mapping.ids.contains link.iamPublicId.value)
    IdentityLinkRow.unlinked IdentityLinkRow.unlinked_key
  (mapping.rows.map (·.link ("mapping:" ++ mapping.sha256) clock)).foldlM insertLink unlinked

-- -----------------------------------------------------------------------------
-- Uuid columns
-- -----------------------------------------------------------------------------

def HookRow.ownerColumn : Column HookRow (Option AccountUuid) where
  get := HookRow.siliconUuid
  set uuid row := { row with siliconUuid := uuid }
  get_set _ _ := rfl
  set_get _ := rfl

theorem HookRow.ownerColumn_key (uuid : Option AccountUuid) (row : HookRow) :
    Keyed.key (HookRow.ownerColumn.set uuid row) = Keyed.key row := rfl

def HookRow.creatorColumn : Column HookRow (Option AccountUuid) where
  get row := row.createdBy.uuid
  set uuid row := { row with createdBy := { row.createdBy with uuid := uuid } }
  get_set _ _ := rfl
  set_get _ := rfl

theorem HookRow.creatorColumn_key (uuid : Option AccountUuid) (row : HookRow) :
    Keyed.key (HookRow.creatorColumn.set uuid row) = Keyed.key row := rfl

def EventRow.ownerColumn : Column EventRow (Option AccountUuid) where
  get := EventRow.siliconUuid
  set uuid row := { row with siliconUuid := uuid }
  get_set _ _ := rfl
  set_get _ := rfl

theorem EventRow.ownerColumn_key (uuid : Option AccountUuid) (row : EventRow) :
    Keyed.key (EventRow.ownerColumn.set uuid row) = Keyed.key row := rfl

def BlockedRequestRow.ownerColumn : Column BlockedRequestRow (Option AccountUuid) where
  get := BlockedRequestRow.siliconUuid
  set uuid row := { row with siliconUuid := uuid }
  get_set _ _ := rfl
  set_get _ := rfl

theorem BlockedRequestRow.ownerColumn_key (uuid : Option AccountUuid) (row : BlockedRequestRow) :
    Keyed.key (BlockedRequestRow.ownerColumn.set uuid row) = Keyed.key row := rfl

def RetiredKeyRow.ownerColumn : Column RetiredKeyRow (Option AccountUuid) where
  get := RetiredKeyRow.siliconUuid
  set uuid row := { row with siliconUuid := uuid }
  get_set _ _ := rfl
  set_get _ := rfl

theorem RetiredKeyRow.ownerColumn_key (uuid : Option AccountUuid) (row : RetiredKeyRow) :
    Keyed.key (RetiredKeyRow.ownerColumn.set uuid row) = Keyed.key row := rfl

def AuditRow.ownerColumn : Column AuditRow (Option AccountUuid) where
  get := AuditRow.siliconUuid
  set uuid row := { row with siliconUuid := uuid }
  get_set _ _ := rfl
  set_get _ := rfl

def AuditRow.actorColumn : Column AuditRow (Option AccountUuid) where
  get row := row.actor.uuid
  set uuid row := { row with actor := { row.actor with uuid := uuid } }
  get_set _ _ := rfl
  set_get _ := rfl

-- -----------------------------------------------------------------------------
-- Rekeying
-- -----------------------------------------------------------------------------

def linkOf (links : Table IdentityLinkRow) (ids : List String) (id : String) :
    Option IdentityLinkRow :=
  (links.find id).filter fun link => ids.contains link.iamPublicId.value

def actorTarget (links : Table IdentityLinkRow) (ids : List String) (id : ActorId) :
    Option (Option AccountUuid) :=
  (linkOf links ids id.value).map IdentityLinkRow.accountsUuid

def ownerTarget (links : Table IdentityLinkRow) (ids : List String) (id : SiliconId) :
    Option (Option AccountUuid) :=
  ((linkOf links ids id.value).filter fun link => link.kind = .silicon).map
    IdentityLinkRow.accountsUuid

def recordTarget (hooks : Table HookRow) (ids : List String) (hookId : HookId) (id : SiliconId) :
    Option (Option AccountUuid) :=
  if ids.contains id.value then
    ((hooks.find hookId).filter fun hook => hook.siliconId = id).map HookRow.siliconUuid
  else none

/-- `hooks_one_accounts_default_per_silicon`. A default hook is stored under a
uuid, so no update of an owner column moves one. -/
def defaultsDistinct (hooks : Table HookRow) : Bool :=
  decide ((hooks.select HookRow.isAccountsDefault).filterMap HookRow.siliconUuid).Nodup

section Statements

variable (links : Table IdentityLinkRow) (ids : List String)

def rekeyOwners (hooks : Table HookRow) : Table HookRow :=
  hooks.assign HookRow.ownerColumn (fun row => ownerTarget links ids row.siliconId)
    HookRow.ownerColumn_key

def rekeyCreators (hooks : Table HookRow) : Table HookRow :=
  hooks.assign HookRow.creatorColumn (fun row => actorTarget links ids row.createdBy.id)
    HookRow.creatorColumn_key

def rekeyHooks (hooks : Table HookRow) : Table HookRow :=
  rekeyCreators links ids (rekeyOwners links ids hooks)

theorem find_rekeyHooks (hooks : Table HookRow) (k : HookId) :
    (rekeyHooks links ids hooks).find k = (hooks.find k).map fun row =>
      HookRow.creatorColumn.assign (fun row => actorTarget links ids row.createdBy.id)
        (HookRow.ownerColumn.assign (fun row => ownerTarget links ids row.siliconId) row) := by
  rw [rekeyHooks, rekeyCreators, Table.find_assign, rekeyOwners, Table.find_assign, Option.map_map]
  rfl

theorem rekeyHooks_rows (hooks : Table HookRow) :
    (rekeyHooks links ids hooks).rows = hooks.rows.map fun row =>
      HookRow.creatorColumn.assign (fun row => actorTarget links ids row.createdBy.id)
        (HookRow.ownerColumn.assign (fun row => ownerTarget links ids row.siliconId) row) := by
  rw [rekeyHooks, rekeyCreators, Table.assign_rows, rekeyOwners, Table.assign_rows, List.map_map]
  rfl

def rekeyEvents (hooks : Table HookRow) (events : Table EventRow) : Table EventRow :=
  events.assign EventRow.ownerColumn (fun row => recordTarget hooks ids row.hookId row.siliconId)
    EventRow.ownerColumn_key

def rekeyBlocked (hooks : Table HookRow) (blocked : Table BlockedRequestRow) :
    Table BlockedRequestRow :=
  blocked.assign BlockedRequestRow.ownerColumn
    (fun row => recordTarget hooks ids row.hookId row.siliconId) BlockedRequestRow.ownerColumn_key

def rekeyRetired (retired : Table RetiredKeyRow) : Table RetiredKeyRow :=
  retired.assign RetiredKeyRow.ownerColumn (fun row => ownerTarget links ids row.siliconId)
    RetiredKeyRow.ownerColumn_key

theorem rekeyEvents_rows (hooks : Table HookRow) (events : Table EventRow) :
    (rekeyEvents ids hooks events).rows = events.rows.map (EventRow.ownerColumn.assign
      fun row => recordTarget hooks ids row.hookId row.siliconId) := Table.assign_rows

theorem rekeyBlocked_rows (hooks : Table HookRow) (blocked : Table BlockedRequestRow) :
    (rekeyBlocked ids hooks blocked).rows = blocked.rows.map (BlockedRequestRow.ownerColumn.assign
      fun row => recordTarget hooks ids row.hookId row.siliconId) := Table.assign_rows

theorem rekeyRetired_rows (retired : Table RetiredKeyRow) :
    (rekeyRetired links ids retired).rows = retired.rows.map (RetiredKeyRow.ownerColumn.assign
      fun row => ownerTarget links ids row.siliconId) := Table.assign_rows

def rekeyAuditOwners (audit : List AuditRow) : List AuditRow :=
  audit.map (AuditRow.ownerColumn.assign fun row => ownerTarget links ids row.siliconId)

def rekeyAuditActors (audit : List AuditRow) : List AuditRow :=
  audit.map (AuditRow.actorColumn.assign fun row => actorTarget links ids row.actor.id)

def Database.rekeyed (database : Database) : Database :=
  let hooks := rekeyHooks links ids database.db.hooks
  { db := { database.db with
      hooks := hooks
      events := rekeyEvents ids hooks database.db.events
      blockedRequests := rekeyBlocked ids hooks database.db.blockedRequests
      retiredEndpointKeys := rekeyRetired links ids database.db.retiredEndpointKeys }
    auditLog := rekeyAuditActors links ids (rekeyAuditOwners links ids database.auditLog) }

def rekeyedRows (database : Database) : RekeyedRows :=
  let hooks := rekeyHooks links ids database.db.hooks
  { hooks := HookRow.ownerColumn.affected (fun row => ownerTarget links ids row.siliconId)
      database.db.hooks.rows
    hookCreators := HookRow.creatorColumn.affected
      (fun row => actorTarget links ids row.createdBy.id)
      (rekeyOwners links ids database.db.hooks).rows
    events := EventRow.ownerColumn.affected
      (fun row => recordTarget hooks ids row.hookId row.siliconId) database.db.events.rows
    blockedRequests := BlockedRequestRow.ownerColumn.affected
      (fun row => recordTarget hooks ids row.hookId row.siliconId) database.db.blockedRequests.rows
    retiredEndpointKeys := RetiredKeyRow.ownerColumn.affected
      (fun row => ownerTarget links ids row.siliconId) database.db.retiredEndpointKeys.rows
    auditSilicons := AuditRow.ownerColumn.affected
      (fun row => ownerTarget links ids row.siliconId) database.auditLog
    auditActors := AuditRow.actorColumn.affected (fun row => actorTarget links ids row.actor.id)
      (rekeyAuditOwners links ids database.auditLog) }

def rekey (database : Database) : Except LinkError (RekeyedRows × Database) :=
  if !defaultsDistinct (rekeyOwners links ids database.db.hooks) then
    .error (.database "hooks_one_accounts_default_per_silicon")
  else .ok (rekeyedRows links ids database, database.rekeyed links ids)

end Statements

/-- Every uuid column holds its target, or has none. -/
structure Unaffected (links : Table IdentityLinkRow) (ids : List String) (database : Database) :
    Prop where
  owners : ∀ row ∈ database.db.hooks.rows,
    HookRow.ownerColumn.differs (fun row => ownerTarget links ids row.siliconId) row = false
  creators : ∀ row ∈ database.db.hooks.rows,
    HookRow.creatorColumn.differs (fun row => actorTarget links ids row.createdBy.id) row = false
  events : ∀ row ∈ database.db.events.rows, EventRow.ownerColumn.differs
    (fun row => recordTarget database.db.hooks ids row.hookId row.siliconId) row = false
  blocked : ∀ row ∈ database.db.blockedRequests.rows, BlockedRequestRow.ownerColumn.differs
    (fun row => recordTarget database.db.hooks ids row.hookId row.siliconId) row = false
  retired : ∀ row ∈ database.db.retiredEndpointKeys.rows,
    RetiredKeyRow.ownerColumn.differs (fun row => ownerTarget links ids row.siliconId) row = false
  auditOwners : ∀ row ∈ database.auditLog,
    AuditRow.ownerColumn.differs (fun row => ownerTarget links ids row.siliconId) row = false
  auditActors : ∀ row ∈ database.auditLog,
    AuditRow.actorColumn.differs (fun row => actorTarget links ids row.actor.id) row = false

namespace Unaffected

variable {links : Table IdentityLinkRow} {ids : List String} {database : Database}

theorem rekeyOwners (h : Unaffected links ids database) :
    rekeyOwners links ids database.db.hooks = database.db.hooks := Table.assign_eq_self h.owners

theorem rekeyHooks (h : Unaffected links ids database) :
    rekeyHooks links ids database.db.hooks = database.db.hooks := by
  rw [SiliconHook.rekeyHooks, h.rekeyOwners]
  exact Table.assign_eq_self h.creators

theorem rekeyAuditOwners (h : Unaffected links ids database) :
    rekeyAuditOwners links ids database.auditLog = database.auditLog :=
  Column.map_assign_of_same h.auditOwners

theorem rekeyed (h : Unaffected links ids database) : database.rekeyed links ids = database := by
  have hevents : rekeyEvents ids database.db.hooks database.db.events = database.db.events :=
    Table.assign_eq_self h.events
  have hblocked : rekeyBlocked ids database.db.hooks database.db.blockedRequests =
      database.db.blockedRequests := Table.assign_eq_self h.blocked
  have hretired : rekeyRetired links ids database.db.retiredEndpointKeys =
      database.db.retiredEndpointKeys := Table.assign_eq_self h.retired
  have haudit : rekeyAuditActors links ids database.auditLog = database.auditLog :=
    Column.map_assign_of_same h.auditActors
  rw [Database.rekeyed, h.rekeyHooks, hevents, hblocked, hretired, h.rekeyAuditOwners, haudit]

theorem rekeyedRows (h : Unaffected links ids database) :
    rekeyedRows links ids database = ⟨0, 0, 0, 0, 0, 0, 0⟩ := by
  rw [SiliconHook.rekeyedRows, h.rekeyHooks, h.rekeyOwners, h.rekeyAuditOwners,
    Column.affected_eq_zero h.owners, Column.affected_eq_zero h.creators,
    Column.affected_eq_zero h.events, Column.affected_eq_zero h.blocked,
    Column.affected_eq_zero h.retired, Column.affected_eq_zero h.auditOwners,
    Column.affected_eq_zero h.auditActors]

end Unaffected

-- -----------------------------------------------------------------------------
-- The run
-- -----------------------------------------------------------------------------

def applyMapping (mapping : IdentityMapping) (clock : Instant) (database : Database) :
    Except LinkError (RekeyedRows × Database) := do
  rejectConflicts mapping database.db
  let links ← writeLinks mapping clock database.db.identityLinks
  rekey links mapping.ids { database with db := { database.db with identityLinks := links } }

def linkReport (mapping : IdentityMapping) (dryRun : Bool) (rekeyed : RekeyedRows)
    (database : Database) : LinkReport where
  dryRun := dryRun
  mappingSha256 := mapping.sha256
  rowsInFile := mapping.rows.length
  linked := mapping.rows.countP fun row => row.accountsUuid.isSome
  unlinked := mapping.rows.countP fun row => row.accountsUuid.isNone
  rekeyed := rekeyed
  notInHookData := sortTexts (mapping.ids.filter fun id =>
    !(database.db.identityLinks.find id).any IdentityLinkRow.inHookData)
  unmatchedInHookData := sortTexts ((database.db.identityLinks.select fun link =>
    link.inHookData && link.accountsUuid.isNone).map fun link => link.iamPublicId.value)
  hooksWithoutOwner := (database.db.hooks.select fun row => row.siliconUuid.isNone).length

/-- Applies a mapping in one transaction, rolled back for a dry run. -/
def linkIdentities (mapping : IdentityMapping) (dryRun : Bool) (clock : Instant)
    (database : Database) : Except LinkError LinkReport × Database :=
  match applyMapping mapping clock database with
  | .error e => (.error e, database)
  | .ok (rekeyed, linked) =>
    (.ok (linkReport mapping dryRun rekeyed linked), if dryRun then database else linked)

-- -----------------------------------------------------------------------------
-- What becomes of the links
-- -----------------------------------------------------------------------------

def Database.withLinks (database : Database) (links : Table IdentityLinkRow) : Database :=
  { database with db := { database.db with identityLinks := links } }

theorem applyMapping_ok {mapping : IdentityMapping} {clock : Instant} {database after : Database}
    {rekeyed : RekeyedRows} : applyMapping mapping clock database = .ok (rekeyed, after) ↔
      rejectConflicts mapping database.db = .ok () ∧
        ∃ links, writeLinks mapping clock database.db.identityLinks = .ok links ∧
          defaultsDistinct (rekeyOwners links mapping.ids database.db.hooks) = true ∧
          rekeyed = rekeyedRows links mapping.ids (database.withLinks links) ∧
          after = (database.withLinks links).rekeyed links mapping.ids := by
  simp only [applyMapping, Except.bind_ok, rekey]
  constructor
  · rintro ⟨⟨⟩, hfree, links, hlinks, h⟩
    refine ⟨hfree, links, hlinks, ?_⟩
    split at h
    · cases h
    · rename_i hd
      cases h
      exact ⟨by simpa using hd, rfl, rfl⟩
  · rintro ⟨hfree, links, hlinks, hd, rfl, rfl⟩
    exact ⟨(), hfree, links, hlinks, if_neg (by simpa using hd)⟩

/-- No uuid is linked to two ids: the partial unique index on the links. -/
def OneLink (links : Table IdentityLinkRow) : Prop :=
  ∀ a ∈ links.rows, ∀ b ∈ links.rows, a.accountsUuid.isSome → a.accountsUuid = b.accountsUuid →
    a = b

def IdentityMapping.rowFor (mapping : IdentityMapping) (id : String) : Option MappingRow :=
  mapping.rows.find? fun row => row.iamPublicId.value = id

variable {links links' : Table IdentityLinkRow} {new link : IdentityLinkRow}
  {mapping : IdentityMapping} {id : String} {row : MappingRow}

theorem IdentityMapping.mem_ids : id ∈ mapping.ids ↔ ∃ row, mapping.rowFor id = some row := by
  rw [rowFor, ← Option.isSome_iff_exists, List.find?_isSome, ids, List.mem_map]
  simp

theorem IdentityMapping.rowFor_mem (h : mapping.rowFor id = some row) :
    row ∈ mapping.rows ∧ row.iamPublicId.value = id :=
  ⟨List.mem_of_find?_eq_some h, by simpa using List.find?_some h⟩

theorem insertLink_ok : insertLink links new = .ok links' ↔
    (∀ other ∈ links.rows, other.accountsUuid.isSome → other.accountsUuid = new.accountsUuid →
      other.iamPublicId.value = new.iamPublicId.value) ∧
      links' = links.upsert new new.relink new.relink_key := by
  unfold insertLink
  split
  · rename_i hany
    simp only [reduceCtorEq, false_iff, not_and]
    obtain ⟨other, hm, h⟩ := List.any_eq_true.mp hany
    simp only [Bool.and_eq_true, decide_eq_true_eq] at h
    exact fun hfree => absurd (hfree other hm h.1.2 h.2) h.1.1
  · rename_i hany
    have hfree : ∀ other ∈ links.rows, other.accountsUuid.isSome →
        other.accountsUuid = new.accountsUuid →
        other.iamPublicId.value = new.iamPublicId.value := by
      intro other hm hsome heq
      by_contra hne
      refine hany (List.any_eq_true.mpr ⟨other, hm, ?_⟩)
      rw [Bool.and_eq_true, Bool.and_eq_true]
      exact ⟨⟨decide_eq_true hne, hsome⟩, decide_eq_true heq⟩
    constructor
    · intro h
      cases h
      exact ⟨hfree, rfl⟩
    · rintro ⟨-, rfl⟩
      rfl

/-- A row after an insertion has the new id and uuid, or is a row of another id. -/
theorem mem_inserted (h : link ∈ (links.upsert new new.relink new.relink_key).rows) :
    (link.iamPublicId.value = new.iamPublicId.value ∧ link.accountsUuid = new.accountsUuid) ∨
      (link ∈ links.rows ∧ link.iamPublicId.value ≠ new.iamPublicId.value) := by
  have hself := Table.mem_rows.mp h
  rw [Table.find_upsert new.relink_key] at hself
  split at hself
  · rename_i hk
    refine .inl ⟨hk, ?_⟩
    rw [← Option.some.inj hself]
    cases links.find (Keyed.key link) <;> rfl
  · rename_i hk
    exact .inr ⟨Table.mem_rows.mpr hself, hk⟩

theorem OneLink.insert (h : OneLink links) (hok : insertLink links new = .ok links') :
    OneLink links' := by
  obtain ⟨hfree, rfl⟩ := insertLink_ok.mp hok
  intro a ha b hb hsome heq
  obtain ⟨hka, hua⟩ | ⟨ha', hka⟩ := mem_inserted ha <;>
    obtain ⟨hkb, hub⟩ | ⟨hb', hkb⟩ := mem_inserted hb
  · exact Table.eq_of_key ha hb (hka.trans hkb.symm)
  · exact absurd (hfree b hb' (heq ▸ hsome) (heq.symm.trans hua)) hkb
  · exact absurd (hfree a ha' hsome (heq.trans hub)) hka
  · exact h a ha' b hb' hsome heq

theorem OneLink.unlink (h : OneLink links) (p : IdentityLinkRow → Bool) :
    OneLink (links.update p IdentityLinkRow.unlinked IdentityLinkRow.unlinked_key) := by
  intro a ha b hb hsome heq
  obtain ⟨old, hold, rfl⟩ := (Table.mem_update _).mp ha
  obtain ⟨old', hold', rfl⟩ := (Table.mem_update _).mp hb
  split at hsome
  · cases hsome
  · split at heq
    · contradiction
    · split at heq
      · rw [heq] at hsome
        cases hsome
      · rename_i hp hq
        obtain rfl := h old hold old' hold' hsome heq
        rfl

theorem insertLinks_ok {news : List IdentityLinkRow}
    (h : news.foldlM insertLink links = .ok links') :
    links' = links.upsertAll IdentityLinkRow.relink IdentityLinkRow.relink_key news := by
  induction news generalizing links with
  | nil =>
    cases h
    rfl
  | cons new news ih =>
    rw [List.foldlM_cons] at h
    obtain ⟨mid, hmid, hrest⟩ := Except.bind_ok.mp h
    obtain ⟨-, rfl⟩ := insertLink_ok.mp hmid
    exact ih hrest

theorem OneLink.insertAll {news : List IdentityLinkRow} (h : OneLink links)
    (hok : news.foldlM insertLink links = .ok links') : OneLink links' := by
  induction news generalizing links with
  | nil =>
    cases hok
    exact h
  | cons new news ih =>
    rw [List.foldlM_cons] at hok
    obtain ⟨mid, hmid, hrest⟩ := Except.bind_ok.mp hok
    exact ih (h.insert hmid) hrest

theorem OneLink.write {clock : Instant} (h : OneLink links)
    (hok : writeLinks mapping clock links = .ok links') : OneLink links' :=
  (h.unlink _).insertAll hok

/-- The link of an id after a run: its line's, over what was there, where the
file names it. -/
theorem find_writeLinks {clock : Instant} (hd : IdentityMapping.Distinct mapping.rows)
    (hok : writeLinks mapping clock links = .ok links') :
    links'.find id = match mapping.rowFor id with
      | none => links.find id
      | some row => some ((links.find id).elim (row.link ("mapping:" ++ mapping.sha256) clock)
          (row.link ("mapping:" ++ mapping.sha256) clock).relink) := by
  have hkeys : (mapping.rows.map (·.link ("mapping:" ++ mapping.sha256) clock)).map Keyed.key =
      mapping.ids := by
    rw [List.map_map]
    rfl
  have hfind : (mapping.rows.map (·.link ("mapping:" ++ mapping.sha256) clock)).find?
      (fun new => decide (Keyed.key new = id)) =
        (mapping.rowFor id).map (·.link ("mapping:" ++ mapping.sha256) clock) := by
    rw [List.find?_map]
    rfl
  rw [insertLinks_ok hok]
  refine (Table.find_upsertAll (hkeys ▸ hd.ids)).trans ?_
  rw [hfind, Table.find_update]
  cases hrow : mapping.rowFor id with
  | none =>
    have hnot : id ∉ mapping.ids := fun hm => by
      obtain ⟨row, hsome⟩ := IdentityMapping.mem_ids.mp hm
      rw [hrow] at hsome
      cases hsome
    cases hl : links.find id with
    | none => rfl
    | some link =>
      have hkey : link.iamPublicId.value = id := Table.find_key hl
      simp [hkey, hnot]
  | some row =>
    cases hl : links.find id with
    | none => rfl
    | some link =>
      simp only [Option.map_some, Option.elim_some]
      split <;> rfl

theorem find_written {clock : Instant} (hd : IdentityMapping.Distinct mapping.rows)
    (hok : writeLinks mapping clock links = .ok links') (hrow : mapping.rowFor id = some row) :
    ∃ link, links'.find id = some link ∧ link.accountsUuid = row.accountsUuid ∧
      (row.iamPrincipalId <|> link.iamPrincipalId) = link.iamPrincipalId ∧
      link.source = "mapping:" ++ mapping.sha256 := by
  have hfind := @find_writeLinks links links' mapping id clock hd hok
  rw [hrow] at hfind
  refine ⟨_, hfind, ?_⟩
  cases links.find id with
  | none =>
    refine ⟨rfl, ?_, rfl⟩
    show (row.iamPrincipalId <|> row.iamPrincipalId) = row.iamPrincipalId
    cases row.iamPrincipalId <;> rfl
  | some old =>
    refine ⟨rfl, ?_, rfl⟩
    show (row.iamPrincipalId <|> (row.iamPrincipalId <|> old.iamPrincipalId)) =
      (row.iamPrincipalId <|> old.iamPrincipalId)
    cases row.iamPrincipalId <;> rfl

-- -----------------------------------------------------------------------------
-- When the links can be written
-- -----------------------------------------------------------------------------

theorem insertLinks_complete {news : List IdentityLinkRow}
    (hfree : ∀ new ∈ news, ∀ other ∈ links.rows, other.accountsUuid.isSome →
      other.accountsUuid = new.accountsUuid → other.iamPublicId.value = new.iamPublicId.value)
    (huuids : (news.filterMap IdentityLinkRow.accountsUuid).Nodup) :
    ∃ links', news.foldlM insertLink links = .ok links' := by
  induction news generalizing links with
  | nil => exact ⟨links, rfl⟩
  | cons new news ih =>
    have hfirst := insertLink_ok.mpr ⟨hfree new (List.mem_cons_self ..), rfl⟩
    have hlater : ∀ later ∈ news, ∀ other ∈ (links.upsert new new.relink new.relink_key).rows,
        other.accountsUuid.isSome → other.accountsUuid = later.accountsUuid →
        other.iamPublicId.value = later.iamPublicId.value := by
      intro later hm other ho hsome heq
      obtain ⟨-, huuid⟩ | ⟨ho', -⟩ := mem_inserted ho
      · -- the new link's uuid is not in the file a second time
        obtain ⟨uuid, hu⟩ := Option.isSome_iff_exists.mp hsome
        have hnew : new.accountsUuid = some uuid := huuid.symm.trans hu
        rw [List.filterMap_cons_some hnew, List.nodup_cons] at huuids
        exact absurd (List.mem_filterMap.mpr ⟨later, hm, heq.symm.trans hu⟩) huuids.1
      · exact hfree later (List.mem_cons_of_mem _ hm) other ho' hsome heq
    have hrest : (news.filterMap IdentityLinkRow.accountsUuid).Nodup :=
      ((List.sublist_cons_self new news).filterMap _).nodup huuids
    obtain ⟨links', hok⟩ := ih hlater hrest
    exact ⟨links', by rw [List.foldlM_cons]; exact Except.bind_ok.mpr ⟨_, hfirst, hok⟩⟩

theorem conflictingLinks_nil {db : Store} : conflictingLinks mapping db = [] ↔
    ∀ link ∈ db.identityLinks.rows, ∀ uuid ∈ link.accountsUuid,
      uuid ∈ mapping.rows.filterMap MappingRow.accountsUuid →
        link.iamPublicId.value ∈ mapping.ids := by
  rw [conflictingLinks, ← List.length_eq_zero_iff, List.length_insertionSort,
    List.length_eq_zero_iff, List.filterMap_eq_nil_iff]
  constructor
  · intro h link hm uuid hu hfile
    have hnone := h link hm
    rw [Option.mem_def.mp hu] at hnone
    by_contra hnot
    have hboth : ((mapping.rows.filterMap MappingRow.accountsUuid).contains uuid &&
        !mapping.ids.contains link.iamPublicId.value) = true := by
      rw [List.contains_iff_mem.mpr hfile, Bool.true_and, Bool.not_eq_true',
        ← Bool.not_eq_true, List.contains_iff_mem]
      exact hnot
    exact absurd ((if_pos hboth).symm.trans hnone) (Option.some_ne_none _)
  · intro h link hm
    cases hu : link.accountsUuid with
    | none => rfl
    | some uuid =>
      refine if_neg fun hboth => ?_
      rw [Bool.and_eq_true, Bool.not_eq_true', ← Bool.not_eq_true, List.contains_iff_mem,
        List.contains_iff_mem] at hboth
      exact hboth.2 (h link hm uuid hu hboth.1)

theorem writeLinks_complete {db : Store} (clock : Instant)
    (hd : IdentityMapping.Distinct mapping.rows) (h : conflictingLinks mapping db = []) :
    ∃ links', writeLinks mapping clock db.identityLinks = .ok links' := by
  refine insertLinks_complete ?_ ?_
  · intro new hnew other ho hsome heq
    obtain ⟨row, hrow, rfl⟩ := List.mem_map.mp hnew
    obtain ⟨old, hold, rfl⟩ := (Table.mem_update _).mp ho
    split at hsome
    · cases hsome
    · rename_i hunnamed
      rw [if_neg hunnamed] at heq
      obtain ⟨uuid, hu⟩ := Option.isSome_iff_exists.mp hsome
      have hfile : row.accountsUuid = some uuid := heq.symm.trans hu
      have hnamed := conflictingLinks_nil.mp h old hold uuid hu
        (List.mem_filterMap.mpr ⟨row, hrow, hfile⟩)
      exact absurd (List.contains_iff_mem.mpr hnamed) hunnamed
  · rw [List.filterMap_map]
    exact hd.uuids

def IdentityLinkRow.linkedAgain (clock : Instant) (link : IdentityLinkRow) : IdentityLinkRow :=
  { link with linkedAt := link.accountsUuid.map fun _ => clock }

theorem IdentityLinkRow.linkedAgain_key (clock : Instant) (link : IdentityLinkRow) :
    Keyed.key (link.linkedAgain clock) = Keyed.key link := rfl

/-- The links of a file's ids with a later time. -/
def relinkAt (mapping : IdentityMapping) (clock : Instant) (links : Table IdentityLinkRow) :
    Table IdentityLinkRow :=
  links.update (fun link => mapping.ids.contains link.iamPublicId.value)
    (IdentityLinkRow.linkedAgain clock) (IdentityLinkRow.linkedAgain_key clock)

theorem conflictingLinks_write {db : Store} {clock : Instant}
    (hd : IdentityMapping.Distinct mapping.rows) (hone : OneLink links)
    (hok : writeLinks mapping clock links = .ok links') (hdb : db.identityLinks = links') :
    conflictingLinks mapping db = [] := by
  rw [conflictingLinks_nil, hdb]
  intro link hm uuid hu hfile
  obtain ⟨row, hrow, hrowUuid⟩ := List.mem_filterMap.mp hfile
  obtain ⟨named, hnamed⟩ := IdentityMapping.mem_ids.mp (List.mem_map.mpr ⟨row, hrow, rfl⟩)
  obtain ⟨hmem, hkey⟩ := IdentityMapping.rowFor_mem hnamed
  obtain rfl : named = row := List.inj_on_of_nodup_map hd.ids hmem hrow hkey
  obtain ⟨other, hfind, hother, -, -⟩ := find_written hd hok hnamed
  obtain ⟨hlink, hid⟩ := Table.find_some.mp hfind
  have hsome : link.accountsUuid.isSome := by
    rw [Option.mem_def.mp hu]
    rfl
  have hsame : link.accountsUuid = other.accountsUuid :=
    (Option.mem_def.mp hu).trans (hrowUuid.symm.trans hother.symm)
  obtain rfl := hone.write hok link hm other hlink hsome hsame
  exact List.mem_map.mpr ⟨named, hrow, hid.symm⟩

theorem writeLinks_again {db : Store} {clock again : Instant}
    (hd : IdentityMapping.Distinct mapping.rows) (hone : OneLink links)
    (hok : writeLinks mapping clock links = .ok links') (hdb : db.identityLinks = links') :
    writeLinks mapping again links' = .ok (relinkAt mapping again links') := by
  have hfree := conflictingLinks_write hd hone hok hdb
  obtain ⟨links₂, hlinks₂⟩ := writeLinks_complete again hd hfree
  rw [hdb] at hlinks₂
  have hkeys : (mapping.rows.map (·.link ("mapping:" ++ mapping.sha256) again)).map Keyed.key =
      mapping.ids := by
    rw [List.map_map]
    rfl
  refine hlinks₂.trans (congrArg Except.ok (Table.ext ?_))
  rw [insertLinks_ok hlinks₂]
  refine (Table.upsertAll_rows (hkeys ▸ hd.ids)).trans ?_
  have habsent : (mapping.rows.map (·.link ("mapping:" ++ mapping.sha256) again)).filter
      (fun new => ((links'.update (fun link => mapping.ids.contains link.iamPublicId.value)
        IdentityLinkRow.unlinked IdentityLinkRow.unlinked_key).find (Keyed.key new)).isNone) =
        [] := by
    rw [List.filter_eq_nil_iff]
    intro new hm
    obtain ⟨row, hrow, rfl⟩ := List.mem_map.mp hm
    obtain ⟨named, hnamed⟩ := IdentityMapping.mem_ids.mp (List.mem_map.mpr ⟨row, hrow, rfl⟩)
    obtain ⟨link, hfind, -⟩ := find_written hd hok hnamed
    have hkey : Keyed.key (row.link ("mapping:" ++ mapping.sha256) again) =
      row.iamPublicId.value := rfl
    rw [Table.find_update, hkey, hfind]
    exact Bool.false_ne_true
  rw [habsent, List.append_nil]
  refine (List.map_map ..).trans (List.map_congr_left fun link hm => ?_)
  have hnews : (mapping.rows.map (·.link ("mapping:" ++ mapping.sha256) again)).find?
      (fun new => decide (Keyed.key new = Keyed.key link)) =
        (mapping.rowFor link.iamPublicId.value).map
          (·.link ("mapping:" ++ mapping.sha256) again) := by
    rw [List.find?_map]
    rfl
  rw [Function.comp_apply]
  beta_reduce
  cases hrow : mapping.rowFor link.iamPublicId.value with
  | none =>
    have hnot : mapping.ids.contains link.iamPublicId.value = false := by
      rw [← Bool.not_eq_true, List.contains_iff_mem, IdentityMapping.mem_ids, hrow]
      exact fun ⟨_, h⟩ => nomatch h
    rw [hnot, if_neg Bool.false_ne_true, if_neg Bool.false_ne_true, Table.overwritten, hnews, hrow]
    rfl
  | some row =>
    have hnamed : mapping.ids.contains link.iamPublicId.value = true :=
      List.contains_iff_mem.mpr (IdentityMapping.mem_ids.mpr ⟨row, hrow⟩)
    obtain ⟨stored, hfind, huuid, hprincipal, hsource⟩ := find_written hd hok hrow
    obtain rfl : stored = link :=
      Option.some.inj (hfind.symm.trans (Table.mem_rows.mp hm))
    have hunlinked : Keyed.key stored.unlinked = Keyed.key stored := rfl
    rw [hnamed, if_pos rfl, if_pos rfl, Table.overwritten, hunlinked, hnews, hrow]
    show { stored with
      iamPrincipalId := (row.iamPrincipalId <|> stored.iamPrincipalId)
      accountsUuid := row.accountsUuid
      linkedAt := row.accountsUuid.map fun _ => again
      source := "mapping:" ++ mapping.sha256 } = stored.linkedAgain again
    rw [hprincipal, ← huuid, ← hsource]
    rfl

/-- The kind of every link is its id's. -/
def KindsOfIds (links : Table IdentityLinkRow) : Prop :=
  ∀ link ∈ links.rows, link.kind = link.iamPublicId.kind

theorem KindsOfIds.write {clock : Instant} (h : KindsOfIds links)
    (hd : IdentityMapping.Distinct mapping.rows)
    (hok : writeLinks mapping clock links = .ok links') : KindsOfIds links' := by
  intro link hm
  have hself : links'.find link.iamPublicId.value = some link := Table.mem_rows.mp hm
  have hfind := @find_writeLinks links links' mapping link.iamPublicId.value clock hd hok
  rw [hself] at hfind
  split at hfind
  · exact h link (Table.mem_rows.mpr hfind.symm)
  · rename_i row _
    cases hl : links.find link.iamPublicId.value with
    | none =>
      rw [hl] at hfind
      cases hfind
      rfl
    | some old =>
      rw [hl] at hfind
      cases hfind
      exact h old (Table.find_some.mp hl).1

-- -----------------------------------------------------------------------------
-- What a stored id is linked to
-- -----------------------------------------------------------------------------

/-- A Carbon's public id, which is no namespace key. -/
def SiliconId.namesCarbon (id : SiliconId) : Bool :=
  match PublicId.split id.value.toList with
  | some (.carbon, _) => true
  | _ => false

/-- The uuid a file gives a stored id: its line's, or the one that is there. -/
def IdentityMapping.uuidFor (mapping : IdentityMapping) (id : String)
    (current : Option AccountUuid) : Option AccountUuid :=
  (mapping.rowFor id).elim current MappingRow.accountsUuid

theorem PublicId.kind_of_split {publicId : PublicId} {kind : ActorKind} {handle : List Char}
    (h : PublicId.split publicId.value.toList = some (kind, handle)) : publicId.kind = kind := by
  have hv := publicId.valid
  unfold PublicId.check at hv
  rw [h] at hv
  dsimp only at hv
  split at hv
  · cases hv
  · split at hv
    · cases hv
    · exact (Except.ok.inj hv).symm

theorem PublicId.kind_silicon {publicId : PublicId} {id : SiliconId}
    (hid : publicId.value = id.value) (h : id.namesCarbon = false) :
    publicId.kind = .silicon := by
  unfold SiliconId.namesCarbon at h
  rw [← hid] at h
  have hv := publicId.valid
  unfold PublicId.check at hv
  cases hs : PublicId.split publicId.value.toList with
  | none =>
    rw [hs] at hv
    cases hv
  | some found =>
    obtain ⟨kind, handle⟩ := found
    rw [hs] at h
    cases kind with
    | carbon => cases h
    | silicon => exact PublicId.kind_of_split hs

theorem fromAccountUuid_namesCarbon (uuid : AccountUuid) :
    (SiliconId.fromAccountUuid uuid).namesCarbon = false := by
  unfold SiliconId.namesCarbon
  split
  · rename_i handle hs
    have hv := uuid.valid
    have hchars : ∃ rest, uuid.value.toList = 'c' :: ':' :: rest := by
      unfold PublicId.split at hs
      split at hs
      · cases hs
      · rename_i rest hchars
        exact ⟨rest, hchars⟩
      · cases hs
    obtain ⟨rest, hchars⟩ := hchars
    have hcolon : Text.isAsciiAlphanumeric ':' = false ∧ isLowerHex ':' = false := by decide
    simp [AccountUuid.looksLike, isCanonicalUuid, hchars, hcolon] at hv
  · rfl

theorem linkOf_some : linkOf links mapping.ids id = some link ↔
    links.find id = some link ∧ id ∈ mapping.ids := by
  rw [linkOf, Option.filter_eq_some_iff, List.contains_iff_mem]
  constructor
  · rintro ⟨hf, hm⟩
    have hkey : link.iamPublicId.value = id := Table.find_key hf
    exact ⟨hf, hkey ▸ hm⟩
  · rintro ⟨hf, hm⟩
    have hkey : link.iamPublicId.value = id := Table.find_key hf
    exact ⟨hf, hkey.symm ▸ hm⟩

theorem linkOf_write {clock : Instant} (hd : IdentityMapping.Distinct mapping.rows)
    (hok : writeLinks mapping clock links = .ok links') :
    (linkOf links' mapping.ids id).map IdentityLinkRow.accountsUuid =
      (mapping.rowFor id).map MappingRow.accountsUuid := by
  have hfind := @find_writeLinks links links' mapping id clock hd hok
  cases hrow : mapping.rowFor id with
  | none =>
    have hnone : linkOf links' mapping.ids id = none := by
      rw [Option.eq_none_iff_forall_ne_some]
      intro link hl
      obtain ⟨row, hsome⟩ := IdentityMapping.mem_ids.mp (linkOf_some.mp hl).2
      rw [hrow] at hsome
      cases hsome
    rw [hnone]
    rfl
  | some row =>
    rw [hrow] at hfind
    dsimp only at hfind
    rw [linkOf_some.mpr ⟨hfind, IdentityMapping.mem_ids.mpr ⟨row, hrow⟩⟩]
    cases links.find id <;> rfl

theorem actorTarget_write {clock : Instant} (hd : IdentityMapping.Distinct mapping.rows)
    (hok : writeLinks mapping clock links = .ok links') (actor : ActorId) :
    actorTarget links' mapping.ids actor =
      (mapping.rowFor actor.value).map MappingRow.accountsUuid :=
  linkOf_write hd hok

theorem ownerTarget_write {clock : Instant} (hd : IdentityMapping.Distinct mapping.rows)
    (hk : KindsOfIds links) (hok : writeLinks mapping clock links = .ok links') {owner : SiliconId}
    (hc : owner.namesCarbon = false) :
    ownerTarget links' mapping.ids owner =
      (mapping.rowFor owner.value).map MappingRow.accountsUuid := by
  have hsilicon : (linkOf links' mapping.ids owner.value).filter (fun link =>
      link.kind = .silicon) = linkOf links' mapping.ids owner.value := by
    cases hl : linkOf links' mapping.ids owner.value with
    | none => rfl
    | some link =>
      obtain ⟨hm, hkey⟩ := Table.find_some.mp (linkOf_some.mp hl).1
      have hkind := (hk.write hd hok) link hm
      rw [PublicId.kind_silicon hkey hc] at hkind
      simp [hkind]
  rw [ownerTarget, hsilicon]
  exact linkOf_write hd hok

/-- A column whose target is the line of an id holds what the file gives it. -/
theorem assign_uuidFor {c : Column α (Option AccountUuid)}
    {target : α → Option (Option AccountUuid)} {r : α}
    (h : target r = (mapping.rowFor id).map MappingRow.accountsUuid) :
    c.assign target r = c.set (mapping.uuidFor id (c.get r)) r := by
  cases hrow : mapping.rowFor id with
  | none =>
    rw [hrow] at h
    rw [Column.assign_of_none h, IdentityMapping.uuidFor, hrow]
    exact (c.set_get r).symm
  | some row =>
    rw [hrow] at h
    rw [Column.assign_of_some h, IdentityMapping.uuidFor, hrow]
    rfl

end SiliconHook
