import SiliconHook.Properties.StoredIdentities

/-!
# Linking identities

A run that commits gives every row the uuid its stored id is mapped to and
changes nothing else; one uuid stays linked to one id. The same file changes
only the time of its links when it runs again.
-/

namespace SiliconHook

-- -----------------------------------------------------------------------------
-- What a run does to the tables
-- -----------------------------------------------------------------------------

namespace IdentityMapping

variable (mapping : IdentityMapping)

def linkedHook (row : HookRow) : HookRow :=
  { row with
    siliconUuid := mapping.uuidFor row.siliconId.value row.siliconUuid
    createdBy := { row.createdBy with
      uuid := mapping.uuidFor row.createdBy.id.value row.createdBy.uuid } }

def linkedEvent (row : EventRow) : EventRow :=
  { row with siliconUuid := mapping.uuidFor row.siliconId.value row.siliconUuid }

def linkedBlocked (row : BlockedRequestRow) : BlockedRequestRow :=
  { row with siliconUuid := mapping.uuidFor row.siliconId.value row.siliconUuid }

def linkedRetired (row : RetiredKeyRow) : RetiredKeyRow :=
  { row with siliconUuid := mapping.uuidFor row.siliconId.value row.siliconUuid }

def linkedAudit (row : AuditRow) : AuditRow :=
  { row with
    siliconUuid := mapping.uuidFor row.siliconId.value row.siliconUuid
    actor := { row.actor with uuid := mapping.uuidFor row.actor.id.value row.actor.uuid } }

end IdentityMapping

/-- The rows hold the uuids of the file in their owner, creator and actor
columns, the links of its ids record them, and all else is as it was. -/
structure LinkedBy (mapping : IdentityMapping) (before after : Database) : Prop where
  hooks : after.db.hooks.rows = before.db.hooks.rows.map mapping.linkedHook
  events : after.db.events.rows = before.db.events.rows.map mapping.linkedEvent
  blockedRequests :
    after.db.blockedRequests.rows = before.db.blockedRequests.rows.map mapping.linkedBlocked
  retiredEndpointKeys :
    after.db.retiredEndpointKeys.rows = before.db.retiredEndpointKeys.rows.map mapping.linkedRetired
  auditLog : after.auditLog = before.auditLog.map mapping.linkedAudit
  named : ∀ id row, mapping.rowFor id = some row →
    ∃ link, after.db.identityLinks.find id = some link ∧ link.accountsUuid = row.accountsUuid
  unnamed : ∀ id, mapping.rowFor id = none →
    after.db.identityLinks.find id = before.db.identityLinks.find id
  elsewhere : after.db = { before.db with
    hooks := after.db.hooks
    events := after.db.events
    blockedRequests := after.db.blockedRequests
    retiredEndpointKeys := after.db.retiredEndpointKeys
    identityLinks := after.db.identityLinks }

section Run

variable {mapping : IdentityMapping} {clock : Instant} {before after : Database}
  {links : Table IdentityLinkRow}

theorem linkedHook_eq (h : StoredKeys before.db) (hd : IdentityMapping.Distinct mapping.rows)
    (hlinks : writeLinks mapping clock before.db.identityLinks = .ok links) {row : HookRow}
    (hm : row ∈ before.db.hooks.rows) :
    HookRow.creatorColumn.assign (fun row => actorTarget links mapping.ids row.createdBy.id)
      (HookRow.ownerColumn.assign (fun row => ownerTarget links mapping.ids row.siliconId) row) =
        mapping.linkedHook row := by
  have howner : HookRow.ownerColumn.assign
      (fun row => ownerTarget links mapping.ids row.siliconId) row =
        HookRow.ownerColumn.set (mapping.uuidFor row.siliconId.value row.siliconUuid) row :=
    assign_uuidFor (ownerTarget_write hd h.kinds hlinks (h.hooks row hm))
  rw [howner]
  exact assign_uuidFor (actorTarget_write hd hlinks row.createdBy.id)

theorem recordTarget_linked (h : StoredKeys before.db)
    (hd : IdentityMapping.Distinct mapping.rows)
    (hlinks : writeLinks mapping clock before.db.identityLinks = .ok links)
    {hookId : HookId} {siliconId : SiliconId} (hhook : before.db.HasHook hookId siliconId) :
    recordTarget (rekeyHooks links mapping.ids before.db.hooks) mapping.ids hookId siliconId =
      (mapping.rowFor siliconId.value).map MappingRow.accountsUuid := by
  obtain ⟨hook, hfind, rfl⟩ := hhook
  have hlinked := linkedHook_eq h hd hlinks (Table.find_some.mp hfind).1
  have hrekeyed := find_rekeyHooks links mapping.ids before.db.hooks hookId
  rw [hfind, Option.map_some, hlinked] at hrekeyed
  unfold recordTarget
  split
  · rename_i hnamed
    obtain ⟨row, hrow⟩ := IdentityMapping.mem_ids.mp (List.contains_iff_mem.mp hnamed)
    have hkey : (mapping.linkedHook hook).siliconId = hook.siliconId := rfl
    have huuid : (mapping.linkedHook hook).siliconUuid = row.accountsUuid := by
      show mapping.uuidFor hook.siliconId.value hook.siliconUuid = _
      rw [IdentityMapping.uuidFor, hrow]
      rfl
    rw [hrekeyed, hrow]
    simp [hkey, huuid]
  · rename_i hnamed
    cases hrow : mapping.rowFor hook.siliconId.value with
    | none => rfl
    | some row =>
      exact absurd (List.contains_iff_mem.mpr (IdentityMapping.mem_ids.mpr ⟨row, hrow⟩)) hnamed

theorem linkedBy_applyMapping (h : StoredIdentities before)
    (hd : IdentityMapping.Distinct mapping.rows)
    (hok : applyMapping mapping clock before = .ok (rekeyed, after)) :
    LinkedBy mapping before after := by
  obtain ⟨-, links, hlinks, -, -, rfl⟩ := applyMapping_ok.mp hok
  have hrecord {hookId siliconId} (hhook : before.db.HasHook hookId siliconId) :=
    recordTarget_linked h.keys hd hlinks hhook
  have hfind {id} := @find_writeLinks before.db.identityLinks links mapping id clock hd hlinks
  constructor
  · exact (rekeyHooks_rows links mapping.ids before.db.hooks).trans
      (List.map_congr_left fun row hm => linkedHook_eq h.keys hd hlinks hm)
  · refine (rekeyEvents_rows mapping.ids _ before.db.events).trans (List.map_congr_left ?_)
    exact fun row hm => assign_uuidFor (hrecord (h.keys.events row hm))
  · refine (rekeyBlocked_rows mapping.ids _ before.db.blockedRequests).trans
      (List.map_congr_left ?_)
    exact fun row hm => assign_uuidFor (hrecord (h.keys.blocked row hm))
  · refine (rekeyRetired_rows links mapping.ids before.db.retiredEndpointKeys).trans
      (List.map_congr_left ?_)
    exact fun row hm =>
      assign_uuidFor (ownerTarget_write hd h.keys.kinds hlinks (h.keys.retired row hm))
  · show (before.auditLog.map _).map _ = _
    rw [List.map_map]
    refine List.map_congr_left fun row hm => ?_
    have howner : AuditRow.ownerColumn.assign
        (fun row => ownerTarget links mapping.ids row.siliconId) row =
          AuditRow.ownerColumn.set (mapping.uuidFor row.siliconId.value row.siliconUuid) row :=
      assign_uuidFor (ownerTarget_write hd h.keys.kinds hlinks (h.audit row hm))
    rw [Function.comp_apply, howner]
    exact assign_uuidFor (actorTarget_write hd hlinks row.actor.id)
  · intro id row hrow
    refine ⟨_, hfind.trans (by rw [hrow]), ?_⟩
    cases before.db.identityLinks.find id <;> rfl
  · intro id hrow
    exact hfind.trans (by rw [hrow])
  · rfl

-- -----------------------------------------------------------------------------
-- The same file again
-- -----------------------------------------------------------------------------

theorem uuidFor_idem (mapping : IdentityMapping) (id : String) (current : Option AccountUuid) :
    mapping.uuidFor id (mapping.uuidFor id current) = mapping.uuidFor id current := by
  unfold IdentityMapping.uuidFor
  cases mapping.rowFor id <;> rfl

theorem differs_linked {c : Column α (Option AccountUuid)}
    {target : α → Option (Option AccountUuid)} {r : α} {id : String}
    (ht : target r = (mapping.rowFor id).map MappingRow.accountsUuid)
    (hr : mapping.uuidFor id (c.get r) = c.get r) : c.differs target r = false := by
  refine Column.differs_of_get fun v hv => ?_
  rw [← hr, IdentityMapping.uuidFor]
  cases hrow : mapping.rowFor id with
  | none =>
    rw [ht, hrow] at hv
    cases hv
  | some row =>
    rw [ht, hrow] at hv
    exact Option.some.inj hv

def Database.relinkedAt (database : Database) (mapping : IdentityMapping) (again : Instant) :
    Database :=
  database.withLinks (relinkAt mapping again database.db.identityLinks)

theorem unaffected_again (h : StoredIdentities before) (hd : IdentityMapping.Distinct mapping.rows)
    (hok : applyMapping mapping clock before = .ok (rekeyed, after)) {again : Instant}
    (hlinks : writeLinks mapping again after.db.identityLinks = .ok links) :
    Unaffected links mapping.ids (after.withLinks links) := by
  have hlinked := linkedBy_applyMapping h hd hok
  have hstored := h.linked hd hok
  have howner {id : SiliconId} (hid : id.namesCarbon = false) :=
    ownerTarget_write hd hstored.keys.kinds hlinks hid
  have hactor := actorTarget_write hd hlinks
  -- nothing is written over a named hook, so its records find the uuid they have
  have hrecord {hookId siliconId} (hhook : after.db.HasHook hookId siliconId) :
      recordTarget after.db.hooks mapping.ids hookId siliconId =
        (mapping.rowFor siliconId.value).map MappingRow.accountsUuid := by
    obtain ⟨hook, hfind, rfl⟩ := hhook
    have hm := (Table.find_some.mp hfind).1
    rw [hlinked.hooks] at hm
    obtain ⟨old, -, rfl⟩ := List.mem_map.mp hm
    unfold recordTarget
    cases hrow : mapping.rowFor (mapping.linkedHook old).siliconId.value with
    | none =>
      rw [if_neg]
      · rfl
      · rw [List.contains_iff_mem, IdentityMapping.mem_ids, hrow]
        exact fun ⟨_, hsome⟩ => nomatch hsome
    | some row =>
      have huuid : (mapping.linkedHook old).siliconUuid = row.accountsUuid := by
        show mapping.uuidFor (mapping.linkedHook old).siliconId.value old.siliconUuid = _
        rw [IdentityMapping.uuidFor, hrow]
        rfl
      rw [if_pos (List.contains_iff_mem.mpr (IdentityMapping.mem_ids.mpr ⟨row, hrow⟩)), hfind]
      simp [huuid]
  constructor
  · intro row hm
    have hid := hstored.keys.hooks row hm
    obtain ⟨old, -, rfl⟩ := List.mem_map.mp (hlinked.hooks ▸ hm)
    exact differs_linked (howner hid) (uuidFor_idem ..)
  · intro row hm
    obtain ⟨old, -, rfl⟩ := List.mem_map.mp (hlinked.hooks ▸ hm)
    exact differs_linked (hactor _) (uuidFor_idem ..)
  · intro row hm
    have hhook := hstored.keys.events row hm
    obtain ⟨old, -, rfl⟩ := List.mem_map.mp (hlinked.events ▸ hm)
    exact differs_linked (hrecord hhook) (uuidFor_idem ..)
  · intro row hm
    have hhook := hstored.keys.blocked row hm
    obtain ⟨old, -, rfl⟩ := List.mem_map.mp (hlinked.blockedRequests ▸ hm)
    exact differs_linked (hrecord hhook) (uuidFor_idem ..)
  · intro row hm
    have hid := hstored.keys.retired row hm
    obtain ⟨old, -, rfl⟩ := List.mem_map.mp (hlinked.retiredEndpointKeys ▸ hm)
    exact differs_linked (howner hid) (uuidFor_idem ..)
  · intro row hm
    have hid := hstored.audit row hm
    obtain ⟨old, -, rfl⟩ := List.mem_map.mp (hlinked.auditLog ▸ hm)
    exact differs_linked (howner hid) (uuidFor_idem ..)
  · intro row hm
    obtain ⟨old, -, rfl⟩ := List.mem_map.mp (hlinked.auditLog ▸ hm)
    exact differs_linked (hactor _) (uuidFor_idem ..)

theorem defaultsDistinct_creators (links : Table IdentityLinkRow) (ids : List String)
    (hooks : Table HookRow) :
    defaultsDistinct (rekeyCreators links ids hooks) = defaultsDistinct hooks := by
  have hdefault : ∀ (target : HookRow → Option (Option AccountUuid)) (row : HookRow),
      (HookRow.creatorColumn.assign target row).isAccountsDefault = row.isAccountsDefault := by
    intro target row
    unfold Column.assign
    cases target row <;> rfl
  have howner : ∀ (target : HookRow → Option (Option AccountUuid)) (row : HookRow),
      (HookRow.creatorColumn.assign target row).siliconUuid = row.siliconUuid := by
    intro target row
    unfold Column.assign
    cases target row <;> rfl
  unfold defaultsDistinct Table.select
  rw [rekeyCreators, Table.assign_rows, List.filter_map, List.filterMap_map]
  congr 3
  · exact funext fun row => howner _ row
  · exact List.filter_congr fun row _ => hdefault _ row

/-- The same file again succeeds, and changes no row but the time of its links. -/
theorem applyMapping_again (h : StoredIdentities before)
    (hd : IdentityMapping.Distinct mapping.rows)
    (hok : applyMapping mapping clock before = .ok (rekeyed, after)) (again : Instant) :
    applyMapping mapping again after =
      .ok (⟨0, 0, 0, 0, 0, 0, 0⟩, after.relinkedAt mapping again) := by
  obtain ⟨hfree, links, hlinks, hdefaults, -, hafter⟩ := applyMapping_ok.mp hok
  have hsame : after.db.identityLinks = links := by rw [hafter]; rfl
  have hagain : writeLinks mapping again links = .ok (relinkAt mapping again links) :=
    writeLinks_again hd h.keys.oneLink hlinks hsame
  rw [← hsame] at hagain
  have hun := unaffected_again h hd hok hagain
  have hconflicts := conflictingLinks_write hd h.keys.oneLink hlinks hsame
  have hkinds : kindMismatches mapping after.db = kindMismatches mapping before.db := by
    rw [hafter]
    rfl
  have hreject : rejectConflicts mapping after.db = .ok () := by
    unfold rejectConflicts at hfree ⊢
    rw [hkinds, hconflicts]
    split at hfree
    · cases hfree
    · rename_i hnone
      rw [if_neg hnone, if_neg (not_not.mpr rfl)]
  have howners : defaultsDistinct (rekeyOwners (relinkAt mapping again after.db.identityLinks)
      mapping.ids after.db.hooks) = true := by
    have hkept : after.db.hooks = rekeyCreators links mapping.ids
        (rekeyOwners links mapping.ids before.db.hooks) := by rw [hafter]; rfl
    refine (congrArg defaultsDistinct hun.rekeyOwners).trans ?_
    show defaultsDistinct after.db.hooks = true
    rw [hkept, defaultsDistinct_creators]
    exact hdefaults
  exact applyMapping_ok.mpr ⟨hreject, _, hagain, howners, hun.rekeyedRows.symm, hun.rekeyed.symm⟩

/-- In every reachable state a run of an accepted file maps exactly the rows the
file names, or changes nothing. -/
theorem linkIdentities_exact (sha256 : List UInt8 → String) (bytes : List UInt8)
    (mapping : IdentityMapping) (hfile : parseMapping sha256 bytes = .ok mapping)
    (initial : Database) (hinitial : StoredIdentities initial) (labels : List StoredLabel)
    (dryRun : Bool) (clock : Instant) :
    let before := run storedStep initial labels
    let result := linkIdentities mapping dryRun clock before
    (∀ e, result.1 = .error e → result.2 = before) ∧
    (dryRun = true → result.2 = before) ∧
    ∀ report, result.1 = .ok report → dryRun = false →
      LinkedBy mapping before result.2 ∧ OneLink result.2.db.identityLinks ∧
      ∀ again, ∃ report', linkIdentities mapping false again result.2 =
          (.ok report', result.2.relinkedAt mapping again) ∧
        report'.rekeyed = ⟨0, 0, 0, 0, 0, 0, 0⟩ := by
  intro before result
  have hstored : StoredIdentities before := hinitial.run labels
  have hd := parseMapping_distinct hfile
  have hrun : result = linkIdentities mapping dryRun clock before := rfl
  unfold linkIdentities at hrun
  cases happly : applyMapping mapping clock before with
  | error e =>
    rw [happly] at hrun
    rw [hrun]
    exact ⟨fun _ _ => rfl, fun _ => rfl, fun _ h => nomatch h⟩
  | ok applied =>
    obtain ⟨rekeyed, after⟩ := applied
    rw [happly] at hrun
    rw [hrun]
    refine ⟨(fun _ h => nomatch h), ?_, ?_⟩
    · rintro rfl
      rfl
    · rintro report - rfl
      refine ⟨linkedBy_applyMapping hstored hd happly, (hstored.linked hd happly).keys.oneLink, ?_⟩
      intro again
      have hagain := applyMapping_again hstored hd happly again
      refine ⟨linkReport mapping false ⟨0, 0, 0, 0, 0, 0, 0⟩ (after.relinkedAt mapping again),
        ?_, rfl⟩
      show linkIdentities mapping false again after = _
      unfold linkIdentities
      rw [hagain]
      rfl

end Run

-- -----------------------------------------------------------------------------
-- A legacy hook
-- -----------------------------------------------------------------------------

namespace LegacyHook

def row : HookRow where
  id := ⟨1⟩
  siliconId := ⟨"si:cos", by decide⟩
  siliconUuid := none
  endpointKey := ⟨"AAAAAAA5", by decide⟩
  name := ⟨"leaves", by decide⟩
  description := none
  signing := ⟨false, ⟨.hmacSha256, ⟨"request.body", .path ⟨.request, [.key "body"]⟩⟩,
    ⟨"request.body", .path ⟨.request, [.key "body"]⟩⟩, .hex, .utf8, none⟩, none⟩
  timeZone := ⟨"UTC"⟩
  isAccountsDefault := false
  createdBy := ⟨.silicon, ⟨"si:cos", by decide⟩, none⟩
  createdAt := 0
  disabledAt := none
  deletedAt := none
  lastReceivedAt := none
  lastBlockedAt := none
  endpointRotatedAt := none

def stored : Database := ⟨{ Store.empty with hooks := ⟨[row], by decide⟩ }, []⟩

theorem stored_identities : StoredIdentities stored := by
  refine ⟨⟨?_, ?_, ?_, ?_, ?_, ?_⟩, ?_⟩
  · intro hook hm
    obtain rfl := List.mem_singleton.mp hm
    decide +kernel
  all_goals exact fun _ hm => nomatch hm

def file : List UInt8 := Encoding.utf8 "iam_public_id,accounts_uuid\nsi:cos,8HV\n"

def digest (_ : List UInt8) : String := "b05f"

def mapping : IdentityMapping where
  rows := [⟨⟨"si:cos", .silicon, by decide⟩, none, some ⟨"8HV", by decide⟩⟩]
  sha256 := "b05f"

theorem file_parses : parseMapping digest file = .ok mapping := by decide +kernel

def linkAt (clock : Instant) (database : Database) : Except LinkError LinkReport × Database :=
  linkIdentities mapping false clock database

theorem linkAt_ok : ∃ report, (linkAt 3 stored).1 = .ok report := by
  have hok : (linkAt 3 stored).1.toOption.isSome = true := by decide +kernel
  cases h : (linkAt 3 stored).1 with
  | error e =>
    rw [h] at hok
    cases hok
  | ok report => exact ⟨report, rfl⟩

theorem linkAt_times :
    (linkAt 3 stored).2.db.identityLinks.rows.map IdentityLinkRow.linkedAt = [some 3] ∧
    (linkAt 4 (linkAt 3 stored).2).2.db.identityLinks.rows.map IdentityLinkRow.linkedAt =
      [some 4] := by
  decide +kernel

theorem linked_exactly : ∃ report, (linkAt 3 stored).1 = .ok report ∧
    LinkedBy mapping stored (linkAt 3 stored).2 := by
  obtain ⟨report, hok⟩ := linkAt_ok
  exact ⟨report, hok, ((linkIdentities_exact digest file mapping file_parses stored
    stored_identities [] false 3).2.2 report hok rfl).1⟩

/-- The same file moves the time of its links. -/
theorem again_changes_links : ¬ ∀ (sha256 : List UInt8 → String) (bytes : List UInt8)
    (mapping : IdentityMapping), parseMapping sha256 bytes = .ok mapping →
    ∀ initial, StoredIdentities initial → ∀ (labels : List StoredLabel) (clock again : Instant)
      (report : LinkReport),
      (linkIdentities mapping false clock (run storedStep initial labels)).1 = .ok report →
      (linkIdentities mapping false again
        (linkIdentities mapping false clock (run storedStep initial labels)).2).2 =
          (linkIdentities mapping false clock (run storedStep initial labels)).2 := by
  intro h
  obtain ⟨report, hreport⟩ := linkAt_ok
  have hsame := h digest file mapping file_parses stored stored_identities [] 3 4 report hreport
  have hlinks := congrArg (fun database : Database =>
    database.db.identityLinks.rows.map IdentityLinkRow.linkedAt) hsame
  have htimes : [some (4 : Instant)] = [some 3] :=
    linkAt_times.2.symm.trans (hlinks.trans linkAt_times.1)
  exact absurd htimes (by decide)

end LegacyHook

end SiliconHook
