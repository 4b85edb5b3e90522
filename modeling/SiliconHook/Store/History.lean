import SiliconHook.Store.Lifecycle

/-!
# Retained history

The logs of verified and blocked requests, read newest first for one Silicon:
a page is bounded by its limit and by the estimated size of its rows.
-/

namespace SiliconHook

structure HistoryFilter where
  hookId : Option HookId
  deriving DecidableEq, Repr

structure HistoryCursor where
  receivedAt : Instant
  id : Uuid
  deriving DecidableEq, Repr

structure HistoryPageRequest where
  siliconUuid : AccountUuid
  filter : HistoryFilter
  cursor : Option HistoryCursor
  limit : Nat
  deriving DecidableEq, Repr

structure HistoryPage (α : Type) where
  items : List α
  nextCursor : Option HistoryCursor
  deriving DecidableEq, Repr

def historyPageByteBudget : Nat := 16 * 1024 * 1024

def maxHistoryLimit : Nat := 10000

-- -----------------------------------------------------------------------------
-- Rows
-- -----------------------------------------------------------------------------

/-- The columns the two logs share, and the record a row stands for. -/
structure LogColumns (α ρ : Type) where
  hookId : α → HookId
  id : α → Uuid
  request : α → CapturedRequest
  receivedAt : α → Instant
  expiresAt : α → Instant
  record : α → Except StoreError ρ

def EventRow.toRecord (row : EventRow) : Except StoreError EventRecord :=
  match DeliverySequence.new row.deliverySequence with
  | .error _ => .error (.corruptData "event" "delivery_sequence")
  | .ok deliverySequence => .ok {
      id := row.id
      siliconId := row.siliconId
      siliconUuid := row.siliconUuid
      hookId := row.hookId
      provider := row.provider
      summary := row.summary
      request := row.request
      deliverySequence := deliverySequence
      receivedAt := row.receivedAt }

theorem EventRow.hookId_toRecord {row : EventRow} {record : EventRecord}
    (h : row.toRecord = .ok record) : record.hookId = row.hookId := by
  unfold toRecord at h
  split at h <;> cases h
  rfl

def BlockedRequestRow.toRecord (row : BlockedRequestRow) : Except StoreError BlockedRequest :=
  .ok {
    id := row.id
    siliconId := row.siliconId
    siliconUuid := row.siliconUuid
    hookId := row.hookId
    provider := row.provider
    request := row.request
    reason := row.reason
    receivedAt := row.receivedAt }

def EventRow.columns : LogColumns EventRow EventRecord where
  hookId := EventRow.hookId
  id row := row.id.uuid
  request := EventRow.request
  receivedAt := EventRow.receivedAt
  expiresAt := EventRow.expiresAt
  record := EventRow.toRecord

def BlockedRequestRow.columns : LogColumns BlockedRequestRow BlockedRequest where
  hookId := BlockedRequestRow.hookId
  id row := row.id.uuid
  request := BlockedRequestRow.request
  receivedAt := BlockedRequestRow.receivedAt
  expiresAt := BlockedRequestRow.expiresAt
  record := BlockedRequestRow.toRecord

-- -----------------------------------------------------------------------------
-- Queries
-- -----------------------------------------------------------------------------

/-- The hook a row is joined with is the Silicon's, and not past its recovery window. -/
def historyHook (siliconUuid : AccountUuid) (now : Instant) (hook : HookRow) : Bool :=
  hook.siliconUuid = some siliconUuid &&
    hook.deletedAt.all fun deletedAt => decide (now - Instant.days hookRecoveryDays ≤ deletedAt)

section

variable {α ρ : Type} (columns : LogColumns α ρ)

def LogColumns.boundary (row : α) : HistoryCursor := ⟨columns.receivedAt row, columns.id row⟩

/-- `(received_at, id) < ($3, $4)`. -/
def HistoryCursor.before (row boundary : HistoryCursor) : Bool :=
  decide (row.receivedAt < boundary.receivedAt ∨
    row.receivedAt = boundary.receivedAt ∧ row.id < boundary.id)

def historySelects (request : HistoryPageRequest) (now : Instant) (hooks : Table HookRow)
    (row : α) : Bool :=
  (hooks.find (columns.hookId row)).any (historyHook request.siliconUuid now) &&
    request.filter.hookId.all (fun hookId => columns.hookId row = hookId) &&
    decide (now < columns.expiresAt row) &&
    request.cursor.all (fun cursor => (columns.boundary row).before cursor)

/-- The rows a history query returns: newest first, one more than the page holds. -/
def historyRows (request : HistoryPageRequest) (now : Instant) (hooks : Table HookRow)
    (rows : List α) : List α :=
  ((rows.filter (historySelects columns request now hooks)).insertionSort fun a b =>
    (columns.boundary a).before (columns.boundary b) = false).take (request.limit + 1)

/-- The loop over the stream of rows: `size` estimates what a row adds to the response. -/
def collectPage (size : CapturedRequest → Nat) (limit : Nat) (items : List ρ) (bytes : Nat)
    (boundary : Option HistoryCursor) : List α → Except StoreError (HistoryPage ρ)
  | [] => .ok ⟨items, none⟩
  | row :: rows =>
    let rowBytes := size (columns.request row)
    if items.length = limit then .ok ⟨items, boundary⟩
    else if items ≠ [] ∧ historyPageByteBudget < bytes + rowBytes then .ok ⟨items, boundary⟩
    else match columns.record row with
      | .error e => .error e
      | .ok item =>
        collectPage size limit (items ++ [item]) (bytes + rowBytes)
          (some (columns.boundary row)) rows

def validateLimit (limit : Nat) : Except StoreError Unit :=
  ensure (limit ≠ 0 ∧ limit ≤ maxHistoryLimit)
    (.invalidArgument "limit" "must be between 1 and 10000")

def listHistory (size : CapturedRequest → Nat) (request : HistoryPageRequest) (now : Instant)
    (hooks : Table HookRow) (rows : List α) : Except StoreError (HistoryPage ρ) := do
  validateLimit request.limit
  collectPage columns size request.limit [] 0 none (historyRows columns request now hooks rows)

end

def listEvents (size : CapturedRequest → Nat) (request : HistoryPageRequest) (now : Instant)
    (db : Store) : Except StoreError (HistoryPage EventRecord) :=
  listHistory EventRow.columns size request now db.hooks db.events.rows

def listBlockedRequests (size : CapturedRequest → Nat) (request : HistoryPageRequest)
    (now : Instant) (db : Store) : Except StoreError (HistoryPage BlockedRequest) :=
  listHistory BlockedRequestRow.columns size request now db.hooks db.blockedRequests.rows

def getEvent (siliconUuid : AccountUuid) (eventId : EventId) (now : Instant) (db : Store) :
    Except StoreError (Option EventRecord) :=
  match (db.events.find eventId).filter fun event =>
      (db.hooks.find event.hookId).any (historyHook siliconUuid now) &&
        decide (now < event.expiresAt) with
  | none => .ok none
  | some event => event.toRecord.map some

def Shows {ρ : Type} (list : HistoryPageRequest → Except StoreError (HistoryPage ρ))
    (siliconUuid : AccountUuid) (item : ρ) : Prop :=
  ∃ request page, request.siliconUuid = siliconUuid ∧ list request = .ok page ∧ item ∈ page.items

-- -----------------------------------------------------------------------------
-- Pages
-- -----------------------------------------------------------------------------

theorem HistoryCursor.exists_after (boundary : HistoryCursor) :
    ∃ cursor : HistoryCursor, ∀ other : HistoryCursor,
      other.before cursor = true ↔ other.before boundary = true ∨ other = boundary := by
  obtain ⟨receivedAt, id⟩ := boundary
  by_cases hlast : id.toNat + 1 < 2 ^ 128
  · refine ⟨⟨receivedAt, BitVec.ofNatLT (id.toNat + 1) hlast⟩, ?_⟩
    rintro ⟨otherAt, otherId⟩
    simp only [before, decide_eq_true_eq, HistoryCursor.mk.injEq, BitVec.lt_def,
      BitVec.toNat_ofNatLT, BitVec.toNat_eq]
    constructor
    · rintro (h | ⟨h, hid⟩)
      · exact .inl (.inl h)
      · rcases Nat.lt_succ_iff_lt_or_eq.mp hid with hlt | heq
        · exact .inl (.inr ⟨h, hlt⟩)
        · exact .inr ⟨h, heq⟩
    · rintro ((h | ⟨h, hid⟩) | ⟨h, hid⟩)
      · exact .inl h
      · exact .inr ⟨h, by omega⟩
      · exact .inr ⟨h, by omega⟩
  · refine ⟨⟨receivedAt + 1, 0⟩, ?_⟩
    rintro ⟨otherAt, otherId⟩
    have hother := otherId.isLt
    have hid := id.isLt
    simp only [before, decide_eq_true_eq, HistoryCursor.mk.injEq, BitVec.lt_def,
      BitVec.toNat_eq]
    unfold Instant at *
    constructor
    · rintro (h | ⟨-, hlt⟩)
      · omega
      · exact absurd hlt (Nat.not_lt_zero _)
    · intro h
      exact .inl (by omega)

section

variable {α ρ : Type} {columns : LogColumns α ρ} {size : CapturedRequest → Nat} {row : α}
  {rows : List α} {item : ρ} {request : HistoryPageRequest} {t : Instant} {hooks : Table HookRow}

theorem mem_collectPage {limit bytes : Nat} {items : List ρ} {boundary : Option HistoryCursor}
    {page : HistoryPage ρ}
    (h : collectPage columns size limit items bytes boundary rows = .ok page)
    (hm : item ∈ page.items) :
    item ∈ items ∨ ∃ row ∈ rows, columns.record row = .ok item := by
  induction rows generalizing items bytes boundary with
  | nil =>
    cases h
    exact .inl hm
  | cons row rows ih =>
    unfold collectPage at h
    dsimp only at h
    split at h
    · cases h
      exact .inl hm
    · split at h
      · cases h
        exact .inl hm
      · split at h
        · cases h
        · rename_i found hfound
          rcases ih h with hearlier | ⟨later, hlater, heq⟩
          · rcases List.mem_append.mp hearlier with hitems | hlast
            · exact .inl hitems
            · rw [List.mem_singleton.mp hlast]
              exact .inr ⟨row, List.mem_cons_self, hfound⟩
          · exact .inr ⟨later, List.mem_cons_of_mem _ hlater, heq⟩

theorem collectPage_one (hrec : columns.record row = .ok item) :
    ∃ cursor, collectPage columns size 1 [] 0 none (row :: rows) = .ok ⟨[item], cursor⟩ := by
  unfold collectPage
  rw [if_neg (by simp), if_neg (by simp), hrec]
  cases rows with
  | nil => exact ⟨none, rfl⟩
  | cons next rows =>
    unfold collectPage
    exact ⟨some (columns.boundary row), if_pos rfl⟩

theorem mem_historyRows (hm : row ∈ historyRows columns request t hooks rows) :
    row ∈ rows ∧ historySelects columns request t hooks row = true :=
  List.mem_filter.mp ((List.mem_insertionSort _).mp (List.mem_of_mem_take hm))

theorem historyRows_first (hm : row ∈ rows)
    (hselected : historySelects columns request t hooks row = true)
    (hfirst : ∀ other ∈ rows, historySelects columns request t hooks other = true →
      other = row ∨ (columns.boundary other).before (columns.boundary row) = true) :
    ∃ rest, historyRows columns request t hooks rows = row :: rest := by
  let newer := fun a b : α => (columns.boundary a).before (columns.boundary b) = false
  have htotal : Std.Total newer := ⟨fun a b => by
    simp only [newer, HistoryCursor.before, decide_eq_false_iff_not, BitVec.lt_def]
    unfold Instant
    omega⟩
  have htrans : IsTrans α newer := ⟨fun a b c => by
    simp only [newer, HistoryCursor.before, decide_eq_false_iff_not, BitVec.lt_def]
    unfold Instant
    omega⟩
  have hsorted := List.pairwise_insertionSort newer
    (rows.filter (historySelects columns request t hooks))
  have hin : row ∈ (rows.filter (historySelects columns request t hooks)).insertionSort newer :=
    (List.mem_insertionSort _).mpr (List.mem_filter.mpr ⟨hm, hselected⟩)
  unfold historyRows
  cases heq : (rows.filter (historySelects columns request t hooks)).insertionSort newer with
  | nil =>
    rw [heq] at hin
    cases hin
  | cons first rest =>
    rw [heq] at hin hsorted
    have hmem : first ∈ rows.filter (historySelects columns request t hooks) :=
      (List.mem_insertionSort newer).mp (heq ▸ List.mem_cons_self)
    obtain ⟨hfirstIn, hfirstSelected⟩ := List.mem_filter.mp hmem
    have hrow : first = row := by
      rcases List.mem_cons.mp hin with hsame | hlater
      · exact hsame.symm
      · rcases hfirst first hfirstIn hfirstSelected with hsame | hbefore
        · exact hsame
        · have hnewer : newer first row := (List.pairwise_cons.mp hsorted).1 row hlater
          exact absurd (hbefore.symm.trans hnewer) (by decide)
    rw [hrow, List.take_succ_cons]
    exact ⟨_, rfl⟩

/-- Some page shows an unexpired row's record exactly when the history joins its hook. -/
theorem shows_iff {owner : AccountUuid} (hm : row ∈ rows) (hrec : columns.record row = .ok item)
    (hlive : t < columns.expiresAt row)
    (hids : ∀ other ∈ rows, columns.id other = columns.id row → other = row)
    (hsame : ∀ other ∈ rows, columns.record other = .ok item →
      columns.hookId other = columns.hookId row) :
    Shows (fun request => listHistory columns size request t hooks rows) owner item ↔
      (hooks.find (columns.hookId row)).any (historyHook owner t) = true := by
  constructor
  · rintro ⟨request, page, rfl, hlist, hitem⟩
    obtain ⟨-, -, hpage⟩ := Except.bind_ok.mp hlist
    rcases mem_collectPage hpage hitem with hnone | ⟨other, hother, hrecord⟩
    · cases hnone
    · obtain ⟨hstored, hselected⟩ := mem_historyRows hother
      rw [← hsame other hstored hrecord]
      simp only [historySelects, Bool.and_eq_true] at hselected
      exact hselected.1.1.1
  · intro hjoined
    obtain ⟨cursor, hcursor⟩ := (columns.boundary row).exists_after
    let request : HistoryPageRequest := ⟨owner, ⟨none⟩, some cursor, 1⟩
    have hselected : historySelects columns request t hooks row = true := by
      simp only [historySelects, request, hjoined, hlive, Option.all_none, Option.all_some,
        decide_true, Bool.true_and]
      exact (hcursor _).mpr (.inr rfl)
    obtain ⟨rest, hrows⟩ := historyRows_first hm hselected fun other hother hadmitted => by
      simp only [historySelects, Bool.and_eq_true] at hadmitted
      rcases (hcursor _).mp hadmitted.2 with hbefore | hat
      · exact .inr hbefore
      · exact .inl (hids other hother (congrArg HistoryCursor.id hat))
    have hone : ∃ cursor, collectPage columns size 1 [] 0 none (row :: rest) =
        .ok ⟨[item], cursor⟩ := collectPage_one hrec
    obtain ⟨next, hpage⟩ := hone
    refine ⟨request, ⟨[item], next⟩, rfl, ?_, List.mem_singleton_self item⟩
    show listHistory columns size request t hooks rows = _
    unfold listHistory
    rw [hrows]
    exact hpage

end

end SiliconHook
