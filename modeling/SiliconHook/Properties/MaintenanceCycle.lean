import Mathlib.Algebra.Order.BigOperators.Group.List
import Mathlib.Algebra.Order.Ring.Nat
import Mathlib.Data.List.Sort
import SiliconHook.Worker.Maintenance

/-!
# What a maintenance cycle gets done

Every class gets its batches whatever the others do; each batch removes the oldest
eligible rows of its class and no others; and a class that a cycle leaves finished has
nothing left that was due when its last batch ran.
-/

namespace SiliconHook

-- -----------------------------------------------------------------------------
-- Deletions
-- -----------------------------------------------------------------------------

def Victim.task : Victim → MaintenanceTask
  | event _ => .expiredEvents
  | blockedRequest _ => .expiredBlockedRequests
  | hook _ => .expiredHooks
  | idempotency _ => .expiredIdempotency
  | ipBlock _ _ => .staleIpBlocks
  | accountsEvent _ => .expiredAccountsEvents

variable {db : Store} {received : String → Instant} {task : MaintenanceTask} {victim : Victim}
  {batchSize : Nat} {clock : Instant}

theorem retained_task {row : RetainedRow} (h : row ∈ db.retainedRows received task) :
    row.victim.task = task := by
  cases task <;> obtain ⟨_, -, rfl⟩ := List.mem_map.mp h <;> rfl

theorem nodup_victims {α κ : Type} [Keyed α κ] (t : Table α) {wrap : α → RetainedRow}
    {name : κ → Victim} (hname : Function.Injective name)
    (h : ∀ row, (wrap row).victim = name (Keyed.key row)) :
    ((t.rows.map wrap).map RetainedRow.victim).Nodup := by
  have hkeys : (t.rows.map wrap).map RetainedRow.victim = (t.rows.map Keyed.key).map name := by
    rw [List.map_map, List.map_map]
    exact List.map_congr_left fun row _ => h row
  exact hkeys ▸ t.nodup.map hname

theorem delete_victim {α κ : Type} [Keyed α κ] (t : Table α) (wrap : α → RetainedRow)
    {p : α → Bool} (h : ∀ row, p row = true ↔ (wrap row).victim = victim) :
    (t.delete p).rows.map wrap = (t.rows.map wrap).filter fun row => row.victim ≠ victim := by
  rw [List.filter_map]
  refine congrArg (List.map wrap) (List.filter_congr fun row _ => ?_)
  rw [Function.comp_apply, Bool.eq_iff_iff, decide_eq_true_eq, Bool.not_eq_true', ne_eq,
    ← h row, Bool.not_eq_true]

theorem retained_nodup (db : Store) (received : String → Instant) (task : MaintenanceTask) :
    ((db.retainedRows received task).map RetainedRow.victim).Nodup := by
  cases task with
  | expiredEvents =>
    exact nodup_victims db.events (fun a b h => Victim.event.inj h) fun _ => rfl
  | expiredBlockedRequests =>
    exact nodup_victims db.blockedRequests (fun a b h => Victim.blockedRequest.inj h) fun _ => rfl
  | expiredHooks => exact nodup_victims db.hooks (fun a b h => Victim.hook.inj h) fun _ => rfl
  | expiredIdempotency =>
    rw [Store.retainedRows, List.map_map]
    exact db.managementIdempotency.nodup_rows.map fun a b h => Victim.idempotency.inj h
  | staleIpBlocks =>
    have hname : Function.Injective fun key : HookId × String => Victim.ipBlock key.1 key.2 :=
      fun a b h => Prod.ext (Victim.ipBlock.inj h).1 (Victim.ipBlock.inj h).2
    exact nodup_victims db.ipBlocks hname fun _ => rfl
  | expiredAccountsEvents =>
    exact nodup_victims db.accountsEvents (fun a b h => Victim.accountsEvent.inj h) fun _ => rfl

theorem retainedRows_purge (h : victim.task = task) :
    (db.purge victim).retainedRows received task =
      (db.retainedRows received task).filter fun row => row.victim ≠ victim := by
  subst h
  cases victim with
  | event id =>
    refine delete_victim db.events .event fun row => ?_
    simp [RetainedRow.victim]
  | blockedRequest id =>
    refine delete_victim db.blockedRequests .blockedRequest fun row => ?_
    simp [RetainedRow.victim]
  | hook id =>
    refine delete_victim db.hooks .hook fun row => ?_
    simp [RetainedRow.victim, eq_comm]
  | idempotency version =>
    refine delete_victim db.managementIdempotency .idempotency fun row => ?_
    simp [RetainedRow.victim]
  | ipBlock hookId remoteIp =>
    refine delete_victim db.ipBlocks .ipBlock fun row => ?_
    simp [RetainedRow.victim, addressRow]
  | accountsEvent id =>
    refine delete_victim db.accountsEvents (fun row => .accountsEvent row (received row.eventId))
      fun row => ?_
    simp [RetainedRow.victim]

theorem retainedRows_purge_sublist (db : Store) (received : String → Instant) (victim : Victim)
    (task : MaintenanceTask) :
    ((db.purge victim).retainedRows received task).Sublist (db.retainedRows received task) := by
  cases victim <;> cases task <;>
    first
      | exact List.Sublist.refl _
      | exact List.Sublist.map _ List.filter_sublist

-- -----------------------------------------------------------------------------
-- Batches
-- -----------------------------------------------------------------------------

theorem retainedRows_foldl {victims : List Victim} (h : ∀ victim ∈ victims, victim.task = task) :
    (victims.foldl Store.purge db).retainedRows received task =
      (db.retainedRows received task).filter fun row => row.victim ∉ victims := by
  induction victims generalizing db with
  | nil => simp
  | cons victim rest ih =>
    obtain ⟨hv, hrest⟩ := List.forall_mem_cons.mp h
    rw [List.foldl_cons, ih hrest, retainedRows_purge hv, List.filter_filter]
    refine List.filter_congr fun row _ => ?_
    simp [not_or, Bool.and_comm]

def RetainedRow.Older (a b : RetainedRow) : Prop :=
  a.order.1 < b.order.1 ∨ a.order.1 = b.order.1 ∧ a.order.2 ≤ b.order.2

instance : DecidableRel RetainedRow.Older := fun _ _ =>
  inferInstanceAs (Decidable (_ < _ ∨ _ = _ ∧ _ ≤ _))

instance : Std.Total RetainedRow.Older where
  total a b := by
    rcases Int.lt_trichotomy a.order.1 b.order.1 with h | h | h
    · exact .inl (.inl h)
    · exact (Nat.le_total a.order.2 b.order.2).imp (fun hle => .inr ⟨h, hle⟩)
        fun hle => .inr ⟨h.symm, hle⟩
    · exact .inr (.inl h)

instance : IsTrans RetainedRow RetainedRow.Older where
  trans a b c := by
    rintro (hab | ⟨hab, hle⟩) (hbc | ⟨hbc, hle'⟩)
    · exact .inl (Int.lt_trans hab hbc)
    · exact .inl (hbc ▸ hab)
    · exact .inl (hab ▸ hbc)
    · exact .inr ⟨hab.trans hbc, Nat.le_trans hle hle'⟩

/-- The rows a statement removes: the oldest of the eligible, as many as the batch takes. -/
def Store.oldest (db : Store) (received : String → Instant) (task : MaintenanceTask)
    (batchSize : Nat) (clock : Instant) : List RetainedRow :=
  (((db.retainedRows received task).filter (·.eligible clock)).insertionSort
    RetainedRow.Older).take batchSize

theorem victims_eq : db.victims received task batchSize clock =
    (db.oldest received task batchSize clock).map RetainedRow.victim := rfl

theorem mem_oldest {row : RetainedRow} (h : row ∈ db.oldest received task batchSize clock) :
    row ∈ db.retainedRows received task ∧ row.eligible clock = true :=
  List.mem_filter.mp ((List.mem_insertionSort _).mp (List.mem_of_mem_take h))

theorem length_oldest : (db.oldest received task batchSize clock).length =
    min batchSize ((db.retainedRows received task).filter (·.eligible clock)).length := by
  rw [Store.oldest, List.length_take, List.length_insertionSort]

theorem retainedRows_purgeVictims :
    (db.purgeVictims received task batchSize clock).retainedRows received task =
      (db.retainedRows received task).filter fun row =>
        row ∉ db.oldest received task batchSize clock := by
  rw [Store.purgeVictims, retainedRows_foldl, victims_eq]
  · refine List.filter_congr fun row hm => ?_
    have hinj := List.inj_on_of_nodup_map (retained_nodup db received task)
    rw [decide_eq_decide, List.mem_map]
    constructor
    · exact fun h hold => h ⟨row, hold, rfl⟩
    · rintro h ⟨old, hold, heq⟩
      exact h (hinj (mem_oldest hold).1 hm heq ▸ hold)
  · intro victim hv
    obtain ⟨row, hrow, rfl⟩ := List.mem_map.mp (victims_eq ▸ hv)
    exact retained_task (mem_oldest hrow).1

theorem retained_rows_nodup (db : Store) (received : String → Instant) (task : MaintenanceTask) :
    (db.retainedRows received task).Nodup := (retained_nodup db received task).of_map

theorem oldest_nodup : (db.oldest received task batchSize clock).Nodup := by
  refine (List.take_sublist _ _).nodup ?_
  rw [(List.perm_insertionSort _ _).nodup_iff]
  exact (retained_rows_nodup db received task).filter _

theorem length_retained_sub : (db.retainedRows received task).length -
    ((db.purgeVictims received task batchSize clock).retainedRows received task).length =
      (db.oldest received task batchSize clock).length := by
  rw [retainedRows_purgeVictims]
  have hperm : ((db.retainedRows received task).filter fun row =>
      row ∈ db.oldest received task batchSize clock).Perm
        (db.oldest received task batchSize clock) := by
    refine (List.perm_ext_iff_of_nodup ((retained_rows_nodup db received task).filter _)
      oldest_nodup).mpr fun row => ?_
    rw [List.mem_filter, decide_eq_true_eq]
    exact ⟨fun h => h.2, fun h => ⟨(mem_oldest h).1, h⟩⟩
  have hsplit := List.length_eq_countP_add_countP
    (fun row => decide (row ∈ db.oldest received task batchSize clock))
    (l := db.retainedRows received task)
  rw [List.countP_eq_length_filter, List.countP_eq_length_filter, hperm.length_eq] at hsplit
  simp only [decide_eq_true_eq] at hsplit
  omega

structure SweepStatement.Removes (received : String → Instant) (batchSize : Nat)
    (s : SweepStatement) (rows : Nat) (removed : List RetainedRow) : Prop where
  rows_eq : removed.length = rows
  full : rows = min batchSize
    ((s.before.retainedRows received s.task).filter (·.eligible s.clock)).length
  eligible : ∀ row ∈ removed, row ∈ s.before.retainedRows received s.task ∧
    row.eligible s.clock = true
  left : s.after.retainedRows received s.task =
    (s.before.retainedRows received s.task).filter fun row => row ∉ removed
  oldest : ∀ row ∈ removed, ∀ kept ∈ s.after.retainedRows received s.task,
    kept.eligible s.clock = true → row.Older kept

/-- A statement removes the oldest eligible rows of its class, up to a batch, and leaves no
eligible one where it removed fewer; one that fails changes nothing. -/
def SweepStatement.Exact (received : String → Instant) (batchSize : Nat) (s : SweepStatement) :
    Prop :=
  match s.rows with
  | none => s.after = s.before
  | some rows => (∃ removed, s.Removes received batchSize rows removed) ∧
      (rows < batchSize → ∀ row ∈ s.after.retainedRows received s.task,
        row.eligible s.clock = false)

theorem oldest_before {row kept : RetainedRow}
    (hrow : row ∈ db.oldest received task batchSize clock)
    (hkept : kept ∈ db.retainedRows received task) (he : kept.eligible clock = true)
    (hout : kept ∉ db.oldest received task batchSize clock) : row.Older kept := by
  have hsorted := List.pairwise_insertionSort RetainedRow.Older
    ((db.retainedRows received task).filter (·.eligible clock))
  have hmem : kept ∈ ((db.retainedRows received task).filter (·.eligible clock)).insertionSort
      RetainedRow.Older := (List.mem_insertionSort _).mpr (List.mem_filter.mpr ⟨hkept, he⟩)
  rw [← List.take_append_drop batchSize (List.insertionSort _ _)] at hsorted hmem
  rcases List.mem_append.mp hmem with hin | hin
  · exact absurd hin hout
  · exact (List.pairwise_append.mp hsorted).2.2 row hrow kept hin

theorem purgeVictims_exact (before : Store) (received : String → Instant) (task : MaintenanceTask)
    (batchSize : Nat) (clock : Instant) :
    SweepStatement.Exact received batchSize ⟨task, clock, before,
      some (before.oldest received task batchSize clock).length,
      before.purgeVictims received task batchSize clock⟩ := by
  refine ⟨⟨before.oldest received task batchSize clock, rfl, length_oldest,
    fun row hm => mem_oldest hm, retainedRows_purgeVictims, fun row hrow kept hkept he => ?_⟩,
    fun hfew row hm => ?_⟩
  · obtain ⟨hkept, hout⟩ := List.mem_filter.mp (retainedRows_purgeVictims ▸ hkept)
    exact oldest_before hrow hkept he (of_decide_eq_true hout)
  · obtain ⟨hm, hout⟩ := List.mem_filter.mp (retainedRows_purgeVictims ▸ hm)
    cases he : row.eligible clock with
    | false => rfl
    | true =>
      -- with room left in the batch every eligible row is among the oldest
      refine absurd ?_ (of_decide_eq_true hout)
      rw [length_oldest] at hfew
      rw [Store.oldest, List.take_of_length_le]
      · exact (List.mem_insertionSort _).mpr (List.mem_filter.mpr ⟨hm, he⟩)
      · rw [List.length_insertionSort]
        omega

-- -----------------------------------------------------------------------------
-- Turns
-- -----------------------------------------------------------------------------

/-- The statement used its whole batch, so that its class stays at work. -/
def SweepStatement.full (batchSize : Nat) (s : SweepStatement) : Bool := s.rows = some batchSize

def ownStatements (statements : List SweepStatement) (task : MaintenanceTask) :
    List SweepStatement := statements.filter fun s => s.task = task

variable {settings : MaintenanceSettings} {draws : Nat → SweepDraw} {s : Sweep}

theorem runMaintenanceTask_ok (settings : MaintenanceSettings) (db : Store)
    (received : String → Instant) (task : MaintenanceTask) (clock : Instant) :
    db.runMaintenanceTask received task settings.batchSize clock =
      .ok (⟨(db.oldest received task settings.batchSize clock).length,
        decide ((db.oldest received task settings.batchSize clock).length = settings.batchSize)⟩,
        db.purgeVictims received task settings.batchSize clock) := by
  have hsize : ¬ (settings.batchSize = 0 ∨ maxMaintenanceBatch < settings.batchSize) :=
    not_or.mpr ⟨Nat.ne_of_gt settings.batchSize_pos, Nat.not_lt.mpr settings.batchSize_le⟩
  rw [Store.runMaintenanceTask, if_neg hsize]
  dsimp only
  rw [length_retained_sub]

structure SweepTurn (settings : MaintenanceSettings) (received : String → Instant)
    (draws : Nat → SweepDraw) (task : MaintenanceTask) (s : Sweep) (after : Sweep × Bool)
    (statement : SweepStatement) : Prop where
  statements : after.1.statements = s.statements ++ [statement]
  task_eq : statement.task = task
  clock : statement.clock = (draws s.statements.length).clock
  before : statement.before = (draws s.statements.length).elsewhere s.db
  db : after.1.db = statement.after
  purged : ∀ other, (statement.after.retainedRows received other).Sublist
    (statement.before.retainedRows received other)
  exact : statement.Exact received settings.batchSize
  more : after.2 = statement.full settings.batchSize
  counted : ∀ other, after.1.result.count other = if task = other then
    statement.rows.elim (s.result.count other) (saturatingAdd (s.result.count other))
    else s.result.count other
  failed : after.1.failedTasks =
    if statement.rows = none then min (s.failedTasks + 1) 255 else s.failedTasks

theorem purgeVictims_sublist (before : Store) (received : String → Instant)
    (task other : MaintenanceTask) (batchSize : Nat) (clock : Instant) :
    ((before.purgeVictims received task batchSize clock).retainedRows received other).Sublist
      (before.retainedRows received other) := by
  unfold Store.purgeVictims
  generalize before.victims received task batchSize clock = victims
  induction victims generalizing before with
  | nil => exact List.Sublist.refl _
  | cons victim rest ih =>
    exact (ih (before.purge victim)).trans (retainedRows_purge_sublist before received victim other)

theorem sweep_turn (settings : MaintenanceSettings) (received : String → Instant)
    (draws : Nat → SweepDraw) (task : MaintenanceTask) (s : Sweep) :
    ∃ statement, SweepTurn settings received draws task s
      (settings.sweep received draws task s) statement := by
  unfold MaintenanceSettings.sweep
  dsimp only
  rw [runMaintenanceTask_ok]
  cases hfailed : (draws s.statements.length).failed with
  | true =>
    refine ⟨⟨task, _, _, none, _⟩, rfl, rfl, rfl, rfl, rfl, fun _ => List.Sublist.refl _, rfl, rfl,
      fun other => (ite_self _).symm, rfl⟩
  | false =>
    refine ⟨⟨task, _, _, some _, _⟩, rfl, rfl, rfl, rfl, rfl,
      fun other => purgeVictims_sublist .., purgeVictims_exact .., ?_,
      fun other => MaintenanceResult.count_addBatch .., rfl⟩
    simp [SweepStatement.full]

-- -----------------------------------------------------------------------------
-- Cycles
-- -----------------------------------------------------------------------------

def rowsRemoved (statements : List SweepStatement) (task : MaintenanceTask) : Nat :=
  ((ownStatements statements task).map fun s => s.rows.getD 0).sum

structure SweepInv (settings : MaintenanceSettings) (received : String → Instant)
    (c : Rota MaintenanceTask Sweep) : Prop where
  served : c.served = c.state.statements.map fun s => (s.task, s.full settings.batchSize)
  exact : ∀ s ∈ c.state.statements, s.Exact received settings.batchSize
  counted : ∀ task, c.state.result.count task =
    min (rowsRemoved c.state.statements task) (2 ^ 64 - 1)
  failed : c.state.failedTasks =
    min (c.state.statements.filter fun s => s.rows = none).length 255

theorem ownStatements_append (statements : List SweepStatement) (statement : SweepStatement)
    (task : MaintenanceTask) : ownStatements (statements ++ [statement]) task =
      if statement.task = task then ownStatements statements task ++ [statement]
      else ownStatements statements task := by
  unfold ownStatements
  rw [List.filter_append]
  by_cases h : statement.task = task
  · simp [h]
  · simp [h]

theorem rowsRemoved_append (statements : List SweepStatement) (statement : SweepStatement)
    (task : MaintenanceTask) : rowsRemoved (statements ++ [statement]) task =
      if statement.task = task then rowsRemoved statements task + statement.rows.getD 0
      else rowsRemoved statements task := by
  unfold rowsRemoved
  rw [ownStatements_append]
  split
  · rw [List.map_append, List.sum_append, List.map_singleton, List.sum_singleton]
  · rfl

theorem SweepInv.turn {c : Rota MaintenanceTask Sweep} (h : SweepInv settings received c)
    (ha : c.active task = true) :
    SweepInv settings received (c.turn (settings.sweep received draws) task) := by
  obtain ⟨statement, hturn⟩ := sweep_turn settings received draws task c.state
  rw [Rota.turn_active ha]
  refine ⟨?_, ?_, fun other => ?_, ?_⟩
  · dsimp only
    rw [hturn.statements, List.map_append, List.map_singleton, h.served, hturn.more,
      hturn.task_eq]
  · dsimp only
    rw [hturn.statements]
    exact List.forall_mem_append.mpr ⟨h.exact, List.forall_mem_singleton.mpr hturn.exact⟩
  · dsimp only
    rw [hturn.counted, hturn.statements, rowsRemoved_append, hturn.task_eq, h.counted]
    by_cases hother : task = other
    · rw [if_pos hother, if_pos hother]
      cases statement.rows with
      | none => rfl
      | some rows =>
        show min (min _ _ + rows) _ = min (_ + rows) _
        omega
    · rw [if_neg hother, if_neg hother]
  · dsimp only
    rw [hturn.failed, hturn.statements, List.filter_append, List.length_append, h.failed]
    by_cases hnone : statement.rows = none
    · rw [if_pos hnone, List.filter_singleton, decide_eq_true hnone, cond_true,
        List.length_singleton]
      omega
    · rw [if_neg hnone, List.filter_singleton, decide_eq_false hnone, cond_false,
        List.length_nil, Nat.add_zero]

theorem SweepInv.turnsOf {c : Rota MaintenanceTask Sweep} (h : SweepInv settings received c)
    (task : MaintenanceTask) : Rota.turnsOf c.served task =
      (ownStatements c.state.statements task).map (·.full settings.batchSize) := by
  rw [h.served, Rota.turnsOf, List.filter_map, List.map_map]
  rfl

/-- With nothing else at work: a cycle only takes rows away, and its clock does not go back. -/
structure QuietInv (received : String → Instant) (begin' : Instant)
    (c : Rota MaintenanceTask Sweep) : Prop where
  later : ∀ s ∈ c.state.statements, begin' ≤ s.clock
  shrinks : ∀ s ∈ c.state.statements, ∀ task,
    (c.state.db.retainedRows received task).Sublist (s.after.retainedRows received task)

theorem QuietInv.turn {begin' : Instant} {c : Rota MaintenanceTask Sweep}
    (h : QuietInv received begin' c) (settings : MaintenanceSettings)
    (hquiet : ∀ n, (draws n).elsewhere = id) (hclock : ∀ n, begin' ≤ (draws n).clock)
    (ha : c.active task = true) :
    QuietInv received begin' (c.turn (settings.sweep received draws) task) := by
  obtain ⟨statement, hturn⟩ := sweep_turn settings received draws task c.state
  have hbefore : statement.before = c.state.db := by
    rw [hturn.before, hquiet]
    rfl
  rw [Rota.turn_active ha]
  refine ⟨?_, ?_⟩
  · dsimp only
    rw [hturn.statements]
    refine List.forall_mem_append.mpr ⟨h.later, List.forall_mem_singleton.mpr ?_⟩
    exact hturn.clock ▸ hclock _
  · dsimp only
    rw [hturn.statements, hturn.db]
    refine List.forall_mem_append.mpr ⟨fun s hm other => ?_, List.forall_mem_singleton.mpr ?_⟩
    · exact (hbefore ▸ hturn.purged other).trans (h.shrinks s hm other)
    · exact fun other => List.Sublist.refl _

theorem RetainedRow.eligible_mono {row : RetainedRow} {clock later : Instant}
    (h : row.eligible clock = true) (hle : clock ≤ later) : row.eligible later = true := by
  have hback : ∀ days : Instant, clock - days ≤ later - days := fun days =>
    Int.sub_le_sub_right hle days
  cases row with
  | event row => exact decide_eq_true ((of_decide_eq_true h).trans hle)
  | blockedRequest row => exact decide_eq_true ((of_decide_eq_true h).trans hle)
  | hook row =>
    obtain ⟨deletedAt, hd, hlt⟩ := (Option.any_eq_true _ _).mp h
    refine (Option.any_eq_true _ _).mpr ⟨deletedAt, hd, decide_eq_true ?_⟩
    exact Int.lt_of_lt_of_le (of_decide_eq_true hlt) (hback _)
  | idempotency row => exact decide_eq_true ((of_decide_eq_true h).trans hle)
  | ipBlock row =>
    obtain ⟨hblocked, hupdated⟩ := Bool.and_eq_true_iff.mp h
    refine Bool.and_eq_true_iff.mpr ⟨?_, decide_eq_true ?_⟩
    · refine (Option.all_eq_true _ _).mpr fun blockedUntil hb => decide_eq_true ?_
      exact (of_decide_eq_true ((Option.all_eq_true _ _).mp hblocked blockedUntil hb)).trans hle
    · exact Int.lt_of_lt_of_le (of_decide_eq_true hupdated) (hback _)
  | accountsEvent row receivedAt =>
    exact decide_eq_true (Int.lt_of_lt_of_le (of_decide_eq_true h) (hback _))

namespace MaintenanceSettings

/-- What a maintenance cycle gets done, whatever other transactions do and fail meanwhile. -/
structure CycleDone (settings : MaintenanceSettings) (received : String → Instant)
    (draws : Nat → SweepDraw) (c : Rota MaintenanceTask Sweep) : Prop where
  fair : ∀ past, past <+: c.state.statements → ∀ task other,
    (ownStatements past task).length ≤ (ownStatements past other).length + 1 ∨
      ∃ s ∈ past, s.task = other ∧ s.full settings.batchSize = false
  working : ∀ task, c.active task = true →
    (ownStatements c.state.statements task).length = settings.batchesPerCycle ∧
      ∀ s ∈ ownStatements c.state.statements task, s.full settings.batchSize = true
  finished : ∀ task, c.active task = false → ∃ full last,
    ownStatements c.state.statements task = full ++ [last] ∧
      full.length < settings.batchesPerCycle ∧
      (∀ s ∈ full, s.full settings.batchSize = true) ∧ last.full settings.batchSize = false
  exact : ∀ s ∈ c.state.statements, s.Exact received settings.batchSize
  counted : ∀ task, c.state.result.count task = rowsRemoved c.state.statements task
  failed : c.state.failedTasks = (c.state.statements.filter fun s => s.rows = none).length
  quiet : ∀ begin', (∀ n, (draws n).elsewhere = id) → (∀ n, begin' ≤ (draws n).clock) →
    ∀ task, c.active task = false →
      (∀ s ∈ ownStatements c.state.statements task, s.rows ≠ none) →
      ∀ row ∈ c.state.db.retainedRows received task, row.eligible begin' = false

theorem mem_all (task : MaintenanceTask) : task ∈ MaintenanceTask.all := by
  cases task <;> decide

theorem map_ownStatements (past : List SweepStatement) (batchSize : Nat) (task : MaintenanceTask) :
    Rota.turnsOf (past.map fun s => (s.task, s.full batchSize)) task =
      (ownStatements past task).map (·.full batchSize) := by
  rw [Rota.turnsOf, List.filter_map, List.map_map]
  rfl

theorem failed_nodup {batchSize : Nat} {statements : List SweepStatement}
    (h : ∀ task, ((ownStatements statements task).map (·.full batchSize)).count false ≤ 1) :
    ((statements.filter fun s => s.rows = none).map SweepStatement.task).Nodup := by
  refine List.nodup_iff_count_le_one.mpr fun task => (Nat.le_trans ?_ (h task))
  rw [List.count_eq_countP, List.countP_map, List.countP_filter, List.count_eq_countP,
    List.countP_map, ownStatements, List.countP_filter]
  refine List.countP_mono_left fun s _ hs => ?_
  simp only [Function.comp_apply, beq_iff_eq, Bool.and_eq_true, decide_eq_true_eq] at hs ⊢
  refine ⟨?_, hs.1⟩
  rw [SweepStatement.full, hs.2]
  exact decide_eq_false (by simp)

theorem rowsRemoved_le {statements : List SweepStatement} {batchSize rounds : Nat}
    (hexact : ∀ s ∈ statements, s.Exact received batchSize)
    (hlength : (ownStatements statements task).length ≤ rounds) :
    rowsRemoved statements task ≤ rounds * batchSize := by
  have hrows : ∀ n ∈ (ownStatements statements task).map fun s => s.rows.getD 0,
      n ≤ batchSize := by
    intro n hn
    obtain ⟨s, hs, rfl⟩ := List.mem_map.mp hn
    have he := hexact s (List.mem_filter.mp hs).1
    unfold SweepStatement.Exact at he
    cases hr : s.rows with
    | none => exact Nat.zero_le _
    | some rows =>
      rw [hr] at he
      obtain ⟨⟨removed, hremoves⟩, -⟩ := he
      exact hremoves.full ▸ Nat.min_le_left _ _
  refine Nat.le_trans (List.sum_le_card_nsmul _ _ hrows) ?_
  rw [List.length_map]
  exact Nat.mul_le_mul_right batchSize hlength

variable {c : Rota MaintenanceTask Sweep}

theorem quiet_finished (h : SweepInv settings received c) {begin' : Instant}
    (hq : QuietInv received begin' c) (hf : ∃ full last,
      ownStatements c.state.statements task = full ++ [last] ∧
        full.length < settings.batchesPerCycle ∧
        (∀ s ∈ full, s.full settings.batchSize = true) ∧ last.full settings.batchSize = false)
    (hnone : ∀ s ∈ ownStatements c.state.statements task, s.rows ≠ none) :
    ∀ row ∈ c.state.db.retainedRows received task, row.eligible begin' = false := by
  obtain ⟨full, last, hown, -, -, hlast⟩ := hf
  have hmem : last ∈ ownStatements c.state.statements task :=
    hown ▸ List.mem_append_right _ (List.mem_singleton_self _)
  obtain ⟨hm, htask⟩ := List.mem_filter.mp hmem
  obtain rfl : last.task = task := of_decide_eq_true htask
  have hexact := h.exact last hm
  intro row hrow
  have hafter : row ∈ last.after.retainedRows received last.task :=
    (hq.shrinks last hm last.task).subset hrow
  unfold SweepStatement.Exact at hexact
  cases hr : last.rows with
  | none => exact absurd hr (hnone last hmem)
  | some rows =>
    rw [hr] at hexact
    obtain ⟨⟨removed, hremoves⟩, hleft⟩ := hexact
    -- the batch was not used up, so that the statement left nothing eligible
    have hfew : rows < settings.batchSize := by
      refine Nat.lt_of_le_of_ne (hremoves.full ▸ Nat.min_le_left _ _) fun heq => ?_
      exact absurd (hr.trans (congrArg some heq)) (of_decide_eq_false hlast)
    cases he : row.eligible begin' with
    | false => rfl
    | true =>
      have hstill := row.eligible_mono he (hq.later last hm)
      rw [hleft hfew row hafter] at hstill
      cases hstill

theorem cycle_done (settings : MaintenanceSettings) (received : String → Instant)
    (draws : Nat → SweepDraw) (db : Store) :
    settings.CycleDone received draws (settings.runMaintenanceCycle received draws db) := by
  have hinv : SweepInv settings received (settings.runMaintenanceCycle received draws db) :=
    Rota.cycle_invariant (fun c task ha h => h.turn ha)
      ⟨rfl, fun _ hm => absurd hm List.not_mem_nil, fun task => by cases task <;> rfl, rfl⟩ _
  have hquiet : ∀ begin', (∀ n, (draws n).elsewhere = id) → (∀ n, begin' ≤ (draws n).clock) →
      QuietInv received begin' (settings.runMaintenanceCycle received draws db) :=
    fun begin' hq hclock => Rota.cycle_invariant
      (fun c task ha h => h.turn settings hq hclock ha)
      ⟨fun _ hm => absurd hm List.not_mem_nil, fun _ hm => absurd hm List.not_mem_nil⟩ _
  obtain ⟨hturns, hfair⟩ := Rota.cycle_reached (settings.sweep received draws)
    settings.batchesPerCycle (by decide : MaintenanceTask.all.Nodup) (Sweep.start db)
  have hkept : ∀ task, Rota.Kept settings.batchesPerCycle
      ((settings.runMaintenanceCycle received draws db).active task)
      ((ownStatements (settings.runMaintenanceCycle received draws db).state.statements
        task).map (·.full settings.batchSize)) := fun task =>
    hinv.turnsOf task ▸ hturns task (mem_all task)
  have hfinished : ∀ task, (settings.runMaintenanceCycle received draws db).active task = false →
      _ := fun task ha => Rota.Kept.finished (ha ▸ hkept task)
  refine ⟨?_, fun task ha => Rota.Kept.working (ha ▸ hkept task), hfinished, hinv.exact,
    fun task => ?_, ?_, fun begin' hq hclock task ha hnone =>
      quiet_finished hinv (hquiet begin' hq hclock) (hfinished task ha) hnone⟩
  · intro past hpast task other
    have hahead := hfair (past.map fun s => (s.task, s.full settings.batchSize))
      (hinv.served ▸ hpast.map _) task (mem_all task) other (mem_all other)
    rw [map_ownStatements, map_ownStatements, List.length_map, List.length_map] at hahead
    refine hahead.imp_right fun hm => ?_
    obtain ⟨s, hs, heq⟩ := List.mem_map.mp hm
    exact ⟨s, hs, (Prod.mk.inj heq).1, (Prod.mk.inj heq).2⟩
  · rw [hinv.counted]
    have hlength := (hkept task).length_le
    rw [List.length_map] at hlength
    have hsum := rowsRemoved_le hinv.exact hlength
    have hbound : settings.batchesPerCycle * settings.batchSize ≤ 1000 * 10000 :=
      Nat.mul_le_mul settings.batchesPerCycle_le settings.batchSize_le
    omega
  · rw [hinv.failed]
    have hnodup := failed_nodup fun task => (hkept task).count_false
    have hsix := (List.subperm_of_subset hnodup fun task _ => mem_all task).length_le
    rw [List.length_map] at hsix
    have hall : MaintenanceTask.all.length = 6 := rfl
    omega

end MaintenanceSettings

end SiliconHook
