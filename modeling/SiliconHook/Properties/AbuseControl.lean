import SiliconHook.Library.Transition
import SiliconHook.Application.Ingress
import SiliconHook.Properties.PolicyUpdates

/-!
# Abuse control under overlapping requests

Any number of requests on their way through the ingress, a store call of one at
a time, and the strikes and blocks they leave behind.
-/

namespace SiliconHook

-- -----------------------------------------------------------------------------
-- A request on its way
-- -----------------------------------------------------------------------------

inductive ReceiptStage
  | waiting
  | routed (hook : Hook) (receivedAt : Instant)
  | admitted (hook : Hook) (receivedAt : Instant)
  | struck (hook : Hook) (request : CapturedRequest) (reason : BlockReason)
  | finished
  deriving DecidableEq

structure Receipt where
  command : ReceiveRequestCommand
  draw : ReceiveDraw
  stage : ReceiptStage

inductive ReceiptMark
  | accepted
  | struck (outcome : StrikeOutcome)
  | logged
  deriving DecidableEq, Repr

namespace Receipt

def next (receiver : Ingress) (receipt : Receipt) (clock : Instant) (db : Store) :
    ReceiptStage × Store × Option ReceiptMark :=
  match receipt.stage with
  | .waiting =>
    match Ingress.route receipt.command clock db with
    | .error _ => (.finished, db, none)
    | .ok (hook, now) => (.routed hook now, db, none)
  | .routed hook now =>
    match checkIpBlock hook.id receipt.command.remoteIp now db with
    | (.blockedUntil _, db) => (.finished, db, none)
    | (.allowed, db) => (.admitted hook now, db, none)
  | .admitted hook now =>
    match receiver.assess receipt.command hook now with
    | .error _ => (.finished, db, none)
    | .ok (request, none) =>
      match receiver.codec.acceptEvent receiver.deliverySummary
          (receiver.acceptCommand hook request receipt.draw.eventId) receipt.draw.sendId
          receipt.draw.sendIds receipt.draw.queuedAt db with
      | .error _ => (.finished, db, none)
      | .ok (_, db) => (.finished, db, some .accepted)
    | .ok (request, some reason) =>
      match recordUnverifiedRequest hook.id request.remoteIp request.receivedAt db with
      | .error _ => (.finished, db, none)
      | .ok (outcome, db) => (.struck hook request reason, db, some (.struck outcome))
  | .struck hook request reason =>
    match recordBlockedRequest ⟨receipt.draw.blockedId, hook, request, reason⟩ db with
    | .error _ => (.finished, db, none)
    | .ok (_, db) => (.finished, db, some .logged)
  | .finished => (.finished, db, none)

def unchecked (receipt : Receipt) : Option ((HookId × String) × Instant) :=
  match receipt.stage with
  | .routed hook now => some ((hook.id, receipt.command.remoteIp), now)
  | _ => none

def checked (receipt : Receipt) : Option ((HookId × String) × Instant) :=
  match receipt.stage with
  | .admitted hook now => some ((hook.id, receipt.command.remoteIp), now)
  | .struck hook request _ => some ((hook.id, request.remoteIp), request.receivedAt)
  | _ => none

/-- The strike a request is about to leave: an admitted one that does not verify. -/
def strikes (receiver : Ingress) (receipt : Receipt) : Option ((HookId × String) × Instant) :=
  match receipt.stage with
  | .admitted hook now =>
    match receiver.assess receipt.command hook now with
    | .ok (_, some _) => some ((hook.id, receipt.command.remoteIp), now)
    | _ => none
  | _ => none

end Receipt

-- -----------------------------------------------------------------------------
-- The world
-- -----------------------------------------------------------------------------

structure ReceiptRecord where
  call : Nat
  address : HookId × String
  receivedAt : Instant
  mark : ReceiptMark
  deriving DecidableEq, Repr

abbrev Store.abuse (db : Store) (address : HookId × String) : IpBlockState :=
  db.addressState address.1 address.2

/-- Requests under way, and what their calls left, newest first. -/
structure IngressWorld where
  db : Store
  clock : Instant
  receipts : List Receipt
  history : List ReceiptRecord

inductive IngressLabel
  | performed (call : Nat)
  | ticked (elapsed : Nat)
  | elsewhere (other : Store)

namespace IngressWorld

def start (db : Store) (clock : Instant)
    (calls : List (ReceiveRequestCommand × ReceiveDraw)) : IngressWorld :=
  ⟨{ db with ipBlocks := .empty }, clock, calls.map fun (command, draw) => ⟨command, draw, .waiting⟩,
    []⟩

def recorded (world : IngressWorld) (call : Nat) (receipt : Receipt) (mark : Option ReceiptMark) :
    List ReceiptRecord :=
  match mark, receipt.checked with
  | some mark, some (address, now) => ⟨call, address, now, mark⟩ :: world.history
  | _, _ => world.history

def step (receiver : Ingress) (world : IngressWorld) : IngressLabel → IngressWorld
  | .performed call =>
    match world.receipts[call]? with
    | none => world
    | some receipt =>
      let (stage, db, mark) := receipt.next receiver world.clock world.db
      { world with
        db := db
        receipts := world.receipts.set call { receipt with stage := stage }
        history := world.recorded call receipt mark }
  | .ticked elapsed => { world with clock := world.clock + elapsed }
  | .elsewhere other => { world with db := { other with ipBlocks := world.db.ipBlocks } }

end IngressWorld

-- -----------------------------------------------------------------------------
-- What is claimed of a history
-- -----------------------------------------------------------------------------

namespace ReceiptRecord

def startsBlock (record : ReceiptRecord) : Option Instant :=
  match record.mark with
  | .struck (.blocked instant) => some instant
  | _ => none

def isStrike (record : ReceiptRecord) : Bool :=
  match record.mark with
  | .struck _ => true
  | _ => false

/-- Nothing received before the end of a block follows it on its address. -/
def Outlasts (later earlier : ReceiptRecord) : Prop :=
  ∀ instant, earlier.startsBlock = some instant → later.address = earlier.address →
    instant ≤ later.receivedAt

/-- The same, but for the log row of the request that started the block. -/
def OutlastsOthers (later earlier : ReceiptRecord) : Prop :=
  ∀ instant, earlier.startsBlock = some instant → later.address = earlier.address →
    instant ≤ later.receivedAt ∨ later.mark = .logged ∧ later.call = earlier.call

end ReceiptRecord

def strikesSince (address : HookId × String) : List ReceiptRecord → Nat
  | [] => 0
  | record :: older =>
    if record.address = address then
      if record.startsBlock.isSome then 0
      else if record.isStrike then strikesSince address older + 1
      else strikesSince address older
    else strikesSince address older

/-- Every block was started by the twentieth strike of its address since the one
before. -/
def BlocksAtTwenty : List ReceiptRecord → Prop
  | [] => True
  | record :: older =>
    (record.startsBlock.isSome = true →
      strikesSince record.address older + 1 = unverifiedRequestsPerBlock) ∧ BlocksAtTwenty older

-- -----------------------------------------------------------------------------
-- Strikes that cross no other request
-- -----------------------------------------------------------------------------

namespace IngressWorld

def others (world : IngressWorld) (call : Nat) : List Receipt := world.receipts.eraseIdx call

/-- The last strike of a window finds no other request past its check that the
block it starts would have refused. -/
def StartsAlone (world : IngressWorld) (call : Nat) (address : HookId × String) (now : Instant) :
    Prop :=
  unverifiedRequestsPerBlock ≤ (world.db.abuse address).strikes + 1 →
    ∀ other ∈ world.others call, ∀ found ∈ other.checked,
      found.1 = address → now + blockDuration ≤ found.2

instance {world : IngressWorld} : Decidable (world.StartsAlone call address now) :=
  inferInstanceAs (Decidable (_ → ∀ other ∈ world.others call, ∀ found ∈ other.checked,
    found.1 = address → now + blockDuration ≤ found.2))

/-- Another strike, which clears an expired block, finds no request before its
check that the block would have refused. -/
def ClearsAlone (world : IngressWorld) (call : Nat) (address : HookId × String) : Prop :=
  (world.db.abuse address).strikes + 1 < unverifiedRequestsPerBlock →
    ∀ instant ∈ (world.db.abuse address).blockedUntil,
      ∀ other ∈ world.others call, ∀ found ∈ other.unchecked,
        found.1 = address → instant ≤ found.2

instance {world : IngressWorld} : Decidable (world.ClearsAlone call address) :=
  inferInstanceAs (Decidable (_ → ∀ instant ∈ (world.db.abuse address).blockedUntil,
    ∀ other ∈ world.others call, ∀ found ∈ other.unchecked,
      found.1 = address → instant ≤ found.2))

/-- A step that is a strike starts a block or clears one alone. -/
def Uncrossed (receiver : Ingress) (world : IngressWorld) (label : IngressLabel) : Prop :=
  match label with
  | .performed call =>
    ∀ receipt ∈ world.receipts[call]?, ∀ strike ∈ receipt.strikes receiver,
      world.StartsAlone call strike.1 strike.2 ∧ world.ClearsAlone call strike.1
  | _ => True

instance {world : IngressWorld} : Decidable (world.Uncrossed receiver label) :=
  match label with
  | .performed call => inferInstanceAs (Decidable (∀ receipt ∈ world.receipts[call]?,
      ∀ strike ∈ receipt.strikes receiver,
        world.StartsAlone call strike.1 strike.2 ∧ world.ClearsAlone call strike.1))
  | .ticked _ => isTrue trivial
  | .elsewhere _ => isTrue trivial

end IngressWorld

-- -----------------------------------------------------------------------------
-- What one store call does
-- -----------------------------------------------------------------------------

theorem abuse_of_ipBlocks {db db' : Store} (h : db'.ipBlocks = db.ipBlocks)
    (address : HookId × String) : db'.abuse address = db.abuse address := by
  simp only [Store.abuse, Store.addressState, h]

theorem Ingress.capture_ok {receiver : Ingress} (h : receiver.capture command now = .ok request) :
    request.remoteIp = command.remoteIp ∧ request.receivedAt = now := by
  simp only [Ingress.capture, Except.mapError_ok, CapturedRequest.new, Except.bind_ok] at h
  obtain ⟨-, -, -, -, -, -, -, -, h⟩ := h
  cases h
  exact ⟨rfl, rfl⟩

theorem Ingress.assess_request {receiver : Ingress}
    (h : receiver.assess command hook now = .ok (request, reason)) :
    request.remoteIp = command.remoteIp ∧ request.receivedAt = now := by
  simp only [Ingress.assess, Except.bind_ok] at h
  obtain ⟨url, -, captured, hcaptured, h⟩ := h
  split at h
  · cases h
    exact capture_ok hcaptured
  · split at h <;> cases h
    all_goals exact capture_ok hcaptured

/-- What the next store call of a request can do to its stage, to the abuse
states and to the history. -/
inductive Receipt.Moves (receiver : Ingress) (receipt : Receipt) (clock : Instant) (db : Store) :
    ReceiptStage → Store → Option ReceiptMark → Prop
  | dropped (db' : Store) (same : ∀ address, db'.abuse address = db.abuse address) :
    Moves receiver receipt clock db .finished db' none
  | routed (hook : Hook) : Moves receiver receipt clock db (.routed hook clock) db none
  | admitted (hook : Hook) (now : Instant) (stage : receipt.stage = .routed hook now)
    (allowed : (db.abuse (hook.id, receipt.command.remoteIp)).check now = .allowed) (db' : Store)
    (same : ∀ address, db'.abuse address = db.abuse address) :
    Moves receiver receipt clock db (.admitted hook now) db' none
  | accepted (hook : Hook) (now : Instant) (stage : receipt.stage = .admitted hook now)
    (db' : Store) (same : ∀ address, db'.abuse address = db.abuse address) :
    Moves receiver receipt clock db .finished db' (some .accepted)
  | struck (hook : Hook) (now : Instant) (stage : receipt.stage = .admitted hook now)
    (strikes : receipt.strikes receiver = some ((hook.id, receipt.command.remoteIp), now))
    (request : CapturedRequest) (remoteIp : request.remoteIp = receipt.command.remoteIp)
    (receivedAt : request.receivedAt = now) (reason : BlockReason) (outcome : StrikeOutcome)
    (db' : Store)
    (counted : (db.abuse (hook.id, receipt.command.remoteIp)).recordUnverified now =
      (outcome, db'.abuse (hook.id, receipt.command.remoteIp)))
    (same : ∀ address, address ≠ (hook.id, receipt.command.remoteIp) →
      db'.abuse address = db.abuse address) :
    Moves receiver receipt clock db (.struck hook request reason) db' (some (.struck outcome))
  | logged (hook : Hook) (request : CapturedRequest) (reason : BlockReason)
    (stage : receipt.stage = .struck hook request reason) (db' : Store)
    (same : ∀ address, db'.abuse address = db.abuse address) :
    Moves receiver receipt clock db .finished db' (some .logged)

theorem Receipt.next_moves (receiver : Ingress) (receipt : Receipt) (clock : Instant) (db : Store) :
    receipt.Moves receiver clock db (receipt.next receiver clock db).1
      (receipt.next receiver clock db).2.1 (receipt.next receiver clock db).2.2 := by
  unfold Receipt.next
  cases hstage : receipt.stage with
  | waiting =>
    cases hroute : Ingress.route receipt.command clock db with
    | error e => exact .dropped db fun _ => rfl
    | ok found =>
      obtain ⟨hook, now⟩ := found
      obtain rfl : now = clock := Ingress.route_time hroute
      exact .routed hook
  | routed hook now =>
    have hcheck := checkIpBlock_check hook.id receipt.command.remoteIp now db
    have hstate := fun address : HookId × String =>
      checkIpBlock_state hook.id address.1 receipt.command.remoteIp address.2 now db
    cases hc : checkIpBlock hook.id receipt.command.remoteIp now db with
    | mk check db' =>
      rw [hc] at hcheck hstate
      simp only [hc]
      cases check with
      | blockedUntil instant => exact .dropped db' hstate
      | allowed => exact .admitted hook now hstage hcheck.symm db' hstate
  | admitted hook now =>
    cases hassess : receiver.assess receipt.command hook now with
    | error e =>
      simp only [hassess]
      exact .dropped db fun _ => rfl
    | ok assessed =>
      simp only [hassess]
      obtain ⟨request, reason⟩ := assessed
      obtain ⟨hip, hat⟩ := Ingress.assess_request hassess
      cases reason with
      | none =>
        simp only
        split
        · exact .dropped db fun _ => rfl
        · rename_i haccept
          exact .accepted hook now hstage _ (abuse_of_ipBlocks (acceptEvent_ipBlocks haccept))
      | some reason =>
        simp only
        split
        · exact .dropped db fun _ => rfl
        · rename_i outcome db' hstrike
          obtain ⟨hcounted, hsame⟩ := recordUnverifiedRequest_state hstrike
          rw [hip, hat] at hcounted
          refine .struck hook now hstage ?_ request hip hat reason outcome db' hcounted
            fun address hne => hsame _ _ (hip ▸ hne)
          simp only [Receipt.strikes, hstage, hassess]
  | struck hook request reason =>
    simp only
    split
    · exact .dropped db fun _ => rfl
    · rename_i hlog
      obtain ⟨-, -, _, _, -, -, rfl⟩ := recordBlockedRequest_ok hlog
      exact .logged hook request reason hstage _ fun _ => rfl
  | finished => exact .dropped db fun _ => rfl

def Receipt.perform (receiver : Ingress) (clock : Instant) (made : Receipt × Store) :
    Receipt × Store :=
  let (stage, db, _) := made.1.next receiver clock made.2
  ({ made.1 with stage := stage }, db)

/-- A request that nothing overlaps is received as the use case receives it. -/
theorem Receipt.perform_receives (receiver : Ingress) (command : ReceiveRequestCommand)
    (draw : ReceiveDraw) (db : Store) :
    ((perform receiver draw.databaseTime)^[4] (⟨command, draw, .waiting⟩, db)).2 =
      (receiver.receiveRequest command draw).exec db := by
  simp only [Function.iterate_succ, Function.iterate_zero, Function.comp, id]
  cases hroute : Ingress.route command draw.databaseTime db with
  | error e =>
    simp [perform, next, hroute, Ingress.receiveRequest, Program.exec, Bind.bind, Program.bind,
      Program.read]
  | ok found =>
    obtain ⟨hook, now⟩ := found
    simp only [perform, next, hroute, Ingress.receiveRequest, Program.exec, Bind.bind,
      Program.bind, Program.read, Ingress.checkAddress, Program.transact]
    cases hcheck : checkIpBlock hook.id command.remoteIp now db with
    | mk check mid =>
      cases check with
      | blockedUntil instant => rfl
      | allowed =>
        simp only [liftM, monadLift, MonadLift.monadLift, Program.ofExcept, Program.bind]
        cases hassess : receiver.assess command hook now with
        | error e => rfl
        | ok assessed =>
          obtain ⟨request, reason⟩ := assessed
          cases reason with
          | none =>
            simp only [Ingress.accept, Bind.bind, Program.bind, Program.transact]
            cases receiver.codec.acceptEvent receiver.deliverySummary
              (receiver.acceptCommand hook request draw.eventId) draw.sendId draw.sendIds
              draw.queuedAt mid <;> rfl
          | some reason =>
            simp only [Ingress.block, Bind.bind, Program.bind, Program.transact]
            cases recordUnverifiedRequest hook.id request.remoteIp request.receivedAt mid with
            | error e => rfl
            | ok struck =>
              simp only [liftStore]
              cases recordBlockedRequest ⟨draw.blockedId, hook, request, reason⟩ struck.2 <;> rfl

-- -----------------------------------------------------------------------------
-- The count of strikes
-- -----------------------------------------------------------------------------

section

variable {receiver : Ingress} {world : IngressWorld}

theorem recorded_checked {receipt : Receipt} (h : receipt.checked = some (address, now)) :
    world.recorded call receipt (some mark) = ⟨call, address, now, mark⟩ :: world.history := by
  simp only [IngressWorld.recorded, h]

theorem strikesSince_quiet {record : ReceiptRecord} (h : record.isStrike = false) :
    strikesSince address (record :: older) = strikesSince address older := by
  have hblock : record.startsBlock = none := by
    unfold ReceiptRecord.isStrike at h
    unfold ReceiptRecord.startsBlock
    cases hm : record.mark <;> simp_all
  simp [strikesSince, hblock, h]

theorem strikesSince_ne {record : ReceiptRecord} (h : address ≠ record.address) :
    strikesSince address (record :: older) = strikesSince address older := by
  simp [strikesSince, h.symm]

/-- The stored count of an address is that of its strikes since its last block. -/
structure StrikesCounted (world : IngressWorld) : Prop where
  twenty : BlocksAtTwenty world.history
  counted : ∀ address, (world.db.abuse address).strikes = strikesSince address world.history
  below : ∀ address, (world.db.abuse address).strikes < unverifiedRequestsPerBlock

namespace StrikesCounted

theorem quiet (h : StrikesCounted world) {db : Store}
    (same : ∀ address, db.abuse address = world.db.abuse address) {mark : Option ReceiptMark}
    (hmark : ∀ outcome, mark ≠ some (.struck outcome)) :
    StrikesCounted ⟨db, clock, receipts, world.recorded call receipt mark⟩ := by
  have hhistory : world.recorded call receipt mark = world.history ∨ ∃ record : ReceiptRecord,
      record.isStrike = false ∧ record.startsBlock = none ∧
        world.recorded call receipt mark = record :: world.history := by
    unfold IngressWorld.recorded
    split
    · rename_i mark address now hchecked
      refine .inr ⟨_, ?_, ?_, rfl⟩
      · cases mark with
        | struck outcome => exact absurd rfl (hmark outcome)
        | accepted => rfl
        | logged => rfl
      · cases mark with
        | struck outcome => exact absurd rfl (hmark outcome)
        | accepted => rfl
        | logged => rfl
    · exact .inl rfl
  have hstrikes : ∀ address, (db.abuse address).strikes = (world.db.abuse address).strikes :=
    fun address => congrArg IpBlockState.strikes (same address)
  have hbelow : ∀ address, (db.abuse address).strikes < unverifiedRequestsPerBlock :=
    fun address => (hstrikes address).symm ▸ h.below address
  obtain heq | ⟨record, hstrike, hblock, heq⟩ := hhistory
  · rw [heq]
    exact ⟨h.twenty, fun address => (hstrikes address).trans (h.counted address), hbelow⟩
  · rw [heq]
    refine ⟨⟨fun hs => absurd hs (by simp [hblock]), h.twenty⟩, fun address => ?_, hbelow⟩
    rw [strikesSince_quiet hstrike]
    exact (hstrikes address).trans (h.counted address)

theorem struck (h : StrikesCounted world) {db : Store} {address : HookId × String}
    (counted : (world.db.abuse address).recordUnverified now = (outcome, db.abuse address))
    (same : ∀ other, other ≠ address → db.abuse other = world.db.abuse other) :
    StrikesCounted ⟨db, clock, receipts, ⟨call, address, now, .struck outcome⟩ :: world.history⟩ := by
  have hbefore : (world.db.abuse address).strikes = strikesSince address world.history :=
    h.counted address
  have hothers : ∀ other, other ≠ address → (db.abuse other).strikes =
      strikesSince other (⟨call, address, now, .struck outcome⟩ :: world.history) := by
    intro other hne
    rw [strikesSince_ne hne, same other hne]
    exact h.counted other
  have hbelow : ∀ other, (db.abuse other).strikes < unverifiedRequestsPerBlock := by
    intro other
    by_cases hne : other = address
    · have hstate : ((world.db.abuse address).recordUnverified now).2 = db.abuse address :=
        congrArg Prod.snd counted
      rw [hne, ← hstate]
      exact IpBlockState.recordUnverified_strikes _ _
    · rw [same other hne]
      exact h.below other
  by_cases hlast : (world.db.abuse address).strikes + 1 < unverifiedRequestsPerBlock
  · rw [IpBlockState.recordUnverified_counted hlast, Prod.mk.injEq] at counted
    obtain ⟨rfl, hstate⟩ := counted
    refine ⟨⟨fun hs => (nomatch hs), h.twenty⟩, fun other => ?_, hbelow⟩
    by_cases hne : other = address
    · subst hne
      show (db.abuse other).strikes = _
      rw [← hstate]
      simp [strikesSince, ReceiptRecord.startsBlock, ReceiptRecord.isStrike, hbefore]
    · exact hothers other hne
  · have hfull : unverifiedRequestsPerBlock ≤ (world.db.abuse address).strikes + 1 :=
      Nat.not_lt.mp hlast
    rw [IpBlockState.recordUnverified_blocked hfull, Prod.mk.injEq] at counted
    obtain ⟨rfl, hstate⟩ := counted
    refine ⟨⟨fun _ => ?_, h.twenty⟩, fun other => ?_, hbelow⟩
    · show strikesSince address world.history + 1 = _
      rw [← hbefore]
      exact Nat.le_antisymm (h.below address) hfull
    · by_cases hne : other = address
      · subst hne
        show (db.abuse other).strikes = _
        rw [← hstate]
        simp [strikesSince, ReceiptRecord.startsBlock]
      · exact hothers other hne

theorem step (h : StrikesCounted world) (label : IngressLabel) :
    StrikesCounted (world.step receiver label) := by
  cases label with
  | ticked elapsed => exact ⟨h.twenty, h.counted, h.below⟩
  | elsewhere other => exact ⟨h.twenty, h.counted, h.below⟩
  | performed call =>
    simp only [IngressWorld.step]
    split
    · exact h
    · rename_i receipt hreceipt
      have hmoves := receipt.next_moves receiver world.clock world.db
      generalize receipt.next receiver world.clock world.db = made at hmoves ⊢
      obtain ⟨stage, db, mark⟩ := made
      cases hmoves with
      | dropped _ same => exact h.quiet same fun _ he => by cases he
      | routed hook => exact h.quiet (fun _ => rfl) fun _ he => by cases he
      | admitted hook now hstage _ _ same => exact h.quiet same fun _ he => by cases he
      | accepted hook now hstage _ same => exact h.quiet same fun _ he => by cases he
      | logged hook request reason hstage _ same => exact h.quiet same fun _ he => by cases he
      | struck hook now hstage _ request _ _ reason outcome _ counted same =>
        have hchecked : receipt.checked = some ((hook.id, receipt.command.remoteIp), now) := by
          simp only [Receipt.checked, hstage]
        simp only [recorded_checked hchecked]
        exact h.struck counted same

end StrikesCounted

-- -----------------------------------------------------------------------------
-- The hold of a block
-- -----------------------------------------------------------------------------

theorem blockDuration_pos (now : Instant) : now < now + blockDuration :=
  Int.lt_add_of_pos_right now (by decide)

/-- The blocks started on an address are over at an instant. -/
def IngressWorld.Over (world : IngressWorld) (address : HookId × String) (now : Instant) : Prop :=
  ∀ record ∈ world.history, record.address = address →
    ∀ instant, record.startsBlock = some instant → instant ≤ now

/-- A request past its check started the one block that is not over for it. -/
def IngressWorld.OverFor (world : IngressWorld) (call : Nat) (receipt : Receipt)
    (address : HookId × String) (now : Instant) : Prop :=
  ∀ record ∈ world.history, record.address = address →
    ∀ instant, record.startsBlock = some instant → instant ≤ now ∨
      (∃ hook request reason, receipt.stage = .struck hook request reason) ∧ record.call = call

def IpBlockState.Refuses (state : IpBlockState) (now : Instant) : Prop :=
  ∃ last, state.blockedUntil = some last ∧ now < last

/-- Every block started is over for the requests past their checks, and over or
still in force for the others. -/
structure BlocksHeld (world : IngressWorld) : Prop where
  outlasted : world.history.Pairwise ReceiptRecord.OutlastsOthers
  stored : ∀ address instant, (world.db.abuse address).blockedUntil = some instant →
    ∃ record ∈ world.history, record.address = address ∧ record.startsBlock = some instant
  ended : ∀ record ∈ world.history, ∀ instant, record.startsBlock = some instant →
    instant ≤ world.clock ∨
      ∃ last, (world.db.abuse record.address).blockedUntil = some last ∧ instant ≤ last
  unchecked : ∀ (call : Nat) (receipt : Receipt), world.receipts[call]? = some receipt →
    ∀ address now, receipt.unchecked = some (address, now) →
      now ≤ world.clock ∧ (world.Over address now ∨ (world.db.abuse address).Refuses now)
  checked : ∀ (call : Nat) (receipt : Receipt), world.receipts[call]? = some receipt →
    ∀ address now, receipt.checked = some (address, now) →
      now ≤ world.clock ∧ world.OverFor call receipt address now

theorem getElem?_set_some {receipts : List Receipt} {made other : Receipt}
    (h : (receipts.set call made)[index]? = some other) :
    index = call ∧ other = made ∨ index ≠ call ∧ receipts[index]? = some other := by
  rw [List.getElem?_set] at h
  split at h
  · rename_i he
    split at h
    · cases h
      exact .inl ⟨he.symm, rfl⟩
    · cases h
  · rename_i hne
    exact .inr ⟨fun he => hne he.symm, h⟩

namespace BlocksHeld

theorem moved (h : BlocksHeld world) {db : Store} {made : Receipt}
    (same : ∀ address, db.abuse address = world.db.abuse address)
    (hunchecked : ∀ address now, made.unchecked = some (address, now) →
      now ≤ world.clock ∧ (world.Over address now ∨ (world.db.abuse address).Refuses now))
    (hchecked : ∀ address now, made.checked = some (address, now) →
      now ≤ world.clock ∧ world.OverFor call made address now) :
    BlocksHeld ⟨db, world.clock, world.receipts.set call made, world.history⟩ := by
  constructor
  · exact h.outlasted
  · intro address instant hb
    exact h.stored address instant (same address ▸ hb)
  · intro record hm instant hi
    rw [same]
    exact h.ended record hm instant hi
  · intro index other ho address now hu
    rw [same]
    obtain ⟨-, rfl⟩ | ⟨-, ho⟩ := getElem?_set_some ho
    · exact hunchecked address now hu
    · exact h.unchecked index other ho address now hu
  · intro index other ho address now hc
    obtain ⟨rfl, rfl⟩ | ⟨-, ho⟩ := getElem?_set_some ho
    · exact hchecked address now hc
    · exact h.checked index other ho address now hc

theorem finished (h : BlocksHeld world) {db : Store} (receipt : Receipt)
    (same : ∀ address, db.abuse address = world.db.abuse address) :
    BlocksHeld ⟨db, world.clock, world.receipts.set call { receipt with stage := .finished },
      world.history⟩ := by
  apply h.moved same
  · intro _ _ hu
    cases hu
  · intro _ _ hc
    cases hc

theorem recorded (h : BlocksHeld world) {record : ReceiptRecord}
    (hnone : record.startsBlock = none)
    (hoverall : ∀ earlier ∈ world.history, record.OutlastsOthers earlier) :
    BlocksHeld { world with history := record :: world.history } := by
  have hold : ∀ other ∈ record :: world.history, ∀ instant, other.startsBlock = some instant →
      other ∈ world.history := by
    intro other hm instant hi
    obtain rfl | hm := List.mem_cons.mp hm
    · cases hnone.symm.trans hi
    · exact hm
  constructor
  · exact List.pairwise_cons.mpr ⟨hoverall, h.outlasted⟩
  · intro address instant hb
    obtain ⟨earlier, hm, he⟩ := h.stored address instant hb
    exact ⟨earlier, List.mem_cons_of_mem _ hm, he⟩
  · intro other hm instant hi
    exact h.ended other (hold other hm instant hi) instant hi
  · intro index other ho address now hu
    obtain ⟨hclock, hover | hrefuses⟩ := h.unchecked index other ho address now hu
    · exact ⟨hclock, .inl fun earlier hm ha instant hi =>
        hover earlier (hold earlier hm instant hi) ha instant hi⟩
    · exact ⟨hclock, .inr hrefuses⟩
  · intro index other ho address now hc
    obtain ⟨hclock, hover⟩ := h.checked index other ho address now hc
    exact ⟨hclock, fun earlier hm ha instant hi =>
      hover earlier (hold earlier hm instant hi) ha instant hi⟩

theorem blocksOver (h : BlocksHeld world) {call : Nat} {receipt : Receipt}
    (hreceipt : world.receipts[call]? = some receipt) (hstage : receipt.stage = .admitted hook now) :
    now ≤ world.clock ∧ world.Over (hook.id, receipt.command.remoteIp) now := by
  have hchecked : receipt.checked = some ((hook.id, receipt.command.remoteIp), now) := by
    simp only [Receipt.checked, hstage]
  obtain ⟨hclock, hover⟩ := h.checked call receipt hreceipt _ _ hchecked
  refine ⟨hclock, fun record hm ha instant hi => ?_⟩
  obtain hle | ⟨⟨_, _, _, hstruck⟩, -⟩ := hover record hm ha instant hi
  · exact hle
  · cases hstage.symm.trans hstruck

theorem stored_le (h : BlocksHeld world) (hover : world.Over address now)
    (hb : (world.db.abuse address).blockedUntil = some instant) : instant ≤ now := by
  obtain ⟨record, hm, ha, hi⟩ := h.stored address instant hb
  exact hover record hm ha instant hi

/-- A strike before the last of its window: whatever block the address had is
over, so none is stored after it. -/
theorem counted (h : BlocksHeld world) {db : Store} {made : Receipt}
    (hclock : now ≤ world.clock) (hover : world.Over address now)
    (hstate : db.abuse address = ⟨strikes, (world.db.abuse address).cleared now⟩)
    (same : ∀ other, other ≠ address → db.abuse other = world.db.abuse other)
    (hclears : ∀ instant, (world.db.abuse address).blockedUntil = some instant →
      ∀ other ∈ world.others call, ∀ received, other.unchecked = some (address, received) →
        instant ≤ received)
    (hnone : made.unchecked = none) (hmade : made.checked = some (address, now)) :
    BlocksHeld ⟨db, world.clock, world.receipts.set call made,
      ⟨call, address, now, .struck (.counted strikes)⟩ :: world.history⟩ := by
  have hcleared : (db.abuse address).blockedUntil = none := by
    rw [hstate]
    cases hc : (world.db.abuse address).cleared now with
    | none => rfl
    | some instant =>
      obtain ⟨hb, hlt⟩ := IpBlockState.cleared_some.mp hc
      exact absurd (h.stored_le hover hb) (Int.not_le.mpr hlt)
  have hbase : BlocksHeld ⟨db, world.clock, world.receipts.set call made, world.history⟩ := by
    constructor
    · exact h.outlasted
    · intro other instant hb
      by_cases hne : other = address
      · subst hne
        cases hcleared.symm.trans hb
      · exact h.stored other instant
          ((congrArg IpBlockState.blockedUntil (same other hne)).symm.trans hb)
    · intro record hm instant hi
      by_cases hne : record.address = address
      · exact .inl (Int.le_trans (hover record hm hne instant hi) hclock)
      · show _ ∨ ∃ last, (db.abuse record.address).blockedUntil = some last ∧ _
        rw [same record.address hne]
        exact h.ended record hm instant hi
    · intro index other ho place received hu
      obtain ⟨-, rfl⟩ | ⟨hindex, ho⟩ := getElem?_set_some ho
      · cases hnone.symm.trans hu
      · obtain ⟨hle, hcase⟩ := h.unchecked index other ho place received hu
        refine ⟨hle, ?_⟩
        by_cases hne : place = address
        · subst hne
          obtain hover' | ⟨last, hb, hlt⟩ := hcase
          · exact .inl hover'
          · have hmem := List.mem_eraseIdx_iff_getElem?.mpr ⟨index, hindex, ho⟩
            exact absurd (hclears last hb other hmem received hu) (Int.not_le.mpr hlt)
        · show _ ∨ (db.abuse place).Refuses received
          rw [same place hne]
          exact hcase
    · intro index other ho place received hc
      obtain ⟨rfl, rfl⟩ | ⟨-, ho⟩ := getElem?_set_some ho
      · cases hmade.symm.trans hc
        exact ⟨hclock, fun record hm ha instant hi => .inl (hover record hm ha instant hi)⟩
      · exact h.checked index other ho place received hc
  exact hbase.recorded rfl fun earlier hm instant hi ha => .inl (hover earlier hm ha.symm instant hi)

theorem blocked (h : BlocksHeld world) {db : Store} {made : Receipt}
    (hclock : now ≤ world.clock) (hover : world.Over address now)
    (hstate : db.abuse address = ⟨0, some (now + blockDuration)⟩)
    (same : ∀ other, other ≠ address → db.abuse other = world.db.abuse other)
    (hstarts : ∀ other ∈ world.others call, ∀ received, other.checked = some (address, received) →
      now + blockDuration ≤ received)
    (hnone : made.unchecked = none) (hmade : made.checked = some (address, now))
    (hstruck : ∃ hook request reason, made.stage = .struck hook request reason) :
    BlocksHeld ⟨db, world.clock, world.receipts.set call made,
      ⟨call, address, now, .struck (.blocked (now + blockDuration))⟩ :: world.history⟩ := by
  have hlater := blockDuration_pos now
  constructor
  · refine List.pairwise_cons.mpr ⟨fun earlier hm instant hi ha => ?_, h.outlasted⟩
    exact .inl (hover earlier hm ha.symm instant hi)
  · intro other instant hb
    by_cases hne : other = address
    · subst hne
      refine ⟨_, List.mem_cons_self .., rfl, ?_⟩
      have hb : (db.abuse other).blockedUntil = some instant := hb
      rw [hstate] at hb
      exact hb
    · obtain ⟨record, hm, hr⟩ := h.stored other instant
        ((congrArg IpBlockState.blockedUntil (same other hne)).symm.trans hb)
      exact ⟨record, List.mem_cons_of_mem _ hm, hr⟩
  · intro record hm instant hi
    show _ ∨ ∃ last, (db.abuse record.address).blockedUntil = some last ∧ _
    obtain rfl | hm := List.mem_cons.mp hm
    · cases hi
      exact .inr ⟨_, by rw [hstate], Int.le_refl _⟩
    · by_cases hne : record.address = address
      · exact .inl (Int.le_trans (hover record hm hne instant hi) hclock)
      · rw [same record.address hne]
        exact h.ended record hm instant hi
  · intro index other ho place received hu
    obtain ⟨-, rfl⟩ | ⟨-, ho⟩ := getElem?_set_some ho
    · cases hnone.symm.trans hu
    · obtain ⟨hle, hcase⟩ := h.unchecked index other ho place received hu
      refine ⟨hle, ?_⟩
      by_cases hne : place = address
      · subst hne
        -- the new block refuses whatever it does not end before
        by_cases hlt : received < now + blockDuration
        · refine .inr ⟨now + blockDuration, ?_, hlt⟩
          show (db.abuse place).blockedUntil = _
          rw [hstate]
        · have hge := Int.not_lt.mp hlt
          refine .inl fun record hm ha instant hi => ?_
          obtain rfl | hm := List.mem_cons.mp hm
          · cases hi
            exact hge
          · exact Int.le_trans (hover record hm ha instant hi) (Int.le_trans (Int.le_of_lt hlater) hge)
      · obtain hover' | hrefuses := hcase
        · refine .inl fun record hm ha instant hi => ?_
          obtain rfl | hm := List.mem_cons.mp hm
          · exact absurd ha.symm hne
          · exact hover' record hm ha instant hi
        · refine .inr ?_
          show (db.abuse place).Refuses received
          rw [same place hne]
          exact hrefuses
  · intro index other ho place received hc
    obtain ⟨rfl, rfl⟩ | ⟨hindex, ho⟩ := getElem?_set_some ho
    · cases hmade.symm.trans hc
      refine ⟨hclock, fun record hm ha instant hi => ?_⟩
      obtain rfl | hm := List.mem_cons.mp hm
      · exact .inr ⟨hstruck, rfl⟩
      · exact .inl (hover record hm ha instant hi)
    · obtain ⟨hle, hover'⟩ := h.checked index other ho place received hc
      refine ⟨hle, fun record hm ha instant hi => ?_⟩
      obtain rfl | hm := List.mem_cons.mp hm
      · cases hi
        have ha : address = place := ha
        subst ha
        have hmem := List.mem_eraseIdx_iff_getElem?.mpr ⟨index, hindex, ho⟩
        exact .inl (hstarts other hmem received hc)
      · exact hover' record hm ha instant hi

theorem struck (h : BlocksHeld world) {receipt : Receipt} {db : Store}
    (hreceipt : world.receipts[call]? = some receipt) (hstage : receipt.stage = .admitted hook now)
    (hip : request.remoteIp = receipt.command.remoteIp) (hat : request.receivedAt = now)
    (counted : (world.db.abuse (hook.id, receipt.command.remoteIp)).recordUnverified now =
      (outcome, db.abuse (hook.id, receipt.command.remoteIp)))
    (same : ∀ other, other ≠ (hook.id, receipt.command.remoteIp) →
      db.abuse other = world.db.abuse other)
    (hstarts : world.StartsAlone call (hook.id, receipt.command.remoteIp) now)
    (hclears : world.ClearsAlone call (hook.id, receipt.command.remoteIp)) :
    BlocksHeld ⟨db, world.clock,
      world.receipts.set call { receipt with stage := .struck hook request reason },
      ⟨call, (hook.id, receipt.command.remoteIp), now, .struck outcome⟩ :: world.history⟩ := by
  obtain ⟨hclock, hover⟩ := h.blocksOver hreceipt hstage
  generalize hmade : ({ receipt with stage := .struck hook request reason } : Receipt) = made
  have hnone : made.unchecked = none := by
    rw [← hmade]
    rfl
  have hchecked : made.checked = some ((hook.id, receipt.command.remoteIp), now) := by
    rw [← hmade, ← hip, ← hat]
    rfl
  generalize (hook.id, receipt.command.remoteIp) = address at *
  by_cases hlast : (world.db.abuse address).strikes + 1 < unverifiedRequestsPerBlock
  · rw [IpBlockState.recordUnverified_counted hlast, Prod.mk.injEq] at counted
    obtain ⟨rfl, hstate⟩ := counted
    refine h.counted hclock hover hstate.symm same ?_ hnone hchecked
    intro instant hb other ho received hu
    exact hclears hlast instant hb other ho _ hu rfl
  · have hfull := Nat.not_lt.mp hlast
    rw [IpBlockState.recordUnverified_blocked hfull, Prod.mk.injEq] at counted
    obtain ⟨rfl, hstate⟩ := counted
    refine h.blocked hclock hover hstate.symm same ?_ hnone hchecked ⟨hook, request, reason, ?_⟩
    · intro other ho received hc
      exact hstarts hfull other ho _ hc rfl
    · rw [← hmade]

theorem step (h : BlocksHeld world) (label : IngressLabel)
    (huncrossed : world.Uncrossed receiver label) : BlocksHeld (world.step receiver label) := by
  cases label with
  | elsewhere other => exact ⟨h.outlasted, h.stored, h.ended, h.unchecked, h.checked⟩
  | ticked elapsed =>
    have hlater : world.clock ≤ world.clock + elapsed :=
      Int.le_add_of_nonneg_right (Int.natCast_nonneg elapsed)
    refine ⟨h.outlasted, h.stored, fun record hm instant hi => ?_, fun call receipt hr address now hu =>
      ?_, fun call receipt hr address now hc => ?_⟩
    · exact (h.ended record hm instant hi).imp_left fun hle => Int.le_trans hle hlater
    · exact (h.unchecked call receipt hr address now hu).imp_left fun hle => Int.le_trans hle hlater
    · exact (h.checked call receipt hr address now hc).imp_left fun hle => Int.le_trans hle hlater
  | performed call =>
    simp only [IngressWorld.step]
    split
    · exact h
    · rename_i receipt hreceipt
      have halone := huncrossed receipt hreceipt
      have hmoves := receipt.next_moves receiver world.clock world.db
      generalize receipt.next receiver world.clock world.db = made at hmoves ⊢
      obtain ⟨stage, db, mark⟩ := made
      cases hmoves with
      | dropped _ same => exact h.finished receipt same
      | routed hook =>
        refine h.moved (fun _ => rfl) (fun address now hu => ?_) fun _ _ hc => (by cases hc)
        cases hu
        refine ⟨Int.le_refl _, ?_⟩
        by_cases hrefuses : (world.db.abuse (hook.id, receipt.command.remoteIp)).Refuses world.clock
        · exact .inr hrefuses
        · refine .inl fun record hm ha instant hi => ?_
          obtain hle | ⟨last, hb, hle⟩ := h.ended record hm instant hi
          · exact hle
          · rw [ha] at hb
            exact Int.le_trans hle (Int.not_lt.mp fun hlt => hrefuses ⟨last, hb, hlt⟩)
      | admitted hook now hstage hallowed _ same =>
        refine h.moved same (fun _ _ hu => (by cases hu)) fun address received hc => ?_
        cases hc
        have hunchecked : receipt.unchecked = some ((hook.id, receipt.command.remoteIp), now) := by
          simp only [Receipt.unchecked, hstage]
        obtain ⟨hclock, hover | ⟨last, hb, hlt⟩⟩ := h.unchecked call receipt hreceipt _ _ hunchecked
        · exact ⟨hclock, fun record hm ha instant hi => .inl (hover record hm ha instant hi)⟩
        · exact absurd hlt (Int.not_lt.mpr (IpBlockState.check_allowed.mp hallowed last hb))
      | accepted hook now hstage _ same =>
        have hchecked : receipt.checked = some ((hook.id, receipt.command.remoteIp), now) := by
          simp only [Receipt.checked, hstage]
        simp only [recorded_checked hchecked]
        obtain ⟨-, hover⟩ := h.blocksOver hreceipt hstage
        exact (h.finished receipt same).recorded rfl
          fun earlier hm instant hi ha => .inl (hover earlier hm ha.symm instant hi)
      | logged hook request reason hstage _ same =>
        have hchecked : receipt.checked =
            some ((hook.id, request.remoteIp), request.receivedAt) := by
          simp only [Receipt.checked, hstage]
        simp only [recorded_checked hchecked]
        obtain ⟨-, hover⟩ := h.checked call receipt hreceipt _ _ hchecked
        refine (h.finished receipt same).recorded rfl
          fun earlier hm instant hi ha => ?_
        exact (hover earlier hm ha.symm instant hi).imp_right fun hown => ⟨rfl, hown.2.symm⟩
      | struck hook now hstage hstrikes request hip hat reason outcome _ counted same =>
        have hchecked : receipt.checked = some ((hook.id, receipt.command.remoteIp), now) := by
          simp only [Receipt.checked, hstage]
        simp only [recorded_checked hchecked]
        obtain ⟨hstarts, hclears⟩ := halone _ hstrikes
        exact h.struck hreceipt hstage hip hat counted same hstarts hclears

end BlocksHeld

theorem IngressWorld.start_counted (db : Store) (clock : Instant)
    (calls : List (ReceiveRequestCommand × ReceiveDraw)) :
    StrikesCounted (.start db clock calls) :=
  ⟨trivial, fun _ => rfl, fun _ => Nat.zero_lt_succ _⟩

theorem IngressWorld.start_held (db : Store) (clock : Instant)
    (calls : List (ReceiveRequestCommand × ReceiveDraw)) : BlocksHeld (.start db clock calls) := by
  have hwaiting : ∀ (call : Nat) (receipt : Receipt),
      (IngressWorld.start db clock calls).receipts[call]? = some receipt →
        receipt.stage = .waiting := by
    intro call receipt hr
    simp only [IngressWorld.start, List.getElem?_map, Option.map_eq_some_iff] at hr
    obtain ⟨_, -, rfl⟩ := hr
    rfl
  refine ⟨.nil, fun _ _ hb => ?_, fun _ hm => ?_, fun call receipt hr _ _ hu => ?_,
    fun call receipt hr _ _ hc => ?_⟩
  · cases hb
  · cases hm
  · simp [Receipt.unchecked, hwaiting call receipt hr] at hu
  · simp [Receipt.checked, hwaiting call receipt hr] at hc

/-- In every run every block is started by the twentieth strike since the one
before; and where no strike crosses another request, nothing received before the
end of a block follows it but the log row of the request that started it. -/
theorem blocks_hold_uncrossed (receiver : Ingress) (db : Store) (clock : Instant)
    (calls : List (ReceiveRequestCommand × ReceiveDraw)) (labels : List IngressLabel) :
    let start := IngressWorld.start db clock calls
    Always (IngressWorld.step receiver) (fun world => BlocksAtTwenty world.history) start labels ∧
      (Along (IngressWorld.step receiver) (IngressWorld.Uncrossed receiver) start labels →
        Always (IngressWorld.step receiver)
          (fun world => world.history.Pairwise ReceiptRecord.OutlastsOthers) start labels) := by
  intro start
  constructor
  · exact always_of_invariant (P := fun _ _ => True) (fun _ label h _ => StrikesCounted.step h label)
      (fun _ h => h.twenty) (IngressWorld.start_counted db clock calls) along_true
  · exact always_of_invariant (fun _ label h hu => BlocksHeld.step h label hu)
      (fun _ h => h.outlasted) (IngressWorld.start_held db clock calls)

end

namespace UnsignedRequests

def silicon : AccountUuid := ⟨"SiStrikes", by decide⟩

def policy : SigningPolicy where
  required := true
  config := ⟨.ed25519, ⟨"\"payload\"", .literal "payload"⟩,
    ⟨"request.headers.signature", headerPath "signature"⟩, .hex, .utf8, some "key"⟩
  encryptedSecret := none

def row : HookRow where
  id := ⟨1⟩
  siliconId := .fromAccountUuid silicon
  siliconUuid := some silicon
  endpointKey := ⟨"AAAAAAA9", by decide⟩
  name := ⟨"payments", by decide⟩
  description := none
  signing := policy
  timeZone := ⟨"UTC"⟩
  isAccountsDefault := false
  createdBy := .account .silicon silicon
  createdAt := 0
  disabledAt := none
  deletedAt := none
  lastReceivedAt := none
  lastBlockedAt := none
  endpointRotatedAt := none

/-- Libraries that parse nothing and verify nothing. -/
def receiver : Ingress where
  secretCipher := StaleUpdate.application.secretCipher
  readKey _ _ := .ok ()
  library := {
    parseUrl := fun _ => none
    scheme := id
    hostStr := fun _ => none
    port := fun _ => none
    portOrKnownDefault := fun _ => none
    path := id
    query := fun _ => none
    queryPairs := fun _ => []
    withQuery := fun _ url => url
    withoutFragment := id
    parseForm := fun _ => []
    parseJson := fun _ => none
    parseMultipart := fun _ _ => none
    lowercase := id
    uppercase := id
    digest := fun _ bytes => bytes
    hmac := fun _ key message => key ++ message }
  keys := ⟨fun _ _ => .ok [], fun _ _ _ _ => false, fun _ _ _ => ⟨[], rfl⟩⟩
  codec := ⟨id, fun _ => .ok "", fun _ => none⟩
  deliverySummary _ _ _ := ""
  delivery := none
  endpointUrl _ _ := some "/"
  requestUrl path _ := path

def database : Store := { Store.empty with hooks := ⟨[row], by decide⟩ }

def call (n : Nat) : ReceiveRequestCommand × ReceiveDraw :=
  (⟨silicon.value, row.endpointKey, "POST", "/", none, [], [], "192.0.2.1"⟩,
    ⟨0, ⟨BitVec.ofNat 128 n⟩, ⟨BitVec.ofNat 128 n⟩, 0, id, 0⟩)

def inTurn (n : Nat) : List IngressLabel :=
  (List.range n).flatMap fun call => List.replicate 4 (.performed call)

def final : IngressWorld :=
  run (IngressWorld.step receiver) (.start database 0 ((List.range 20).map call)) (inTurn 20)

theorem final_history : final.history.take 2 =
    [⟨19, (row.id, "192.0.2.1"), 0, .logged⟩,
      ⟨19, (row.id, "192.0.2.1"), 0, .struck (.blocked (Instant.days 1))⟩] := by
  decide +kernel

/-- The block is committed, and after it the log row of the request that started it. -/
theorem logged_in_force : ¬ final.history.Pairwise ReceiptRecord.Outlasts := by
  intro h
  have htake := h.sublist (List.take_sublist 2 final.history)
  rw [final_history] at htake
  exact absurd ((List.pairwise_cons.mp htake).1 _ (List.mem_cons_self ..) _ rfl rfl) (by decide)

/-- Twenty-one requests one after another, and one more a day later. -/
def spaced : List IngressLabel :=
  inTurn 21 ++ .ticked (Instant.days 1).toNat :: List.replicate 4 (.performed 21)

theorem spaced_outlasted : Always (IngressWorld.step receiver)
    (fun world => world.history.Pairwise ReceiptRecord.OutlastsOthers)
      (.start database 0 ((List.range 22).map call)) spaced :=
  (blocks_hold_uncrossed receiver database 0 ((List.range 22).map call) spaced).2
    (by decide +kernel)

end UnsignedRequests

end SiliconHook
