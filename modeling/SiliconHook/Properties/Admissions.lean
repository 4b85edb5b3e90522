import SiliconHook.Application.Ingress
import SiliconHook.Properties.AbuseControl
import SiliconHook.Properties.StoredIdentities

/-!
# Admissions beside management

Requests on their way through the ingress while the hook they were routed to is
updated, rotated, disabled or deleted, and what stood in the store each time an
event was committed.
-/

namespace SiliconHook

-- -----------------------------------------------------------------------------
-- A request between its steps
-- -----------------------------------------------------------------------------

/-- Where a request stands: the copy of the hook it was routed to goes with it. -/
inductive PassageStage
  | waiting
  | resolved (hook : Hook) (receivedAt : Instant)
  | allowed (hook : Hook) (receivedAt : Instant)
  | assessed (hook : Hook) (request : CapturedRequest) (reason : Option BlockReason)
  | struck (hook : Hook) (request : CapturedRequest) (reason : BlockReason)
  | finished

structure Passage where
  command : ReceiveRequestCommand
  draw : ReceiveDraw
  stage : PassageStage

structure Admission where
  command : ReceiveRequestCommand
  hookId : HookId
  request : CapturedRequest
  db : Store

namespace Passage

/-- The next step of a request; the assessment alone reads no store. -/
def next (receiver : Ingress) (passage : Passage) (db : Store) :
    PassageStage × Store × Option Admission :=
  match passage.stage with
  | .waiting =>
    match Ingress.route passage.command passage.draw.databaseTime db with
    | .error _ => (.finished, db, none)
    | .ok (hook, now) => (.resolved hook now, db, none)
  | .resolved hook now =>
    match checkIpBlock hook.id passage.command.remoteIp now db with
    | (.blockedUntil _, db) => (.finished, db, none)
    | (.allowed, db) => (.allowed hook now, db, none)
  | .allowed hook now =>
    match receiver.assess passage.command hook now with
    | .error _ => (.finished, db, none)
    | .ok (request, reason) => (.assessed hook request reason, db, none)
  | .assessed hook request none =>
    match receiver.codec.acceptEvent receiver.deliverySummary
        (receiver.acceptCommand hook request passage.draw.eventId) passage.draw.sendId
        passage.draw.sendIds passage.draw.queuedAt db with
    | .error _ => (.finished, db, none)
    | .ok (_, after) => (.finished, after, some ⟨passage.command, hook.id, request, db⟩)
  | .assessed hook request (some reason) =>
    match recordUnverifiedRequest hook.id request.remoteIp request.receivedAt db with
    | .error _ => (.finished, db, none)
    | .ok (_, db) => (.struck hook request reason, db, none)
  | .struck hook request reason =>
    match recordBlockedRequest ⟨passage.draw.blockedId, hook, request, reason⟩ db with
    | .error _ => (.finished, db, none)
    | .ok (_, db) => (.finished, db, none)
  | .finished => (.finished, db, none)

def perform (receiver : Ingress) (made : Passage × Store) : Passage × Store :=
  let (stage, db, _) := made.1.next receiver made.2
  ({ made.1 with stage := stage }, db)

/-- A request that nothing overlaps is received as the use case receives it. -/
theorem perform_receives (receiver : Ingress) (command : ReceiveRequestCommand)
    (draw : ReceiveDraw) (db : Store) :
    ((perform receiver)^[5] (⟨command, draw, .waiting⟩, db)).2 =
      (receiver.receiveRequest command draw).exec db := by
  simp only [Function.iterate_succ, Function.iterate_zero, Function.comp, id]
  cases hroute : Ingress.route command draw.databaseTime db with
  | error e =>
    simp [perform, next, hroute, Ingress.receiveRequest, Program.exec, Bind.bind, Program.bind,
      Program.read]
  | ok found =>
    simp only [perform, next, hroute, Ingress.receiveRequest, Program.exec, Bind.bind,
      Program.bind, Program.read, Ingress.checkAddress, Program.transact]
    cases hcheck : checkIpBlock found.1.id command.remoteIp found.2 db with
    | mk check mid =>
      cases check with
      | blockedUntil instant => rfl
      | allowed =>
        simp only [liftM, monadLift, MonadLift.monadLift, Program.ofExcept, Program.bind]
        cases hassess : receiver.assess command found.1 found.2 with
        | error e => rfl
        | ok assessed =>
          obtain ⟨request, reason⟩ := assessed
          cases reason with
          | none =>
            simp only [Ingress.accept, Bind.bind, Program.bind, Program.transact]
            cases receiver.codec.acceptEvent receiver.deliverySummary
              (receiver.acceptCommand found.1 request draw.eventId) draw.sendId draw.sendIds
              draw.queuedAt mid <;> rfl
          | some reason =>
            simp only [Ingress.block, Bind.bind, Program.bind, Program.transact]
            cases recordUnverifiedRequest found.1.id request.remoteIp request.receivedAt mid with
            | error e => rfl
            | ok struck =>
              simp only [liftStore]
              cases recordBlockedRequest ⟨draw.blockedId, found.1, request, reason⟩ struck.2 <;> rfl

end Passage

-- -----------------------------------------------------------------------------
-- The world
-- -----------------------------------------------------------------------------

/-- Requests under way beside the store, and what they committed, newest first. -/
structure AdmissionWorld where
  database : Database
  passages : List Passage
  admissions : List Admission

inductive AdmissionLabel
  | performed (call : Nat)
  | stored (label : StoredLabel)

namespace AdmissionWorld

def start (database : Database) (calls : List (ReceiveRequestCommand × ReceiveDraw)) :
    AdmissionWorld :=
  ⟨database, calls.map fun made => ⟨made.1, made.2, .waiting⟩, []⟩

def step (receiver : Ingress) (world : AdmissionWorld) : AdmissionLabel → AdmissionWorld
  | .performed call =>
    match world.passages[call]? with
    | none => world
    | some passage =>
      let (stage, db, admission) := passage.next receiver world.database.db
      { database := { world.database with db := db }
        passages := world.passages.set call { passage with stage := stage }
        admissions := admission.toList ++ world.admissions }
  | .stored label => { world with database := storedStep world.database label }

end AdmissionWorld

-- -----------------------------------------------------------------------------
-- What is claimed of an acceptance
-- -----------------------------------------------------------------------------

/-- A request meets a policy that requires no signature, or that verifies it. -/
def Ingress.Meets (receiver : Ingress) (command : ReceiveRequestCommand) (hookId : HookId)
    (policy : SigningPolicy) (request : CapturedRequest) : Prop :=
  policy.required = false ∨ ∃ hook : Hook, ∃ url, hook.id = hookId ∧ hook.signing = policy ∧
    receiver.hookUrl command = .ok url ∧ receiver.verify hook url request = .ok ()

/-- The hook is active where the event is committed, under the key of the request
and a policy the request meets. -/
def Admission.Due (receiver : Ingress) (admission : Admission) : Prop :=
  ∃ row, admission.db.hooks.find admission.hookId = some row ∧
    activeHook admission.hookId row = true ∧
    row.endpointKey = admission.command.endpointKey ∧
    receiver.Meets admission.command admission.hookId row.signing admission.request

def AdmissionWorld.Admitted (receiver : Ingress) (world : AdmissionWorld) : Prop :=
  ∀ admission ∈ world.admissions, admission.Due receiver

/-- What the acceptance does not recheck: the stored key is that of the routed
copy, and a stored policy that requires a signature is the copy's, secret included. -/
def Passage.Unchanged (passage : Passage) (db : Store) : Prop :=
  match passage.stage with
  | .assessed hook _ none => ∀ row ∈ db.hooks.find hook.id,
      row.endpointKey = hook.endpointKey ∧
        (row.signing.required = false ∨ row.signing = hook.signing)
  | _ => True

instance {passage : Passage} {db : Store} : Decidable (passage.Unchanged db) := by
  unfold Passage.Unchanged
  split <;> infer_instance

def AdmissionWorld.Unchanged (world : AdmissionWorld) (label : AdmissionLabel) : Prop :=
  match label with
  | .performed call => ∀ passage ∈ world.passages[call]?, passage.Unchanged world.database.db
  | .stored _ => True

instance {world : AdmissionWorld} {label : AdmissionLabel} : Decidable (world.Unchanged label) :=
  match label with
  | .performed call => inferInstanceAs (Decidable (∀ passage ∈ world.passages[call]?,
      passage.Unchanged world.database.db))
  | .stored _ => isTrue trivial

-- -----------------------------------------------------------------------------
-- One step
-- -----------------------------------------------------------------------------

section

variable {receiver : Ingress} {passage : Passage} {db : Store}

/-- A request is assessed under nothing of the hook but its id and its policy. -/
theorem Ingress.verify_congr {hook hook' : Hook} (hid : hook.id = hook'.id)
    (hsigning : hook.signing = hook'.signing) (url : String) (request : CapturedRequest) :
    receiver.verify hook url request = receiver.verify hook' url request := by
  simp only [Ingress.verify, Ingress.material, Ingress.storedSecret, hid, hsigning]

theorem Ingress.assess_meets (h : receiver.assess command hook now = .ok (request, none)) :
    receiver.Meets command hook.id hook.signing request := by
  simp only [Ingress.assess, Except.bind_ok] at h
  obtain ⟨url, hurl, captured, -, h⟩ := h
  split at h
  · rename_i hrequired
    exact .inl (by simpa using hrequired)
  · split at h
    · rename_i hverify
      cases h
      exact .inr ⟨hook, url, rfl, rfl, hurl, hverify⟩
    · cases h

theorem Ingress.route_key (h : Ingress.route command clock db = .ok (hook, now)) :
    hook.endpointKey = command.endpointKey := by
  unfold Ingress.route at h
  split at h <;> cases h
  rename_i hresolved
  obtain ⟨-, -, row, -, hkey, hsnapshot, -⟩ := resolveEndpoint_active (liftStore_ok.mp hresolved)
  rw [Hook.endpointKey, hsnapshot]
  exact hkey

namespace Passage

/-- What a request carries: a copy with its key, and once it is let through a
policy that it meets. -/
def Sound (receiver : Ingress) (passage : Passage) : Prop :=
  match passage.stage with
  | .resolved hook _ | .allowed hook _ => hook.endpointKey = passage.command.endpointKey
  | .assessed hook request none => hook.endpointKey = passage.command.endpointKey ∧
      receiver.Meets passage.command hook.id hook.signing request
  | _ => True

theorem next_sound (h : passage.Sound receiver) :
    Sound receiver { passage with stage := (passage.next receiver db).1 } := by
  unfold next
  unfold Sound at h
  cases hstage : passage.stage with
  | waiting =>
    dsimp only
    split
    · trivial
    · rename_i hroute
      exact Ingress.route_key hroute
  | resolved hook now =>
    rw [hstage] at h
    dsimp only
    split
    · trivial
    · exact h
  | allowed hook now =>
    rw [hstage] at h
    dsimp only
    split
    · trivial
    · rename_i request reason hassess
      cases reason with
      | none => exact ⟨h, Ingress.assess_meets hassess⟩
      | some reason => trivial
  | assessed hook request reason =>
    cases reason with
    | none =>
      dsimp only
      split <;> trivial
    | some reason =>
      dsimp only
      split <;> trivial
  | struck hook request reason =>
    dsimp only
    split <;> trivial
  | finished => trivial

/-- An acceptance is committed by a request that was let through, on a hook that
is still active. -/
theorem next_admission (h : (passage.next receiver db).2.2 = some admission) :
    ∃ hook request, passage.stage = .assessed hook request none ∧
      admission = ⟨passage.command, hook.id, request, db⟩ ∧
      ∃ row, db.hooks.find hook.id = some row ∧ activeHook hook.id row = true := by
  unfold next at h
  cases hstage : passage.stage with
  | assessed hook request reason =>
    rw [hstage] at h
    cases reason with
    | none =>
      dsimp only at h
      split at h
      · cases h
      · rename_i haccept
        cases h
        obtain ⟨mid, happended, -⟩ := acceptEvent_ok haccept
        exact ⟨hook, request, rfl, rfl, find_active happended.active⟩
    | some reason =>
      dsimp only at h
      split at h <;> cases h
  | waiting =>
    rw [hstage] at h
    dsimp only at h
    split at h <;> cases h
  | resolved hook now =>
    rw [hstage] at h
    dsimp only at h
    split at h <;> cases h
  | allowed hook now =>
    rw [hstage] at h
    dsimp only at h
    split at h <;> cases h
  | struck hook request reason =>
    rw [hstage] at h
    dsimp only at h
    split at h <;> cases h
  | finished =>
    rw [hstage] at h
    cases h

theorem next_due (hsound : passage.Sound receiver) (hunchanged : passage.Unchanged db)
    (h : (passage.next receiver db).2.2 = some admission) : admission.Due receiver := by
  obtain ⟨hook, request, hstage, rfl, row, hfind, hactive⟩ := next_admission h
  simp only [Sound, hstage] at hsound
  simp only [Unchanged, hstage] at hunchanged
  obtain ⟨hkey, hmeets⟩ := hsound
  obtain ⟨hsame, hpolicy⟩ := hunchanged row hfind
  refine ⟨row, hfind, hactive, hsame.trans hkey, ?_⟩
  obtain hoptional | hpolicy := hpolicy
  · exact .inl hoptional
  · rw [hpolicy]
    exact hmeets

end Passage

end

-- -----------------------------------------------------------------------------
-- Runs
-- -----------------------------------------------------------------------------

namespace AdmissionWorld

structure Guarded (receiver : Ingress) (world : AdmissionWorld) : Prop where
  passages : ∀ passage ∈ world.passages, passage.Sound receiver
  admissions : world.Admitted receiver

variable {receiver : Ingress} {world : AdmissionWorld}

theorem start_guarded (database : Database)
    (calls : List (ReceiveRequestCommand × ReceiveDraw)) :
    (start database calls).Guarded receiver := by
  refine ⟨?_, List.forall_mem_nil _⟩
  intro passage hm
  obtain ⟨made, -, rfl⟩ := List.mem_map.mp hm
  trivial

theorem Guarded.step (h : world.Guarded receiver) (label : AdmissionLabel)
    (hunchanged : world.Unchanged label) : (world.step receiver label).Guarded receiver := by
  cases label with
  | stored label => exact ⟨h.passages, h.admissions⟩
  | performed call =>
    cases hcall : world.passages[call]? with
    | none =>
      simp only [AdmissionWorld.step, hcall]
      exact h
    | some passage =>
      simp only [AdmissionWorld.step, hcall]
      have hsound := h.passages passage (List.mem_of_getElem? hcall)
      refine ⟨?_, ?_⟩
      · intro other hm
        obtain hm | rfl := List.mem_or_eq_of_mem_set hm
        · exact h.passages other hm
        · exact Passage.next_sound hsound
      · intro admission hm
        obtain hm | hm := List.mem_append.mp hm
        · exact Passage.next_due hsound (hunchanged passage hcall) (Option.mem_toList.mp hm)
        · exact h.admissions admission hm

/-- Where no acceptance finds the key, or a required policy, other than as its
request was routed, every event of the run was due when it was committed. -/
theorem admitted_along (receiver : Ingress) (database : Database)
    (calls : List (ReceiveRequestCommand × ReceiveDraw)) (labels : List AdmissionLabel)
    (h : Along (step receiver) Unchanged (start database calls) labels) :
    Always (step receiver) (Admitted receiver) (start database calls) labels :=
  always_of_invariant (fun _ label hguarded hu => hguarded.step label hu)
    (fun _ hguarded => hguarded.admissions) (start_guarded database calls) h

end AdmissionWorld

namespace RotatedInFlight

def policy : SigningPolicy where
  required := true
  config := ⟨.hmacSha256, ⟨"\"payload\"", .literal "payload"⟩,
    ⟨"request.headers.signature", headerPath "signature"⟩, .hex, .utf8, none⟩
  encryptedSecret := StaleUpdate.policy.encryptedSecret

def row : HookRow :=
  { UnsignedRequests.row with
    siliconId := .fromAccountUuid StaleUpdate.silicon
    siliconUuid := some StaleUpdate.silicon
    signing := policy }

def database : Database := ⟨{ Store.empty with hooks := ⟨[row], by decide⟩ }, []⟩

def call : ReceiveRequestCommand × ReceiveDraw :=
  (⟨StaleUpdate.silicon.value, row.endpointKey, "POST", "/", none,
    [("signature", "6265666f72657061796c6f6164")], [], "192.0.2.1"⟩,
    ⟨0, ⟨1⟩, ⟨1⟩, 0, id, 0⟩)

def replacement : EncryptedSecret :=
  ⟨⟨"k1"⟩, List.replicate 12 0, Encoding.utf8 "after" ++ List.replicate 16 0, by decide⟩

def rotation : StoredLabel := .rotatedSecret
  (rotateSecretCommand ⟨⟨StaleUpdate.owner, "rotate-1"⟩, row.id⟩ replacement 1)

/-- The secret is rotated between the verification and the acceptance. -/
def final : AdmissionWorld :=
  run (AdmissionWorld.step UnsignedRequests.receiver) (.start database [call])
    [.performed 0, .performed 0, .performed 0, .stored rotation, .performed 0]

def rotated : Hook :=
  ⟨(row.withSecret replacement).snapshot, by decide, by decide, by decide, by decide⟩

def request : CapturedRequest where
  method := "POST"
  url := "/"
  headers := call.1.headers
  body := []
  remoteIp := call.1.remoteIp
  receivedAt := 0

theorem final_admitted : final.admissions.map
    (fun admission => (admission.db.hooks.find admission.hookId, admission.hookId,
      admission.request)) = [(some (row.withSecret replacement), rotated.id, request)] := by
  decide +kernel

/-- A request that only the previous secret admits is stored after the rotation. -/
theorem superseded_admitted : ¬ final.Admitted UnsignedRequests.receiver := by
  intro h
  obtain ⟨admission, hm, hmade⟩ := List.mem_map.mp
    (final_admitted.symm ▸ List.mem_singleton_self _)
  obtain ⟨hfound, hmade⟩ := Prod.mk.inj hmade
  obtain ⟨hid, hrequest⟩ := Prod.mk.inj hmade
  obtain ⟨stored, hstored, -, -, hmeets⟩ := h admission hm
  obtain rfl : row.withSecret replacement = stored := Option.some.inj (hfound.symm.trans hstored)
  obtain hoptional | ⟨hook, url, hhook, hsigning, hurl, hverify⟩ := hmeets
  · exact absurd hoptional (by decide)
  · obtain rfl : "/" = url := Except.ok.inj hurl
    rw [Ingress.verify_congr (hhook.trans hid : hook.id = rotated.id) hsigning, hrequest] at hverify
    exact absurd hverify (by decide +kernel)

def signed : List AdmissionLabel :=
  [.performed 0, .performed 0, .performed 0, .performed 0, .stored rotation]

theorem signed_admitted : Always (AdmissionWorld.step UnsignedRequests.receiver)
    (AdmissionWorld.Admitted UnsignedRequests.receiver) (.start database [call]) signed :=
  AdmissionWorld.admitted_along UnsignedRequests.receiver database [call] signed (by decide +kernel)

end RotatedInFlight

end SiliconHook
