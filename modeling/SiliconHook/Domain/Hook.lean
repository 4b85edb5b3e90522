import SiliconHook.Domain.Signing

/-!
# The webhook aggregate

A hook, its value objects and its lifecycle. A hook is only ever built with the
timestamps its lifecycle state calls for, none of them before its creation.
-/

namespace SiliconHook

open Text

-- -----------------------------------------------------------------------------
-- Value objects
-- -----------------------------------------------------------------------------

def endpointKeyLength : Nat := 8
def hookRecoveryDays : Int := 45
def maxHookNameLength : Nat := 200
def maxHookDescriptionLength : Nat := 2000

def EndpointKey.isCanonical (value : String) : Bool :=
  value.toList.length == endpointKeyLength &&
    value.toList.all fun c => isAsciiDigit c || isAsciiUpper c

/-- Eight-character uppercase alphanumeric routing key in a public webhook URL. -/
structure EndpointKey where
  value : String
  valid : EndpointKey.isCanonical value = true
  deriving DecidableEq, Repr

def HookName.check (value : String) : Except DomainError Unit :=
  if value.isEmpty then .error (.empty "name")
  else if value.toList.any isControl then
    .error (.invalidFormat "name" "must not contain control characters")
  else if maxHookNameLength < value.toList.length then .error (.tooLong "name" maxHookNameLength)
  else .ok ()

structure HookName where
  value : String
  valid : HookName.check value = .ok ()
  deriving DecidableEq

def HookName.new (value : String) : Except DomainError HookName :=
  match h : HookName.check (trim value) with
  | .error e => .error e
  | .ok () => .ok ⟨trim value, h⟩

def HookDescription.check (value : String) : Except DomainError Unit :=
  if value.isEmpty then .error (.empty "description")
  else if value.toList.contains '\x00' then
    .error (.invalidFormat "description" "must not contain U+0000")
  else if maxHookDescriptionLength < value.toList.length then
    .error (.tooLong "description" maxHookDescriptionLength)
  else .ok ()

structure HookDescription where
  value : String
  valid : HookDescription.check value = .ok ()
  deriving DecidableEq

structure HookTimeZone where
  value : String
  deriving DecidableEq, Repr

-- -----------------------------------------------------------------------------
-- The aggregate
-- -----------------------------------------------------------------------------

inductive HookStatus
  | active
  | disabled
  | deleted
  deriving DecidableEq, Repr

inductive TransitionError
  | hookAlreadyDeleted
  | hookNotDisabled
  | hookNotDeleted
  | hookRecoveryExpired
  | timestampOutOfOrder (field predecessor : String)
  deriving DecidableEq, Repr

structure HookSnapshot where
  id : HookId
  siliconId : SiliconId
  siliconUuid : Option AccountUuid
  name : HookName
  description : Option HookDescription
  endpointKey : EndpointKey
  signing : SigningPolicy
  timeZone : HookTimeZone
  status : HookStatus
  createdBy : ActorRef
  createdAt : Instant
  disabledAt : Option Instant
  deletedAt : Option Instant
  lastReceivedAt : Option Instant
  lastBlockedAt : Option Instant
  endpointRotatedAt : Option Instant
  deriving DecidableEq

def HookSnapshot.lifecycleIsConsistent (snapshot : HookSnapshot) : Bool :=
  match snapshot.status, snapshot.disabledAt, snapshot.deletedAt with
  | .active, none, none => true
  | .disabled, some _, none => true
  | .deleted, none, some _ => true
  | _, _, _ => false

/-- `true` where the timestamp is absent or not before creation. -/
def HookSnapshot.follows (snapshot : HookSnapshot) (timestamp : Option Instant) : Bool :=
  timestamp.all fun at' => decide (snapshot.createdAt ≤ at')

structure Hook where
  snapshot : HookSnapshot
  lifecycle : snapshot.lifecycleIsConsistent = true
  disabled : snapshot.follows snapshot.disabledAt = true
  deleted : snapshot.follows snapshot.deletedAt = true
  rotated : snapshot.follows snapshot.endpointRotatedAt = true
  deriving DecidableEq

def Hook.rehydrate (snapshot : HookSnapshot) : Except DomainError Hook :=
  if hl : snapshot.lifecycleIsConsistent = true then
    if hd : snapshot.follows snapshot.disabledAt = true then
      if hx : snapshot.follows snapshot.deletedAt = true then
        if hr : snapshot.follows snapshot.endpointRotatedAt = true then
          .ok ⟨snapshot, hl, hd, hx, hr⟩
        else .error (.invalidFormat "endpoint_rotated_at" "must not precede created_at")
      else .error (.invalidFormat "deleted_at" "must not precede created_at")
    else .error (.invalidFormat "disabled_at" "must not precede created_at")
  else .error (.invalidFormat "hook_status"
    "lifecycle status must have exactly its corresponding timestamp")

theorem Hook.ext_snapshot {a b : Hook} (h : a.snapshot = b.snapshot) : a = b := by
  cases a
  cases b
  simp_all

theorem Hook.rehydrate_ok {state : HookSnapshot} {hook : Hook} :
    Hook.rehydrate state = .ok hook ↔ hook.snapshot = state := by
  constructor
  · intro h
    unfold rehydrate at h
    split at h
    · split at h
      · split at h
        · split at h
          · cases h
            rfl
          · cases h
        · cases h
      · cases h
    · cases h
  · rintro rfl
    simp [rehydrate, hook.lifecycle, hook.disabled, hook.deleted, hook.rotated]

structure NewHook where
  id : HookId
  siliconId : SiliconId
  siliconUuid : AccountUuid
  name : HookName
  description : Option HookDescription
  endpointKey : EndpointKey
  signing : SigningPolicy
  timeZone : HookTimeZone
  createdBy : ActorRef
  createdAt : Instant

def Hook.create (new : NewHook) : Hook where
  snapshot := {
    id := new.id
    siliconId := new.siliconId
    siliconUuid := some new.siliconUuid
    name := new.name
    description := new.description
    endpointKey := new.endpointKey
    signing := new.signing
    timeZone := new.timeZone
    status := .active
    createdBy := new.createdBy
    createdAt := new.createdAt
    disabledAt := none
    deletedAt := none
    lastReceivedAt := none
    lastBlockedAt := none
    endpointRotatedAt := none }
  lifecycle := rfl
  disabled := rfl
  deleted := rfl
  rotated := rfl

/-- Partial replacement of hook metadata and signing policy;
`description := some none` clears the description. -/
structure HookUpdate where
  name : Option HookName
  description : Option (Option HookDescription)
  timeZone : Option HookTimeZone
  signing : Option SigningPolicy
  deriving DecidableEq

namespace Hook

abbrev id (hook : Hook) : HookId := hook.snapshot.id
abbrev status (hook : Hook) : HookStatus := hook.snapshot.status
abbrev signing (hook : Hook) : SigningPolicy := hook.snapshot.signing
abbrev siliconId (hook : Hook) : SiliconId := hook.snapshot.siliconId
abbrev siliconUuid (hook : Hook) : Option AccountUuid := hook.snapshot.siliconUuid
abbrev endpointKey (hook : Hook) : EndpointKey := hook.snapshot.endpointKey

def isEnabled (hook : Hook) : Bool := hook.status == .active

/-- Stops accepting new requests; a no-op on a disabled hook. -/
def disable (hook : Hook) (disabledAt : Instant) : Except TransitionError Hook :=
  match hook.status with
  | .deleted => .error .hookAlreadyDeleted
  | .disabled => .ok hook
  | .active =>
    if h : disabledAt < hook.snapshot.createdAt then
      .error (.timestampOutOfOrder "disabled_at" "created_at")
    else .ok {
      snapshot := { hook.snapshot with
        status := .disabled, disabledAt := some disabledAt, deletedAt := none }
      lifecycle := rfl
      disabled := by simpa [HookSnapshot.follows] using h
      deleted := rfl
      rotated := hook.rotated }

/-- Resumes ingress; a no-op on an active hook. -/
def enable (hook : Hook) (enabledAt : Instant) : Except TransitionError Hook :=
  match hook.status with
  | .deleted => .error .hookAlreadyDeleted
  | .active => .ok hook
  | .disabled =>
    match hook.snapshot.disabledAt with
    | none => .error .hookNotDisabled
    | some disabledAt =>
      if enabledAt < disabledAt then
        .error (.timestampOutOfOrder "enabled_at" "disabled_at")
      else .ok {
        snapshot := { hook.snapshot with status := .active, disabledAt := none, deletedAt := none }
        lifecycle := rfl
        disabled := rfl
        deleted := rfl
        rotated := hook.rotated }

def isRetainedAt (hook : Hook) (now : Instant) : Bool :=
  hook.snapshot.deletedAt.all fun deletedAt =>
    decide (now ≤ deletedAt + Instant.days hookRecoveryDays)

def delete (hook : Hook) (deletedAt : Instant) : Except TransitionError Hook :=
  if hook.status = .deleted then .error .hookAlreadyDeleted
  else if h : deletedAt < hook.snapshot.createdAt then
    .error (.timestampOutOfOrder "deleted_at" "created_at")
  else if hook.snapshot.disabledAt.any fun disabledAt => decide (deletedAt < disabledAt) then
    .error (.timestampOutOfOrder "deleted_at" "disabled_at")
  else .ok {
    snapshot := { hook.snapshot with
      status := .deleted, disabledAt := none, deletedAt := some deletedAt }
    lifecycle := rfl
    disabled := rfl
    deleted := by simpa [HookSnapshot.follows] using h
    rotated := hook.rotated }

def restore (hook : Hook) (now : Instant) : Except TransitionError Hook :=
  if hook.status ≠ .deleted then .error .hookNotDeleted
  else match hook.snapshot.deletedAt with
    | none => .error .hookNotDeleted
    | some deletedAt =>
      if deletedAt + Instant.days hookRecoveryDays < now then .error .hookRecoveryExpired
      else if now < deletedAt then .error (.timestampOutOfOrder "restored_at" "deleted_at")
      else .ok {
        snapshot := { hook.snapshot with status := .active, disabledAt := none, deletedAt := none }
        lifecycle := rfl
        disabled := rfl
        deleted := rfl
        rotated := hook.rotated }

def rotateSecret (hook : Hook) (secret : EncryptedSecret) : Except TransitionError Hook :=
  if hook.status = .deleted then .error .hookAlreadyDeleted
  else .ok { hook with
    snapshot := { hook.snapshot with
      signing := { hook.snapshot.signing with encryptedSecret := some secret } } }

def rotateEndpoint (hook : Hook) (replacement : EndpointKey) (rotatedAt : Instant) :
    Except TransitionError (Hook × EndpointKey) :=
  if hook.status = .deleted then .error .hookAlreadyDeleted
  else if h : rotatedAt < hook.snapshot.createdAt then
    .error (.timestampOutOfOrder "endpoint_rotated_at" "created_at")
  else .ok ({
    snapshot := { hook.snapshot with
      endpointKey := replacement, endpointRotatedAt := some rotatedAt }
    lifecycle := hook.lifecycle
    disabled := hook.disabled
    deleted := hook.deleted
    rotated := by simpa [HookSnapshot.follows] using h }, hook.endpointKey)

def update (hook : Hook) (changes : HookUpdate) : Except TransitionError Hook :=
  if hook.status = .deleted then .error .hookAlreadyDeleted
  else .ok { hook with
    snapshot := { hook.snapshot with
      name := changes.name.getD hook.snapshot.name
      description := changes.description.getD hook.snapshot.description
      timeZone := changes.timeZone.getD hook.snapshot.timeZone
      signing := changes.signing.getD hook.snapshot.signing } }

theorem update_ok {hook hook' : Hook} {changes : HookUpdate} :
    hook.update changes = .ok hook' ↔
      hook.status ≠ .deleted ∧ hook'.snapshot = { hook.snapshot with
        name := changes.name.getD hook.snapshot.name
        description := changes.description.getD hook.snapshot.description
        timeZone := changes.timeZone.getD hook.snapshot.timeZone
        signing := changes.signing.getD hook.snapshot.signing } := by
  unfold update
  split
  · simp_all
  · rename_i h
    simp only [Except.ok.injEq, ne_eq, h, not_false_eq_true, true_and]
    constructor
    · rintro rfl
      rfl
    · intro hs
      exact ext_snapshot hs.symm

theorem update_of_live {hook : Hook} (h : hook.status ≠ .deleted) (changes : HookUpdate) :
    ∃ hook', hook.update changes = .ok hook' := by
  simp [update, h]

theorem rotateSecret_of_live {hook : Hook} (h : hook.status ≠ .deleted)
    (secret : EncryptedSecret) : ∃ hook', hook.rotateSecret secret = .ok hook' := by
  simp [rotateSecret, h]

theorem rotateSecret_ok {hook hook' : Hook} :
    hook.rotateSecret secret = .ok hook' ↔
      hook.status ≠ .deleted ∧ hook'.snapshot = { hook.snapshot with
        signing := { hook.snapshot.signing with encryptedSecret := some secret } } := by
  unfold rotateSecret
  split
  · simp_all
  · rename_i h
    simp only [Except.ok.injEq, ne_eq, h, not_false_eq_true, true_and]
    constructor
    · rintro rfl
      rfl
    · intro hs
      exact ext_snapshot hs.symm

end Hook

end SiliconHook
