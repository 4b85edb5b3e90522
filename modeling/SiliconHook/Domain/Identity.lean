import SiliconHook.Library.Encoding

/-!
# Identifiers and accounts

Identifiers carry the check their constructor makes: a stored namespace or
attribution key is visible ASCII, an Accounts uuid has the shape Silicon
Accounts issues, a public id names its account kind by its prefix.
-/

namespace SiliconHook

open Text Encoding

inductive DomainError
  | empty (field : String)
  | tooLong (field : String) (max : Nat)
  | invalidFormat (field : String) (reason : String)
  | outOfRange (field : String) (min max : Nat)
  deriving DecidableEq, Repr

def DomainError.message : DomainError → String
  | .empty field => field ++ " must not be empty"
  | .tooLong field max => field ++ " must be at most " ++ toString max ++ " characters"
  | .invalidFormat field reason => field ++ " has an invalid format: " ++ reason
  | .outOfRange field min max =>
    field ++ " must be between " ++ toString min ++ " and " ++ toString max

abbrev Uuid := BitVec 128

/-- The sixteen bytes of a uuid, most significant first. -/
def Uuid.asBytes (uuid : Uuid) : List UInt8 :=
  (List.range 16).map fun i => UInt8.ofNat (uuid.toNat / 256 ^ (15 - i) % 256)

def Uuid.hyphenated (uuid : Uuid) : String :=
  let digits := hexEncode uuid.asBytes
  String.ofList (digits.take 8 ++ '-' :: (digits.drop 8).take 4 ++ '-' :: (digits.drop 12).take 4 ++
    '-' :: (digits.drop 16).take 4 ++ '-' :: digits.drop 20)

structure HookId where
  uuid : Uuid
  deriving DecidableEq, Repr

structure EventId where
  uuid : Uuid
  deriving DecidableEq, Repr

structure BlockedRequestId where
  uuid : Uuid
  deriving DecidableEq, Repr

/-- Microseconds since 1970-01-01, the resolution of PostgreSQL's `timestamptz`. -/
abbrev Instant := Int

namespace Instant

def second : Int := 1000000
def minutes (n : Int) : Int := 60 * n * second
def hours (n : Int) : Int := 60 * minutes n
def days (n : Int) : Int := 24 * hours n

end Instant

-- -----------------------------------------------------------------------------
-- Opaque external identifiers
-- -----------------------------------------------------------------------------

def maxExternalIdBytes : Nat := 255

def validateExternalId (value : String) (field : String) (max : Nat) : Except DomainError Unit :=
  if value.isEmpty then .error (.empty field)
  else if max < value.utf8ByteSize then .error (.tooLong field max)
  else if !value.toList.all isAsciiGraphic then
    .error (.invalidFormat field "must contain only visible ASCII characters")
  else .ok ()

def isExternalId (value : String) : Bool :=
  !value.isEmpty && value.utf8ByteSize ≤ maxExternalIdBytes && value.toList.all isAsciiGraphic

/-- Stored namespace key of a hook's Silicon: the owning Silicon's Accounts
uuid for hooks created since Silicon Accounts, the IAM-era public id
(`si:...`) for older hooks. -/
structure SiliconId where
  value : String
  valid : isExternalId value = true
  deriving DecidableEq, Repr

structure ActorId where
  value : String
  valid : isExternalId value = true
  deriving DecidableEq, Repr

theorem validateExternalId_ok :
    validateExternalId value field maxExternalIdBytes = .ok () ↔ isExternalId value = true := by
  simp only [validateExternalId, isExternalId, Bool.and_eq_true, Bool.not_eq_true',
    decide_eq_true_eq]
  split
  · rename_i he
    simp [he]
  · rename_i he
    split
    · rename_i hl
      simp only [reduceCtorEq, false_iff, not_and]
      intro h
      omega
    · rename_i hl
      split
      · rename_i hg
        simp_all
      · rename_i hg
        simp_all

def SiliconId.new (value : String) : Except DomainError SiliconId :=
  match h : validateExternalId value "silicon_id" maxExternalIdBytes with
  | .error e => .error e
  | .ok () => .ok ⟨value, validateExternalId_ok.mp h⟩

def ActorId.new (value : String) : Except DomainError ActorId :=
  match h : validateExternalId value "actor_id" maxExternalIdBytes with
  | .error e => .error e
  | .ok () => .ok ⟨value, validateExternalId_ok.mp h⟩

-- -----------------------------------------------------------------------------
-- Accounts
-- -----------------------------------------------------------------------------

inductive ActorKind
  | carbon
  | silicon
  deriving DecidableEq, Repr

def ActorKind.asStr : ActorKind → String
  | .carbon => "carbon"
  | .silicon => "silicon"

def maxAccountUuidLength : Nat := 64

def isLowerHex (c : Char) : Bool := isAsciiDigit c || (97 ≤ c.toNat && c.toNat ≤ 102)

/-- Hyphenated lowercase with the RFC 4122 variant in the nineteenth digit. -/
def isCanonicalUuid (value : List Char) : Bool :=
  value.length == 36 &&
    value.zipIdx.all fun (c, i) =>
      if i == 8 || i == 13 || i == 18 || i == 23 then c == '-'
      else if i == 19 then c == '8' || c == '9' || c == 'a' || c == 'b'
      else isLowerHex c

/-- The shape of an Accounts uuid: canonical, or a legacy alphanumeric id. -/
def AccountUuid.looksLike (value : String) : Bool :=
  (!value.isEmpty && value.utf8ByteSize ≤ maxAccountUuidLength &&
      value.toList.all isAsciiAlphanumeric) ||
    (value.utf8ByteSize == 36 && isCanonicalUuid value.toList)

/-- Permanent Silicon Accounts uuid (an access token's `sub`). -/
structure AccountUuid where
  value : String
  valid : AccountUuid.looksLike value = true
  deriving DecidableEq, Repr

def AccountUuid.new (value : String) : Except DomainError AccountUuid :=
  if value.isEmpty then .error (.empty "account_uuid")
  else if maxAccountUuidLength < value.utf8ByteSize then
    .error (.tooLong "account_uuid" maxAccountUuidLength)
  else if h : AccountUuid.looksLike value = true then .ok ⟨value, h⟩
  else .error (.invalidFormat "account_uuid"
    "must be a canonical UUID or a legacy alphanumeric account identifier")

def PublicId.split : List Char → Option (ActorKind × List Char)
  | 's' :: 'i' :: ':' :: handle => some (.silicon, handle)
  | 'c' :: ':' :: handle => some (.carbon, handle)
  | _ => none

def PublicId.check (value : String) : Except DomainError ActorKind :=
  match PublicId.split value.toList with
  | none => .error (.invalidFormat "id" "must start with c: (a Carbon) or si: (a Silicon)")
  | some (kind, handle) =>
    if handle.isEmpty || 255 < value.utf8ByteSize then
      .error (.invalidFormat "id" "must have a handle of 1 to 252 characters after the prefix")
    else if !handle.all isAsciiGraphic then
      .error (.invalidFormat "id" "must contain only visible ASCII characters")
    else .ok kind

/-- A public account id: `c:handle` for a Carbon or `si:handle` for a Silicon. -/
structure PublicId where
  value : String
  kind : ActorKind
  valid : PublicId.check value = .ok kind
  deriving DecidableEq, Repr

def PublicId.new (value : String) : Except DomainError PublicId :=
  match h : PublicId.check value with
  | .error e => .error e
  | .ok kind => .ok ⟨value, kind, h⟩

structure Actor where
  uuid : AccountUuid
  kind : ActorKind
  id : Option PublicId
  deriving DecidableEq, Repr

structure ActorRef where
  kind : ActorKind
  id : ActorId
  uuid : Option AccountUuid
  deriving DecidableEq, Repr

-- -----------------------------------------------------------------------------
-- Every account uuid is a storage key
-- -----------------------------------------------------------------------------

theorem isCanonicalUuid_graphic (h : isCanonicalUuid value = true) :
    value.all isAsciiGraphic = true := by
  simp only [isCanonicalUuid, Bool.and_eq_true, List.all_eq_true] at h
  rw [List.all_eq_true]
  intro c hc
  obtain ⟨i, hi, rfl⟩ := List.getElem_of_mem hc
  have hd := h.2 (value[i], i) (by simp [List.mem_zipIdx_iff_getElem?, hi])
  simp only at hd
  split at hd
  · rw [beq_iff_eq.mp hd]
    decide
  · split at hd
    · simp only [Bool.or_eq_true, beq_iff_eq] at hd
      rcases hd with ((hd | hd) | hd) | hd <;> rw [hd] <;> decide
    · simp only [isLowerHex, isAsciiDigit, isAsciiGraphic, Bool.or_eq_true, Bool.and_eq_true,
        decide_eq_true_eq] at hd ⊢
      omega

theorem AccountUuid.isExternalId (uuid : AccountUuid) : isExternalId uuid.value = true := by
  obtain ⟨value, hv⟩ := uuid
  simp only [looksLike, Bool.or_eq_true, Bool.and_eq_true, decide_eq_true_eq,
    beq_iff_eq, Bool.not_eq_true'] at hv
  simp only [SiliconHook.isExternalId, Bool.and_eq_true, decide_eq_true_eq, Bool.not_eq_true']
  rcases hv with ⟨⟨hn, hl⟩, ha⟩ | ⟨hs, hc⟩
  · refine ⟨⟨hn, by simp only [maxAccountUuidLength, maxExternalIdBytes] at *; omega⟩, ?_⟩
    rw [List.all_eq_true] at ha ⊢
    intro c hc
    exact isAsciiAlphanumeric_graphic (ha c hc)
  · refine ⟨⟨?_, by simp only [maxExternalIdBytes]; omega⟩, isCanonicalUuid_graphic hc⟩
    cases he : value.isEmpty with
    | false => rfl
    | true => simp_all

theorem AccountUuid.new_value (uuid : AccountUuid) : AccountUuid.new uuid.value = .ok uuid := by
  have hv := uuid.valid
  have hs : uuid.value.utf8ByteSize ≤ maxAccountUuidLength := by
    simp only [looksLike, Bool.or_eq_true, Bool.and_eq_true, decide_eq_true_eq,
      beq_iff_eq] at hv
    rcases hv with ⟨⟨-, hl⟩, -⟩ | ⟨hl, -⟩
    · exact hl
    · simp [hl, maxAccountUuidLength]
  have he : uuid.value.isEmpty = false := by
    have hn := uuid.isExternalId
    simp only [SiliconHook.isExternalId, Bool.and_eq_true, Bool.not_eq_true'] at hn
    exact hn.1.1
  simp [new, he, Nat.not_lt.mpr hs, hv]

def SiliconId.fromAccountUuid (uuid : AccountUuid) : SiliconId := ⟨uuid.value, uuid.isExternalId⟩

def ActorId.fromAccountUuid (uuid : AccountUuid) : ActorId := ⟨uuid.value, uuid.isExternalId⟩

/-- Attribution for an Accounts-era actor: the uuid is also the stored key. -/
def ActorRef.account (kind : ActorKind) (uuid : AccountUuid) : ActorRef :=
  ⟨kind, .fromAccountUuid uuid, some uuid⟩

theorem SiliconId.fromAccountUuid_injective (h : fromAccountUuid u = fromAccountUuid v) :
    u = v := by
  obtain ⟨u, hu⟩ := u
  obtain ⟨v, hv⟩ := v
  simpa [fromAccountUuid] using h

end SiliconHook
