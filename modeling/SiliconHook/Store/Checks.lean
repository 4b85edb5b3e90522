import SiliconHook.Domain.Verify
import SiliconHook.Store.Events

/-!
# Column constraints

The CHECK constraints of the two request logs, and of the columns a log row
copies from its hook. A statement that would leave a row outside them fails its
transaction.
-/

namespace SiliconHook

open Text

/-- `char_length(column) BETWEEN low AND high`. -/
def LengthBetween (low high : Nat) (text : String) : Prop :=
  low ≤ text.toList.length ∧ text.toList.length ≤ high

instance (low high : Nat) (text : String) : Decidable (LengthBetween low high text) :=
  inferInstanceAs (Decidable (_ ∧ _))

def isMethodColumnChar (c : Char) : Bool :=
  isAsciiAlphanumeric c || "!#$%&'*+.^_\x60|~-".toList.contains c

def isReasonCodeChar (c : Char) : Bool := isAsciiLower c || isAsciiDigit c || c = '_'

def AccountUuid.inColumn (uuid : AccountUuid) : Bool :=
  (LengthBetween 1 64 uuid.value && uuid.value.toList.all isAsciiAlphanumeric) ||
    (isCanonicalUuid uuid.value.toList && uuid.value.toList[14]?.any fun c =>
      '1' ≤ c && c ≤ '8')

/-- The columns a capture fills; the headers are an array as they are encoded. -/
structure CapturedRequest.Checked (lib : ExpressionLibrary) (request : CapturedRequest) : Prop where
  methodLength : LengthBetween 1 32 request.method
  methodToken : request.method.toList.all isMethodColumnChar = true
  urlLength : LengthBetween 1 16384 request.url
  pathLength : LengthBetween 1 4096 (lib.path request.url)
  queryStringLength : LengthBetween 0 8192 ((lib.query request.url).getD "")
  contentTypeLength : ∀ contentType ∈ request.contentType, LengthBetween 0 255 contentType
  bodyLength : request.body.length ≤ 1048576

structure HookRow.Checked (row : HookRow) : Prop where
  siliconUuidFormat : ∀ uuid ∈ row.siliconUuid, uuid.inColumn = true
  timeZoneLength : LengthBetween 1 64 row.timeZone.value

structure EventRow.Checked (lib : ExpressionLibrary) (row : EventRow) : Prop where
  siliconIdLength : LengthBetween 1 255 row.siliconId.value
  siliconIdFormat : row.siliconId.value.toList.all isAsciiGraphic = true
  siliconUuidFormat : ∀ uuid ∈ row.siliconUuid, uuid.inColumn = true
  providerLength : LengthBetween 1 200 row.provider.value
  summaryLength : LengthBetween 1 400 row.summary
  deliverySequencePositive : 0 < row.deliverySequence
  capture : row.request.Checked lib
  expiresAfterRetention : row.expiresAt = row.receivedAt + Instant.days 14

structure BlockedRequestRow.Checked (lib : ExpressionLibrary) (row : BlockedRequestRow) :
    Prop where
  siliconIdLength : LengthBetween 1 255 row.siliconId.value
  siliconIdFormat : row.siliconId.value.toList.all isAsciiGraphic = true
  siliconUuidFormat : ∀ uuid ∈ row.siliconUuid, uuid.inColumn = true
  providerLength : LengthBetween 1 200 row.provider.value
  reasonCodeLength : LengthBetween 1 64 row.reason.code
  reasonCodeFormat : row.reason.code.toList.all isReasonCodeChar = true
  reasonDetailLength : LengthBetween 0 500 row.reason.detail
  reasonDetailFormat : row.reason.detail.toList.any isControl = false
  capture : row.request.Checked lib
  expiresAfterRetention : row.expiresAt = row.receivedAt + Instant.days 14

structure Store.Checked (lib : ExpressionLibrary) (db : Store) : Prop where
  hooks : ∀ row ∈ db.hooks.rows, row.Checked
  events : ∀ row ∈ db.events.rows, row.Checked lib
  blockedRequests : ∀ row ∈ db.blockedRequests.rows, row.Checked lib

-- -----------------------------------------------------------------------------
-- Decisions
-- -----------------------------------------------------------------------------

instance (lib : ExpressionLibrary) (request : CapturedRequest) :
    Decidable (request.Checked lib) :=
  decidable_of_iff (LengthBetween 1 32 request.method ∧
      request.method.toList.all isMethodColumnChar = true ∧ LengthBetween 1 16384 request.url ∧
      LengthBetween 1 4096 (lib.path request.url) ∧
      LengthBetween 0 8192 ((lib.query request.url).getD "") ∧
      (∀ contentType ∈ request.contentType, LengthBetween 0 255 contentType) ∧
      request.body.length ≤ 1048576)
    ⟨fun ⟨h₁, h₂, h₃, h₄, h₅, h₆, h₇⟩ => ⟨h₁, h₂, h₃, h₄, h₅, h₆, h₇⟩,
      fun h => ⟨h.1, h.2, h.3, h.4, h.5, h.6, h.7⟩⟩

instance (row : HookRow) : Decidable row.Checked :=
  decidable_of_iff ((∀ uuid ∈ row.siliconUuid, uuid.inColumn = true) ∧
      LengthBetween 1 64 row.timeZone.value)
    ⟨fun ⟨h₁, h₂⟩ => ⟨h₁, h₂⟩, fun h => ⟨h.1, h.2⟩⟩

instance (lib : ExpressionLibrary) (row : EventRow) : Decidable (row.Checked lib) :=
  decidable_of_iff (LengthBetween 1 255 row.siliconId.value ∧
      row.siliconId.value.toList.all isAsciiGraphic = true ∧
      (∀ uuid ∈ row.siliconUuid, uuid.inColumn = true) ∧ LengthBetween 1 200 row.provider.value ∧
      LengthBetween 1 400 row.summary ∧ 0 < row.deliverySequence ∧ row.request.Checked lib ∧
      row.expiresAt = row.receivedAt + Instant.days 14)
    ⟨fun ⟨h₁, h₂, h₃, h₄, h₅, h₆, h₇, h₈⟩ => ⟨h₁, h₂, h₃, h₄, h₅, h₆, h₇, h₈⟩,
      fun h => ⟨h.1, h.2, h.3, h.4, h.5, h.6, h.7, h.8⟩⟩

instance (lib : ExpressionLibrary) (row : BlockedRequestRow) : Decidable (row.Checked lib) :=
  decidable_of_iff (LengthBetween 1 255 row.siliconId.value ∧
      row.siliconId.value.toList.all isAsciiGraphic = true ∧
      (∀ uuid ∈ row.siliconUuid, uuid.inColumn = true) ∧ LengthBetween 1 200 row.provider.value ∧
      LengthBetween 1 64 row.reason.code ∧ row.reason.code.toList.all isReasonCodeChar = true ∧
      LengthBetween 0 500 row.reason.detail ∧ row.reason.detail.toList.any isControl = false ∧
      row.request.Checked lib ∧ row.expiresAt = row.receivedAt + Instant.days 14)
    ⟨fun ⟨h₁, h₂, h₃, h₄, h₅, h₆, h₇, h₈, h₉, h₁₀⟩ => ⟨h₁, h₂, h₃, h₄, h₅, h₆, h₇, h₈, h₉, h₁₀⟩,
      fun h => ⟨h.1, h.2, h.3, h.4, h.5, h.6, h.7, h.8, h.9, h.10⟩⟩

instance (lib : ExpressionLibrary) (db : Store) : Decidable (db.Checked lib) :=
  decidable_of_iff ((∀ row ∈ db.hooks.rows, row.Checked) ∧
      (∀ row ∈ db.events.rows, row.Checked lib) ∧
      ∀ row ∈ db.blockedRequests.rows, row.Checked lib)
    ⟨fun ⟨h₁, h₂, h₃⟩ => ⟨h₁, h₂, h₃⟩, fun h => ⟨h.1, h.2, h.3⟩⟩

def constrained (lib : ExpressionLibrary) (call : Store → Except StoreError (α × Store))
    (db : Store) : Except StoreError (α × Store) :=
  match call db with
  | .error e => .error e
  | .ok (a, db') => if db'.Checked lib then .ok (a, db') else .error (.database "check_violation")

theorem constrained_eq {lib : ExpressionLibrary} {call : Store → Except StoreError (α × Store)}
    {db : Store} (h : ∀ a db', call db = .ok (a, db') → db'.Checked lib) :
    constrained lib call db = call db := by
  unfold constrained
  cases hcall : call db with
  | error e => rfl
  | ok done => exact if_pos (h done.1 done.2 hcall)

theorem constrained_ok {lib : ExpressionLibrary} {call : Store → Except StoreError (α × Store)}
    {db db' : Store} : constrained lib call db = .ok (a, db') ↔
      call db = .ok (a, db') ∧ db'.Checked lib := by
  unfold constrained
  cases hcall : call db with
  | error e => simp
  | ok done =>
    obtain ⟨b, made⟩ := done
    by_cases hchecked : made.Checked lib
    · simp only [hchecked, if_true, Except.ok.injEq, Prod.mk.injEq]
      constructor
      · rintro ⟨rfl, rfl⟩
        exact ⟨⟨rfl, rfl⟩, hchecked⟩
      · exact And.left
    · simp only [hchecked, if_false, reduceCtorEq, Except.ok.injEq, Prod.mk.injEq, false_iff,
        not_and]
      rintro ⟨-, rfl⟩
      exact hchecked

end SiliconHook
