import SiliconHook.Domain.Identity
import SiliconHook.Library.Table

/-!
# The contract lifecycle

A row for each API major. `contract_status` ends a deprecated major that was not
requested for a whole window, and counts the requests it admits; only the
operator's command deprecates a major or brings one back.
-/

namespace SiliconHook

inductive ContractStatus
  | active
  | deprecated
  | sunset
  deriving DecidableEq, Repr

structure ContractRow where
  major : String
  status : ContractStatus
  deprecatedAt : Option Instant
  lastRequestedAt : Option Instant
  requestCount : Int
  sunsetAt : Option Instant
  deriving DecidableEq, Repr

instance : Keyed ContractRow String := ⟨ContractRow.major⟩

abbrev ContractVersions := Table ContractRow

def contractMajors : List String := ["v1", "v2", "v3"]

/-- A deprecated major ends once nothing requested it for this long. -/
def contractIdle : Instant := Instant.days 7

namespace ContractRow

def initial (major : String) (now : Instant) : ContractRow where
  major
  status := if major = "v3" then .active else .sunset
  deprecatedAt := none
  lastRequestedAt := none
  requestCount := 0
  sunsetAt := if major = "v3" then none else some now

/-- `GREATEST` of the two instants is not younger than the window. It ignores NULL and
is NULL only where both are. -/
def idle (now : Instant) (row : ContractRow) : Bool :=
  (row.deprecatedAt.isSome || row.lastRequestedAt.isSome) &&
    (row.deprecatedAt.toList ++ row.lastRequestedAt.toList).all fun at' =>
      decide (at' ≤ now - contractIdle)

def settle (now : Instant) (row : ContractRow) : ContractRow :=
  if row.status = .deprecated ∧ row.idle now = true then
    { row with status := .sunset, sunsetAt := some now }
  else row

/-- The request counted, unless the major has ended. -/
def recorded (now : Instant) (row : ContractRow) : ContractRow :=
  if row.status = .sunset then row
  else { row with lastRequestedAt := some now, requestCount := row.requestCount + 1 }

def checked (recordRequest : Bool) (now : Instant) (row : ContractRow) : ContractRow :=
  if recordRequest then (row.settle now).recorded now else row.settle now

def ordered (deprecated : Bool) (major : String) (now : Instant) : ContractRow where
  major
  status := if deprecated then .deprecated else .active
  deprecatedAt := if deprecated then some now else none
  lastRequestedAt := none
  requestCount := 0
  sunsetAt := none

/-- The row after the operator's command. A major already deprecated keeps its instant. -/
def commanded (deprecated : Bool) (now : Instant) (row : ContractRow) : ContractRow :=
  { row with
    status := if deprecated then .deprecated else .active
    deprecatedAt := if deprecated then
        if row.status = .deprecated then row.deprecatedAt else some now
      else none
    sunsetAt := none }

theorem settle_major (now : Instant) (row : ContractRow) : (row.settle now).major = row.major := by
  unfold settle
  split <;> rfl

theorem recorded_major (now : Instant) (row : ContractRow) :
    (row.recorded now).major = row.major := by
  unfold recorded
  split <;> rfl

theorem checked_major (recordRequest : Bool) (now : Instant) (row : ContractRow) :
    (row.checked recordRequest now).major = row.major := by
  unfold checked
  split
  · rw [recorded_major, settle_major]
  · exact settle_major now row

theorem commanded_major (deprecated : Bool) (now : Instant) (row : ContractRow) :
    (row.commanded deprecated now).major = row.major := rfl

end ContractRow

namespace ContractVersions

/-- `contract_status`: the row it returns and what it leaves. No row is returned for a
major the table cannot hold. -/
def contractStatus (selectedMajor : String) (recordRequest : Bool) (now : Instant)
    (contracts : ContractVersions) : Option ContractRow × ContractVersions :=
  if selectedMajor ∈ contractMajors then
    let contracts := contracts.insertOrKeep (.initial selectedMajor now)
    let contracts := contracts.update (fun row => row.major = selectedMajor)
      (fun row => row.checked recordRequest now) fun row => row.checked_major recordRequest now
    (contracts.find selectedMajor, contracts)
  else (none, contracts)

/-- `hook-contract deprecate` and `activate`; the command line takes no other major. -/
def command (deprecated : Bool) (major : String) (now : Instant) (contracts : ContractVersions) :
    ContractVersions :=
  if major ∈ contractMajors then
    contracts.upsert (.ordered deprecated major now) (fun row => row.commanded deprecated now)
      fun row => row.commanded_major deprecated now
  else contracts

def current (major : String) (now : Instant) (contracts : ContractVersions) : ContractRow :=
  (contracts.find major).getD (.initial major now)

theorem find_contractStatus {major : String} (hm : major ∈ contractMajors) (recordRequest : Bool)
    (now : Instant) (contracts : ContractVersions) (other : String) :
    (contractStatus major recordRequest now contracts).2.find other =
      if other = major then some ((contracts.current major now).checked recordRequest now)
      else contracts.find other := by
  unfold contractStatus
  rw [if_pos hm]
  dsimp only
  rw [Table.find_update, Table.find_insertOrKeep]
  have hkey : Keyed.key (ContractRow.initial major now) = major := rfl
  rw [hkey]
  by_cases ho : other = major
  · subst ho
    rw [if_pos rfl, if_pos rfl, Option.map_some, current]
    have hmajor : ((contracts.find other).getD (.initial other now)).major = other := by
      cases hfind : contracts.find other with
      | none => rfl
      | some row => exact Table.find_key hfind
    rw [if_pos (decide_eq_true hmajor)]
  · rw [if_neg ho, if_neg ho]
    cases hfind : contracts.find other with
    | none => rfl
    | some row =>
      have hmajor : row.major = other := Table.find_key hfind
      rw [Option.map_some, if_neg]
      exact fun h => ho (hmajor.symm.trans (of_decide_eq_true h))

theorem contractStatus_fst {major : String} (hm : major ∈ contractMajors) (recordRequest : Bool)
    (now : Instant) (contracts : ContractVersions) :
    (contractStatus major recordRequest now contracts).1 =
      some ((contracts.current major now).checked recordRequest now) := by
  have h := find_contractStatus hm recordRequest now contracts major
  rw [if_pos rfl] at h
  rw [← h]
  unfold contractStatus
  rw [if_pos hm]

/-- A command finds what a status check finds: the row it inserts is the initial one, commanded. -/
theorem find_command {major : String} (hm : major ∈ contractMajors) (deprecated : Bool)
    (now : Instant) (contracts : ContractVersions) (other : String) :
    (command deprecated major now contracts).find other =
      if other = major then some ((contracts.current major now).commanded deprecated now)
      else contracts.find other := by
  unfold command
  rw [if_pos hm, Table.find_upsert]
  have hkey : Keyed.key (ContractRow.ordered deprecated major now) = major := rfl
  rw [hkey]
  by_cases ho : other = major
  · subst ho
    rw [if_pos rfl, if_pos rfl, current]
    cases contracts.find other with
    | some row => rfl
    | none =>
      have hstatus : (ContractRow.initial other now).status ≠ .deprecated := by
        unfold ContractRow.initial
        dsimp only
        split <;> simp
      rw [Option.elim_none, Option.getD_none, ContractRow.commanded, if_neg hstatus]
      rfl
  · rw [if_neg ho, if_neg ho]

end ContractVersions

end SiliconHook
