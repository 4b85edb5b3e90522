import SiliconHook.Library.Result
import SiliconHook.Domain.Identity

/-!
# Mapping files

The file an operator links IAM-era ids with: CSV with a header, one id a line,
an empty uuid to unlink it. Every problem is reported with its line.
-/

namespace SiliconHook

open Text Encoding

structure MappingRow where
  iamPublicId : PublicId
  iamPrincipalId : Option String
  accountsUuid : Option AccountUuid
  deriving DecidableEq, Repr

structure IdentityMapping where
  rows : List MappingRow
  sha256 : String
  deriving DecidableEq, Repr

inductive Layout
  | publicId
  | principalAndPublicId
  deriving DecidableEq, Repr

-- -----------------------------------------------------------------------------
-- Lines
-- -----------------------------------------------------------------------------

def stripReturn (line : List Char) : List Char :=
  if line.getLast? = some '\r' then line.dropLast else line

/-- The lines of a text; a final line ending is optional. -/
def lines (text : List Char) : List (List Char) :=
  let pieces := splitBy (· = '\n') text
  pieces.dropLast.map stripReturn ++ (pieces.getLast?.filter (· ≠ [])).toList

/-- Numbered from one and trimmed, without blank lines and comments. -/
def mappingLines (text : String) : List (Nat × String) :=
  ((lines text.toList).zipIdx.map fun (line, index) =>
      (index + 1, trim (String.ofList line))).filter fun (_, line) =>
    !line.isEmpty && line.toList.head? ≠ some '#'

def atLine (number : Nat) (problem : String) : String :=
  "line " ++ toString number ++ ": " ++ problem

def parseHeader : Option (Nat × String) → Except String Layout
  | some (number, header) =>
    if header = "iam_public_id,accounts_uuid" ∨ header = "iam_principal_id,accounts_uuid" then
      .ok .publicId
    else if header = "iam_principal_id,iam_public_id,accounts_uuid" then .ok .principalAndPublicId
    else .error (atLine number ("the header is `" ++ header ++
      "`; use `iam_public_id,accounts_uuid` or `iam_principal_id,iam_public_id,accounts_uuid`"))
  | none => .error "the file has no header and no rows"

def rowFields (layout : Layout) (number : Nat) (line : String) :
    Except String (Option String × String × String) :=
  let fields := (splitBy (· = ',') line.toList).map fun field => trim (String.ofList field)
  match layout, fields with
  | .publicId, [publicId, uuid] => .ok (none, publicId, uuid)
  | .principalAndPublicId, [principal, publicId, uuid] =>
    .ok ((some principal).filter (!·.isEmpty), publicId, uuid)
  | .publicId, _ => .error (atLine number "expected 2 comma-separated fields")
  | .principalAndPublicId, _ => .error (atLine number "expected 3 comma-separated fields")

def parseRow (layout : Layout) (number : Nat) (line : String) : Except String MappingRow := do
  let (principal, publicId, uuid) ← rowFields layout number line
  let iamPublicId ← (PublicId.new publicId).mapError fun _ => atLine number
    ("`" ++ publicId ++ "` is not an IAM public id (Hook stored ids like si:cos or c:alice)")
  let accountsUuid ← if uuid.isEmpty then pure none else
    ((AccountUuid.new uuid).map some).mapError fun _ => atLine number
      ("`" ++ uuid ++ "` is not a Silicon Accounts uuid (letters and digits, such as 8HV)")
  ensure (principal.all fun principal => principal.utf8ByteSize ≤ 255)
    (atLine number "the IAM principal id is longer than 255 characters")
  return ⟨iamPublicId, principal, accountsUuid⟩

-- -----------------------------------------------------------------------------
-- The file
-- -----------------------------------------------------------------------------

/-- What the lines read so far made. The last line that named an id or a uuid
comes first in the list of them. -/
structure MappingRead where
  errors : List String
  rows : List MappingRow
  seenIds : List (String × Nat)
  seenUuids : List (String × Nat × String)

namespace MappingRead

def problem (read : MappingRead) (message : String) : MappingRead :=
  { read with errors := read.errors ++ [message] }

/-- The row joins the mapping unless its id or its uuid was named before. -/
def addRow (read : MappingRead) (number : Nat) (row : MappingRow) : MappingRead :=
  let id := row.iamPublicId.value
  let seenIds := (id, number) :: read.seenIds
  match read.seenIds.lookup id with
  | some first => { read with seenIds := seenIds }.problem
      (atLine number (id ++ " is already mapped on line " ++ toString first))
  | none =>
    match row.accountsUuid with
    | none => { read with seenIds := seenIds, rows := read.rows ++ [row] }
    | some uuid =>
      let seenUuids := (uuid.value, number, id) :: read.seenUuids
      match read.seenUuids.lookup uuid.value with
      | some (first, other) =>
        { read with seenIds := seenIds, seenUuids := seenUuids }.problem
          (atLine number (uuid.value ++ " is also mapped to " ++ other ++ " on line " ++
            toString first ++
            "; one Silicon Accounts account cannot stand for two IAM identities"))
      | none =>
        { read with seenIds := seenIds, seenUuids := seenUuids, rows := read.rows ++ [row] }

def addLine (layout : Layout) (read : MappingRead) (line : Nat × String) : MappingRead :=
  match parseRow layout line.1 line.2 with
  | .error message => read.problem message
  | .ok row => read.addRow line.1 row

end MappingRead

/-- Parses and validates a mapping file; all problems are reported together. -/
def parseMapping (sha256 : List UInt8 → String) (bytes : List UInt8) :
    Except (List String) IdentityMapping :=
  match fromUtf8 bytes with
  | none => .error ["the file is not UTF-8 text"]
  | some text =>
    let numbered := mappingLines text
    match parseHeader numbered.head? with
    | .error message => .error [message]
    | .ok layout =>
      let read := numbered.tail.foldl (MappingRead.addLine layout) ⟨[], [], [], []⟩
      if read.errors = [] then .ok ⟨read.rows, sha256 bytes⟩ else .error read.errors

-- -----------------------------------------------------------------------------
-- What an accepted file says
-- -----------------------------------------------------------------------------

/-- No id is mapped twice, and no uuid given to two ids. -/
structure IdentityMapping.Distinct (rows : List MappingRow) : Prop where
  ids : (rows.map fun row => row.iamPublicId.value).Nodup
  uuids : (rows.filterMap MappingRow.accountsUuid).Nodup

structure MappingRead.Seen (read : MappingRead) : Prop where
  ids : ∀ row ∈ read.rows, (read.seenIds.lookup row.iamPublicId.value).isSome
  uuids : ∀ row ∈ read.rows, ∀ uuid ∈ row.accountsUuid, (read.seenUuids.lookup uuid.value).isSome
  distinct : IdentityMapping.Distinct read.rows

theorem isSome_lookup_cons {κ β : Type} [BEq κ] {k k' : κ} {v : β} {seen : List (κ × β)}
    (h : (seen.lookup k).isSome) : (((k', v) :: seen).lookup k).isSome := by
  rw [List.lookup_cons]
  split
  · rfl
  · exact h

theorem IdentityMapping.Distinct.append {rows : List MappingRow} {row : MappingRow}
    (h : Distinct rows) (hid : ∀ other ∈ rows, other.iamPublicId.value ≠ row.iamPublicId.value)
    (huuid : ∀ other ∈ rows, ∀ uuid ∈ row.accountsUuid, other.accountsUuid ≠ some uuid) :
    Distinct (rows ++ [row]) := by
  constructor
  · rw [List.map_append, List.nodup_append]
    refine ⟨h.ids, (by simp), ?_⟩
    intro id hm id' hm'
    obtain ⟨other, ho, rfl⟩ := List.mem_map.mp hm
    rw [List.map_singleton, List.mem_singleton] at hm'
    exact hm' ▸ hid other ho
  · rw [List.filterMap_append, List.nodup_append]
    refine ⟨h.uuids, ?_, ?_⟩
    · cases hu : row.accountsUuid <;> simp [hu]
    · intro uuid hm uuid' hm'
      obtain ⟨other, ho, hv⟩ := List.mem_filterMap.mp hm
      obtain ⟨new, hn, hv'⟩ := List.mem_filterMap.mp hm'
      obtain rfl := List.mem_singleton.mp hn
      rintro rfl
      exact huuid other ho uuid hv' hv

namespace MappingRead

variable {read : MappingRead}

theorem Seen.problem (h : read.Seen) (message : String) : (read.problem message).Seen :=
  ⟨h.ids, h.uuids, h.distinct⟩

theorem Seen.withId (h : read.Seen) (id : String) (number : Nat) :
    Seen { read with seenIds := (id, number) :: read.seenIds } :=
  ⟨fun row hm => isSome_lookup_cons (h.ids row hm), h.uuids, h.distinct⟩

theorem Seen.withUuid (h : read.Seen) (uuid : String) (at' : Nat × String) :
    Seen { read with seenUuids := (uuid, at') :: read.seenUuids } :=
  ⟨h.ids, fun row hm uuid hu => isSome_lookup_cons (h.uuids row hm uuid hu), h.distinct⟩

theorem Seen.withRow (h : read.Seen) {row : MappingRow}
    (hid : (read.seenIds.lookup row.iamPublicId.value).isSome)
    (huuid : ∀ uuid ∈ row.accountsUuid, (read.seenUuids.lookup uuid.value).isSome)
    (hnewId : ∀ other ∈ read.rows, other.iamPublicId.value ≠ row.iamPublicId.value)
    (hnewUuid : ∀ other ∈ read.rows, ∀ uuid ∈ row.accountsUuid, other.accountsUuid ≠ some uuid) :
    Seen { read with rows := read.rows ++ [row] } := by
  refine ⟨?_, ?_, h.distinct.append hnewId hnewUuid⟩
  · intro other hm
    obtain hm | hm := List.mem_append.mp hm
    · exact h.ids other hm
    · obtain rfl := List.mem_singleton.mp hm
      exact hid
  · intro other hm
    obtain hm | hm := List.mem_append.mp hm
    · exact h.uuids other hm
    · obtain rfl := List.mem_singleton.mp hm
      exact huuid

theorem Seen.addRow (h : read.Seen) (number : Nat) (row : MappingRow) :
    (read.addRow number row).Seen := by
  have hnew {α : Type} {seen : List (String × α)} {key : String} (hnone : seen.lookup key = none)
      {other : String} (ho : (seen.lookup other).isSome) : other ≠ key := by
    rintro rfl
    rw [hnone] at ho
    cases ho
  unfold MappingRead.addRow
  simp only
  split
  · exact (h.withId _ _).problem _
  · rename_i hid
    have hids : ∀ other ∈ read.rows, other.iamPublicId.value ≠ row.iamPublicId.value :=
      fun other hm => hnew hid (h.ids other hm)
    split
    · rename_i hnone
      exact (h.withId _ number).withRow (by simp) (by simp [hnone]) hids (by simp [hnone])
    · rename_i uuid hsome
      split
      · exact ((h.withId _ number).withUuid _ _).problem _
      · rename_i hu
        refine ((h.withId _ number).withUuid uuid.value (number, _)).withRow (by simp) ?_ hids ?_
        · intro uuid' hm
          obtain rfl : uuid = uuid' := Option.some.inj (hsome.symm.trans hm)
          simp
        · intro other hm uuid' hm' ho
          obtain rfl : uuid = uuid' := Option.some.inj (hsome.symm.trans hm')
          exact hnew hu (h.uuids other hm uuid ho) rfl

theorem Seen.addLine (h : read.Seen) (layout : Layout) (line : Nat × String) :
    (addLine layout read line).Seen := by
  unfold MappingRead.addLine
  split
  · exact h.problem _
  · exact h.addRow _ _

theorem seen_lines (layout : Layout) (numbered : List (Nat × String)) (h : read.Seen) :
    (numbered.foldl (addLine layout) read).Seen := by
  induction numbered generalizing read with
  | nil => exact h
  | cons line rest ih => exact ih (h.addLine layout line)

end MappingRead

theorem parseMapping_distinct {sha256 : List UInt8 → String} {bytes : List UInt8}
    {mapping : IdentityMapping} (h : parseMapping sha256 bytes = .ok mapping) :
    IdentityMapping.Distinct mapping.rows := by
  unfold parseMapping at h
  split at h
  · cases h
  · simp only at h
    split at h
    · cases h
    · rename_i layout _
      split at h
      · cases h
        have hempty : MappingRead.Seen ⟨[], [], [], []⟩ :=
          ⟨fun _ hm => (nomatch hm), fun _ hm => (nomatch hm), .nil, .nil⟩
        exact (MappingRead.seen_lines layout _ hempty).distinct
      · cases h

end SiliconHook
