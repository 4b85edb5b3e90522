import Mathlib.Data.List.Induction
import SiliconHook.Store.MappingFile
import SiliconHook.Properties.Rendering

/-!
# What a mapping file is told

Exactly the files that map every id once and give no uuid twice are accepted, with
their lines as rows. A rejected file hears of every offending line unless the uuid of
one was given before only by lines that repeat an id: those note no uuid.
-/

namespace SiliconHook

open Text Encoding

-- -----------------------------------------------------------------------------
-- Well-formed lines
-- -----------------------------------------------------------------------------

def Layout.Heads : Layout → String → Prop
  | .publicId, header =>
    header = "iam_public_id,accounts_uuid" ∨ header = "iam_principal_id,accounts_uuid"
  | .principalAndPublicId, header => header = "iam_principal_id,iam_public_id,accounts_uuid"

/-- The principal, public id and uuid among the fields of a line; a layout without a
principal leaves it empty. -/
def Layout.Splits : Layout → List String → String → String → String → Prop
  | .publicId, fields, principal, id, uuid => principal = "" ∧ fields = [id, uuid]
  | .principalAndPublicId, fields, principal, id, uuid => fields = [principal, id, uuid]

def lineFields (line : String) : List String :=
  (splitBy (· = ',') line.toList).map fun field => trim (String.ofList field)

def LineGives (layout : Layout) (line : String) (row : MappingRow) : Prop :=
  ∃ principal publicId uuid, layout.Splits (lineFields line) principal publicId uuid ∧
    PublicId.new publicId = .ok row.iamPublicId ∧
    (uuid = "" ∧ row.accountsUuid = none ∨
      uuid ≠ "" ∧ ∃ account, AccountUuid.new uuid = .ok account ∧ row.accountsUuid = some account) ∧
    principal.utf8ByteSize ≤ 255 ∧
    row.iamPrincipalId = if principal = "" then none else some principal

theorem parseHeader_ok {line : Option (Nat × String)} {layout : Layout} :
    parseHeader line = .ok layout ↔ ∃ number header, line = some (number, header) ∧
      layout.Heads header := by
  cases line with
  | none => simp [parseHeader]
  | some line =>
    obtain ⟨number, header⟩ := line
    simp only [parseHeader, Option.some.injEq, Prod.mk.injEq]
    constructor
    · intro h
      refine ⟨number, header, ⟨rfl, rfl⟩, ?_⟩
      split at h
      · cases h
        assumption
      · split at h <;> cases h
        assumption
    · rintro ⟨_, _, ⟨rfl, rfl⟩, hheads⟩
      cases layout with
      | publicId => exact if_pos hheads
      | principalAndPublicId =>
        obtain rfl : header = _ := hheads
        rw [if_neg (by decide), if_pos rfl]

theorem rowFields_ok {layout : Layout} {number : Nat} {line publicId uuid : String}
    {principal : Option String} : rowFields layout number line = .ok (principal, publicId, uuid) ↔
      ∃ given, layout.Splits (lineFields line) given publicId uuid ∧
        principal = if given = "" then none else some given := by
  unfold rowFields
  dsimp only
  rw [← lineFields]
  constructor
  · intro h
    split at h <;> cases h
    · rename_i hfields
      exact ⟨"", ⟨rfl, hfields⟩, rfl⟩
    · rename_i given hfields
      refine ⟨given, hfields, ?_⟩
      by_cases hgiven : given = "" <;> simp [Option.filter, hgiven]
  · rintro ⟨given, hsplits, rfl⟩
    cases layout with
    | publicId =>
      obtain ⟨rfl, hfields⟩ := hsplits
      rw [hfields]
      rfl
    | principalAndPublicId =>
      have hfields : lineFields line = [given, publicId, uuid] := hsplits
      rw [hfields]
      by_cases hgiven : given = "" <;> simp [Option.filter, hgiven]

def accountField (number : Nat) (uuid : String) : Except String (Option AccountUuid) :=
  if uuid.isEmpty then .ok none else
    ((AccountUuid.new uuid).map some).mapError fun _ => atLine number
      ("`" ++ uuid ++ "` is not a Silicon Accounts uuid (letters and digits, such as 8HV)")

theorem parseRow_eq (layout : Layout) (number : Nat) (line : String) :
    parseRow layout number line = (do
      let fields ← rowFields layout number line
      let iamPublicId ← (PublicId.new fields.2.1).mapError fun _ => atLine number ("`" ++
        fields.2.1 ++ "` is not an IAM public id (Hook stored ids like si:cos or c:alice)")
      let accountsUuid ← accountField number fields.2.2
      ensure (fields.1.all fun principal => principal.utf8ByteSize ≤ 255)
        (atLine number "the IAM principal id is longer than 255 characters")
      return ⟨iamPublicId, fields.1, accountsUuid⟩) := by
  unfold parseRow accountField
  refine congrArg (rowFields layout number line >>= ·) (funext fun fields => ?_)
  refine congrArg (Except.mapError _ (PublicId.new fields.2.1) >>= ·) (funext fun id => ?_)
  dsimp only
  split <;> rfl

theorem accountField_ok {number : Nat} {uuid : String} {account : Option AccountUuid} :
    accountField number uuid = .ok account ↔ uuid = "" ∧ account = none ∨
      uuid ≠ "" ∧ ∃ found, AccountUuid.new uuid = .ok found ∧ account = some found := by
  unfold accountField
  split
  · rename_i hempty
    have huuid : uuid = "" := by simpa using hempty
    simp [huuid, eq_comm]
  · rename_i hgiven
    have huuid : uuid ≠ "" := by simpa using hgiven
    rw [Except.mapError_ok]
    cases AccountUuid.new uuid with
    | error e => simp [Except.map, huuid]
    | ok found => simp [Except.map, huuid, eq_comm]

theorem parseRow_ok {layout : Layout} {number : Nat} {line : String} {row : MappingRow} :
    parseRow layout number line = .ok row ↔ LineGives layout line row := by
  have hshort : ∀ given : String, (if given = "" then none else some given : Option String).all
      (fun principal => decide (principal.utf8ByteSize ≤ 255)) = true ↔
        given.utf8ByteSize ≤ 255 := by
    intro given
    split
    · rename_i hgiven
      simp [hgiven]
    · simp
  simp only [parseRow_eq, Except.bind_ok, Except.pure_ok, ensure_ok, Except.mapError_ok]
  constructor
  · rintro ⟨⟨principal, publicId, uuid⟩, hfields, id, hid, account, haccount, _, hlength, rfl⟩
    obtain ⟨given, hsplits, rfl⟩ := rowFields_ok.mp hfields
    exact ⟨given, publicId, uuid, hsplits, hid, accountField_ok.mp haccount,
      (hshort given).mp hlength, rfl⟩
  · rintro ⟨given, publicId, uuid, hsplits, hid, haccount, hlength, hprincipal⟩
    refine ⟨(_, publicId, uuid), rowFields_ok.mpr ⟨given, hsplits, rfl⟩, row.iamPublicId, hid,
      row.accountsUuid, accountField_ok.mpr haccount, (), (hshort given).mpr hlength, ?_⟩
    rw [← hprincipal]

theorem parseRow_error {layout : Layout} {number : Nat} {line message : String}
    (h : parseRow layout number line = .error message) :
    ∃ problem, message = atLine number problem := by
  rw [parseRow_eq] at h
  rcases Except.bind_error.mp h with hfields | ⟨fields, -, h⟩
  · unfold rowFields at hfields
    dsimp only at hfields
    split at hfields <;> cases hfields
    · exact ⟨_, rfl⟩
    · exact ⟨_, rfl⟩
  · rcases Except.bind_error.mp h with hid | ⟨id, -, h⟩
    · obtain ⟨_, -, rfl⟩ := Except.mapError_error.mp hid
      exact ⟨_, rfl⟩
    · rcases Except.bind_error.mp h with huuid | ⟨_, -, h⟩
      · unfold accountField at huuid
        split at huuid
        · cases huuid
        · obtain ⟨_, -, rfl⟩ := Except.mapError_error.mp huuid
          exact ⟨_, rfl⟩
      · rcases Except.bind_error.mp h with hlong | ⟨_, -, h⟩
        · obtain ⟨-, rfl⟩ := ensure_error.mp hlong
          exact ⟨_, rfl⟩
        · cases h

theorem LineGives.unique {layout : Layout} {line : String} {row row' : MappingRow}
    (h : LineGives layout line row) (h' : LineGives layout line row') : row = row' := by
  have hread : parseRow layout 0 line = .ok row := parseRow_ok.mpr h
  exact Except.ok.inj (hread.symm.trans (parseRow_ok.mpr h'))

-- -----------------------------------------------------------------------------
-- What earlier lines say
-- -----------------------------------------------------------------------------

section

variable (layout : Layout)

def NamesId (earlier : List (Nat × String)) (id : String) : Prop :=
  ∃ line ∈ earlier, ∃ row, LineGives layout line.2 row ∧ row.iamPublicId.value = id

/-- A well-formed line among these gives the uuid to a different id. -/
def GivesToAnother (earlier : List (Nat × String)) (uuid : AccountUuid) (id : String) : Prop :=
  ∃ line ∈ earlier, ∃ row, LineGives layout line.2 row ∧ row.accountsUuid = some uuid ∧
    row.iamPublicId.value ≠ id

/-- A well-formed line among these that repeats no id gives the uuid. -/
def GivesFirst (earlier : List (Nat × String)) (uuid : AccountUuid) : Prop :=
  ∃ before line after row, earlier = before ++ line :: after ∧ LineGives layout line.2 row ∧
    row.accountsUuid = some uuid ∧ ¬ NamesId layout before row.iamPublicId.value

/-- A malformed line, or one whose id or uuid an earlier well-formed line has. -/
def Offends (earlier : List (Nat × String)) (line : Nat × String) : Prop :=
  (¬ ∃ row, LineGives layout line.2 row) ∨
    ∃ row, LineGives layout line.2 row ∧ (NamesId layout earlier row.iamPublicId.value ∨
      ∃ uuid, row.accountsUuid = some uuid ∧
        GivesToAnother layout earlier uuid row.iamPublicId.value)

def Reported (earlier : List (Nat × String)) (line : Nat × String) : Prop :=
  (¬ ∃ row, LineGives layout line.2 row) ∨
    ∃ row, LineGives layout line.2 row ∧ (NamesId layout earlier row.iamPublicId.value ∨
      ∃ uuid, row.accountsUuid = some uuid ∧ GivesFirst layout earlier uuid)

end

def NamesLine (line : Nat × String) (message : String) : Prop :=
  ∃ problem, message = atLine line.1 problem

structure Reads (layout : Layout) (done : List (Nat × String)) (read : MappingRead) : Prop where
  ids : ∀ id, (read.seenIds.lookup id).isSome = true ↔ NamesId layout done id
  uuids : ∀ uuid : AccountUuid,
    (read.seenUuids.lookup uuid.value).isSome = true ↔ GivesFirst layout done uuid
  reported : ∀ before line after, done = before ++ line :: after → Reported layout before line →
    ∃ message ∈ read.errors, NamesLine line message
  complaints : ∀ message ∈ read.errors, ∃ before line after, done = before ++ line :: after ∧
    Reported layout before line ∧ NamesLine line message
  rows : read.errors = [] →
    List.Forall₂ (fun line row => LineGives layout line.2 row) done read.rows

section

variable {layout : Layout} {done : List (Nat × String)} {line : Nat × String} {row : MappingRow}
  {read : MappingRead}

theorem split_snoc {α : Type} {xs before after : List α} {x y : α} :
    xs ++ [x] = before ++ y :: after ↔
      (∃ rest, xs = before ++ y :: rest ∧ after = rest ++ [x]) ∨
        before = xs ∧ y = x ∧ after = [] := by
  constructor
  · intro h
    obtain rfl | ⟨rest, z, rfl⟩ := after.eq_nil_or_concat
    · obtain ⟨rfl, heq⟩ := List.append_inj' h rfl
      exact .inr ⟨rfl, (List.cons.inj heq).1.symm, rfl⟩
    · rw [List.concat_eq_append, ← List.cons_append, ← List.append_assoc] at h
      obtain ⟨rfl, heq⟩ := List.append_inj' h rfl
      obtain rfl := (List.cons.inj heq).1
      exact .inl ⟨rest, rfl, List.concat_eq_append⟩
  · rintro (⟨rest, rfl, rfl⟩ | ⟨rfl, rfl, rfl⟩)
    · simp
    · rfl

theorem namesId_snoc {id : String} : NamesId layout (done ++ [line]) id ↔ NamesId layout done id ∨
    ∃ row, LineGives layout line.2 row ∧ row.iamPublicId.value = id := by
  simp only [NamesId, List.mem_append, List.mem_singleton]
  constructor
  · rintro ⟨other, hm | rfl, hrow⟩
    · exact .inl ⟨other, hm, hrow⟩
    · exact .inr hrow
  · rintro (⟨other, hm, hrow⟩ | hrow)
    · exact ⟨other, .inl hm, hrow⟩
    · exact ⟨line, .inr rfl, hrow⟩

theorem givesFirst_snoc {uuid : AccountUuid} : GivesFirst layout (done ++ [line]) uuid ↔
    GivesFirst layout done uuid ∨ ∃ row, LineGives layout line.2 row ∧
      row.accountsUuid = some uuid ∧ ¬ NamesId layout done row.iamPublicId.value := by
  constructor
  · rintro ⟨before, other, after, row, hsplit, hrow⟩
    rcases split_snoc.mp hsplit with ⟨rest, rfl, -⟩ | ⟨rfl, rfl, -⟩
    · exact .inl ⟨before, other, rest, row, rfl, hrow⟩
    · exact .inr ⟨row, hrow⟩
  · rintro (⟨before, other, after, row, rfl, hrow⟩ | ⟨row, hrow⟩)
    · exact ⟨before, other, after ++ [line], row, by simp, hrow⟩
    · exact ⟨done, line, [], row, rfl, hrow⟩

theorem AccountUuid.ext_value {a b : AccountUuid} (h : a.value = b.value) : a = b := by
  cases a
  cases b
  cases h
  rfl

theorem atLine_names (number : Nat) (text problem : String) :
    NamesLine (number, text) (atLine number problem) := ⟨problem, rfl⟩

/-- The reading after a line, by what it makes of the line: `complaint` is the message it
adds, `named` and `given` what it notes. -/
theorem Reads.snoc {read' : MappingRead} (h : Reads layout done read) (complaint : Option String)
    (hids : ∀ id, (read'.seenIds.lookup id).isSome = true ↔
      (read.seenIds.lookup id).isSome = true ∨
        ∃ row, LineGives layout line.2 row ∧ row.iamPublicId.value = id)
    (huuids : ∀ uuid : AccountUuid, (read'.seenUuids.lookup uuid.value).isSome = true ↔
      (read.seenUuids.lookup uuid.value).isSome = true ∨
        ∃ row, LineGives layout line.2 row ∧ row.accountsUuid = some uuid ∧
          ¬ NamesId layout done row.iamPublicId.value)
    (herrors : read'.errors = read.errors ++ complaint.toList)
    (hcomplaint : complaint.isSome = true ↔ Reported layout done line)
    (hnames : ∀ message ∈ complaint, NamesLine line message)
    (hrows : complaint = none → ∃ row, LineGives layout line.2 row ∧
      read'.rows = read.rows ++ [row]) : Reads layout (done ++ [line]) read' := by
  refine ⟨?_, ?_, ?_, ?_, ?_⟩
  · intro id
    rw [hids, h.ids, namesId_snoc]
  · intro uuid
    rw [huuids, h.uuids, givesFirst_snoc]
  · intro before other after hsplit hreported
    rcases split_snoc.mp hsplit with ⟨rest, hdone, -⟩ | ⟨rfl, rfl, -⟩
    · obtain ⟨message, hm, hline⟩ := h.reported before other rest hdone hreported
      exact ⟨message, by rw [herrors]; exact List.mem_append_left _ hm, hline⟩
    · obtain ⟨message, hm⟩ := Option.isSome_iff_exists.mp (hcomplaint.mpr hreported)
      exact ⟨message, by simp [herrors, hm], hnames message hm⟩
  · intro message hm
    rw [herrors] at hm
    rcases List.mem_append.mp hm with hm | hm
    · obtain ⟨before, other, after, rfl, hreported, hline⟩ := h.complaints message hm
      exact ⟨before, other, after ++ [line], by simp, hreported, hline⟩
    · have hm := Option.mem_toList.mp hm
      exact ⟨done, line, [], rfl, hcomplaint.mp (Option.isSome_iff_exists.mpr ⟨message, hm⟩),
        hnames message hm⟩
  · intro hnone
    rw [herrors, List.append_eq_nil_iff, Option.toList_eq_nil_iff] at hnone
    obtain ⟨row, hrow, hrows⟩ := hrows hnone.2
    rw [hrows]
    exact List.rel_append (h.rows hnone.1) (.cons hrow .nil)

theorem isSome_lookup_cons_iff {β : Type} {key other : String} {value : β}
    {seen : List (String × β)} : (((key, value) :: seen).lookup other).isSome = true ↔
      (seen.lookup other).isSome = true ∨ key = other := by
  rw [List.lookup_cons]
  by_cases hkey : other = key
  · simp [hkey]
  · rw [beq_eq_false_iff_ne.mpr hkey]
    simp [Ne.symm hkey]

theorem Reads.addLine (h : Reads layout done read) (line : Nat × String) :
    Reads layout (done ++ [line]) (read.addLine layout line) := by
  unfold MappingRead.addLine
  split
  · rename_i message hread
    have hmalformed : ¬ ∃ row, LineGives layout line.2 row := by
      rintro ⟨row, hrow⟩
      cases hread.symm.trans (parseRow_ok.mpr hrow)
    refine h.snoc (some message) ?_ ?_ rfl (iff_of_true rfl (.inl hmalformed)) ?_ ?_
    · exact fun id => ⟨.inl, fun hor => hor.resolve_right fun ⟨row, hrow, _⟩ =>
        hmalformed ⟨row, hrow⟩⟩
    · exact fun uuid => ⟨.inl, fun hor => hor.resolve_right fun ⟨row, hrow, _⟩ =>
        hmalformed ⟨row, hrow⟩⟩
    · intro other hother
      cases hother
      exact parseRow_error hread
    · exact fun hnone => nomatch hnone
  · rename_i row hread
    have hgives : LineGives layout line.2 row := parseRow_ok.mp hread
    have hids : ∀ id, (((row.iamPublicId.value, line.1) :: read.seenIds).lookup id).isSome = true ↔
        (read.seenIds.lookup id).isSome = true ∨
          ∃ row, LineGives layout line.2 row ∧ row.iamPublicId.value = id := by
      intro id
      rw [isSome_lookup_cons_iff]
      exact or_congr_right ⟨fun hid => ⟨row, hgives, hid⟩,
        fun ⟨other, hother, hid⟩ => (hgives.unique hother) ▸ hid⟩
    have hreported : Reported layout done line ↔ NamesId layout done row.iamPublicId.value ∨
        ∃ uuid, row.accountsUuid = some uuid ∧ GivesFirst layout done uuid := by
      constructor
      · rintro (hmalformed | ⟨other, hother, hsays⟩)
        · exact absurd ⟨row, hgives⟩ hmalformed
        · exact (hgives.unique hother) ▸ hsays
      · exact fun hsays => .inr ⟨row, hgives, hsays⟩
    unfold MappingRead.addRow
    dsimp only
    split
    · rename_i first hseen
      have hnamed : NamesId layout done row.iamPublicId.value :=
        (h.ids _).mp (Option.isSome_iff_exists.mpr ⟨first, hseen⟩)
      refine h.snoc (some _) hids ?_ rfl (iff_of_true rfl (hreported.mpr (.inl hnamed))) ?_ ?_
      · exact fun uuid => ⟨.inl, fun hor => hor.resolve_right fun ⟨other, hother, _, hnew⟩ =>
          hnew (hgives.unique hother ▸ hnamed)⟩
      · exact fun message hm => (Option.some.inj hm) ▸ atLine_names line.1 line.2 _
      · exact fun hnone => nomatch hnone
    · rename_i hseen
      have hnew : ¬ NamesId layout done row.iamPublicId.value := by
        rw [← h.ids, hseen]
        exact Bool.false_ne_true
      split
      · rename_i hnone
        refine h.snoc none hids ?_ (List.append_nil _).symm ?_ ?_ ?_
        · refine fun uuid => ⟨.inl, fun hor => hor.resolve_right fun ⟨other, hother, hsome, _⟩ => ?_⟩
          rw [← hgives.unique hother, hnone] at hsome
          cases hsome
        · refine iff_of_false Bool.false_ne_true fun hsays => ?_
          rcases hreported.mp hsays with hnamed | ⟨uuid, hsome, -⟩
          · exact hnew hnamed
          · rw [hnone] at hsome
            cases hsome
        · exact fun message hm => nomatch hm
        · exact fun _ => ⟨row, hgives, rfl⟩
      · rename_i uuid hsome
        have huuids : ∀ other : AccountUuid, (((uuid.value, line.1, row.iamPublicId.value) ::
            read.seenUuids).lookup other.value).isSome = true ↔
              (read.seenUuids.lookup other.value).isSome = true ∨
                ∃ row, LineGives layout line.2 row ∧ row.accountsUuid = some other ∧
                  ¬ NamesId layout done row.iamPublicId.value := by
          intro other
          rw [isSome_lookup_cons_iff]
          refine or_congr_right ⟨fun hvalue => ⟨row, hgives, ?_, hnew⟩, ?_⟩
          · exact hsome.trans (congrArg some (AccountUuid.ext_value hvalue))
          · rintro ⟨again, hagain, hgiven, -⟩
            rw [← hgives.unique hagain, hsome] at hgiven
            exact congrArg AccountUuid.value (Option.some.inj hgiven)
        split
        · rename_i first other hgiven
          have hfirst : GivesFirst layout done uuid :=
            (h.uuids uuid).mp (Option.isSome_iff_exists.mpr ⟨_, hgiven⟩)
          refine h.snoc (some _) hids huuids rfl
            (iff_of_true rfl (hreported.mpr (.inr ⟨uuid, hsome, hfirst⟩))) ?_ ?_
          · exact fun message hm => (Option.some.inj hm) ▸ atLine_names line.1 line.2 _
          · exact fun hnone => nomatch hnone
        · rename_i hgiven
          refine h.snoc none hids huuids (List.append_nil _).symm ?_ ?_ ?_
          · refine iff_of_false Bool.false_ne_true fun hsays => ?_
            rcases hreported.mp hsays with hnamed | ⟨other, hother, hfirst⟩
            · exact hnew hnamed
            · rw [hsome] at hother
              cases hother
              rw [← h.uuids, hgiven] at hfirst
              cases hfirst
          · exact fun message hm => nomatch hm
          · exact fun _ => ⟨row, hgives, rfl⟩

theorem reads_lines (layout : Layout) (numbered : List (Nat × String)) :
    Reads layout numbered (numbered.foldl (MappingRead.addLine layout) ⟨[], [], [], []⟩) := by
  induction numbered using List.reverseRecOn with
  | nil =>
    refine ⟨fun id => ?_, fun uuid => ?_, fun before line after h => ?_, fun _ hm => (nomatch hm),
      fun _ => .nil⟩
    · exact iff_of_false Bool.false_ne_true fun ⟨_, hm, _⟩ => nomatch hm
    · exact iff_of_false Bool.false_ne_true fun ⟨before, _, _, _, hsplit, _⟩ =>
        absurd hsplit (by simp)
    · exact absurd h (by simp)
  | append_singleton done line ih =>
    rw [List.foldl_append]
    exact ih.addLine line

end

-- -----------------------------------------------------------------------------
-- The numbers of lines
-- -----------------------------------------------------------------------------

theorem atLine_inj {n m : Nat} {problem problem' : String}
    (h : atLine n problem = atLine m problem') : n = m := by
  have hchars : (toString n).toList ++ ':' :: ' ' :: problem.toList =
      (toString m).toList ++ ':' :: ' ' :: problem'.toList := by
    have hlist := congrArg String.toList h
    simpa [atLine] using hlist
  have hdigits : ∀ (k : Nat) (rest : List Char),
      ((toString k).toList ++ ':' :: rest).takeWhile isAsciiDigit = Nat.toDigits 10 k := by
    intro k rest
    have hk : (toString k).toList = Nat.toDigits 10 k := by simp
    have hall : (Nat.toDigits 10 k).all isAsciiDigit = true := List.all_eq_true.mpr fun c hc =>
      isAsciiDigit_digit (Nat.isDigit_of_mem_toDigits (by decide) (by decide) hc)
    rw [hk]
    refine (takeWhile_delimited hall fun c hc => ?_).1
    cases hc
    rfl
  have hsame : Nat.toDigits 10 n = Nat.toDigits 10 m := by
    rw [← hdigits n (' ' :: problem.toList), hchars, hdigits]
  rw [← decimal_toDigits n, hsame, decimal_toDigits]

theorem mappingLines_nodup (text : String) : ((mappingLines text).map Prod.fst).Nodup := by
  unfold mappingLines
  refine List.Nodup.sublist (List.filter_sublist.map Prod.fst) ?_
  have hnumbers : ((lines text.toList).zipIdx.map fun entry =>
      (entry.2 + 1, trim (String.ofList entry.1))).map Prod.fst =
        ((lines text.toList).zipIdx.map Prod.snd).map (· + 1) := by
    rw [List.map_map, List.map_map]
    rfl
  rw [hnumbers, List.zipIdx_map_snd]
  exact List.Nodup.map Nat.succ_injective List.nodup_range'

-- -----------------------------------------------------------------------------
-- The whole file
-- -----------------------------------------------------------------------------

def MappingBody (bytes : List UInt8) (layout : Layout) (body : List (Nat × String)) : Prop :=
  ∃ text number header, fromUtf8 bytes = some text ∧
    mappingLines text = (number, header) :: body ∧ layout.Heads header

/-- A file whose lines are all well formed and give no id and no uuid twice, and its rows. -/
def ValidMapping (sha256 : List UInt8 → String) (bytes : List UInt8) (mapping : IdentityMapping) :
    Prop :=
  (∃ layout body, MappingBody bytes layout body ∧
    List.Forall₂ (fun line row => LineGives layout line.2 row) body mapping.rows) ∧
  IdentityMapping.Distinct mapping.rows ∧ mapping.sha256 = sha256 bytes

/-- What an operator may expect of the parser: exactly the valid files are accepted, and
a rejected one with a known header hears of every offending line. -/
structure ReportsFully (sha256 : List UInt8 → String) (bytes : List UInt8) : Prop where
  accepts : ∀ mapping, parseMapping sha256 bytes = .ok mapping ↔ ValidMapping sha256 bytes mapping
  reports : ∀ errors, parseMapping sha256 bytes = .error errors →
    ∀ layout before line after, MappingBody bytes layout (before ++ line :: after) →
      Offends layout before line → ∃ message ∈ errors, NamesLine line message

/-- No uuid of a line that repeats no id was given before only by lines that repeat one. -/
def UuidsNoted (bytes : List UInt8) : Prop :=
  ∀ layout before line after, MappingBody bytes layout (before ++ line :: after) →
    ∀ row uuid, LineGives layout line.2 row → row.accountsUuid = some uuid →
      ¬ NamesId layout before row.iamPublicId.value →
      GivesToAnother layout before uuid row.iamPublicId.value → GivesFirst layout before uuid

section

variable {sha256 : List UInt8 → String} {bytes : List UInt8} {layout : Layout}
  {body : List (Nat × String)}

theorem MappingBody.layout_eq {layout' : Layout} {body' : List (Nat × String)}
    (h : MappingBody bytes layout body) (h' : MappingBody bytes layout' body') :
    layout = layout' ∧ body = body' := by
  obtain ⟨text, number, header, htext, hlines, hheads⟩ := h
  obtain ⟨text', number', header', htext', hlines', hheads'⟩ := h'
  cases htext.symm.trans htext'
  obtain ⟨hheader, hbody⟩ := List.cons.inj (hlines.symm.trans hlines')
  cases hheader
  have hparse : parseHeader (some (number, header)) = .ok layout :=
    parseHeader_ok.mpr ⟨number, header, rfl, hheads⟩
  have hparse' : parseHeader (some (number, header)) = .ok layout' :=
    parseHeader_ok.mpr ⟨number, header, rfl, hheads'⟩
  exact ⟨Except.ok.inj (hparse.symm.trans hparse'), hbody⟩

theorem MappingBody.nodup (h : MappingBody bytes layout body) : (body.map Prod.fst).Nodup := by
  obtain ⟨text, number, header, -, hlines, -⟩ := h
  have hnodup := mappingLines_nodup text
  rw [hlines, List.map_cons] at hnodup
  exact (List.nodup_cons.mp hnodup).2

theorem parseMapping_body (sha256 : List UInt8 → String) (h : MappingBody bytes layout body) :
    ∃ read, Reads layout body read ∧ parseMapping sha256 bytes =
      if read.errors = [] then .ok ⟨read.rows, sha256 bytes⟩ else .error read.errors := by
  obtain ⟨text, number, header, htext, hlines, hheads⟩ := h
  refine ⟨_, reads_lines layout body, ?_⟩
  have hparse : parseHeader (some (number, header)) = .ok layout :=
    parseHeader_ok.mpr ⟨number, header, rfl, hheads⟩
  unfold parseMapping
  rw [htext]
  simp only [hlines, List.head?_cons, List.tail_cons, hparse]

theorem parseMapping_header {mapping : IdentityMapping}
    (h : parseMapping sha256 bytes = .ok mapping) : ∃ layout body, MappingBody bytes layout body := by
  unfold parseMapping at h
  cases htext : fromUtf8 bytes with
  | none =>
    rw [htext] at h
    cases h
  | some text =>
    rw [htext] at h
    dsimp only at h
    cases hheader : parseHeader (mappingLines text).head? with
    | error message =>
      rw [hheader] at h
      cases h
    | ok layout =>
      obtain ⟨number, header, hhead, hheads⟩ := parseHeader_ok.mp hheader
      exact ⟨layout, (mappingLines text).tail, text, number, header, htext,
        (List.cons_head?_tail hhead).symm, hheads⟩

theorem Reported.offends {before : List (Nat × String)} {line : Nat × String}
    (h : Reported layout before line) : Offends layout before line := by
  rcases h with hmalformed | ⟨row, hrow, hnamed | ⟨uuid, huuid, first, other, after, earlier, rfl,
    hearlier, hgiven, -⟩⟩
  · exact .inl hmalformed
  · exact .inr ⟨row, hrow, .inl hnamed⟩
  · have hm : other ∈ first ++ other :: after :=
      List.mem_append_right _ List.mem_cons_self
    by_cases hsame : earlier.iamPublicId.value = row.iamPublicId.value
    · exact .inr ⟨row, hrow, .inl ⟨other, hm, earlier, hearlier, hsame⟩⟩
    · exact .inr ⟨row, hrow, .inr ⟨uuid, huuid, other, hm, earlier, hearlier, hgiven, hsame⟩⟩

theorem not_offends {rows : List MappingRow} {before after : List (Nat × String)}
    {line : Nat × String}
    (h : List.Forall₂ (fun line row => LineGives layout line.2 row) (before ++ line :: after) rows)
    (hdistinct : IdentityMapping.Distinct rows) : ¬ Offends layout before line := by
  obtain ⟨rows₁, row, rows₂, rfl, hbefore, hrow, -⟩ := forall₂_split h
  have hearlier : ∀ other ∈ before, ∀ earlier, LineGives layout other.2 earlier →
      earlier ∈ rows₁ := by
    intro other hm earlier hgives
    obtain ⟨found, hfound, hother⟩ := exists_mem_of_forall₂ hbefore hm
    exact hgives.unique hother ▸ hfound
  rintro (hmalformed | ⟨again, hagain, hsays⟩)
  · exact hmalformed ⟨row, hrow⟩
  · obtain rfl := hrow.unique hagain
    rcases hsays with ⟨other, hm, earlier, hgives, hid⟩ | ⟨uuid, huuid, other, hm, earlier, hgives,
      hgiven, -⟩
    · have hids := hdistinct.ids
      rw [List.map_append, List.map_cons, List.nodup_append] at hids
      exact hids.2.2 _ (List.mem_map_of_mem (hearlier other hm earlier hgives)) _
        List.mem_cons_self hid
    · have huuids := hdistinct.uuids
      rw [List.filterMap_append, List.nodup_append] at huuids
      have hlater : uuid ∈ (row :: rows₂).filterMap MappingRow.accountsUuid :=
        List.mem_filterMap.mpr ⟨row, List.mem_cons_self, huuid⟩
      exact huuids.2.2 uuid (List.mem_filterMap.mpr
        ⟨earlier, hearlier other hm earlier hgives, hgiven⟩) uuid hlater rfl

theorem parseMapping_ok {mapping : IdentityMapping} :
    parseMapping sha256 bytes = .ok mapping ↔ ValidMapping sha256 bytes mapping := by
  constructor
  · intro h
    obtain ⟨layout, body, hbody⟩ := parseMapping_header h
    obtain ⟨read, hread, hparse⟩ := parseMapping_body sha256 hbody
    have hdistinct := parseMapping_distinct h
    rw [hparse] at h
    split at h <;> cases h
    rename_i hnone
    exact ⟨⟨layout, body, hbody, hread.rows hnone⟩, hdistinct, rfl⟩
  · rintro ⟨⟨layout, body, hbody, hrows⟩, hdistinct, hsha⟩
    obtain ⟨read, hread, hparse⟩ := parseMapping_body sha256 hbody
    have hnone : read.errors = [] := by
      rw [List.eq_nil_iff_forall_not_mem]
      intro message hm
      obtain ⟨before, line, after, rfl, hreported, -⟩ := hread.complaints message hm
      exact not_offends hrows hdistinct hreported.offends
    have hsame : read.rows = mapping.rows :=
      List.forall₂_eq_eq_eq ▸ (forall₂_trans (hread.rows hnone).flip hrows).imp
        fun _ _ ⟨_, hfirst, hsecond⟩ => LineGives.unique hfirst hsecond
    rw [hparse, if_pos hnone, hsame, ← hsha]

theorem split_unique {before before' after after' : List (Nat × String)}
    {line line' : Nat × String} (hnodup : ((before ++ line :: after).map Prod.fst).Nodup)
    (h : before ++ line :: after = before' ++ line' :: after') (hnumber : line.1 = line'.1) :
    before = before' ∧ line = line' := by
  rw [List.map_append, List.nodup_append] at hnodup
  rcases List.append_eq_append_iff.mp h with ⟨more, rfl, hmore⟩ | ⟨more, rfl, hmore⟩
  · cases more with
    | nil => exact ⟨(List.append_nil _).symm, (List.cons.inj hmore).1⟩
    | cons first rest =>
      -- The other line would stand later under the same number.
      obtain ⟨rfl, rfl⟩ := List.cons.inj hmore
      have htail := (List.nodup_cons.mp hnodup.2.1).1
      rw [hnumber] at htail
      exact absurd (List.mem_map_of_mem (List.mem_append_right _ List.mem_cons_self)) htail
  · cases more with
    | nil => exact ⟨List.append_nil _, (List.cons.inj hmore).1.symm⟩
    | cons first rest =>
      obtain ⟨rfl, -⟩ := List.cons.inj hmore
      have hearlier : line'.1 ∈ (before' ++ line' :: rest).map Prod.fst :=
        List.mem_map_of_mem (List.mem_append_right _ List.mem_cons_self)
      exact absurd hnumber.symm (hnodup.2.2 _ hearlier _ List.mem_cons_self)

/-- The parser reports fully exactly where every uuid was noted. -/
theorem reports_fully_iff (sha256 : List UInt8 → String) (bytes : List UInt8) :
    ReportsFully sha256 bytes ↔ UuidsNoted bytes := by
  constructor
  · intro h layout before line after hbody row uuid hrow huuid hnew hanother
    by_contra hfirst
    have hoffends : Offends layout before line := .inr ⟨row, hrow, .inr ⟨uuid, huuid, hanother⟩⟩
    have hsilent : ¬ Reported layout before line := by
      rintro (hmalformed | ⟨again, hagain, hnamed | ⟨other, hother, hgiven⟩⟩)
      · exact hmalformed ⟨row, hrow⟩
      · exact hnew (hrow.unique hagain ▸ hnamed)
      · rw [← hrow.unique hagain, huuid] at hother
        cases hother
        exact hfirst hgiven
    obtain ⟨read, hread, hparse⟩ := parseMapping_body sha256 hbody
    cases hresult : parseMapping sha256 bytes with
    | ok mapping =>
      obtain ⟨⟨layout', body, hbody', hrows⟩, hdistinct, -⟩ := (h.accepts mapping).mp hresult
      obtain ⟨rfl, rfl⟩ := hbody.layout_eq hbody'
      exact not_offends hrows hdistinct hoffends
    | error errors =>
      obtain ⟨message, hm, problem, rfl⟩ :=
        h.reports errors hresult layout before line after hbody hoffends
      rw [hresult] at hparse
      split at hparse <;> cases hparse
      obtain ⟨before', line', after', hsplit, hreported, problem', heq⟩ := hread.complaints _ hm
      obtain ⟨rfl, rfl⟩ := split_unique hbody.nodup hsplit (atLine_inj heq)
      exact hsilent hreported
  · intro hnoted
    refine ⟨fun mapping => parseMapping_ok, ?_⟩
    intro errors hresult layout before line after hbody hoffends
    obtain ⟨read, hread, hparse⟩ := parseMapping_body sha256 hbody
    rw [hresult] at hparse
    split at hparse <;> cases hparse
    refine hread.reported before line after rfl ?_
    rcases hoffends with hmalformed | ⟨row, hrow, hnamed | ⟨uuid, huuid, hanother⟩⟩
    · exact .inl hmalformed
    · exact .inr ⟨row, hrow, .inl hnamed⟩
    · by_cases hnamed : NamesId layout before row.iamPublicId.value
      · exact .inr ⟨row, hrow, .inl hnamed⟩
      · exact .inr ⟨row, hrow, .inr ⟨uuid, huuid,
          hnoted layout before line after hbody row uuid hrow huuid hnamed hanother⟩⟩

end

namespace MaskedUuid

def text : String := "iam_public_id,accounts_uuid\nsi:a,A1\nsi:a,B2\nsi:b,B2\n"

/-- Line 3 repeats the id of line 2, and line 4 the uuid of line 3. -/
def file : List UInt8 := utf8 text

def account : AccountUuid := ⟨"B2", by decide⟩

def repeated : MappingRow := ⟨⟨"si:a", .silicon, by decide⟩, none, some account⟩

def shared : MappingRow := ⟨⟨"si:b", .silicon, by decide⟩, none, some account⟩

/-- Line 3 is reported, line 4 is not. -/
theorem shared_uuid_unreported : ¬ ∀ sha256 bytes, ReportsFully sha256 bytes := by
  intro h
  have hparse : parseMapping (fun _ => "") file =
      .error [atLine 3 "si:a is already mapped on line 2"] := by decide +kernel
  have hbody : MappingBody file .publicId ([(2, "si:a,A1"), (3, "si:a,B2")] ++
      (4, "si:b,B2") :: []) :=
    ⟨text, 1, "iam_public_id,accounts_uuid", by decide +kernel, by decide +kernel, .inl rfl⟩
  have hrepeated : LineGives .publicId "si:a,B2" repeated :=
    parseRow_ok.mp (show parseRow .publicId 3 "si:a,B2" = .ok repeated by decide +kernel)
  have hshared : LineGives .publicId "si:b,B2" shared :=
    parseRow_ok.mp (show parseRow .publicId 4 "si:b,B2" = .ok shared by decide +kernel)
  have hoffends : Offends .publicId [(2, "si:a,A1"), (3, "si:a,B2")] (4, "si:b,B2") :=
    .inr ⟨shared, hshared, .inr ⟨account, rfl, (3, "si:a,B2"), by decide, repeated, hrepeated, rfl,
      by decide⟩⟩
  obtain ⟨message, hm, problem, hline⟩ :=
    (h (fun _ => "") file).reports _ hparse .publicId _ _ _ hbody hoffends
  rw [List.mem_singleton.mp hm] at hline
  exact absurd (atLine_inj hline) (by decide)

end MaskedUuid

end SiliconHook
