import SiliconHook.Domain.Redaction
import SiliconHook.Library.JsonGrammar
import SiliconHook.Properties.JsonOrder
import SiliconHook.Properties.CanonicalQuery

/-!
# Retained credentials

Redaction works on what the parser makes of a body. Where the parser accepts a text
that names no member twice, what is kept of it holds no credential and everything
else; redacted once, a request stays as it is.
-/

namespace SiliconHook

open Encoding Json

-- -----------------------------------------------------------------------------
-- Trees
-- -----------------------------------------------------------------------------

namespace Json.JsonTree

@[elab_as_elim]
theorem nested {P : JsonTree → Prop} (null : P .null) (bool : ∀ b, P (.bool b))
    (number : ∀ numeral, P (.number numeral)) (string : ∀ chars, P (.string chars))
    (array : ∀ items, (∀ item ∈ items, P item) → P (.array items))
    (object : ∀ members, (∀ member ∈ members, P member.2) → P (.object members))
    (tree : JsonTree) : P tree :=
  @JsonTree.rec P (fun items => ∀ item ∈ items, P item)
    (fun members => ∀ member ∈ members, P member.2) (fun member => P member.2)
    null bool number string array object (List.forall_mem_nil _)
    (fun _ _ hitem hrest _ hm => (List.mem_cons.mp hm).elim (fun h => h ▸ hitem) (hrest _))
    (List.forall_mem_nil _)
    (fun _ _ hmember hrest _ hm => (List.mem_cons.mp hm).elim (fun h => h ▸ hmember) (hrest _))
    (fun _ _ hvalue => hvalue) tree

def hidden (chars : List Char) : Bool := (decode chars).any fun name => sensitive (.ofList name)

def Redacted : JsonTree → Prop
  | .string chars => decode chars = some redactedText.toList
  | _ => False

mutual

/-- No credential is left, at any depth. -/
def Clean : JsonTree → Prop
  | .array items => CleanAll items
  | .object members => CleanMembers members
  | _ => True

def CleanAll : List JsonTree → Prop
  | [] => True
  | item :: rest => Clean item ∧ CleanAll rest

def CleanMembers : List (List Char × JsonTree) → Prop
  | [] => True
  | (chars, value) :: rest =>
    (hidden chars = true → Redacted value) ∧ Clean value ∧ CleanMembers rest

end

mutual

def Distinct : JsonTree → Prop
  | .array items => DistinctAll items
  | .object members => (members.map fun member => decode member.1).Nodup ∧ DistinctMembers members
  | _ => True

def DistinctAll : List JsonTree → Prop
  | [] => True
  | item :: rest => Distinct item ∧ DistinctAll rest

def DistinctMembers : List (List Char × JsonTree) → Prop
  | [] => True
  | (_, value) :: rest => Distinct value ∧ DistinctMembers rest

end

mutual

/-- The other tree holds everything but the credentials: a number as the parser reads it,
a string by its text, an array in its order, the members of an object in any. -/
def Keeps (numeral : List Char → Option String) : JsonTree → JsonTree → Prop
  | .null, other => other = .null
  | .bool value, other => other = .bool value
  | .number chars, other => ∃ text, numeral chars = some text ∧ other = .number text.toList
  | .string chars, other => ∃ chars', other = .string chars' ∧ decode chars' = decode chars
  | .array items, other => ∃ others, other = .array others ∧ KeepsAll numeral items others
  | .object members, other => ∃ others ordered, other = .object others ∧ ordered.Perm others ∧
    KeepsMembers numeral members ordered

def KeepsAll (numeral : List Char → Option String) : List JsonTree → List JsonTree → Prop
  | [], others => others = []
  | item :: rest, others => ∃ other more, others = other :: more ∧ Keeps numeral item other ∧
    KeepsAll numeral rest more

def KeepsMembers (numeral : List Char → Option String) :
    List (List Char × JsonTree) → List (List Char × JsonTree) → Prop
  | [], others => others = []
  | (chars, value) :: rest, others => ∃ chars' other more, others = (chars', other) :: more ∧
    decode chars' = decode chars ∧ (hidden chars = true → Redacted other) ∧
    (hidden chars = false → Keeps numeral value other) ∧ KeepsMembers numeral rest more

end

mutual

/-- What the parser makes of a tree, given how it reads numbers: of members of one name
it keeps the last. -/
def collapse (numeral : List Char → Option String) : JsonTree → Option JsonValue
  | .null => some .null
  | .bool value => some (.bool value)
  | .number chars => (numeral chars).map .number
  | .string chars => (decode chars).map fun text => .string (.ofList text)
  | .array items => (collapseAll numeral items).map .array
  | .object members => (collapseMembers numeral members []).map .object

def collapseAll (numeral : List Char → Option String) : List JsonTree → Option (List JsonValue)
  | [] => some []
  | item :: rest => do return (← collapse numeral item) :: (← collapseAll numeral rest)

def collapseMembers (numeral : List Char → Option String) :
    List (List Char × JsonTree) → List (String × JsonValue) → Option (List (String × JsonValue))
  | [], map => some map
  | (chars, value) :: rest, map => do
    let name ← decode chars
    collapseMembers numeral rest
      (JsonValue.insertMember (.ofList name) (← collapse numeral value) map)

end

section

variable {items : List JsonTree} {members : List (List Char × JsonTree)}

theorem cleanAll_iff : CleanAll items ↔ ∀ item ∈ items, item.Clean := by
  induction items with
  | nil => simp [CleanAll]
  | cons item rest ih => simp [CleanAll, ih]

theorem cleanMembers_iff : CleanMembers members ↔
    ∀ member ∈ members, (hidden member.1 = true → member.2.Redacted) ∧ member.2.Clean := by
  induction members with
  | nil => simp [CleanMembers]
  | cons member rest ih => simp [CleanMembers, ih, and_assoc]

theorem distinctAll_iff : DistinctAll items ↔ ∀ item ∈ items, item.Distinct := by
  induction items with
  | nil => simp [DistinctAll]
  | cons item rest ih => simp [DistinctAll, ih]

theorem distinctMembers_iff : DistinctMembers members ↔ ∀ member ∈ members, member.2.Distinct := by
  induction members with
  | nil => simp [DistinctMembers]
  | cons member rest ih => simp [DistinctMembers, ih]

variable {numeral : List Char → Option String}

theorem keepsAll_iff {others : List JsonTree} :
    KeepsAll numeral items others ↔ List.Forall₂ (Keeps numeral) items others := by
  induction items generalizing others with
  | nil => rw [KeepsAll, List.forall₂_nil_left_iff]
  | cons item rest ih => simp only [KeepsAll, List.forall₂_cons_left_iff, ih]; tauto

end

end Json.JsonTree

-- -----------------------------------------------------------------------------
-- Texts of values
-- -----------------------------------------------------------------------------

namespace JsonValue

@[elab_as_elim]
theorem nested {P : JsonValue → Prop} (null : P .null) (bool : ∀ b, P (.bool b))
    (number : ∀ text, P (.number text)) (string : ∀ value, P (.string value))
    (array : ∀ values, (∀ value ∈ values, P value) → P (.array values))
    (object : ∀ members, (∀ member ∈ members, P member.2) → P (.object members))
    (value : JsonValue) : P value :=
  @JsonValue.rec P (fun values => ∀ value ∈ values, P value)
    (fun members => ∀ member ∈ members, P member.2) (fun member => P member.2)
    null bool number string array object (List.forall_mem_nil _)
    (fun _ _ hvalue hrest _ hm => (List.mem_cons.mp hm).elim (fun h => h ▸ hvalue) (hrest _))
    (List.forall_mem_nil _)
    (fun _ _ hmember hrest _ hm => (List.mem_cons.mp hm).elim (fun h => h ▸ hmember) (hrest _))
    (fun _ _ hvalue => hvalue) value

mutual

def tree : JsonValue → JsonTree
  | .null => .null
  | .bool value => .bool value
  | .number text => .number text.toList
  | .string value => .string (value.toList.flatMap escape)
  | .array values => .array (trees values)
  | .object members => .object (memberTrees members)

def trees : List JsonValue → List JsonTree
  | [] => []
  | value :: rest => tree value :: trees rest

def memberTrees : List (String × JsonValue) → List (List Char × JsonTree)
  | [] => []
  | (name, value) :: rest => (name.toList.flatMap escape, tree value) :: memberTrees rest

end

mutual

/-- The numbers are written as the grammar has them. -/
def Written : JsonValue → Prop
  | .number text => IsNumber text.toList
  | .array values => WrittenAll values
  | .object members => WrittenMembers members
  | _ => True

def WrittenAll : List JsonValue → Prop
  | [] => True
  | value :: rest => Written value ∧ WrittenAll rest

def WrittenMembers : List (String × JsonValue) → Prop
  | [] => True
  | (_, value) :: rest => Written value ∧ WrittenMembers rest

end

def memberTree (member : String × JsonValue) : List Char × JsonTree :=
  (member.1.toList.flatMap escape, member.2.tree)

section

variable {values : List JsonValue} {members : List (String × JsonValue)}

theorem trees_eq : trees values = values.map tree := by
  induction values with
  | nil => rfl
  | cons value rest ih => rw [trees, ih, List.map_cons]

theorem memberTrees_eq : memberTrees members = members.map memberTree := by
  induction members with
  | nil => rfl
  | cons member rest ih =>
    rw [memberTrees, ih]
    rfl

theorem writtenAll_iff : WrittenAll values ↔ ∀ value ∈ values, value.Written := by
  induction values with
  | nil => simp [WrittenAll]
  | cons value rest ih => simp [WrittenAll, ih]

theorem writtenMembers_iff : WrittenMembers members ↔ ∀ member ∈ members, member.2.Written := by
  induction members with
  | nil => simp [WrittenMembers]
  | cons member rest ih => simp [WrittenMembers, ih]

theorem redactAll_eq : redactAll values = values.map redact := by
  induction values with
  | nil => rfl
  | cons value rest ih => rw [redactAll, ih, List.map_cons]

def redactMember (member : String × JsonValue) : String × JsonValue :=
  (member.1, if sensitive member.1 then .string redactedText else redact member.2)

theorem redactMembers_eq : redactMembers members = members.map redactMember := by
  induction members with
  | nil => rfl
  | cons member rest ih =>
    rw [redactMembers, ih]
    rfl

end

/-- A character stands for itself, or behind a backslash, or by its number. -/
theorem escape_cases (c : Char) :
    (escape c = [c] ∧ 32 ≤ c.toNat ∧ c ≠ '"' ∧ c ≠ '\\') ∨
    (∃ e, escape c = ['\\', e] ∧ shortEscape e = some c) ∨
    ∃ p q, escape c = ['\\', 'u', '0', '0', p, q] ∧ hexUnit '0' '0' p q = some c.toNat ∧
      c.toNat < 32 := by
  have hcode : ∀ {n : Nat}, c.toNat = n → Char.ofNat n = c := by
    rintro n rfl
    exact Char.ofNat_toNat c
  unfold escape
  split
  · rename_i h
    exact .inr (.inl ⟨'"', rfl, by rw [h]; rfl⟩)
  · rename_i hquote
    split
    · rename_i h
      exact .inr (.inl ⟨'\\', rfl, by rw [h]; rfl⟩)
    · rename_i hbackslash
      split
      · exact .inr (.inl ⟨'b', rfl, congrArg some (hcode ‹_›)⟩)
      · split
        · exact .inr (.inl ⟨'t', rfl, congrArg some (hcode ‹_›)⟩)
        · split
          · exact .inr (.inl ⟨'n', rfl, congrArg some (hcode ‹_›)⟩)
          · split
            · exact .inr (.inl ⟨'f', rfl, congrArg some (hcode ‹_›)⟩)
            · split
              · exact .inr (.inl ⟨'r', rfl, congrArg some (hcode ‹_›)⟩)
              · split
                · rename_i hcontrol
                  refine .inr (.inr ⟨_, _, rfl, ?_, hcontrol⟩)
                  have hhigh : hexDigit (hexChar (c.toNat / 16)) = some (c.toNat / 16) :=
                    hexDigit_hexChar (by omega)
                  have hlow : hexDigit (hexChar (c.toNat % 16)) = some (c.toNat % 16) :=
                    hexDigit_hexChar (by omega)
                  show (do return 4096 * 0 + 256 * 0 +
                    16 * (← hexDigit (hexChar (c.toNat / 16))) +
                    (← hexDigit (hexChar (c.toNat % 16)))) = some c.toNat
                  rw [hhigh, hlow]
                  exact congrArg some (by omega)
                · exact .inl ⟨rfl, by omega, hquote, hbackslash⟩

theorem decode_escape (c : Char) (rest : List Char) :
    decode (escape c ++ rest) = (c :: ·) <$> decode rest := by
  rcases escape_cases c with ⟨hescape, -, -, hbackslash⟩ | ⟨e, hescape, hshort⟩ |
    ⟨p, q, hescape, hunit, hcontrol⟩
  · rw [hescape, List.singleton_append, decode]
    · cases decode rest <;> rfl
    · exact fun _ _ _ _ _ heq _ => hbackslash heq
    · exact fun _ _ heq _ => hbackslash heq
  · have hnot : e ≠ 'u' := by
      rintro rfl
      cases hshort
    rw [hescape, List.cons_append, List.singleton_append, decode]
    · rw [hshort]
      cases decode rest <;> rfl
    · exact fun _ _ _ _ _ heq _ => hnot heq
  · have hlow : ¬ (0xD800 ≤ c.toNat ∧ c.toNat < 0xDC00) := by omega
    have hhigh : ¬ (0xDC00 ≤ c.toNat ∧ c.toNat < 0xE000) := by omega
    rw [hescape]
    simp only [List.cons_append, List.nil_append]
    rw [decode, hunit]
    simp only [Option.bind_eq_bind, Option.bind_some, if_neg hlow, if_neg hhigh, Char.ofNat_toNat]
    cases decode rest <;> rfl

theorem decode_escaped (chars : List Char) : decode (chars.flatMap escape) = some chars := by
  induction chars with
  | nil => rfl
  | cons c rest ih => rw [List.flatMap_cons, decode_escape, ih]; rfl

theorem isBody_escaped (chars : List Char) : IsBody (chars.flatMap escape) := by
  induction chars with
  | nil => exact .nil
  | cons c rest ih =>
    rw [List.flatMap_cons]
    rcases escape_cases c with ⟨hescape, hplain, hquote, hbackslash⟩ | ⟨e, hescape, hshort⟩ |
      ⟨p, q, hescape, hunit, -⟩
    · rw [hescape]
      exact .plain hplain hquote hbackslash ih
    · rw [hescape]
      exact .short (by rw [hshort]; rfl) ih
    · rw [hescape]
      exact .unit (by rw [hunit]; rfl) ih

theorem spaces_nil : Spaces [] := List.forall_mem_nil _

theorem padded_self {p : List Char → Prop} {text : List Char} (h : p text) : Padded p text :=
  ⟨[], text, [], by simp, spaces_nil, spaces_nil, h⟩

theorem listed_following {α : Type} {p : α → List Char → Prop} {code : α → List Char}
    {close : Char} {xs : List α} (h : ∀ x ∈ xs, p x (code x)) :
    Listed close (xs.map p) (following close (xs.map code)) := by
  induction xs with
  | nil => rfl
  | cons x rest ih =>
    exact ⟨code x, _, rfl, padded_self (h x List.mem_cons_self),
      ih fun y hy => h y (List.mem_cons_of_mem _ hy)⟩

theorem bracketed_separated {α : Type} {p : α → List Char → Prop} {code : α → List Char}
    {opening close : Char} {xs : List α} (h : ∀ x ∈ xs, p x (code x)) :
    Bracketed opening close (xs.map p) (opening :: separated close (xs.map code)) := by
  cases xs with
  | nil => exact ⟨[], rfl, spaces_nil⟩
  | cons x rest =>
    exact ⟨code x, _, rfl, padded_self (h x List.mem_cons_self),
      listed_following fun y hy => h y (List.mem_cons_of_mem _ hy)⟩

theorem writes_tree (value : JsonValue) (h : value.Written) :
    Writes value.tree value.render.toList := by
  induction value using nested with
  | null => rfl
  | bool value => cases value <;> rfl
  | number text => exact ⟨rfl, h⟩
  | string value => exact ⟨quote_toList value, isBody_escaped _⟩
  | array values ih =>
    have hvalues := writtenAll_iff.mp h
    rw [tree, Writes, itemTexts_eq, trees_eq, List.map_map, render_array]
    exact bracketed_separated fun value hm => ih value hm (hvalues value hm)
  | object members ih =>
    have hmembers := writtenMembers_iff.mp h
    rw [tree, Writes, memberTexts_eq, memberTrees_eq, List.map_map, render_object]
    refine bracketed_separated fun member hm => ?_
    refine ⟨isBody_escaped _, [], [], _, ?_, spaces_nil, spaces_nil,
      ih member hm (hmembers member hm)⟩
    simp [memberText, memberTree, quote_toList]

theorem isText_render {value : JsonValue} (h : value.Written) :
    IsText value.tree (utf8 value.render) :=
  ⟨value.render.toList, by rw [String.ofList_toList], padded_self (writes_tree value h)⟩

-- -----------------------------------------------------------------------------
-- Redacted values
-- -----------------------------------------------------------------------------

theorem hidden_memberTree (member : String × JsonValue) :
    JsonTree.hidden (memberTree member).1 = sensitive member.1 := by
  rw [JsonTree.hidden, memberTree, decode_escaped, Option.any_some, String.ofList_toList]

theorem redacted_tree {value : JsonValue} :
    value.tree.Redacted ↔ value = .string redactedText := by
  cases value with
  | string text =>
    rw [tree, JsonTree.Redacted, decode_escaped, Option.some.injEq, String.toList_inj,
      JsonValue.string.injEq]
  | _ => simp [tree, JsonTree.Redacted]

theorem clean_array {values : List JsonValue} :
    (tree (.array values)).Clean ↔ ∀ value ∈ values, value.tree.Clean := by
  rw [tree, JsonTree.Clean, JsonTree.cleanAll_iff, trees_eq, List.forall_mem_map]

theorem clean_object {members : List (String × JsonValue)} :
    (tree (.object members)).Clean ↔ ∀ member ∈ members,
      (sensitive member.1 = true → member.2 = .string redactedText) ∧ member.2.tree.Clean := by
  rw [tree, JsonTree.Clean, JsonTree.cleanMembers_iff, memberTrees_eq, List.forall_mem_map]
  refine forall₂_congr fun member _ => ?_
  rw [hidden_memberTree, memberTree, redacted_tree]

theorem clean_redact (value : JsonValue) : (redact value).tree.Clean := by
  induction value using nested with
  | null | bool | number | string => trivial
  | array values ih =>
    rw [redact, redactAll_eq, clean_array, List.forall_mem_map]
    exact ih
  | object members ih =>
    rw [redact, redactMembers_eq, clean_object, List.forall_mem_map]
    intro member hm
    rw [redactMember]
    split
    · exact ⟨fun _ => rfl, trivial⟩
    · rename_i hplain
      exact ⟨fun hsensitive => absurd hsensitive hplain, ih member hm⟩

theorem redact_eq (value : JsonValue) (h : value.tree.Clean) : redact value = value := by
  induction value using nested with
  | null | bool | number | string => rfl
  | array values ih =>
    have hvalues := clean_array.mp h
    rw [redact, redactAll_eq, List.map_congr_left fun value hm => ih value hm (hvalues value hm),
      List.map_id']
  | object members ih =>
    have hmembers := clean_object.mp h
    have hsame : ∀ member ∈ members, redactMember member = member := by
      intro member hm
      obtain ⟨hredacted, hclean⟩ := hmembers member hm
      rw [redactMember]
      split
      · rename_i hsensitive
        exact Prod.ext rfl (hredacted hsensitive).symm
      · exact Prod.ext rfl (ih member hm hclean)
    rw [redact, redactMembers_eq, List.map_congr_left hsame, List.map_id']

theorem redact_written (value : JsonValue) (h : value.Written) : (redact value).Written := by
  induction value using nested with
  | null | bool | number | string => exact h
  | array values ih =>
    have hvalues := writtenAll_iff.mp h
    rw [redact, redactAll_eq, Written, writtenAll_iff, List.forall_mem_map]
    exact fun value hm => ih value hm (hvalues value hm)
  | object members ih =>
    have hmembers := writtenMembers_iff.mp h
    rw [redact, redactMembers_eq, Written, writtenMembers_iff, List.forall_mem_map]
    intro member hm
    rw [redactMember]
    split
    · trivial
    · exact ih member hm (hmembers member hm)

end JsonValue

-- -----------------------------------------------------------------------------
-- What the parser makes of a text
-- -----------------------------------------------------------------------------

theorem insertMember_perm {name : String} {json : JsonValue} {map : List (String × JsonValue)}
    (h : name ∉ map.map Prod.fst) :
    (JsonValue.insertMember name json map).Perm ((name, json) :: map) := by
  induction map with
  | nil => rfl
  | cons stored rest ih =>
    obtain ⟨other, kept⟩ := stored
    rw [List.map_cons, List.mem_cons, not_or] at h
    rw [JsonValue.insertMember, if_neg h.1]
    split
    · rfl
    · exact ((ih h.2).cons (other, kept)).trans (.swap ..)

namespace Json.JsonTree

variable {numeral : List Char → Option String}

def Becomes (numeral : List Char → Option String) (member : List Char × JsonTree)
    (made : String × JsonValue) : Prop :=
  decode member.1 = some made.1.toList ∧ collapse numeral member.2 = some made.2

theorem collapseAll_some {items : List JsonTree} {values : List JsonValue} :
    collapseAll numeral items = some values ↔
      List.Forall₂ (fun item value => collapse numeral item = some value) items values := by
  induction items generalizing values with
  | nil => rw [collapseAll, List.forall₂_nil_left_iff, Option.some.injEq, eq_comm]
  | cons item rest ih =>
    simp only [collapseAll, List.forall₂_cons_left_iff, Option.bind_eq_bind, Option.bind_eq_some_iff,
      Option.pure_def, Option.some.injEq, ih]
    constructor
    · rintro ⟨value, hvalue, values, hvalues, rfl⟩
      exact ⟨value, values, hvalue, hvalues, rfl⟩
    · rintro ⟨value, values, hvalue, hvalues, rfl⟩
      exact ⟨value, hvalue, values, hvalues, rfl⟩

theorem collapseMembers_cons {member : List Char × JsonTree}
    {rest : List (List Char × JsonTree)} {map result : List (String × JsonValue)} :
    collapseMembers numeral (member :: rest) map = some result ↔
      ∃ made, Becomes numeral member made ∧
        collapseMembers numeral rest (JsonValue.insertMember made.1 made.2 map) = some result := by
  simp only [collapseMembers, Option.bind_eq_bind, Option.bind_eq_some_iff]
  constructor
  · rintro ⟨name, hname, value, hvalue, hrest⟩
    exact ⟨(.ofList name, value), ⟨by rw [hname, String.toList_ofList], hvalue⟩, hrest⟩
  · rintro ⟨⟨name, value⟩, ⟨hname, hvalue⟩, hrest⟩
    exact ⟨name.toList, hname, value, hvalue, by rwa [String.ofList_toList]⟩

theorem mem_collapseMembers {members : List (List Char × JsonTree)}
    {map result : List (String × JsonValue)} (h : collapseMembers numeral members map = some result) :
    ∀ made ∈ result, made ∈ map ∨ ∃ member ∈ members, Becomes numeral member made := by
  induction members generalizing map with
  | nil =>
    cases h
    exact fun made hm => .inl hm
  | cons member rest ih =>
    obtain ⟨first, hfirst, hrest⟩ := collapseMembers_cons.mp h
    intro made hm
    rcases ih hrest made hm with hm | ⟨other, hm, hmade⟩
    · rcases Value.mem_insertMember hm with rfl | hm
      · exact .inr ⟨member, List.mem_cons_self, hfirst⟩
      · exact .inl hm
    · exact .inr ⟨other, List.mem_cons_of_mem _ hm, hmade⟩

theorem collapseMembers_perm {members : List (List Char × JsonTree)}
    {map result : List (String × JsonValue)} (h : collapseMembers numeral members map = some result)
    (hdistinct : (members.map fun member => decode member.1).Nodup)
    (hapart : ∀ made ∈ map, ∀ member ∈ members, decode member.1 ≠ some made.1.toList) :
    ∃ made, List.Forall₂ (Becomes numeral) members made ∧ (made ++ map).Perm result := by
  induction members generalizing map with
  | nil =>
    cases h
    exact ⟨[], .nil, .rfl⟩
  | cons member rest ih =>
    obtain ⟨first, hfirst, hrest⟩ := collapseMembers_cons.mp h
    obtain ⟨hnew, hdistinct⟩ := List.nodup_cons.mp hdistinct
    have hname : first.1 ∉ map.map Prod.fst := by
      intro hm
      obtain ⟨made, hmade, hsame⟩ := List.mem_map.mp hm
      exact hapart made hmade member List.mem_cons_self (hsame ▸ hfirst.1)
    have hinserted : (JsonValue.insertMember first.1 first.2 map).Perm (first :: map) :=
      insertMember_perm hname
    obtain ⟨made, hmade, hperm⟩ := ih hrest hdistinct fun other hm found hfound hsame => by
      rcases List.mem_cons.mp (hinserted.mem_iff.mp hm) with rfl | hm
      · exact hnew (List.mem_map.mpr ⟨found, hfound, hsame.trans hfirst.1.symm⟩)
      · exact hapart other hm found (List.mem_cons_of_mem _ hfound) hsame
    refine ⟨first :: made, .cons hfirst hmade, ?_⟩
    exact (List.perm_middle.symm.trans (hinserted.symm.append_left made)).trans hperm

theorem hidden_becomes {member : List Char × JsonTree} {made : String × JsonValue}
    (h : Becomes numeral member made) : hidden member.1 = sensitive made.1 := by
  rw [hidden, h.1, Option.any_some, String.ofList_toList]

theorem collapse_array {items : List JsonTree} {value : JsonValue} :
    collapse numeral (.array items) = some value ↔ ∃ values, value = .array values ∧
      List.Forall₂ (fun item value => collapse numeral item = some value) items values := by
  simp only [collapse, Option.map_eq_some_iff, collapseAll_some]
  exact exists_congr fun values => ⟨fun h => ⟨h.2.symm, h.1⟩, fun h => ⟨h.2, h.1.symm⟩⟩

theorem collapse_object {members : List (List Char × JsonTree)} {value : JsonValue} :
    collapse numeral (.object members) = some value ↔ ∃ result, value = .object result ∧
      collapseMembers numeral members [] = some result := by
  simp only [collapse, Option.map_eq_some_iff]
  exact exists_congr fun result => ⟨fun h => ⟨h.2.symm, h.1⟩, fun h => ⟨h.2, h.1.symm⟩⟩

theorem collapse_distinct {members : List (List Char × JsonTree)} {value : JsonValue}
    (h : collapse numeral (.object members) = some value) (hdistinct : (object members).Distinct) :
    ∃ made result, value = .object result ∧ List.Forall₂ (Becomes numeral) members made ∧
      made.Perm result := by
  obtain ⟨result, rfl, hresult⟩ := collapse_object.mp h
  obtain ⟨made, hmade, hperm⟩ :=
    collapseMembers_perm hresult hdistinct.1 (List.forall_mem_nil _)
  rw [List.append_nil] at hperm
  exact ⟨made, result, rfl, hmade, hperm⟩

theorem collapse_written (hnumber : ∀ chars text, numeral chars = some text → IsNumber text.toList)
    (tree : JsonTree) {value : JsonValue} (h : collapse numeral tree = some value) :
    value.Written := by
  induction tree using nested generalizing value with
  | null | bool =>
    cases h
    trivial
  | number chars =>
    obtain ⟨text, htext, rfl⟩ := Option.map_eq_some_iff.mp h
    exact hnumber chars text htext
  | string chars =>
    obtain ⟨text, -, rfl⟩ := Option.map_eq_some_iff.mp h
    trivial
  | array items ih =>
    obtain ⟨values, rfl, hvalues⟩ := collapse_array.mp h
    refine JsonValue.writtenAll_iff.mpr fun value hm => ?_
    obtain ⟨item, hitem, hvalue⟩ := exists_mem_of_forall₂ hvalues.flip hm
    exact ih item hitem hvalue
  | object members ih =>
    obtain ⟨result, rfl, hresult⟩ := collapse_object.mp h
    refine JsonValue.writtenMembers_iff.mpr fun made hm => ?_
    obtain hm | ⟨member, hmember, hmade⟩ := mem_collapseMembers hresult made hm
    · cases hm
    · exact ih member hmember hmade.2

theorem collapse_clean (tree : JsonTree) {value : JsonValue} (hclean : tree.Clean)
    (h : collapse numeral tree = some value) : value.tree.Clean := by
  induction tree using nested generalizing value with
  | null | bool =>
    cases h
    trivial
  | number | string =>
    obtain ⟨text, -, rfl⟩ := Option.map_eq_some_iff.mp h
    trivial
  | array items ih =>
    have hitems := cleanAll_iff.mp hclean
    obtain ⟨values, rfl, hvalues⟩ := collapse_array.mp h
    refine JsonValue.clean_array.mpr fun value hm => ?_
    obtain ⟨item, hitem, hvalue⟩ := exists_mem_of_forall₂ hvalues.flip hm
    exact ih item hitem (hitems item hitem) hvalue
  | object members ih =>
    have hmembers := cleanMembers_iff.mp hclean
    obtain ⟨result, rfl, hresult⟩ := collapse_object.mp h
    refine JsonValue.clean_object.mpr fun made hm => ?_
    obtain hm | ⟨member, hmember, hmade⟩ := mem_collapseMembers hresult made hm
    · cases hm
    · obtain ⟨hredacted, hclean⟩ := hmembers member hmember
      refine ⟨fun hsensitive => ?_, ih member hmember hclean hmade.2⟩
      have hvalue := hredacted ((hidden_becomes hmade).trans hsensitive)
      cases hmember2 : member.2 with
      | string chars =>
        have hcollapse := hmade.2
        rw [hmember2] at hcollapse hvalue
        rw [collapse, show decode chars = some redactedText.toList from hvalue] at hcollapse
        exact (Option.some.inj hcollapse).symm
      | _ =>
        rw [hmember2] at hvalue
        cases hvalue

theorem redacted_of_collapse {tree : JsonTree}
    (h : collapse numeral tree = some (.string redactedText)) : tree.Redacted := by
  cases tree with
  | null | bool => cases h
  | number chars =>
    obtain ⟨_, -, htext⟩ := Option.map_eq_some_iff.mp h
    cases htext
  | string chars =>
    obtain ⟨text, hdecode, htext⟩ := Option.map_eq_some_iff.mp h
    show decode chars = _
    rw [hdecode, ← JsonValue.string.inj htext, String.toList_ofList]
  | array items =>
    obtain ⟨_, htext, -⟩ := collapse_array.mp h
    cases htext
  | object members =>
    obtain ⟨_, htext, -⟩ := collapse_object.mp h
    cases htext

/-- Where no member is named twice, what the parser keeps tells of all the text. -/
theorem clean_of_collapse (tree : JsonTree) {value : JsonValue} (hdistinct : tree.Distinct)
    (h : collapse numeral tree = some value) (hclean : value.tree.Clean) : tree.Clean := by
  induction tree using nested generalizing value with
  | null | bool | number | string => trivial
  | array items ih =>
    have hitems := distinctAll_iff.mp hdistinct
    obtain ⟨values, rfl, hvalues⟩ := collapse_array.mp h
    refine cleanAll_iff.mpr fun item hm => ?_
    obtain ⟨value, hvalue, hitem⟩ := exists_mem_of_forall₂ hvalues hm
    exact ih item hm (hitems item hm) hitem (JsonValue.clean_array.mp hclean value hvalue)
  | object members ih =>
    have hmembers := distinctMembers_iff.mp hdistinct.2
    obtain ⟨made, result, rfl, hmade, hperm⟩ := collapse_distinct h hdistinct
    refine cleanMembers_iff.mpr fun member hm => ?_
    obtain ⟨value, hvalue, hbecomes⟩ := exists_mem_of_forall₂ hmade hm
    obtain ⟨hredacted, hvalueClean⟩ :=
      JsonValue.clean_object.mp hclean value (hperm.mem_iff.mp hvalue)
    have hmember := ih member hm (hmembers member hm) hbecomes.2 hvalueClean
    refine ⟨fun hhidden => ?_, hmember⟩
    have hmadeOf := hbecomes.2
    rw [hredacted ((hidden_becomes hbecomes).symm.trans hhidden)] at hmadeOf
    exact redacted_of_collapse hmadeOf

def KeepsMember (numeral : List Char → Option String) (member other : List Char × JsonTree) : Prop :=
  decode other.1 = decode member.1 ∧ (hidden member.1 = true → other.2.Redacted) ∧
    (hidden member.1 = false → Keeps numeral member.2 other.2)

theorem keepsMembers_iff {members others : List (List Char × JsonTree)} :
    KeepsMembers numeral members others ↔ List.Forall₂ (KeepsMember numeral) members others := by
  induction members generalizing others with
  | nil => rw [KeepsMembers, List.forall₂_nil_left_iff]
  | cons member rest ih =>
    simp only [KeepsMembers, List.forall₂_cons_left_iff, ih, KeepsMember]
    constructor
    · rintro ⟨chars, other, more, rfl, hname, hhidden, hkeeps, hmore⟩
      exact ⟨(chars, other), more, ⟨hname, hhidden, hkeeps⟩, hmore, rfl⟩
    · rintro ⟨other, more, ⟨hname, hhidden, hkeeps⟩, hmore, rfl⟩
      exact ⟨other.1, other.2, more, rfl, hname, hhidden, hkeeps, hmore⟩

/-- What is written of the redacted value keeps all of the text but its credentials. -/
theorem keeps_redact (tree : JsonTree) {value : JsonValue} (hdistinct : tree.Distinct)
    (h : collapse numeral tree = some value) : Keeps numeral tree (redact value).tree := by
  induction tree using nested generalizing value with
  | null | bool =>
    cases h
    rfl
  | number chars =>
    obtain ⟨text, htext, rfl⟩ := Option.map_eq_some_iff.mp h
    exact ⟨text, htext, rfl⟩
  | string chars =>
    obtain ⟨text, htext, rfl⟩ := Option.map_eq_some_iff.mp h
    exact ⟨_, rfl, by rw [JsonValue.decode_escaped, String.toList_ofList, htext]⟩
  | array items ih =>
    have hitems := distinctAll_iff.mp hdistinct
    obtain ⟨values, rfl, hvalues⟩ := collapse_array.mp h
    refine ⟨_, by rw [redact, JsonValue.tree], keepsAll_iff.mpr ?_⟩
    rw [JsonValue.redactAll_eq, JsonValue.trees_eq, List.map_map, List.forall₂_map_right_iff]
    have hboth := (List.forall₂_and_left items values).mpr ⟨fun _ hm => hm, hvalues⟩
    exact hboth.imp fun item value h => ih item h.1 (hitems item h.1) h.2
  | object members ih =>
    have hmembers := distinctMembers_iff.mp hdistinct.2
    obtain ⟨made, result, rfl, hmade, hperm⟩ := collapse_distinct h hdistinct
    refine ⟨_, (made.map JsonValue.redactMember).map JsonValue.memberTree,
      by rw [redact, JsonValue.tree, JsonValue.redactMembers_eq, JsonValue.memberTrees_eq],
      (hperm.map _).map _, keepsMembers_iff.mpr ?_⟩
    rw [List.map_map, List.forall₂_map_right_iff]
    have hboth := (List.forall₂_and_left members made).mpr ⟨fun _ hm => hm, hmade⟩
    refine hboth.imp fun member value h => ⟨?_, fun hhidden => ?_, fun hplain => ?_⟩
    · exact (JsonValue.decode_escaped _).trans h.2.1.symm
    · rw [hidden_becomes h.2] at hhidden
      show (JsonValue.memberTree (JsonValue.redactMember value)).2.Redacted
      rw [JsonValue.redactMember, if_pos hhidden]
      exact JsonValue.decode_escaped _
    · rw [hidden_becomes h.2] at hplain
      show Keeps numeral member.2 (JsonValue.memberTree (JsonValue.redactMember value)).2
      rw [JsonValue.redactMember, if_neg (by simp [hplain])]
      exact ih member h.1 (hmembers member h.1) h.2.2

end Json.JsonTree

-- -----------------------------------------------------------------------------
-- Requests
-- -----------------------------------------------------------------------------

/-- What the functions outside promise of requests: the JSON parser reads a text by its
tree, and a number as one it writes; the pairs a URL is given are its pairs. -/
structure ReadsRequests (lib : ExpressionLibrary) (numeral : List Char → Option String) :
    Prop where
  number : ∀ chars text, numeral chars = some text → IsNumber text.toList
  json : ∀ bytes value, lib.parseJson bytes = some value →
    ∃ tree, IsText tree bytes ∧ tree.collapse numeral = some value
  pairs : ∀ pairs url, lib.queryPairs (lib.withQuery (some pairs) url) = pairs
  again : ∀ pairs url, lib.withQuery (some pairs) (lib.withQuery (some pairs) url) =
    lib.withQuery (some pairs) url

namespace CapturedRequest

/-- The parser finds a credential in the body. -/
def Rewritten (lib : ExpressionLibrary) (request : CapturedRequest) : Prop :=
  ∃ value, lib.parseJson request.body = some value ∧ redact value ≠ value

section

variable {lib : ExpressionLibrary} {numeral : List Char → Option String}
  {request : CapturedRequest}

theorem redactPair_redactPair (pair : String × String) :
    redactPair (redactPair pair) = redactPair pair := by
  rw [redactPair, redactPair]
  split <;> rfl

theorem redactPairs_redactPairs (pairs : List (String × String)) :
    (pairs.map redactPair).map redactPair = pairs.map redactPair := by
  rw [List.map_map]
  exact List.map_congr_left fun pair _ => redactPair_redactPair pair

/-- The body is written anew exactly where the parser's value holds a credential, whatever
else the text may say. -/
theorem rewritten_iff : request.Rewritten lib ↔
    ∃ value, lib.parseJson request.body = some value ∧ ¬ value.tree.Clean := by
  refine exists_congr fun value => and_congr_right fun _ => not_congr ⟨fun heq => ?_, ?_⟩
  · rw [← heq]
    exact JsonValue.clean_redact value
  · exact JsonValue.redact_eq value

theorem redactBody_of_not (h : ¬ request.Rewritten lib) : request.redactBody lib = request := by
  rw [redactBody]
  split
  · rename_i value hvalue
    exact if_neg fun hne => h ⟨value, hvalue, hne⟩
  · rfl

theorem redactBody_of_value {value : JsonValue} (h : lib.parseJson request.body = some value)
    (hne : redact value ≠ value) : request.redactBody lib =
      { request with
        body := utf8 (redact value).render
        headers := request.headers.filter (·.1 ≠ "content-length") } := by
  rw [redactBody, h]
  exact if_pos hne

theorem redactQuery_eq (request : CapturedRequest) : ∃ url,
    request.redactQuery lib = { request with url } := by
  rw [redactQuery]
  split
  · exact ⟨_, rfl⟩
  · exact ⟨request.url, rfl⟩

theorem redactQuery_pairs (h : ReadsRequests lib numeral) (request : CapturedRequest) :
    lib.queryPairs (request.redactQuery lib).url = (lib.queryPairs request.url).map redactPair := by
  rw [redactQuery]
  split
  · exact h.pairs _ _
  · rename_i hnone
    refine (List.map_id' _).symm.trans (List.map_congr_left fun pair hm => ?_)
    have hplain : ¬ sensitive pair.1 = true := fun hsensitive => hnone
      (List.any_eq_true.mpr ⟨redactPair pair, List.mem_map_of_mem hm, hsensitive⟩)
    exact (Prod.ext rfl (if_neg hplain).symm : pair = redactPair pair)

theorem redactQuery_again (h : ReadsRequests lib numeral) (request other : CapturedRequest)
    (hurl : other.url = (request.redactQuery lib).url) : other.redactQuery lib = other := by
  have hpairs := (congrArg lib.queryPairs hurl).trans (redactQuery_pairs h request)
  have hquery : (lib.queryPairs other.url).map redactPair =
      (lib.queryPairs request.url).map redactPair := by
    rw [hpairs, redactPairs_redactPairs]
  rw [redactQuery, hquery]
  split
  · rename_i hsome
    rw [redactQuery, if_pos hsome] at hurl
    have hgiven : other.url = lib.withQuery (some _) request.url := hurl
    rw [hgiven, h.again, ← hgiven]
  · rfl

def withoutHeaders (request : CapturedRequest) : CapturedRequest :=
  { request with headers := request.headers.map redactPair }

theorem withoutCredentials_eq (lib : ExpressionLibrary) (request : CapturedRequest) :
    ∃ url, request.withoutCredentials lib = { request.withoutHeaders.redactBody lib with url } :=
  redactQuery_eq _

theorem redactBody_url (request : CapturedRequest) : (request.redactBody lib).url = request.url := by
  by_cases hrewritten : request.Rewritten lib
  · obtain ⟨value, hvalue, hne⟩ := hrewritten
    rw [redactBody_of_value hvalue hne]
  · rw [redactBody_of_not hrewritten]

theorem not_rewritten (h : ReadsRequests lib numeral) {value : JsonValue}
    (hvalue : lib.parseJson request.body = some value) {other : CapturedRequest}
    (hbody : other.body = utf8 (redact value).render) : ¬ other.Rewritten lib := by
  rintro ⟨again, hagain, hne⟩
  obtain ⟨tree, -, hmade⟩ := h.json _ _ hvalue
  obtain ⟨tree', htext, hmade'⟩ := h.json _ _ hagain
  have hwritten := JsonValue.redact_written value
    (JsonTree.collapse_written h.number tree hmade)
  have htree : tree' = (redact value).tree :=
    htext.unique (hbody ▸ JsonValue.isText_render hwritten)
  subst htree
  exact hne (JsonValue.redact_eq again
    (JsonTree.collapse_clean _ (JsonValue.clean_redact value) hmade'))

inductive Retained (lib : ExpressionLibrary) (request kept : CapturedRequest) : Prop
  /-- The body is the one captured. -/
  | whole : ¬ request.Rewritten lib → kept.body = request.body →
    kept.headers = request.headers.map redactPair → Retained lib request kept
  /-- The body is written anew, and its length is not kept. -/
  | rewritten (value : JsonValue) : lib.parseJson request.body = some value →
    redact value ≠ value → kept.body = utf8 (redact value).render →
    kept.headers = (request.headers.map redactPair).filter (·.1 ≠ "content-length") →
    Retained lib request kept

theorem withoutCredentials_retained (lib : ExpressionLibrary) (request : CapturedRequest) :
    Retained lib request (request.withoutCredentials lib) := by
  obtain ⟨url, heq⟩ := withoutCredentials_eq lib request
  rw [heq]
  by_cases hrewritten : request.Rewritten lib
  · obtain ⟨value, hvalue, hne⟩ := hrewritten
    have hread : lib.parseJson request.withoutHeaders.body = some value := hvalue
    rw [redactBody_of_value hread hne]
    exact .rewritten value hvalue hne rfl rfl
  · have hnot : ¬ request.withoutHeaders.Rewritten lib := hrewritten
    rw [redactBody_of_not hnot]
    exact .whole hrewritten rfl rfl

theorem Retained.not_rewritten {kept : CapturedRequest} (h : ReadsRequests lib numeral)
    (hkept : Retained lib request kept) : ¬ kept.Rewritten lib := by
  cases hkept with
  | whole hnot hbody _ => exact fun ⟨value, hvalue, hne⟩ => hnot ⟨value, hbody ▸ hvalue, hne⟩
  | rewritten value hvalue _ hbody _ => exact CapturedRequest.not_rewritten h hvalue hbody

theorem Retained.headers_redacted {kept : CapturedRequest} (hkept : Retained lib request kept) :
    kept.headers.map redactPair = kept.headers := by
  have hmember : ∀ header ∈ kept.headers, ∃ pair, header = redactPair pair := by
    intro header hm
    cases hkept with
    | whole _ _ hheaders =>
      rw [hheaders] at hm
      obtain ⟨pair, -, rfl⟩ := List.mem_map.mp hm
      exact ⟨pair, rfl⟩
    | rewritten _ _ _ _ hheaders =>
      rw [hheaders] at hm
      obtain ⟨pair, -, rfl⟩ := List.mem_map.mp (List.mem_filter.mp hm).1
      exact ⟨pair, rfl⟩
  refine (List.map_congr_left fun header hm => ?_).trans (List.map_id' _)
  obtain ⟨pair, rfl⟩ := hmember header hm
  exact redactPair_redactPair pair

theorem withoutCredentials_again (h : ReadsRequests lib numeral) (request : CapturedRequest) :
    (request.withoutCredentials lib).withoutCredentials lib = request.withoutCredentials lib := by
  have hkept := withoutCredentials_retained lib request
  have hheaders : (request.withoutCredentials lib).withoutHeaders =
      request.withoutCredentials lib := by
    rw [withoutHeaders, hkept.headers_redacted]
  show ((request.withoutCredentials lib).withoutHeaders.redactBody lib).redactQuery lib = _
  rw [hheaders, redactBody_of_not (hkept.not_rewritten h)]
  exact redactQuery_again h (request.withoutHeaders.redactBody lib) _ rfl

/-- A body the parser accepts, with no member named twice, keeps no credential, and all the
rest where it is written anew. -/
theorem withoutCredentials_body (h : ReadsRequests lib numeral) (request : CapturedRequest)
    {tree : JsonTree} (htext : IsText tree request.body) (hdistinct : tree.Distinct)
    (haccepted : (lib.parseJson request.body).isSome = true) :
    ∃ kept, IsText kept (request.withoutCredentials lib).body ∧ kept.Clean ∧
      (kept = tree ∨ JsonTree.Keeps numeral tree kept) := by
  obtain ⟨value, hvalue⟩ := Option.isSome_iff_exists.mp haccepted
  obtain ⟨tree', htext', hmade⟩ := h.json _ _ hvalue
  obtain rfl := htext.unique htext'
  cases withoutCredentials_retained lib request with
  | whole hnot hbody _ =>
    have hclean : value.tree.Clean := by
      by_contra hne
      exact hnot (rewritten_iff.mpr ⟨value, hvalue, hne⟩)
    exact ⟨tree, hbody ▸ htext, JsonTree.clean_of_collapse tree hdistinct hmade hclean, .inl rfl⟩
  | rewritten value' hvalue' _ hbody _ =>
    obtain rfl := Option.some.inj (hvalue'.symm.trans hvalue)
    have hwritten := JsonValue.redact_written value'
      (JsonTree.collapse_written h.number tree hmade)
    exact ⟨(redact value').tree, hbody ▸ JsonValue.isText_render hwritten,
      JsonValue.clean_redact value', .inr (JsonTree.keeps_redact tree hdistinct hmade)⟩

end

end CapturedRequest

/-- What is retained of a captured request: its headers, those of credentials redacted and,
where the body is written anew, without its length; of a body the parser accepts, with no
member named twice, a text that holds no credential and everything else; a body in which
the parser finds no credential as it is; every query pair, those of credentials redacted.
Redacted again, it stays as it is. -/
theorem credentials_removed {lib : ExpressionLibrary} {numeral : List Char → Option String}
    (h : ReadsRequests lib numeral) (request : CapturedRequest) :
    (∀ header ∈ (request.withoutCredentials lib).headers,
      sensitive header.1 = true → header.2 = redactedText) ∧
    (request.Rewritten lib ↔
      ∃ value, lib.parseJson request.body = some value ∧ ¬ value.tree.Clean) ∧
    (request.Rewritten lib → (request.withoutCredentials lib).headers =
      (request.headers.map redactPair).filter (·.1 ≠ "content-length")) ∧
    (¬ request.Rewritten lib →
      (request.withoutCredentials lib).headers = request.headers.map redactPair) ∧
    (∀ tree, IsText tree request.body → tree.Distinct →
      (lib.parseJson request.body).isSome = true →
      ∃ kept, IsText kept (request.withoutCredentials lib).body ∧ kept.Clean ∧
        (kept = tree ∨ JsonTree.Keeps numeral tree kept)) ∧
    (¬ request.Rewritten lib → (request.withoutCredentials lib).body = request.body) ∧
    lib.queryPairs (request.withoutCredentials lib).url =
      (lib.queryPairs request.url).map redactPair ∧
    (request.withoutCredentials lib).withoutCredentials lib = request.withoutCredentials lib := by
  have hkept := CapturedRequest.withoutCredentials_retained lib request
  refine ⟨fun header hm hsensitive => ?_, CapturedRequest.rewritten_iff, fun hrewritten => ?_,
    fun hnot => ?_, fun tree htext hdistinct haccepted =>
    CapturedRequest.withoutCredentials_body h request htext hdistinct haccepted, fun hnot => ?_, ?_,
    CapturedRequest.withoutCredentials_again h request⟩
  · rw [← hkept.headers_redacted] at hm
    obtain ⟨pair, -, rfl⟩ := List.mem_map.mp hm
    exact if_pos hsensitive
  · cases hkept with
    | whole hnot _ _ => exact absurd hrewritten hnot
    | rewritten value _ _ _ hheaders => exact hheaders
  · cases hkept with
    | whole _ _ hheaders => exact hheaders
    | rewritten value hvalue hne _ _ => exact absurd ⟨value, hvalue, hne⟩ hnot
  · cases hkept with
    | whole _ hbody _ => exact hbody
    | rewritten value hvalue hne _ _ => exact absurd ⟨value, hvalue, hne⟩ hnot
  · have hpairs := CapturedRequest.redactQuery_pairs h (request.withoutHeaders.redactBody lib)
    rwa [CapturedRequest.redactBody_url] at hpairs

namespace TokenBody

def body : JsonValue := .object [("id", .number "1"), ("access_token", .string "x")]
def parsed : JsonValue := .object [("access_token", .string "x"), ("id", .number "1")]

def numeral (chars : List Char) : Option String := if chars = ['1'] then some "1" else none

def base (url : String) : List Char := url.toList.takeWhile (· ≠ '?')

/-- A parser that knows one body, and URLs without fragments. -/
def library : ExpressionLibrary := { FormText.library with
  parseJson := fun bytes => if bytes = utf8 body.render then some parsed else none
  withQuery := fun pairs url => .ofList (match pairs with
    | some pairs => base url ++ '?' :: (Eval.serializePairs pairs).toList
    | none => base url) }

theorem splitOnce_base (url : String) (rest : List Char) :
    Text.splitOnce '?' (base url ++ '?' :: rest) = some (base url, rest) :=
  Text.splitOnce_some.mpr ⟨rfl, fun hm => by simpa using List.mem_takeWhile_imp hm⟩

theorem base_withQuery (url : String) (rest : List Char) :
    base (.ofList (base url ++ '?' :: rest)) = base url := by
  rw [base, String.toList_ofList, List.takeWhile_append_of_pos]
  · simp [base]
  · intro c hc
    exact List.mem_takeWhile_imp (l := url.toList) hc

theorem library_withQuery (pairs : List (String × String)) (url : String) :
    library.withQuery (some pairs) url =
      .ofList (base url ++ '?' :: (Eval.serializePairs pairs).toList) := rfl

theorem library_queryPairs (url : String) : library.queryPairs url =
    FormText.read (((Text.splitOnce '?' url.toList).map
      fun (_, query) => String.ofList query).getD "") := rfl

theorem body_written : body.Written := by
  have hdigits : Digits ['1'] := ⟨by simp, fun c hc => by rw [List.mem_singleton.mp hc]; rfl⟩
  have hnumber : IsNumber ['1'] :=
    ⟨[], ['1'], [], [], rfl, .inl rfl, .inr ⟨hdigits, by simp⟩, .inl rfl, .inl rfl⟩
  exact ⟨hnumber, trivial, trivial⟩

theorem body_collapses : body.tree.collapse numeral = some parsed := by decide +kernel

theorem library_reads : ReadsRequests library numeral where
  number chars text h := by
    rw [numeral] at h
    split at h
    · cases h
      exact body_written.1
    · cases h
  json bytes value h := by
    have hbytes : (if bytes = utf8 body.render then some parsed else none) = some value := h
    split at hbytes
    · rename_i heq
      cases hbytes
      exact ⟨body.tree, heq ▸ JsonValue.isText_render body_written, body_collapses⟩
    · cases hbytes
  pairs pairs url := by
    rw [library_withQuery, library_queryPairs, String.toList_ofList, splitOnce_base,
      Option.map_some, Option.getD_some]
    show FormText.read (String.ofList (Eval.serializePairs pairs).toList) = pairs
    rw [String.ofList_toList, FormText.read_serializePairs]
  again pairs url := by
    rw [library_withQuery, library_withQuery, base_withQuery]

def request : CapturedRequest :=
  ⟨"POST", "https://hook.example/in?access_token=s&b=2",
    [("content-length", "30"), ("authorization", "Bearer s")], utf8 body.render, "192.0.2.1", 0⟩

theorem token_removed :
    (∃ kept, IsText kept (request.withoutCredentials library).body ∧ kept.Clean ∧
      (kept = body.tree ∨ JsonTree.Keeps numeral body.tree kept)) ∧
    (request.withoutCredentials library).withoutCredentials library =
      request.withoutCredentials library := by
  obtain ⟨-, -, -, -, hbody, -, -, hagain⟩ := credentials_removed library_reads request
  refine ⟨hbody body.tree (JsonValue.isText_render body_written) ?_ (by decide +kernel), hagain⟩
  exact ⟨by decide +kernel, trivial, trivial, trivial⟩

/-- A header of no credential is dropped. -/
theorem length_dropped : ("content-length", "30") ∈ request.headers ∧
    sensitive "content-length" = false ∧
    ∀ value, ("content-length", value) ∉ (request.withoutCredentials library).headers := by
  have hkept : (request.withoutCredentials library).headers =
      [("authorization", "[REDACTED]")] := by decide +kernel
  refine ⟨by decide, by decide, fun value hm => ?_⟩
  rw [hkept, List.mem_singleton] at hm
  exact absurd (Prod.mk.inj hm).1 (by decide)

end TokenBody

end SiliconHook
