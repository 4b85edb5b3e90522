import SiliconHook.Properties.Candidates
import SiliconHook.Library.Result

/-!
# The order of JSON members

A JSON text is read in one way, so a value whose members go through a map keyed by
name is written in the order it holds them exactly where the names ascend.
-/

namespace SiliconHook

open Encoding Json

-- -----------------------------------------------------------------------------
-- One reading of a text
-- -----------------------------------------------------------------------------

namespace JsonValue

mutual

def Numeric : JsonValue → Prop
  | .null | .bool _ | .string _ => True
  | .number numeral => numeral ≠ "" ∧ ∀ c ∈ numeral.toList, isNumeral c = true
  | .array values => NumericAll values
  | .object members => NumericMembers members

def NumericAll : List JsonValue → Prop
  | [] => True
  | value :: rest => value.Numeric ∧ NumericAll rest

def NumericMembers : List (String × JsonValue) → Prop
  | [] => True
  | (_, value) :: rest => value.Numeric ∧ NumericMembers rest

end

theorem numericAll_iff {values : List JsonValue} :
    NumericAll values ↔ ∀ value ∈ values, value.Numeric := by
  induction values with
  | nil => simp [NumericAll]
  | cons value rest ih => simp [NumericAll, ih]

theorem numericMembers_iff {members : List (String × JsonValue)} :
    NumericMembers members ↔ ∀ member ∈ members, member.2.Numeric := by
  induction members with
  | nil => simp [NumericMembers]
  | cons member rest ih => simp [NumericMembers, ih]

def memberText (member : String × JsonValue) : List Char :=
  (quote member.1).toList ++ ':' :: member.2.render.toList

theorem render_array (values : List JsonValue) : (render (.array values)).toList =
    '[' :: separated ']' (values.map fun value => value.render.toList) := by
  have hall : ∀ values, (renderAll values).map String.toList =
      values.map fun value => value.render.toList := by
    intro values
    induction values with
    | nil => rfl
    | cons value rest ih => rw [renderAll, List.map_cons, List.map_cons, ih]
  rw [← intercalate_separated, ← hall]
  simp [render]

theorem render_object (members : List (String × JsonValue)) : (render (.object members)).toList =
    '\x7b' :: separated '\x7d' (members.map memberText) := by
  have hall : ∀ members, (renderMembers members).map String.toList = members.map memberText := by
    intro members
    induction members with
    | nil => rfl
    | cons member rest ih =>
      rw [renderMembers, List.map_cons, List.map_cons, ih]
      simp [memberText]
  rw [← intercalate_separated, ← hall]
  simp [render]

def Starts : JsonValue → Char → Prop
  | .null, c => c = 'n'
  | .bool _, c => c = 't' ∨ c = 'f'
  | .number _, c => isNumeral c = true
  | .string _, c => c = '"'
  | .array _, c => c = '['
  | .object _, c => c = '\x7b'

theorem render_starts {value : JsonValue} (h : value.Numeric) :
    ∃ c rest, value.render.toList = c :: rest ∧ value.Starts c := by
  cases value with
  | null => exact ⟨'n', "ull".toList, rfl, rfl⟩
  | bool b =>
    cases b with
    | true => exact ⟨'t', "rue".toList, rfl, .inl rfl⟩
    | false => exact ⟨'f', "alse".toList, rfl, .inr rfl⟩
  | number numeral =>
    cases hchars : numeral.toList with
    | nil => exact absurd (String.toList_inj.mp hchars) h.1
    | cons c rest => exact ⟨c, rest, hchars, h.2 c (hchars ▸ List.mem_cons_self)⟩
  | string value => exact ⟨'"', _, quote_toList value, rfl⟩
  | array values => exact ⟨'[', _, render_array values, rfl⟩
  | object members => exact ⟨'\x7b', _, render_object members, rfl⟩

/-- The text of a value, before anything that ends a number, is no other value's. -/
def Readable (value : JsonValue) : Prop :=
  ∀ other rest rest', value.Numeric → other.Numeric → Ends rest → Ends rest' →
    value.render.toList ++ rest = other.render.toList ++ rest' → value = other ∧ rest = rest'

theorem starts_same {value other : JsonValue} {rest rest' : List Char} (h : value.Numeric)
    (h' : other.Numeric) (heq : value.render.toList ++ rest = other.render.toList ++ rest') :
    ∃ c, value.Starts c ∧ other.Starts c := by
  obtain ⟨c, _, htext, hstarts⟩ := render_starts h
  obtain ⟨d, _, htext', hstarts'⟩ := render_starts h'
  rw [htext, htext', List.cons_append, List.cons_append] at heq
  exact ⟨c, hstarts, (List.cons.inj heq).1 ▸ hstarts'⟩

theorem memberText_ne_close {member : String × JsonValue} (rest : List Char) :
    (memberText member ++ rest).head? ≠ some '\x7d' := by
  rw [memberText, quote_toList]
  simp

theorem render_ne_close {value : JsonValue} (h : value.Numeric) (rest : List Char) :
    (value.render.toList ++ rest).head? ≠ some ']' := by
  obtain ⟨c, more, htext, hstarts⟩ := render_starts h
  rw [htext, List.cons_append, List.head?_cons]
  rintro hclose
  cases hclose
  cases value <;> simp [Starts] at hstarts
  cases hstarts

mutual

theorem readable : ∀ value : JsonValue, value.Readable
  | .null => by
    intro other rest rest' h h' _ _ heq
    obtain ⟨c, hc, hc'⟩ := starts_same h h' heq
    obtain rfl : c = 'n' := hc
    cases other with
    | null => exact ⟨rfl, List.append_cancel_left heq⟩
    | bool => simp [Starts] at hc'
    | _ => cases hc'
  | .bool b => by
    intro other rest rest' h h' _ _ heq
    obtain ⟨c, hc, hc'⟩ := starts_same h h' heq
    cases other with
    | bool b' =>
      cases b <;> cases b'
      · exact ⟨rfl, List.append_cancel_left heq⟩
      · exact absurd (List.cons.inj heq).1 (by decide)
      · exact absurd (List.cons.inj heq).1 (by decide)
      · exact ⟨rfl, List.append_cancel_left heq⟩
    | _ => obtain rfl | rfl := hc <;> cases hc'
  | .number numeral => by
    intro other rest rest' h h' hends hends' heq
    obtain ⟨c, hc, hc'⟩ := starts_same h h' heq
    cases other with
    | number numeral' =>
      obtain ⟨hnumeral, hrest⟩ := Json.numeral_inj h.2 h'.2 hends hends' heq
      exact ⟨congrArg _ (String.toList_inj.mp hnumeral), hrest⟩
    | bool => obtain rfl | rfl := hc' <;> cases hc
    | _ =>
      obtain rfl := hc'
      cases hc
  | .string text => by
    intro other rest rest' h h' _ _ heq
    obtain ⟨c, hc, hc'⟩ := starts_same h h' heq
    obtain rfl : c = '"' := hc
    cases other with
    | string text' =>
      obtain ⟨rfl, hrest⟩ := quote_inj heq
      exact ⟨rfl, hrest⟩
    | bool => simp [Starts] at hc'
    | _ => cases hc'
  | .array values => by
    intro other rest rest' h h' _ _ heq
    obtain ⟨c, hc, hc'⟩ := starts_same h h' heq
    obtain rfl : c = '[' := hc
    cases other with
    | array values' =>
      rw [render_array, render_array] at heq
      have hnumeric := numericAll_iff.mp h
      have hnumeric' := numericAll_iff.mp h'
      obtain ⟨rfl, hrest⟩ := separated_inj rfl (by decide)
        (fun x hx y hy s t hs ht hxy =>
          readableAll values x hx y s t (hnumeric x hx) (hnumeric' y hy) hs ht hxy)
        (fun x rest hx => render_ne_close (hx.elim (hnumeric x) (hnumeric' x)) rest)
        (List.cons.inj heq).2
      exact ⟨rfl, hrest⟩
    | bool => simp [Starts] at hc'
    | _ => cases hc'
  | .object members => by
    intro other rest rest' h h' _ _ heq
    obtain ⟨c, hc, hc'⟩ := starts_same h h' heq
    obtain rfl : c = '\x7b' := hc
    cases other with
    | object members' =>
      rw [render_object, render_object] at heq
      have hnumeric := numericMembers_iff.mp h
      have hnumeric' := numericMembers_iff.mp h'
      obtain ⟨rfl, hrest⟩ := separated_inj rfl (by decide)
        (fun x hx y hy s t hs ht hxy => by
          rw [memberText, memberText, List.append_assoc, List.append_assoc] at hxy
          obtain ⟨hname, hcolon⟩ := quote_inj hxy
          obtain ⟨hvalue, htail⟩ := readableMembers members x hx y.2 s t (hnumeric x hx)
            (hnumeric' y hy) hs ht (List.cons.inj hcolon).2
          exact ⟨Prod.ext hname hvalue, htail⟩)
        (fun x rest _ => memberText_ne_close rest) (List.cons.inj heq).2
      exact ⟨rfl, hrest⟩
    | bool => simp [Starts] at hc'
    | _ => cases hc'

theorem readableAll : ∀ values : List JsonValue, ∀ value ∈ values, value.Readable
  | [], _, hm => nomatch hm
  | value :: rest, other, hm => by
    have hvalue := readable value
    have hrest := readableAll rest
    obtain rfl | hm := List.mem_cons.mp hm
    · exact hvalue
    · exact hrest other hm

theorem readableMembers : ∀ members : List (String × JsonValue), ∀ member ∈ members,
    member.2.Readable
  | [], _, hm => nomatch hm
  | (name, value) :: rest, other, hm => by
    have hvalue := readable value
    have hrest := readableMembers rest
    obtain rfl | hm := List.mem_cons.mp hm
    · exact hvalue
    · exact hrest other hm

end

theorem render_inj {value other : JsonValue} (h : value.Numeric) (h' : other.Numeric)
    (heq : value.render = other.render) : value = other := by
  have hends : Ends [] := by simp [Ends]
  exact (readable value other [] [] h h' hends hends (by rw [heq])).1

end JsonValue

-- -----------------------------------------------------------------------------
-- What a value holds
-- -----------------------------------------------------------------------------

namespace Value

@[elab_as_elim]
theorem nested {P : Value → Prop} (null : P .null) (bool : ∀ b, P (.bool b))
    (number : ∀ numeral, P (.number numeral)) (text : ∀ value, P (.text value))
    (bytes : ∀ value, P (.bytes value)) (list : ∀ values, (∀ value ∈ values, P value) →
      P (.list values))
    (object : ∀ members, (∀ member ∈ members, P member.2) → P (.object members))
    (value : Value) : P value :=
  @Value.rec P (fun values => ∀ value ∈ values, P value)
    (fun members => ∀ member ∈ members, P member.2) (fun member => P member.2)
    null bool number text bytes list object (List.forall_mem_nil _)
    (fun _ _ hvalue hrest _ hm => (List.mem_cons.mp hm).elim (fun h => h ▸ hvalue) (hrest _))
    (List.forall_mem_nil _)
    (fun _ _ hmember hrest _ hm => (List.mem_cons.mp hm).elim (fun h => h ▸ hmember) (hrest _))
    (fun _ _ hvalue => hvalue) value

mutual

def Each (p : Value → Prop) : Value → Prop
  | .list values => p (.list values) ∧ EachAll p values
  | .object members => p (.object members) ∧ EachMember p members
  | value => p value

def EachAll (p : Value → Prop) : List Value → Prop
  | [] => True
  | value :: rest => Each p value ∧ EachAll p rest

def EachMember (p : Value → Prop) : List (String × Value) → Prop
  | [] => True
  | (_, value) :: rest => Each p value ∧ EachMember p rest

end

def NameLt (a b : String) : Prop := bytesLe (utf8 a) (utf8 b) = true ∧ a ≠ b

/-- Bytes, where there are any, are text. -/
def HoldsText : Value → Prop
  | .bytes value => (fromUtf8 value).isSome = true
  | _ => True

/-- A number, where there is one, is written as numbers are. -/
def HoldsNumber : Value → Prop
  | .number numeral => numeral ≠ "" ∧ ∀ c ∈ numeral.toList, isNumeral c = true
  | _ => True

/-- Members, where there are any, stand in the order of their names, no name twice. -/
def HoldsAscending : Value → Prop
  | .object members => (members.map Prod.fst).Pairwise NameLt
  | _ => True

mutual

/-- Into JSON with every member where the value holds it. -/
def inOrder : Value → Except ValueError JsonValue
  | .list values => .array <$> inOrderAll values
  | .object members => .object <$> inOrderMembers members
  | value => value.toJson

def inOrderAll : List Value → Except ValueError (List JsonValue)
  | [] => .ok []
  | value :: rest => do return (← inOrder value) :: (← inOrderAll rest)

def inOrderMembers : List (String × Value) → Except ValueError (List (String × JsonValue))
  | [] => .ok []
  | (name, value) :: rest => do return (name, ← inOrder value) :: (← inOrderMembers rest)

end

section

variable {p : Value → Prop} {values : List Value} {members : List (String × Value)}

theorem eachAll_iff : EachAll p values ↔ ∀ value ∈ values, value.Each p := by
  induction values with
  | nil => simp [EachAll]
  | cons value rest ih => simp [EachAll, ih]

theorem eachMember_iff : EachMember p members ↔ ∀ member ∈ members, member.2.Each p := by
  induction members with
  | nil => simp [EachMember]
  | cons member rest ih => simp [EachMember, ih]

def namedM (f : Value → Except ValueError JsonValue) (members : List (String × Value)) :
    Except ValueError (List (String × JsonValue)) :=
  members.mapM fun member => (member.1, ·) <$> f member.2

theorem toJsonAll_eq : toJsonAll values = values.mapM toJson := by
  induction values with
  | nil => rfl
  | cons value rest ih => rw [toJsonAll, List.mapM_cons, ih]

theorem inOrderAll_eq : inOrderAll values = values.mapM inOrder := by
  induction values with
  | nil => rfl
  | cons value rest ih => rw [inOrderAll, List.mapM_cons, ih]

theorem inOrderMembers_eq : inOrderMembers members = namedM inOrder members := by
  induction members with
  | nil => rfl
  | cons member rest ih =>
    rw [inOrderMembers, namedM, List.mapM_cons, ih]
    cases inOrder member.2 <;> rfl

-- -----------------------------------------------------------------------------
-- The map the members go through
-- -----------------------------------------------------------------------------

theorem bytesLe_iff {a b : List UInt8} : bytesLe a b = true ↔ a ≤ b := decide_eq_true_iff

theorem NameLt.trans {a b c : String} (h : NameLt a b) (h' : NameLt b c) : NameLt a c := by
  have hab := bytesLe_iff.mp h.1
  have hbc := bytesLe_iff.mp h'.1
  refine ⟨bytesLe_iff.mpr (List.le_trans hab hbc), ?_⟩
  rintro rfl
  exact h.2 (utf8_inj (List.le_antisymm hab hbc))

theorem NameLt.of_not_le {a b : String} (hne : a ≠ b) (h : ¬ bytesLe (utf8 a) (utf8 b) = true) :
    NameLt b a := by
  refine ⟨bytesLe_iff.mpr ?_, hne.symm⟩
  exact (List.le_total (utf8 a) (utf8 b)).resolve_left fun hle => h (bytesLe_iff.mpr hle)

theorem NameLt.asymm {a b : String} (h : NameLt a b) : ¬ NameLt b a :=
  fun h' => h.2 (utf8_inj (List.le_antisymm (bytesLe_iff.mp h.1) (bytesLe_iff.mp h'.1)))

def Sorted (map : List (String × JsonValue)) : Prop := (map.map Prod.fst).Pairwise NameLt

theorem mem_insertMember {name : String} {json : JsonValue} {map : List (String × JsonValue)}
    {member : String × JsonValue} (h : member ∈ JsonValue.insertMember name json map) :
    member = (name, json) ∨ member ∈ map := by
  induction map with
  | nil => exact .inl (List.mem_singleton.mp h)
  | cons stored rest ih =>
    obtain ⟨other, kept⟩ := stored
    rw [JsonValue.insertMember] at h
    split at h
    · exact (List.mem_cons.mp h).imp_right (List.mem_cons_of_mem _)
    · split at h
      · exact List.mem_cons.mp h
      · rcases List.mem_cons.mp h with rfl | h
        · exact .inr List.mem_cons_self
        · exact (ih h).imp_right (List.mem_cons_of_mem _)

theorem sorted_insertMember {name : String} {json : JsonValue} {map : List (String × JsonValue)}
    (h : Sorted map) : Sorted (JsonValue.insertMember name json map) := by
  induction map with
  | nil => exact List.pairwise_singleton ..
  | cons stored rest ih =>
    obtain ⟨other, kept⟩ := stored
    obtain ⟨hfirst, hrest⟩ := List.pairwise_cons.mp h
    rw [JsonValue.insertMember]
    split
    · rename_i hsame
      subst hsame
      exact h
    · rename_i hne
      split
      · rename_i hle
        refine List.pairwise_cons.mpr ⟨fun later hm => ?_, h⟩
        rcases List.mem_cons.mp hm with rfl | hm
        · exact ⟨hle, hne⟩
        · exact NameLt.trans ⟨hle, hne⟩ (hfirst later hm)
      · rename_i hle
        refine List.pairwise_cons.mpr ⟨fun later hm => ?_, ih hrest⟩
        obtain ⟨member, hmember, rfl⟩ := List.mem_map.mp hm
        rcases mem_insertMember hmember with rfl | hkept
        · exact NameLt.of_not_le hne hle
        · exact hfirst _ (List.mem_map_of_mem hkept)

theorem insertMember_last {name : String} {json : JsonValue} {map : List (String × JsonValue)}
    (h : ∀ member ∈ map, NameLt member.1 name) :
    JsonValue.insertMember name json map = map ++ [(name, json)] := by
  induction map with
  | nil => rfl
  | cons stored rest ih =>
    obtain ⟨other, kept⟩ := stored
    have hlt : NameLt other name := h _ List.mem_cons_self
    have hle : ¬ bytesLe (utf8 name) (utf8 other) = true :=
      fun hle => hlt.asymm ⟨hle, hlt.2.symm⟩
    rw [JsonValue.insertMember, if_neg hlt.2.symm, if_neg hle,
      ih fun member hm => h member (List.mem_cons_of_mem _ hm), List.cons_append]

theorem toJsonMembers_sorted {map result : List (String × JsonValue)} (hmap : Sorted map)
    (h : toJsonMembers members map = .ok result) : Sorted result := by
  induction members generalizing map with
  | nil =>
    cases h
    exact hmap
  | cons member rest ih =>
    obtain ⟨json, -, hrest⟩ := Except.bind_ok.mp h
    exact ih (sorted_insertMember hmap) hrest

theorem toJsonMembers_ascending {map : List (String × JsonValue)}
    (h : (map.map Prod.fst ++ members.map Prod.fst).Pairwise NameLt) :
    toJsonMembers members map = (map ++ ·) <$> namedM toJson members := by
  induction members generalizing map with
  | nil =>
    rw [toJsonMembers]
    exact congrArg Except.ok (List.append_nil map).symm
  | cons member rest ih =>
    obtain ⟨name, value⟩ := member
    rw [toJsonMembers, namedM, List.mapM_cons]
    cases value.toJson with
    | error e => rfl
    | ok json =>
      have hlast : JsonValue.insertMember name json map = map ++ [(name, json)] := by
        refine insertMember_last fun earlier hm => ?_
        exact (List.pairwise_append.mp h).2.2 _ (List.mem_map_of_mem hm) _ List.mem_cons_self
      have hnames : ((map ++ [(name, json)]).map Prod.fst ++ rest.map Prod.fst).Pairwise NameLt := by
        simpa using h
      show toJsonMembers rest (JsonValue.insertMember name json map) = _
      rw [hlast, ih hnames]
      show _ = (map ++ ·) <$> ((fun more => (name, json) :: more) <$> namedM toJson rest)
      cases namedM toJson rest with
      | error e => rfl
      | ok more => exact congrArg Except.ok (List.append_assoc ..)

end

-- -----------------------------------------------------------------------------
-- Where the two conversions agree
-- -----------------------------------------------------------------------------

theorem each_list {p : Value → Prop} {values : List Value} :
    (list values).Each p ↔ p (.list values) ∧ ∀ value ∈ values, value.Each p := by
  rw [Each, eachAll_iff]

theorem each_object {p : Value → Prop} {members : List (String × Value)} :
    (object members).Each p ↔ p (.object members) ∧ ∀ member ∈ members, member.2.Each p := by
  rw [Each, eachMember_iff]

theorem toJson_list (values : List Value) :
    (list values).toJson = .array <$> values.mapM toJson := by
  rw [toJson, toJsonAll_eq]

theorem inOrder_list (values : List Value) :
    (list values).inOrder = .array <$> values.mapM inOrder := by
  rw [inOrder, inOrderAll_eq]

theorem inOrder_object (members : List (String × Value)) :
    (object members).inOrder = .object <$> namedM inOrder members := by
  rw [inOrder, inOrderMembers_eq]

theorem namedM_answers {f : Value → Except ValueError JsonValue}
    {members : List (String × Value)} (h : ∀ member ∈ members, ∃ json, f member.2 = .ok json) :
    ∀ member ∈ members, ∃ named, ((member.1, ·) <$> f member.2 : Except ValueError _) = .ok named := by
  intro member hm
  obtain ⟨json, hjson⟩ := h member hm
  exact ⟨(member.1, json), by rw [hjson]; rfl⟩

theorem toJsonMembers_answers {members : List (String × Value)} (map : List (String × JsonValue)) :
    (∃ result, toJsonMembers members map = .ok result) ↔
      ∀ member ∈ members, ∃ json, member.2.toJson = .ok json := by
  induction members generalizing map with
  | nil => exact iff_of_true ⟨map, rfl⟩ (List.forall_mem_nil _)
  | cons member rest ih =>
    rw [List.forall_mem_cons]
    constructor
    · rintro ⟨result, hresult⟩
      obtain ⟨json, hjson, hrest⟩ := Except.bind_ok.mp hresult
      exact ⟨⟨json, hjson⟩, (ih _).mp ⟨result, hrest⟩⟩
    · rintro ⟨⟨json, hjson⟩, hrest⟩
      obtain ⟨result, hresult⟩ := (ih (JsonValue.insertMember member.1 json map)).mpr hrest
      exact ⟨result, Except.bind_ok.mpr ⟨json, hjson, hresult⟩⟩

theorem json_answers (value : Value) (h : value.Each HoldsText) :
    (∃ json, value.toJson = .ok json) ∧ ∃ json, value.inOrder = .ok json := by
  induction value using nested with
  | null => exact ⟨⟨_, rfl⟩, ⟨_, rfl⟩⟩
  | bool => exact ⟨⟨_, rfl⟩, ⟨_, rfl⟩⟩
  | number => exact ⟨⟨_, rfl⟩, ⟨_, rfl⟩⟩
  | text => exact ⟨⟨_, rfl⟩, ⟨_, rfl⟩⟩
  | bytes value =>
    obtain ⟨text, htext⟩ := Option.isSome_iff_exists.mp h
    have hjson : (bytes value).toJson = .ok (.string text) := by rw [toJson, htext]
    exact ⟨⟨_, hjson⟩, ⟨_, hjson⟩⟩
  | list values ih =>
    have hvalues := (each_list.mp h).2
    obtain ⟨jsons, hjsons⟩ := Except.mapM_answers.mpr fun value hm => (ih value hm (hvalues value hm)).1
    obtain ⟨ordered, hordered⟩ := Except.mapM_answers.mpr fun value hm => (ih value hm (hvalues value hm)).2
    rw [toJson_list, inOrder_list, hjsons, hordered]
    exact ⟨⟨_, rfl⟩, ⟨_, rfl⟩⟩
  | object members ih =>
    have hmembers := (each_object.mp h).2
    obtain ⟨map, hmap⟩ := (toJsonMembers_answers []).mpr
      fun member hm => (ih member hm (hmembers member hm)).1
    obtain ⟨ordered, hordered⟩ := Except.mapM_answers.mpr (namedM_answers fun member hm =>
      (ih member hm (hmembers member hm)).2)
    rw [toJson, hmap, inOrder_object, namedM, hordered]
    exact ⟨⟨_, rfl⟩, ⟨_, rfl⟩⟩

theorem namedM_names {f : Value → Except ValueError JsonValue} {members : List (String × Value)}
    {named : List (String × JsonValue)} (h : namedM f members = .ok named) :
    named.map Prod.fst = members.map Prod.fst := by
  induction members generalizing named with
  | nil =>
    cases h
    rfl
  | cons member rest ih =>
    rw [namedM, List.mapM_cons] at h
    obtain ⟨first, hfirst, h⟩ := Except.bind_ok.mp h
    obtain ⟨more, hmore, h⟩ := Except.bind_ok.mp h
    obtain ⟨json, -, rfl⟩ := Except.map_ok.mp hfirst
    cases h
    rw [List.map_cons, List.map_cons, ih hmore]

/-- The map keeps the order a value holds exactly where every name in it ascends. -/
theorem toJson_eq_inOrder_iff (value : Value) (h : value.Each HoldsText) :
    value.toJson = value.inOrder ↔ value.Each HoldsAscending := by
  induction value using nested with
  | null | bool | number | text => exact iff_of_true rfl trivial
  | bytes => exact iff_of_true rfl trivial
  | list values ih =>
    have hvalues := (each_list.mp h).2
    rw [toJson_list, inOrder_list, each_list, Except.map_inj fun _ _ => JsonValue.array.inj,
      Except.mapM_eq_iff (fun value hm => (json_answers value (hvalues value hm)).1)
        (fun value hm => (json_answers value (hvalues value hm)).2)]
    constructor
    · exact fun hsame => ⟨trivial, fun value hm => (ih value hm (hvalues value hm)).mp (hsame value hm)⟩
    · exact fun heach value hm => (ih value hm (hvalues value hm)).mpr (heach.2 value hm)
  | object members ih =>
    have hmembers := (each_object.mp h).2
    have hanswers := fun member hm => json_answers member.2 (hmembers member hm)
    have hnamed : namedM toJson members = namedM inOrder members ↔
        ∀ member ∈ members, member.2.Each HoldsAscending := by
      rw [namedM, namedM, Except.mapM_eq_iff (namedM_answers fun member hm => (hanswers member hm).1)
        (namedM_answers fun member hm => (hanswers member hm).2)]
      refine forall₂_congr fun member hm => ?_
      rw [Except.map_inj fun _ _ heq => (Prod.mk.inj heq).2]
      exact ih member hm (hmembers member hm)
    have hinserted : (members.map Prod.fst).Pairwise NameLt →
        toJsonMembers members [] = namedM toJson members := by
      intro hnames
      rw [toJsonMembers_ascending (show (List.map Prod.fst [] ++ _).Pairwise NameLt from hnames)]
      cases namedM toJson members <;> rfl
    rw [toJson, inOrder_object, each_object, Except.map_inj fun _ _ => JsonValue.object.inj, ← hnamed]
    constructor
    · intro hsame
      obtain ⟨map, hmap⟩ := (toJsonMembers_answers []).mpr fun member hm => (hanswers member hm).1
      have hnames : (members.map Prod.fst).Pairwise NameLt := by
        rw [← namedM_names (hsame.symm.trans hmap)]
        exact toJsonMembers_sorted (show Sorted [] from List.Pairwise.nil) hmap
      exact ⟨hnames, (hinserted hnames).symm.trans hsame⟩
    · rintro ⟨hnames, hsame⟩
      exact (hinserted hnames).trans hsame

-- -----------------------------------------------------------------------------
-- Numbers
-- -----------------------------------------------------------------------------

theorem insertMember_numeric {name : String} {json : JsonValue}
    {map : List (String × JsonValue)} (hjson : json.Numeric)
    (hmap : ∀ member ∈ map, member.2.Numeric) :
    ∀ member ∈ JsonValue.insertMember name json map, member.2.Numeric := by
  intro member hm
  rcases mem_insertMember hm with rfl | hm
  · exact hjson
  · exact hmap member hm

theorem toJsonMembers_numeric {members : List (String × Value)}
    {map result : List (String × JsonValue)}
    (h : ∀ member ∈ members, ∀ json, member.2.toJson = .ok json → json.Numeric)
    (hmap : ∀ member ∈ map, member.2.Numeric) (hresult : toJsonMembers members map = .ok result) :
    ∀ member ∈ result, member.2.Numeric := by
  induction members generalizing map with
  | nil =>
    cases hresult
    exact hmap
  | cons member rest ih =>
    obtain ⟨json, hjson, hrest⟩ := Except.bind_ok.mp hresult
    refine ih (fun other hm => h other (List.mem_cons_of_mem _ hm)) ?_ hrest
    exact insertMember_numeric (h member List.mem_cons_self json hjson) hmap

theorem json_numeric (value : Value) (h : value.Each HoldsNumber) :
    (∀ json, value.toJson = .ok json → json.Numeric) ∧
      ∀ json, value.inOrder = .ok json → json.Numeric := by
  induction value using nested with
  | null => exact ⟨fun _ hj => by cases hj; trivial, fun _ hj => by cases hj; trivial⟩
  | bool => exact ⟨fun _ hj => by cases hj; trivial, fun _ hj => by cases hj; trivial⟩
  | text => exact ⟨fun _ hj => by cases hj; trivial, fun _ hj => by cases hj; trivial⟩
  | number => exact ⟨fun _ hj => by cases hj; exact h, fun _ hj => by cases hj; exact h⟩
  | bytes value =>
    have htext : ∀ json, (bytes value).toJson = .ok json → json.Numeric := by
      intro json hjson
      rw [toJson] at hjson
      split at hjson
      · cases hjson
      · cases hjson
        trivial
    exact ⟨htext, htext⟩
  | list values ih =>
    have hvalues := (each_list.mp h).2
    constructor
    · intro json hjson
      rw [toJson_list] at hjson
      obtain ⟨jsons, hjsons, rfl⟩ := Except.map_ok.mp hjson
      exact JsonValue.numericAll_iff.mpr
        (Except.mapM_all (fun value hm => (ih value hm (hvalues value hm)).1) hjsons)
    · intro json hjson
      rw [inOrder_list] at hjson
      obtain ⟨jsons, hjsons, rfl⟩ := Except.map_ok.mp hjson
      exact JsonValue.numericAll_iff.mpr
        (Except.mapM_all (fun value hm => (ih value hm (hvalues value hm)).2) hjsons)
  | object members ih =>
    have hmembers := (each_object.mp h).2
    constructor
    · intro json hjson
      rw [toJson] at hjson
      obtain ⟨map, hmap, rfl⟩ := Except.map_ok.mp hjson
      exact JsonValue.numericMembers_iff.mpr (toJsonMembers_numeric
        (fun member hm => (ih member hm (hmembers member hm)).1) (List.forall_mem_nil _) hmap)
    · intro json hjson
      rw [inOrder_object] at hjson
      obtain ⟨named, hnamed, rfl⟩ := Except.map_ok.mp hjson
      refine JsonValue.numericMembers_iff.mpr (Except.mapM_all (fun member hm found hfound => ?_) hnamed)
      obtain ⟨json, hjson, rfl⟩ := Except.map_ok.mp hfound
      exact (ih member hm (hmembers member hm)).2 json hjson

-- -----------------------------------------------------------------------------
-- Sorted members
-- -----------------------------------------------------------------------------

def HoldsDistinct : Value → Prop
  | .object members => (members.map Prod.fst).Nodup
  | _ => True

def InOrder (order : SortOrder) (members : List (String × Value)) : Prop :=
  members.Pairwise fun a b => Eval.ordered order (utf8 a.1) (utf8 b.1) = true

theorem ordered_total (order : SortOrder) (a b : List UInt8) :
    Eval.ordered order a b = true ∨ Eval.ordered order b a = true := by
  cases order
  · exact (List.le_total a b).imp bytesLe_iff.mpr bytesLe_iff.mpr
  · exact (List.le_total b a).imp bytesLe_iff.mpr bytesLe_iff.mpr

theorem ordered_trans {order : SortOrder} {a b c : List UInt8}
    (h : Eval.ordered order a b = true) (h' : Eval.ordered order b c = true) :
    Eval.ordered order a c = true := by
  cases order
  · exact bytesLe_iff.mpr (List.le_trans (bytesLe_iff.mp h) (bytesLe_iff.mp h'))
  · exact bytesLe_iff.mpr (List.le_trans (bytesLe_iff.mp h') (bytesLe_iff.mp h))

def sortedBy (order : SortOrder) (members : List (String × Value)) : List (String × Value) :=
  members.insertionSort fun a b => Eval.ordered order (utf8 a.1) (utf8 b.1)

theorem sortedBy_perm (order : SortOrder) (members : List (String × Value)) :
    (sortedBy order members).Perm members := List.perm_insertionSort _ _

theorem sortedBy_inOrder (order : SortOrder) (members : List (String × Value)) :
    InOrder order (sortedBy order members) := by
  let byName (a b : String × Value) : Prop := Eval.ordered order (utf8 a.1) (utf8 b.1) = true
  have : Std.Total byName := ⟨fun a b => ordered_total order _ _⟩
  have : IsTrans _ byName := ⟨fun a b c => ordered_trans⟩
  exact List.pairwise_insertionSort byName members

theorem sortedBy_ascending_iff (order : SortOrder) {members : List (String × Value)}
    (hdistinct : (members.map Prod.fst).Nodup) :
    ((sortedBy order members).map Prod.fst).Pairwise NameLt ↔
      order = .ascending ∨ members.length ≤ 1 := by
  have hsorted := sortedBy_inOrder order members
  have hnodup := ((sortedBy_perm order members).map Prod.fst).nodup_iff.mpr hdistinct
  have hne := List.pairwise_map.mp hnodup
  rw [List.pairwise_map, ← (sortedBy_perm order members).length_eq]
  cases order with
  | ascending => exact iff_of_true (hsorted.imp₂ (fun _ _ hle hne => ⟨hle, hne⟩) hne) (.inl rfl)
  | descending =>
    cases hmembers : sortedBy .descending members with
    | nil => simp
    | cons first more =>
      cases more with
      | nil => simp
      | cons second more =>
        rw [hmembers] at hsorted hne
        have hle := (List.pairwise_cons.mp hsorted).1 second List.mem_cons_self
        have hapart := (List.pairwise_cons.mp hne).1 second List.mem_cons_self
        refine iff_of_false (fun hasc => ?_) (by simp)
        exact ((List.pairwise_cons.mp hasc).1 second List.mem_cons_self).asymm ⟨hle, hapart.symm⟩

-- -----------------------------------------------------------------------------
-- What is encoded
-- -----------------------------------------------------------------------------

def encoded (lib : ExpressionLibrary) (value : Value) : Except EvalError Value :=
  Eval.applyFunction lib .jsonEncode none none [value]

/-- The text is that of the value with every member where the value holds it. -/
def KeepsOrder (value : Value) (text : String) : Prop :=
  ∃ json, value.inOrder = .ok json ∧ text = json.render

theorem encoded_ok {lib : ExpressionLibrary} {value : Value} {text : String} :
    encoded lib value = .ok (.text text) ↔ ∃ json, value.toJson = .ok json ∧ text = json.render := by
  show (fun json : JsonValue => Value.text json.render) <$> coerce _ _ value.toJson = _ ↔ _
  cases value.toJson <;> simp [coerce, eq_comm]

theorem toJson_answers_iff (value : Value) :
    (∃ json, value.toJson = .ok json) ↔ value.Each HoldsText := by
  refine ⟨?_, fun h => (json_answers value h).1⟩
  induction value using nested with
  | null | bool | number | text => exact fun _ => trivial
  | bytes value =>
    rintro ⟨json, hjson⟩
    rw [toJson] at hjson
    show (fromUtf8 value).isSome = true
    split at hjson
    · cases hjson
    · rename_i htext
      rw [htext]
      rfl
  | list values ih =>
    rintro ⟨json, hjson⟩
    rw [toJson_list] at hjson
    obtain ⟨jsons, hjsons, -⟩ := Except.map_ok.mp hjson
    refine each_list.mpr ⟨trivial, fun value hm => ih value hm ?_⟩
    exact Except.mapM_answers.mp ⟨jsons, hjsons⟩ value hm
  | object members ih =>
    rintro ⟨json, hjson⟩
    rw [toJson] at hjson
    obtain ⟨map, hmap, -⟩ := Except.map_ok.mp hjson
    refine each_object.mpr ⟨trivial, fun member hm => ih member hm ?_⟩
    exact (toJsonMembers_answers []).mp ⟨map, hmap⟩ member hm

theorem encoded_iff (lib : ExpressionLibrary) (value : Value) :
    (∃ text, encoded lib value = .ok (.text text)) ↔ value.Each HoldsText := by
  rw [← toJson_answers_iff]
  constructor
  · rintro ⟨text, htext⟩
    obtain ⟨json, hjson, -⟩ := encoded_ok.mp htext
    exact ⟨json, hjson⟩
  · rintro ⟨json, hjson⟩
    exact ⟨json.render, encoded_ok.mpr ⟨json, hjson, rfl⟩⟩

/-- An encoded value keeps its order exactly where every name in it ascends. -/
theorem keepsOrder_iff (lib : ExpressionLibrary) {value : Value} (h : value.Each HoldsNumber) :
    (∀ text, encoded lib value = .ok (.text text) → value.KeepsOrder text) ↔
      (value.Each HoldsText → value.Each HoldsAscending) := by
  rw [← toJson_answers_iff]
  constructor
  · rintro hkeeps ⟨json, hjson⟩
    have htext := (toJson_answers_iff value).mp ⟨json, hjson⟩
    obtain ⟨ordered, hordered, hrender⟩ := hkeeps json.render (encoded_ok.mpr ⟨json, hjson, rfl⟩)
    have hnumeric := json_numeric value h
    have hsame := JsonValue.render_inj (hnumeric.1 json hjson) (hnumeric.2 ordered hordered) hrender
    exact (toJson_eq_inOrder_iff value htext).mp (by rw [hjson, hordered, hsame])
  · intro hascending text hencoded
    obtain ⟨json, hjson, rfl⟩ := encoded_ok.mp hencoded
    have htext := (toJson_answers_iff value).mp ⟨json, hjson⟩
    have hsame := (toJson_eq_inOrder_iff value htext).mpr (hascending ⟨json, hjson⟩)
    exact ⟨json, hsame ▸ hjson, rfl⟩

def keysSorted (lib : ExpressionLibrary) (order : SortOrder) (value : Value) :
    Except EvalError Value :=
  Eval.applyFunction lib .sortKeys none (some order) [value]

theorem keysSorted_object (lib : ExpressionLibrary) (order : SortOrder)
    (members : List (String × Value)) :
    keysSorted lib order (.object members) = .ok (.object (sortedBy order members)) := rfl

theorem each_sortedBy {p : Value → Prop} {order : SortOrder} {members : List (String × Value)} :
    (∀ member ∈ sortedBy order members, member.2.Each p) ↔ ∀ member ∈ members, member.2.Each p :=
  forall_congr' fun _ => imp_congr_left (sortedBy_perm order members).mem_iff

/-- A value is encoded exactly where its bytes are text. What is encoded keeps the
order the value holds exactly where all names ascend; of an object with sorted
keys, where they are sorted ascending, or are one, and all names in its members
ascend. -/
theorem encoded_in_order_iff (lib : ExpressionLibrary) (value : Value)
    (h : value.Each HoldsNumber) :
    ((∃ text, encoded lib value = .ok (.text text)) ↔ value.Each HoldsText) ∧
    ((∀ text, encoded lib value = .ok (.text text) → value.KeepsOrder text) ↔
      (value.Each HoldsText → value.Each HoldsAscending)) ∧
    ∀ members order, value = .object members → value.Each HoldsDistinct →
      ∃ sorted, keysSorted lib order value = .ok (.object sorted) ∧ sorted.Perm members ∧
        InOrder order sorted ∧
        ((∃ text, encoded lib (.object sorted) = .ok (.text text)) ↔ value.Each HoldsText) ∧
        ((∀ text, encoded lib (.object sorted) = .ok (.text text) →
            (Value.object sorted).KeepsOrder text) ↔
          (value.Each HoldsText → (order = .ascending ∨ members.length ≤ 1) ∧
            ∀ member ∈ members, member.2.Each HoldsAscending)) := by
  refine ⟨encoded_iff lib value, keepsOrder_iff lib h, ?_⟩
  rintro members order rfl hdistinct
  have hnumber : (object (sortedBy order members)).Each HoldsNumber :=
    each_object.mpr ⟨trivial, each_sortedBy.mpr (each_object.mp h).2⟩
  have htext : (object (sortedBy order members)).Each HoldsText ↔
      (object members).Each HoldsText := by
    rw [each_object, each_object, each_sortedBy]
    exact Iff.rfl
  refine ⟨sortedBy order members, keysSorted_object lib order members, sortedBy_perm order members,
    sortedBy_inOrder order members, (encoded_iff lib _).trans htext, ?_⟩
  rw [keepsOrder_iff lib hnumber, htext]
  refine imp_congr_right fun _ => ?_
  rw [each_object, each_sortedBy, ← sortedBy_ascending_iff order (each_object.mp hdistinct).1]
  exact Iff.rfl

namespace DescendingKeys

def pair : Value := .object [("a", .number "1"), ("b", .number "2")]

theorem pair_distinct : pair.Each HoldsDistinct :=
  each_object.mpr ⟨show ["a", "b"].Nodup by decide, by simp [HoldsDistinct, Each]⟩

theorem pair_numbers : pair.Each HoldsNumber :=
  each_object.mpr ⟨trivial, by simp [HoldsNumber, Each]; decide⟩

/-- The descending order is lost in the text. -/
theorem descending_lost : pair.Each HoldsDistinct ∧ ∃ sorted,
    keysSorted LabelledSignature.library .descending pair = .ok (.object sorted) ∧
    encoded LabelledSignature.library (.object sorted) =
      .ok (.text "\x7b\"a\":1,\"b\":2\x7d") ∧
    ¬ (Value.object sorted).KeepsOrder "\x7b\"a\":1,\"b\":2\x7d" := by
  refine ⟨pair_distinct, _, keysSorted_object .., encoded_ok.mpr ⟨_, rfl, by decide +kernel⟩, ?_⟩
  rintro ⟨json, hjson, htext⟩
  have hordered : (Value.object (sortedBy .descending
      [("a", .number "1"), ("b", .number "2")])).inOrder =
      .ok (.object [("b", .number "2"), ("a", .number "1")]) := rfl
  cases hordered.symm.trans hjson
  exact absurd htext (by decide +kernel)

theorem pair_encoded :
    ((∃ text, encoded LabelledSignature.library pair = .ok (.text text)) ↔ pair.Each HoldsText) ∧
    ((∀ text, encoded LabelledSignature.library pair = .ok (.text text) → pair.KeepsOrder text) ↔
      (pair.Each HoldsText → pair.Each HoldsAscending)) ∧
    ∃ sorted, keysSorted LabelledSignature.library .descending pair = .ok (.object sorted) ∧
      InOrder .descending sorted := by
  obtain ⟨htext, hkept, hsorted⟩ :=
    encoded_in_order_iff LabelledSignature.library pair pair_numbers
  obtain ⟨sorted, hsorted, -, horder, -⟩ := hsorted _ .descending rfl pair_distinct
  exact ⟨htext, hkept, sorted, hsorted, horder⟩

end DescendingKeys

end Value

end SiliconHook
