import SiliconHook.Domain.Eval
import SiliconHook.Library.Result

/-!
# Canonical queries

A canonical query is the text of the sorted pairs, so it depends on the pairs alone:
not on whether they were read from the text or taken from the object, nor on their
order. Its own pairs are the sorted ones, and it is canonical already.
-/

namespace SiliconHook

open Encoding Text Eval

-- -----------------------------------------------------------------------------
-- Sorted pairs
-- -----------------------------------------------------------------------------

def PairLe (a b : String × String) : Prop :=
  utf8 a.1 < utf8 b.1 ∨ a.1 = b.1 ∧ utf8 a.2 ≤ utf8 b.2

instance : DecidableRel PairLe := fun a b =>
  inferInstanceAs (Decidable (utf8 a.1 < utf8 b.1 ∨ a.1 = b.1 ∧ utf8 a.2 ≤ utf8 b.2))

theorem pairLe_iff {a b : String × String} :
    PairLe a b ↔ utf8 a.1 ≤ utf8 b.1 ∧ (a.1 = b.1 → utf8 a.2 ≤ utf8 b.2) := by
  constructor
  · rintro (hlt | ⟨hname, hvalue⟩)
    · exact ⟨List.le_of_lt hlt, fun hname => absurd (hname ▸ hlt) (List.lt_irrefl _)⟩
    · exact ⟨hname ▸ List.le_refl _, fun _ => hvalue⟩
  · rintro ⟨hle, hvalue⟩
    by_cases hname : a.1 = b.1
    · exact .inr ⟨hname, hvalue hname⟩
    · refine .inl (List.not_le.mp fun hge => hname ?_)
      exact utf8_inj (List.le_antisymm hle hge)

instance : Std.Total PairLe where
  total a b := by
    rw [pairLe_iff, pairLe_iff]
    by_cases hname : a.1 = b.1
    · rw [hname]
      exact (List.le_total (utf8 a.2) (utf8 b.2)).imp
        (fun h => ⟨List.le_refl _, fun _ => h⟩) fun h => ⟨List.le_refl _, fun _ => h⟩
    · exact (List.le_total (utf8 a.1) (utf8 b.1)).imp
        (fun h => ⟨h, fun hsame => absurd hsame hname⟩)
        fun h => ⟨h, fun hsame => absurd hsame.symm hname⟩

instance : IsTrans _ PairLe where
  trans a b c hab hbc := by
    obtain ⟨hab, hab'⟩ := pairLe_iff.mp hab
    obtain ⟨hbc, hbc'⟩ := pairLe_iff.mp hbc
    refine pairLe_iff.mpr ⟨List.le_trans hab hbc, fun hac => ?_⟩
    have hname : a.1 = b.1 := utf8_inj (List.le_antisymm hab (hac ▸ hbc))
    exact List.le_trans (hab' hname) (hbc' (hname ▸ hac))

instance : Std.Antisymm PairLe where
  antisymm a b hab hba := by
    obtain ⟨hab, hab'⟩ := pairLe_iff.mp hab
    obtain ⟨hba, hba'⟩ := pairLe_iff.mp hba
    have hname := utf8_inj (List.le_antisymm hab hba)
    exact Prod.ext hname (utf8_inj (List.le_antisymm (hab' hname) (hba' hname.symm)))

theorem sortPairs_perm (pairs : List (String × String)) : (sortPairs pairs).Perm pairs :=
  List.perm_insertionSort _ _

theorem sortPairs_sorted (pairs : List (String × String)) : (sortPairs pairs).Pairwise PairLe :=
  List.pairwise_insertionSort PairLe pairs

theorem sortPairs_eq {pairs pairs' : List (String × String)} (h : pairs.Perm pairs') :
    sortPairs pairs = sortPairs pairs' := by
  refine List.Perm.eq_of_pairwise' (sortPairs_sorted pairs) (sortPairs_sorted pairs') ?_
  exact ((sortPairs_perm pairs).trans h).trans (sortPairs_perm pairs').symm

-- -----------------------------------------------------------------------------
-- What is canonical
-- -----------------------------------------------------------------------------

/-- What the functions outside promise of forms: a form reads back as the pairs it was
written from, its pieces are read one by one, and a URL's pairs are its query's. -/
structure ReadsForms (lib : ExpressionLibrary) : Prop where
  inverse : ∀ pairs, lib.parseForm (utf8 (serializePairs pairs)) = pairs
  piecewise : ∃ pair : List Char → Option (String × String), ∀ text,
    lib.parseForm (utf8 text) = (splitBy (· = '&') text.toList).filterMap pair
  queryPairs : ∀ url, lib.queryPairs url = lib.parseForm (utf8 ((lib.query url).getD ""))

def canonicalized (lib : ExpressionLibrary) (value : Value) : Except EvalError Value :=
  applyFunction lib .canonicalizeQuery none none [value]

def requestBlock (block : String) : Expr := .path ⟨.request, [.key block]⟩

section

variable {lib : ExpressionLibrary} {context : EvalContext}

theorem canonicalized_text (lib : ExpressionLibrary) (text : String) :
    canonicalized lib (.text text) =
      .ok (.text (serializePairs (sortPairs (lib.parseForm (utf8 text))))) := rfl

theorem canonicalized_pairs (lib : ExpressionLibrary) (pairs : List (String × String)) :
    canonicalized lib (pairsObject pairs) = .ok (.text (serializePairs (sortPairs pairs))) := by
  have hmembers : objectPairs .canonicalizeQuery
      (pairs.map fun pair => (pair.1, Value.text pair.2)) = .ok pairs := by
    refine Except.mapM_ok.mpr (List.forall₂_map_left_iff.mpr ?_)
    exact List.forall₂_same.mpr fun _ _ => rfl
  show (objectPairs .canonicalizeQuery _ >>= fun pairs =>
    Except.ok (Value.text (serializePairs (sortPairs pairs)))) = _
  rw [hmembers]
  rfl

theorem evaluate_canonical {value : Value} {block : String}
    (h : requestValue lib context ⟨.request, [.key block]⟩ block = .ok value) :
    evaluate lib context (.call .canonicalizeQuery [requestBlock block] none none) =
      canonicalized lib value := by
  have hpath : evaluatePath lib context ⟨.request, [.key block]⟩ = .ok value := by
    have hbase : baseOf lib context ⟨.request, [.key block]⟩ = .ok (value, []) := by
      show (·, []) <$> requestValue lib context ⟨.request, [.key block]⟩ block = _
      rw [h]
      rfl
    rw [evaluatePath, hbase]
    rfl
  rw [evaluate, evaluateAll, evaluateAll, requestBlock, evaluate, hpath]
  rfl

/-- Of a captured request, the query's object and its text are canonical alike. A canonical
query is canonical already, and the pieces of a query may stand in any order. -/
theorem canonical_query (h : ReadsForms lib) :
    (∀ context, ∃ text,
      evaluate lib context (.call .canonicalizeQuery [requestBlock "query"] none none) =
        .ok (.text text) ∧
      evaluate lib context (.call .canonicalizeQuery [requestBlock "query_string"] none none) =
        .ok (.text text)) ∧
    (∀ query, ∃ text, canonicalized lib (.text query) = .ok (.text text) ∧
      canonicalized lib (.text text) = .ok (.text text)) ∧
    ∀ query query' : String,
      (splitBy (· = '&') query.toList).Perm (splitBy (· = '&') query'.toList) →
      canonicalized lib (.text query) = canonicalized lib (.text query') := by
  refine ⟨fun context => ?_, fun query => ?_, fun query query' hperm => ?_⟩
  · refine ⟨_, (evaluate_canonical rfl).trans (canonicalized_pairs ..), ?_⟩
    rw [evaluate_canonical rfl, canonicalized_text, h.queryPairs]
  · refine ⟨_, canonicalized_text lib query, ?_⟩
    rw [canonicalized_text, h.inverse, sortPairs_eq (sortPairs_perm _)]
  · obtain ⟨pair, hpair⟩ := h.piecewise
    rw [canonicalized_text, canonicalized_text, hpair, hpair, sortPairs_eq (hperm.filterMap pair)]

end

-- -----------------------------------------------------------------------------
-- A reader of forms
-- -----------------------------------------------------------------------------

namespace FormText

def formByte (c : Char) : UInt8 := byte (if c = '+' then ' ' else c).toNat

/-- A name or value, its escapes read; bytes that are no text read as the empty one. -/
def component (chars : List Char) : String :=
  (fromUtf8 (percentDecode (chars.map formByte))).getD ""

/-- A piece that is not empty is a name, and a value after the first `=`. -/
def piece (chars : List Char) : Option (String × String) :=
  match splitOnce '=' chars with
  | some (name, value) => some (component name, component value)
  | none => if chars = [] then none else some (component chars, "")

def read (text : String) : List (String × String) :=
  (splitBy (· = '&') text.toList).filterMap piece

def escaped (b : UInt8) : List Char :=
  let c := Char.ofNat b.toNat
  if isAsciiAlphanumeric c || c = '*' || c = '-' || c = '.' || c = '_' then [c]
  else if c = ' ' then ['+']
  else percentByte b

theorem byteSerialize_toList (bytes : List UInt8) :
    (byteSerialize bytes).toList = bytes.flatMap escaped := String.toList_ofList

theorem toNat_ofByte (b : UInt8) : (Char.ofNat b.toNat).toNat = b.toNat := by
  have hvalid : ∀ n < 256, (Char.ofNat n).toNat = n := by decide +kernel
  exact hvalid b.toNat b.toNat_lt

theorem upperHexChar_read : ∀ n < 16,
    hexDigit (Char.ofNat (formByte (upperHexChar n)).toNat) = some n := by decide

theorem upperHexChar_apart : ∀ n < 16, upperHexChar n ≠ '&' ∧ upperHexChar n ≠ '=' := by decide

theorem percentDecode_plain {b : UInt8} (h : b ≠ 37) (rest : List UInt8) :
    percentDecode (b :: rest) = b :: percentDecode rest := by
  rw [percentDecode]
  exact fun hi lo more heq => absurd heq h

theorem percentDecode_escaped (b : UInt8) (rest : List UInt8) :
    percentDecode ((escaped b).map formByte ++ rest) = b :: percentDecode rest := by
  rw [escaped]
  split
  · rename_i hplain
    have hplus : Char.ofNat b.toNat ≠ '+' := fun he => by rw [he] at hplain; revert hplain; decide
    have hpercent : b ≠ 37 := fun he => by subst he; revert hplain; decide
    have hbyte : formByte (Char.ofNat b.toNat) = b := by
      rw [formByte, if_neg hplus, toNat_ofByte]
      exact byte_eq rfl
    rw [List.map_singleton, hbyte]
    exact percentDecode_plain hpercent rest
  · split
    · rename_i hspace
      have hb : b = 32 := UInt8.toNat_inj.mp ((toNat_ofByte b).symm.trans (congrArg _ hspace))
      subst hb
      exact percentDecode_plain (by decide) rest
    · have hhi := upperHexChar_read (b.toNat / 16) (by have := b.toNat_lt; omega)
      have hlo := upperHexChar_read (b.toNat % 16) (Nat.mod_lt _ (by decide))
      show percentDecode (37 :: formByte (upperHexChar (b.toNat / 16)) ::
        formByte (upperHexChar (b.toNat % 16)) :: rest) = _
      rw [percentDecode, hhi, hlo]
      exact congrArg (· :: percentDecode rest) (byte_eq (Nat.div_add_mod _ _))

theorem component_escaped (text : String) :
    component (byteSerialize (utf8 text)).toList = text := by
  have hread : ∀ bytes : List UInt8,
      percentDecode ((bytes.flatMap escaped).map formByte) = bytes := by
    intro bytes
    induction bytes with
    | nil => rfl
    | cons b rest ih => rw [List.flatMap_cons, List.map_append, percentDecode_escaped, ih]
  rw [component, byteSerialize_toList, hread, fromUtf8_utf8]
  rfl

theorem escaped_apart {text : String} : ∀ c ∈ (byteSerialize (utf8 text)).toList,
    c ≠ '&' ∧ c ≠ '=' := by
  intro c hc
  rw [byteSerialize_toList] at hc
  obtain ⟨b, -, hc⟩ := List.mem_flatMap.mp hc
  rw [escaped] at hc
  split at hc
  · rename_i hplain
    rw [List.mem_singleton.mp hc]
    constructor <;> exact fun he => by rw [he] at hplain; revert hplain; decide
  · split at hc
    · rw [List.mem_singleton.mp hc]
      decide
    · rcases List.mem_cons.mp hc with rfl | hc
      · decide
      · rcases List.mem_cons.mp hc with rfl | hc
        · exact upperHexChar_apart _ (by have := b.toNat_lt; omega)
        · rw [List.mem_singleton.mp hc]
          exact upperHexChar_apart _ (Nat.mod_lt _ (by decide))

def pairChars (pair : String × String) : List Char :=
  (byteSerialize (utf8 pair.1)).toList ++ '=' :: (byteSerialize (utf8 pair.2)).toList

theorem piece_pairChars (pair : String × String) : piece (pairChars pair) = some pair := by
  have hsplit : splitOnce '=' (pairChars pair) =
      some ((byteSerialize (utf8 pair.1)).toList, (byteSerialize (utf8 pair.2)).toList) :=
    splitOnce_some.mpr ⟨rfl, fun hm => (escaped_apart _ hm).2 rfl⟩
  rw [piece, hsplit]
  simp only [component_escaped]

theorem pairChars_apart (pair : String × String) : ∀ c ∈ pairChars pair, (c = '&') = False := by
  intro c hc
  refine eq_false ?_
  rcases List.mem_append.mp hc with hc | hc
  · exact (escaped_apart c hc).1
  · rcases List.mem_cons.mp hc with rfl | hc
    · decide
    · exact (escaped_apart c hc).1

theorem serializePairs_cons (pair next : String × String) (rest : List (String × String)) :
    (serializePairs (pair :: next :: rest)).toList =
      pairChars pair ++ '&' :: (serializePairs (next :: rest)).toList := by
  simp [serializePairs, pairChars, String.intercalate_cons_cons]

theorem read_serializePairs (pairs : List (String × String)) :
    read (serializePairs pairs) = pairs := by
  have hone : ∀ pair, splitBy (· = '&') (pairChars pair) = [pairChars pair] :=
    fun pair => splitBy_outside fun c hc => by simp [pairChars_apart pair c hc]
  rw [read]
  cases pairs with
  | nil => rfl
  | cons pair rest =>
    induction rest generalizing pair with
    | nil =>
      have hchars : (serializePairs [pair]).toList = pairChars pair := by
        simp [serializePairs, pairChars]
      rw [hchars, hone, List.filterMap_cons, piece_pairChars]
      rfl
    | cons next rest ih =>
      rw [serializePairs_cons, splitBy_append (by decide), hone, List.singleton_append,
        List.filterMap_cons, piece_pairChars, ih]

/-- A library whose forms are read so; the other functions no query calls. -/
def library : ExpressionLibrary where
  parseUrl := fun _ => none
  scheme := id
  hostStr := fun _ => none
  port := fun _ => none
  portOrKnownDefault := fun _ => none
  path := id
  query := fun url => (splitOnce '?' url.toList).map fun (_, query) => String.ofList query
  queryPairs := fun url =>
    read (((splitOnce '?' url.toList).map fun (_, query) => String.ofList query).getD "")
  withQuery := fun _ url => url
  withoutFragment := id
  parseForm := fun bytes => read ((fromUtf8 bytes).getD "")
  parseJson := fun _ => none
  parseMultipart := fun _ _ => none
  lowercase := id
  uppercase := id
  digest := fun _ bytes => bytes
  hmac := fun _ key message => key ++ message

theorem library_reads : ReadsForms library where
  inverse pairs := by
    show read ((fromUtf8 (utf8 _)).getD "") = pairs
    rw [fromUtf8_utf8]
    exact read_serializePairs pairs
  piecewise := ⟨piece, fun text => by
    show read ((fromUtf8 (utf8 text)).getD "") = _
    rw [fromUtf8_utf8]
    rfl⟩
  queryPairs url := by
    show _ = read ((fromUtf8 (utf8 _)).getD "")
    rw [fromUtf8_utf8]
    rfl

def request : CapturedRequest := ⟨"GET", "https://hook.example/in?b=2&a=%31&b=", [], [], "192.0.2.1", 0⟩

/-- The pieces of a query with a repeated name and an empty value, in another order. -/
theorem repeated_canonical : (∃ text,
      evaluate library ⟨request, "", "", none, none⟩
        (.call .canonicalizeQuery [requestBlock "query"] none none) = .ok (.text text) ∧
      evaluate library ⟨request, "", "", none, none⟩
        (.call .canonicalizeQuery [requestBlock "query_string"] none none) = .ok (.text text)) ∧
    canonicalized library (.text "b=2&a=%31&b=") = canonicalized library (.text "b=&b=2&a=%31") := by
  obtain ⟨hrequest, -, hperm⟩ := canonical_query library_reads
  exact ⟨hrequest _, hperm _ _ (by decide +kernel)⟩

example : canonicalized library (.text "b=2&a=%31&b=") = .ok (.text "a=1&b=&b=2") := by
  rw [canonicalized_text]
  exact congrArg (fun text => Except.ok (Value.text text)) (by decide +kernel)

end FormText

end SiliconHook
