import SiliconHook.Library.JsonText
import Mathlib.Data.List.TakeWhile

/-!
# JSON texts

The grammar of RFC 8259: numbers and strings as they are written, members in the order
and as often as they are named, white space anywhere between. A text has one tree.
-/

namespace SiliconHook.Json

open Text Encoding

/-- What a text says, numbers and strings as they are written. -/
inductive JsonTree
  | null
  | bool (value : Bool)
  | number (numeral : List Char)
  | string (chars : List Char)
  | array (items : List JsonTree)
  | object (members : List (List Char × JsonTree))

-- -----------------------------------------------------------------------------
-- Tokens
-- -----------------------------------------------------------------------------

def isSpace (c : Char) : Bool := c = ' ' || c = '\t' || c = '\n' || c = '\r'

def Spaces (chars : List Char) : Prop := ∀ c ∈ chars, isSpace c = true

def Digits (chars : List Char) : Prop := chars ≠ [] ∧ ∀ c ∈ chars, isAsciiDigit c = true

/-- An optional minus, an integer without leading zeros, an optional fraction and an
optional exponent. -/
def IsNumber (chars : List Char) : Prop :=
  ∃ sign integer fraction exponent, chars = sign ++ integer ++ fraction ++ exponent ∧
    (sign = [] ∨ sign = ['-']) ∧
    (integer = ['0'] ∨ Digits integer ∧ integer.head? ≠ some '0') ∧
    (fraction = [] ∨ ∃ digits, fraction = '.' :: digits ∧ Digits digits) ∧
    (exponent = [] ∨ ∃ e plus digits, exponent = e :: plus ++ digits ∧ (e = 'e' ∨ e = 'E') ∧
      (plus = [] ∨ plus = ['+'] ∨ plus = ['-']) ∧ Digits digits)

def shortEscape (c : Char) : Option Char :=
  if c = '"' ∨ c = '\\' ∨ c = '/' then some c
  else if c = 'b' then some (Char.ofNat 8)
  else if c = 'f' then some (Char.ofNat 12)
  else if c = 'n' then some '\n'
  else if c = 'r' then some '\r'
  else if c = 't' then some '\t'
  else none

def hexUnit (a b c d : Char) : Option Nat := do
  return 4096 * (← hexDigit a) + 256 * (← hexDigit b) + 16 * (← hexDigit c) + (← hexDigit d)

/-- What stands between the quotes: plain characters and escapes. -/
inductive IsBody : List Char → Prop
  | nil : IsBody []
  | plain : 32 ≤ c.toNat → c ≠ '"' → c ≠ '\\' → IsBody rest → IsBody (c :: rest)
  | short : (shortEscape c).isSome = true → IsBody rest → IsBody ('\\' :: c :: rest)
  | unit : (hexUnit p q r s).isSome = true → IsBody rest →
      IsBody ('\\' :: 'u' :: p :: q :: r :: s :: rest)

/-- The text a string stands for; a lone surrogate stands for none. -/
def decode : List Char → Option (List Char)
  | '\\' :: 'u' :: p :: q :: r :: s :: rest => do
    let unit ← hexUnit p q r s
    if 0xD800 ≤ unit ∧ unit < 0xDC00 then
      match rest with
      | '\\' :: 'u' :: p' :: q' :: r' :: s' :: rest =>
        let low ← hexUnit p' q' r' s'
        if 0xDC00 ≤ low ∧ low < 0xE000 then
          return Char.ofNat (0x10000 + 1024 * (unit - 0xD800) + (low - 0xDC00)) :: (← decode rest)
        else none
      | _ => none
    else if 0xDC00 ≤ unit ∧ unit < 0xE000 then none
    else return Char.ofNat unit :: (← decode rest)
  | '\\' :: c :: rest => do return (← shortEscape c) :: (← decode rest)
  | c :: rest => do return c :: (← decode rest)
  | [] => some []

-- -----------------------------------------------------------------------------
-- Texts
-- -----------------------------------------------------------------------------

def Padded (p : List Char → Prop) (text : List Char) : Prop :=
  ∃ before piece after, text = before ++ piece ++ after ∧ Spaces before ∧ Spaces after ∧ p piece

def Listed (close : Char) : List (List Char → Prop) → List Char → Prop
  | [], text => text = [close]
  | p :: rest, text => ∃ piece more, text = ',' :: piece ++ more ∧ Padded p piece ∧
    Listed close rest more

def Bracketed (opening close : Char) : List (List Char → Prop) → List Char → Prop
  | [], text => ∃ spaces, text = opening :: spaces ++ [close] ∧ Spaces spaces
  | p :: rest, text => ∃ piece more, text = opening :: piece ++ more ∧ Padded p piece ∧
    Listed close rest more

mutual

def Writes : JsonTree → List Char → Prop
  | .null, text => text = ['n', 'u', 'l', 'l']
  | .bool true, text => text = ['t', 'r', 'u', 'e']
  | .bool false, text => text = ['f', 'a', 'l', 's', 'e']
  | .number numeral, text => text = numeral ∧ IsNumber numeral
  | .string chars, text => text = '"' :: chars ++ ['"'] ∧ IsBody chars
  | .array items, text => Bracketed '[' ']' (itemTexts items) text
  | .object members, text => Bracketed '\x7b' '\x7d' (memberTexts members) text

def itemTexts : List JsonTree → List (List Char → Prop)
  | [] => []
  | item :: rest => Writes item :: itemTexts rest

def memberTexts : List (List Char × JsonTree) → List (List Char → Prop)
  | [] => []
  | (chars, value) :: rest => (fun text => IsBody chars ∧ ∃ spaces spaces' piece,
      text = '"' :: chars ++ '"' :: spaces ++ ':' :: spaces' ++ piece ∧ Spaces spaces ∧
      Spaces spaces' ∧ Writes value piece) :: memberTexts rest

end

-- -----------------------------------------------------------------------------
-- One tree for a text
-- -----------------------------------------------------------------------------

/-- A token that no white space or number runs into. -/
def Opens (text : List Char) : Prop :=
  ∃ c rest, text = c :: rest ∧ isSpace c = false ∧ isNumeral c = false

theorem Opens.ends (h : Opens text) : Ends text := by
  obtain ⟨c, rest, rfl, -, hc⟩ := h
  rintro _ ⟨⟩
  exact hc

theorem isSpace_not_numeral (h : isSpace c = true) : isNumeral c = false := by
  simp only [isSpace, Bool.or_eq_true, decide_eq_true_eq] at h
  rcases h with ((rfl | rfl) | rfl) | rfl <;> decide

theorem Spaces.ends {spaces text : List Char} (h : Spaces spaces) (htext : Ends text) :
    Ends (spaces ++ text) := by
  cases spaces with
  | nil => exact htext
  | cons c rest =>
    rintro _ ⟨⟩
    exact isSpace_not_numeral (h c List.mem_cons_self)

theorem Spaces.skip {spaces spaces' rest rest' : List Char} {c c' : Char} (h : Spaces spaces)
    (h' : Spaces spaces') (hc : isSpace c = false) (hc' : isSpace c' = false)
    (heq : spaces ++ c :: rest = spaces' ++ c' :: rest') : c = c' ∧ rest = rest' := by
  have hdrop : ∀ {spaces rest : List Char} {c : Char}, Spaces spaces → isSpace c = false →
      (spaces ++ c :: rest).dropWhile isSpace = c :: rest := by
    intro spaces rest c h hc
    rw [List.dropWhile_append_of_pos h, List.dropWhile_cons_of_neg (by simp [hc])]
  have hsame := congrArg (List.dropWhile isSpace) heq
  rw [hdrop h hc, hdrop h' hc'] at hsame
  exact List.cons.inj hsame

def Starts (p : List Char → Prop) (close : Char) : Prop :=
  ∀ text, p text → ∃ c rest, text = c :: rest ∧ isSpace c = false ∧ c ≠ close

/-- Texts of `x` and of `y` are told apart, unless `x` is `y`. -/
def Alike {α : Type} (p : α → List Char → Prop) (x y : α) : Prop :=
  ∀ a b s t, p x a → p y b → Ends s → Ends t → a ++ s = b ++ t → x = y ∧ s = t

section

variable {α : Type} {p : α → List Char → Prop} {opening close : Char} {xs ys : List α}

theorem listed_opens (hspace : isSpace close = false) (hclose : isNumeral close = false)
    {text : List Char} (h : Listed close (xs.map p) text) (rest : List Char) :
    Opens (text ++ rest) := by
  cases xs with
  | nil =>
    obtain rfl : text = [close] := h
    exact ⟨close, rest, rfl, hspace, hclose⟩
  | cons x xs =>
    obtain ⟨piece, more, rfl, -, -⟩ := h
    exact ⟨',', _, rfl, rfl, rfl⟩

theorem padded_alike {x y : α} {a b s t : List Char} (hx : Starts (p x) close)
    (hy : Starts (p y) close) (halike : Alike p x y) (ha : Padded (p x) a) (hb : Padded (p y) b)
    (hs : Opens s) (ht : Opens t) (heq : a ++ s = b ++ t) : x = y ∧ s = t := by
  obtain ⟨before, piece, after, rfl, hbefore, hafter, hpiece⟩ := ha
  obtain ⟨before', piece', after', rfl, hbefore', hafter', hpiece'⟩ := hb
  obtain ⟨c, rest, hc, hspace, -⟩ := hx piece hpiece
  obtain ⟨c', rest', hc', hspace', -⟩ := hy piece' hpiece'
  have hstart : piece ++ (after ++ s) = piece' ++ (after' ++ t) := by
    subst hc hc'
    simp only [List.append_assoc, List.cons_append] at heq ⊢
    obtain ⟨rfl, hrest⟩ := hbefore.skip hbefore' hspace hspace' heq
    rw [hrest]
  obtain ⟨rfl, hafters⟩ := halike _ _ _ _ hpiece hpiece' (hafter.ends hs.ends)
    (hafter'.ends ht.ends) hstart
  obtain ⟨d, more, rfl, hd, -⟩ := hs
  obtain ⟨d', more', rfl, hd', -⟩ := ht
  obtain ⟨rfl, hmore⟩ := hafter.skip hafter' hd hd' hafters
  exact ⟨rfl, by rw [hmore]⟩

theorem listed_alike (hspace : isSpace close = false) (hclose : isNumeral close = false)
    (hcomma : close ≠ ',') (hstarts : ∀ x, Starts (p x) close)
    (halike : ∀ x ∈ xs, ∀ y, Alike p x y) {a b s t : List Char} (ha : Listed close (xs.map p) a)
    (hb : Listed close (ys.map p) b) (heq : a ++ s = b ++ t) : xs = ys ∧ s = t := by
  induction xs generalizing ys a b with
  | nil =>
    obtain rfl : a = [close] := ha
    cases ys with
    | nil =>
      obtain rfl : b = [close] := hb
      exact ⟨rfl, (List.cons.inj heq).2⟩
    | cons y ys =>
      obtain ⟨piece, more, rfl, -, -⟩ := hb
      exact absurd (List.cons.inj heq).1 hcomma
  | cons x xs ih =>
    obtain ⟨piece, more, rfl, hpiece, hmore⟩ := ha
    cases ys with
    | nil =>
      obtain rfl : b = [close] := hb
      exact absurd (List.cons.inj heq).1.symm hcomma
    | cons y ys =>
      obtain ⟨piece', more', rfl, hpiece', hmore'⟩ := hb
      have htail : piece ++ (more ++ s) = piece' ++ (more' ++ t) := by simpa using heq
      obtain ⟨rfl, hrest⟩ := padded_alike (hstarts x) (hstarts y)
        (halike x List.mem_cons_self y) hpiece hpiece' (listed_opens hspace hclose hmore s)
        (listed_opens hspace hclose hmore' t) htail
      obtain ⟨rfl, hrest⟩ := ih (fun x hx => halike x (List.mem_cons_of_mem _ hx)) hmore hmore' hrest
      exact ⟨rfl, hrest⟩

theorem bracketed_alike (hspace : isSpace close = false) (hclose : isNumeral close = false)
    (hcomma : close ≠ ',') (hstarts : ∀ x, Starts (p x) close)
    (halike : ∀ x ∈ xs, ∀ y, Alike p x y) {a b s t : List Char}
    (ha : Bracketed opening close (xs.map p) a) (hb : Bracketed opening close (ys.map p) b)
    (heq : a ++ s = b ++ t) : xs = ys ∧ s = t := by
  have hempty : ∀ {x : α} {spaces piece more rest : List Char}, Spaces spaces →
      Padded (p x) piece → spaces ++ close :: rest ≠ piece ++ more := by
    rintro x spaces _ more rest hspaces ⟨before, text, after, rfl, hbefore, -, htext⟩ heq
    obtain ⟨c, others, rfl, hc, hne⟩ := hstarts x text htext
    simp only [List.append_assoc, List.cons_append] at heq
    exact hne (hspaces.skip hbefore hspace hc heq).1.symm
  cases xs with
  | nil =>
    obtain ⟨spaces, rfl, hspaces⟩ := ha
    cases ys with
    | nil =>
      obtain ⟨spaces', rfl, hspaces'⟩ := hb
      simp only [List.append_assoc, List.cons_append, List.cons.injEq, true_and] at heq
      exact ⟨rfl, (hspaces.skip hspaces' hspace hspace heq).2⟩
    | cons y ys =>
      obtain ⟨piece, more, rfl, hpiece, -⟩ := hb
      simp only [List.append_assoc, List.cons_append, List.cons.injEq, true_and] at heq
      exact absurd heq (hempty hspaces hpiece)
  | cons x xs =>
    obtain ⟨piece, more, rfl, hpiece, hmore⟩ := ha
    cases ys with
    | nil =>
      obtain ⟨spaces, rfl, hspaces⟩ := hb
      simp only [List.append_assoc, List.cons_append, List.cons.injEq, true_and] at heq
      exact absurd heq.symm (hempty hspaces hpiece)
    | cons y ys =>
      obtain ⟨piece', more', rfl, hpiece', hmore'⟩ := hb
      -- A comma in place of both brackets makes them further pieces.
      refine listed_alike hspace hclose hcomma hstarts halike
        ⟨piece, more, rfl, hpiece, hmore⟩ ⟨piece', more', rfl, hpiece', hmore'⟩ ?_
      simp only [List.append_assoc, List.cons_append, List.cons.injEq, true_and] at heq ⊢
      exact heq

end

theorem IsNumber.numeral (h : IsNumber chars) :
    chars ≠ [] ∧ ∀ c ∈ chars, isNumeral c = true := by
  obtain ⟨sign, integer, fraction, exponent, rfl, hsign, hinteger, hfraction, hexponent⟩ := h
  have hdigits : ∀ {digits : List Char}, Digits digits → ∀ c ∈ digits, isNumeral c = true :=
    fun h c hc => by simp [isNumeral, h.2 c hc]
  have hone : integer ≠ [] ∧ ∀ c ∈ integer, isNumeral c = true := by
    rcases hinteger with rfl | ⟨h, -⟩
    · exact ⟨by simp, fun c hc => by rw [List.mem_singleton.mp hc]; rfl⟩
    · exact ⟨h.1, hdigits h⟩
  refine ⟨by simp [hone.1], fun c hc => ?_⟩
  rcases List.mem_append.mp hc with hc | hc
  · rcases List.mem_append.mp hc with hc | hc
    · rcases List.mem_append.mp hc with hc | hc
      · rcases hsign with rfl | rfl
        · cases hc
        · rw [List.mem_singleton.mp hc]
          rfl
      · exact hone.2 c hc
    · rcases hfraction with rfl | ⟨digits, rfl, h⟩
      · cases hc
      · rcases List.mem_cons.mp hc with rfl | hc
        · rfl
        · exact hdigits h c hc
  · rcases hexponent with rfl | ⟨e, plus, digits, rfl, he, hplus, h⟩
    · cases hc
    · rcases List.mem_append.mp hc with hc | hc
      · rcases List.mem_cons.mp hc with rfl | hc
        · rcases he with rfl | rfl <;> rfl
        · rcases hplus with rfl | rfl | rfl
          · cases hc
          · rw [List.mem_singleton.mp hc]
            rfl
          · rw [List.mem_singleton.mp hc]
            rfl
      · exact hdigits h c hc

/-- What stands between quotes ends at the first quote that is not escaped. -/
theorem IsBody.alike {a b s t : List Char} (ha : IsBody a) (hb : IsBody b)
    (heq : a ++ '"' :: s = b ++ '"' :: t) : a = b ∧ s = t := by
  induction ha generalizing b with
  | nil =>
    cases hb with
    | nil => exact ⟨rfl, (List.cons.inj heq).2⟩
    | plain _ hquote _ _ => exact absurd (List.cons.inj heq).1.symm hquote
    | short | unit => exact absurd (List.cons.inj heq).1 (by decide)
  | plain _ hquote hescape _ ih =>
    cases hb with
    | nil => exact absurd (List.cons.inj heq).1 hquote
    | plain _ _ _ hb =>
      obtain ⟨rfl, hrest⟩ := List.cons.inj heq
      obtain ⟨rfl, htail⟩ := ih hb hrest
      exact ⟨rfl, htail⟩
    | short | unit => exact absurd (List.cons.inj heq).1 hescape
  | short hshort _ ih =>
    cases hb with
    | nil => exact absurd (List.cons.inj heq).1 (by decide)
    | plain _ _ hescape _ => exact absurd (List.cons.inj heq).1.symm hescape
    | short _ hb =>
      obtain ⟨rfl, hrest⟩ := List.cons.inj (List.cons.inj heq).2
      obtain ⟨rfl, htail⟩ := ih hb hrest
      exact ⟨rfl, htail⟩
    | unit =>
      obtain ⟨rfl, -⟩ := List.cons.inj (List.cons.inj heq).2
      cases hshort
  | unit _ _ ih =>
    cases hb with
    | nil => exact absurd (List.cons.inj heq).1 (by decide)
    | plain _ _ hescape _ => exact absurd (List.cons.inj heq).1.symm hescape
    | short hshort _ =>
      obtain ⟨rfl, -⟩ := List.cons.inj (List.cons.inj heq).2
      cases hshort
    | unit _ hb =>
      simp only [List.cons_append, List.cons.injEq, true_and] at heq
      obtain ⟨rfl, rfl, rfl, rfl, hrest⟩ := heq
      obtain ⟨rfl, htail⟩ := ih hb hrest
      exact ⟨rfl, htail⟩

def memberText (member : List Char × JsonTree) (text : List Char) : Prop :=
  IsBody member.1 ∧ ∃ spaces spaces' piece,
    text = '"' :: member.1 ++ '"' :: spaces ++ ':' :: spaces' ++ piece ∧ Spaces spaces ∧
    Spaces spaces' ∧ Writes member.2 piece

theorem itemTexts_eq (items : List JsonTree) : itemTexts items = items.map Writes := by
  induction items with
  | nil => rfl
  | cons item rest ih => rw [itemTexts, ih, List.map_cons]

theorem memberTexts_eq (members : List (List Char × JsonTree)) :
    memberTexts members = members.map memberText := by
  induction members with
  | nil => rfl
  | cons member rest ih =>
    rw [memberTexts, ih]
    rfl

def JsonTree.First : JsonTree → Char → Prop
  | .null, c => c = 'n'
  | .bool true, c => c = 't'
  | .bool false, c => c = 'f'
  | .number _, c => isNumeral c = true
  | .string _, c => c = '"'
  | .array _, c => c = '['
  | .object _, c => c = '\x7b'

theorem bracketed_first {ps : List (List Char → Prop)} {opening close : Char} {text : List Char}
    (h : Bracketed opening close ps text) : ∃ rest, text = opening :: rest := by
  cases ps with
  | nil =>
    obtain ⟨spaces, rfl, -⟩ := h
    exact ⟨_, rfl⟩
  | cons p ps =>
    obtain ⟨piece, more, rfl, -⟩ := h
    exact ⟨_, rfl⟩

theorem writes_first {tree : JsonTree} {text : List Char} (h : Writes tree text) :
    ∃ c rest, text = c :: rest ∧ tree.First c := by
  cases tree with
  | null => exact ⟨_, _, h, rfl⟩
  | bool value =>
    cases value with
    | true => exact ⟨_, _, h, rfl⟩
    | false => exact ⟨_, _, h, rfl⟩
  | number numeral =>
    obtain ⟨rfl, hnumber⟩ := h
    obtain ⟨hne, hall⟩ := hnumber.numeral
    cases text with
    | nil => exact absurd rfl hne
    | cons c rest => exact ⟨c, rest, rfl, hall c List.mem_cons_self⟩
  | string chars => exact ⟨_, _, h.1, rfl⟩
  | array items =>
    obtain ⟨rest, rfl⟩ := bracketed_first h
    exact ⟨_, _, rfl, rfl⟩
  | object members =>
    obtain ⟨rest, rfl⟩ := bracketed_first h
    exact ⟨_, _, rfl, rfl⟩

theorem writes_starts (tree : JsonTree) : Starts (Writes tree) ']' := by
  intro text h
  obtain ⟨c, rest, rfl, hfirst⟩ := writes_first h
  refine ⟨c, rest, rfl, ?_⟩
  cases tree with
  | number =>
    have hnumeral : isNumeral c = true := hfirst
    refine ⟨Bool.eq_false_iff.mpr fun hspace => ?_, ?_⟩
    · rw [isSpace_not_numeral hspace] at hnumeral
      cases hnumeral
    · rintro rfl
      cases hnumeral
  | bool value =>
    cases value <;> obtain rfl := hfirst <;> exact ⟨rfl, by decide⟩
  | null | string | array | object =>
    obtain rfl := hfirst
    exact ⟨rfl, by decide⟩

theorem memberText_starts (member : List Char × JsonTree) : Starts (memberText member) '\x7d' := by
  rintro _ ⟨-, spaces, spaces', piece, rfl, -⟩
  exact ⟨'"', _, rfl, rfl, by decide⟩

theorem memberText_alike {member other : List Char × JsonTree}
    (h : Alike Writes member.2 other.2) : Alike memberText member other := by
  rintro _ _ s t ⟨hbody, spaces, after, piece, rfl, hspaces, hafter, hpiece⟩
    ⟨hbody', spaces', after', piece', rfl, hspaces', hafter', hpiece'⟩ hs ht heq
  simp only [List.append_assoc, List.cons_append, List.cons.injEq, true_and] at heq
  obtain ⟨hname, heq⟩ := hbody.alike hbody' heq
  obtain ⟨-, heq⟩ := hspaces.skip hspaces' rfl rfl heq
  obtain ⟨c, rest, rfl, hc, -⟩ := writes_starts _ _ hpiece
  obtain ⟨c', rest', rfl, hc', -⟩ := writes_starts _ _ hpiece'
  obtain ⟨rfl, hrest⟩ := hafter.skip hafter' hc hc' heq
  obtain ⟨hvalue, htail⟩ := h _ _ s t hpiece hpiece' hs ht (congrArg (c :: ·) hrest)
  exact ⟨Prod.ext hname hvalue, htail⟩

theorem first_same {tree other : JsonTree} {a b s t : List Char} (ha : Writes tree a)
    (hb : Writes other b) (heq : a ++ s = b ++ t) : ∃ c, tree.First c ∧ other.First c := by
  obtain ⟨c, rest, rfl, hc⟩ := writes_first ha
  obtain ⟨c', rest', rfl, hc'⟩ := writes_first hb
  obtain ⟨rfl, -⟩ := List.cons.inj heq
  exact ⟨c, hc, hc'⟩

mutual

theorem writes_alike : ∀ tree other : JsonTree, Alike Writes tree other
  | .null, other => by
    intro a b s t ha hb _ _ heq
    obtain ⟨c, rfl, hc⟩ := first_same ha hb heq
    cases other with
    | null =>
      obtain rfl : a = _ := ha
      obtain rfl : b = _ := hb
      exact ⟨rfl, List.append_cancel_left heq⟩
    | bool value => cases value <;> cases hc
    | _ => cases hc
  | .bool value, other => by
    intro a b s t ha hb _ _ heq
    obtain ⟨c, hfirst, hc⟩ := first_same ha hb heq
    cases other with
    | bool value' =>
      cases value <;> cases value' <;> obtain rfl := hfirst
      · obtain rfl : a = _ := ha
        obtain rfl : b = _ := hb
        exact ⟨rfl, List.append_cancel_left heq⟩
      · cases hc
      · cases hc
      · obtain rfl : a = _ := ha
        obtain rfl : b = _ := hb
        exact ⟨rfl, List.append_cancel_left heq⟩
    | _ => cases value <;> obtain rfl := hfirst <;> cases hc
  | .number numeral, other => by
    intro a b s t ha hb hs ht heq
    obtain ⟨c, hfirst, hc⟩ := first_same ha hb heq
    cases other with
    | number numeral' =>
      obtain ⟨rfl, hnumber⟩ := ha
      obtain ⟨rfl, hnumber'⟩ := hb
      obtain ⟨rfl, hrest⟩ := numeral_inj hnumber.numeral.2 hnumber'.numeral.2 hs ht heq
      exact ⟨rfl, hrest⟩
    | bool value => cases value <;> obtain rfl := hc <;> cases hfirst
    | _ =>
      obtain rfl := hc
      cases hfirst
  | .string chars, other => by
    intro a b s t ha hb _ _ heq
    obtain ⟨c, rfl, hc⟩ := first_same ha hb heq
    cases other with
    | string chars' =>
      obtain ⟨rfl, hbody⟩ := ha
      obtain ⟨rfl, hbody'⟩ := hb
      simp only [List.append_assoc, List.cons_append, List.cons.injEq, true_and] at heq
      obtain ⟨rfl, hrest⟩ := hbody.alike hbody' heq
      exact ⟨rfl, hrest⟩
    | bool value => cases value <;> cases hc
    | _ => cases hc
  | .array items, other => by
    intro a b s t ha hb _ _ heq
    obtain ⟨c, rfl, hc⟩ := first_same ha hb heq
    cases other with
    | array items' =>
      rw [Writes, itemTexts_eq] at ha hb
      obtain ⟨rfl, hrest⟩ := bracketed_alike rfl rfl (by decide) writes_starts
        (itemsAlike items) ha hb heq
      exact ⟨rfl, hrest⟩
    | bool value => cases value <;> cases hc
    | _ => cases hc
  | .object members, other => by
    intro a b s t ha hb _ _ heq
    obtain ⟨c, rfl, hc⟩ := first_same ha hb heq
    cases other with
    | object members' =>
      rw [Writes, memberTexts_eq] at ha hb
      obtain ⟨rfl, hrest⟩ := bracketed_alike rfl rfl (by decide) memberText_starts
        (fun member hm other => memberText_alike (membersAlike members member hm other.2)) ha hb heq
      exact ⟨rfl, hrest⟩
    | bool value => cases value <;> cases hc
    | _ => cases hc

theorem itemsAlike : ∀ items : List JsonTree, ∀ item ∈ items, ∀ other, Alike Writes item other
  | [], _, hm => nomatch hm
  | item :: rest, found, hm => by
    have hitem := writes_alike item
    have hrest := itemsAlike rest
    obtain rfl | hm := List.mem_cons.mp hm
    · exact hitem
    · exact hrest found hm

theorem membersAlike : ∀ members : List (List Char × JsonTree), ∀ member ∈ members,
    ∀ other, Alike Writes member.2 other
  | [], _, hm => nomatch hm
  | (_, value) :: rest, found, hm => by
    have hvalue := writes_alike value
    have hrest := membersAlike rest
    obtain rfl | hm := List.mem_cons.mp hm
    · exact hvalue
    · exact hrest found hm

end

def IsText (tree : JsonTree) (bytes : List UInt8) : Prop :=
  ∃ chars, bytes = utf8 (String.ofList chars) ∧ Padded (Writes tree) chars

/-- A text has one tree. -/
theorem IsText.unique {tree other : JsonTree} {bytes : List UInt8} (h : IsText tree bytes)
    (h' : IsText other bytes) : tree = other := by
  obtain ⟨chars, rfl, before, piece, after, rfl, hbefore, hafter, hpiece⟩ := h
  obtain ⟨chars', hbytes, before', piece', after', rfl, hbefore', hafter', hpiece'⟩ := h'
  have hchars := String.ofList_injective (utf8_inj hbytes)
  obtain ⟨c, rest, rfl, hc, -⟩ := writes_starts _ _ hpiece
  obtain ⟨c', rest', rfl, hc', -⟩ := writes_starts _ _ hpiece'
  simp only [List.append_assoc, List.cons_append] at hchars
  obtain ⟨rfl, hrest⟩ := hbefore.skip hbefore' hc hc' hchars
  have hends : Ends [] := fun _ hm => nomatch hm
  have hends' : ∀ {spaces : List Char}, Spaces spaces → Ends spaces := by
    intro spaces h
    have := h.ends hends
    rwa [List.append_nil] at this
  exact (writes_alike tree other _ _ _ _ hpiece hpiece' (hends' hafter) (hends' hafter')
    (congrArg (c :: ·) hrest)).1

end SiliconHook.Json
