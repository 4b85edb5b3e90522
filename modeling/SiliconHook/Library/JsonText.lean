import SiliconHook.Library.Encoding

/-!
# JSON strings

The text of a JSON string, as the compact writer of `serde_json` gives it.
-/

namespace SiliconHook.Json

open Text Encoding

def escape (c : Char) : List Char :=
  if c = '"' then ['\\', '"']
  else if c = '\\' then ['\\', '\\']
  else if c.toNat = 8 then ['\\', 'b']
  else if c.toNat = 9 then ['\\', 't']
  else if c.toNat = 10 then ['\\', 'n']
  else if c.toNat = 12 then ['\\', 'f']
  else if c.toNat = 13 then ['\\', 'r']
  else if c.toNat < 32 then ['\\', 'u', '0', '0', hexChar (c.toNat / 16), hexChar (c.toNat % 16)]
  else [c]

def quote (text : String) : String :=
  String.ofList ('"' :: text.toList.flatMap escape ++ ['"'])

-- -----------------------------------------------------------------------------
-- Reading back
-- -----------------------------------------------------------------------------

/-- The character that an escape, or a character of its own, stands for, and what follows. -/
def unescape : List Char → Option (Char × List Char)
  | '\\' :: '"' :: rest => some ('"', rest)
  | '\\' :: '\\' :: rest => some ('\\', rest)
  | '\\' :: 'b' :: rest => some (Char.ofNat 8, rest)
  | '\\' :: 't' :: rest => some (Char.ofNat 9, rest)
  | '\\' :: 'n' :: rest => some (Char.ofNat 10, rest)
  | '\\' :: 'f' :: rest => some (Char.ofNat 12, rest)
  | '\\' :: 'r' :: rest => some (Char.ofNat 13, rest)
  | '\\' :: 'u' :: '0' :: '0' :: high :: low :: rest => do
    return (Char.ofNat (16 * (← hexDigit high) + (← hexDigit low)), rest)
  | c :: rest => some (c, rest)
  | [] => none

theorem unescape_escape (c : Char) (rest : List Char) :
    unescape (escape c ++ rest) = some (c, rest) := by
  have hcode : ∀ {n : Nat}, c.toNat = n → some (Char.ofNat n, rest) = some (c, rest) := by
    rintro n rfl
    rw [Char.ofNat_toNat]
  fun_cases escape c with
  | case1 h =>
    rw [h]
    rfl
  | case2 _ h =>
    rw [h]
    rfl
  | case3 _ _ h => exact hcode h
  | case4 _ _ _ h => exact hcode h
  | case5 _ _ _ _ h => exact hcode h
  | case6 _ _ _ _ _ h => exact hcode h
  | case7 _ _ _ _ _ _ h => exact hcode h
  | case8 _ _ _ _ _ _ _ h =>
    have hhigh : c.toNat / 16 < 16 := by omega
    have hlow : c.toNat % 16 < 16 := by omega
    have hsum : c.toNat = 16 * (c.toNat / 16) + c.toNat % 16 := by omega
    show (do return (Char.ofNat (16 * (← hexDigit (hexChar (c.toNat / 16))) +
      (← hexDigit (hexChar (c.toNat % 16)))), rest)) = _
    rw [hexDigit_hexChar hhigh, hexDigit_hexChar hlow]
    exact hcode hsum
  | case9 hquote hbackslash =>
    rw [List.singleton_append, unescape]
    all_goals
      intros
      contradiction

theorem escape_head (c : Char) (rest : List Char) : (escape c ++ rest).head? ≠ some '"' := by
  fun_cases escape c with
  | case9 hquote => simpa using hquote
  | case1 | case2 | case3 | case4 | case5 | case6 | case7 | case8 => simp

theorem quoted_inj {chars chars' rest rest' : List Char}
    (h : chars.flatMap escape ++ '"' :: rest = chars'.flatMap escape ++ '"' :: rest') :
    chars = chars' ∧ rest = rest' := by
  induction chars generalizing chars' with
  | nil =>
    cases chars' with
    | nil => exact ⟨rfl, (List.cons.inj h).2⟩
    | cons c more =>
      rw [List.flatMap_cons, List.append_assoc] at h
      exact absurd (congrArg List.head? h).symm (escape_head c _)
  | cons c more ih =>
    cases chars' with
    | nil =>
      rw [List.flatMap_cons, List.append_assoc] at h
      exact absurd (congrArg List.head? h) (escape_head c _)
    | cons d more' =>
      rw [List.flatMap_cons, List.flatMap_cons, List.append_assoc, List.append_assoc] at h
      have hread := congrArg unescape h
      rw [unescape_escape, unescape_escape] at hread
      obtain ⟨rfl, hmore⟩ := Prod.mk.inj (Option.some.inj hread)
      obtain ⟨rfl, hrest⟩ := ih hmore
      exact ⟨rfl, hrest⟩

theorem quote_toList (text : String) :
    (quote text).toList = '"' :: (text.toList.flatMap escape ++ ['"']) := by
  rw [quote, String.toList_ofList]
  rfl

/-- No quoted text is the start of another's. -/
theorem quote_inj {text text' : String} {rest rest' : List Char}
    (h : (quote text).toList ++ rest = (quote text').toList ++ rest') :
    text = text' ∧ rest = rest' := by
  rw [quote_toList, quote_toList, List.cons_append, List.cons_append, List.append_assoc,
    List.append_assoc] at h
  obtain ⟨hchars, hrest⟩ := quoted_inj (List.cons.inj h).2
  exact ⟨String.toList_inj.mp hchars, hrest⟩

-- -----------------------------------------------------------------------------
-- Sizes
-- -----------------------------------------------------------------------------

theorem escape_size (c : Char) : (String.ofList (escape c)).utf8ByteSize ≤ 6 := by
  fun_cases escape c with
  | case8 _ _ _ _ _ _ _ hcontrol =>
    have hhex : ∀ n < 16, isAscii (hexChar n) = true := fun n hn =>
      isAsciiGraphic_ascii (hexChar_graphic hn)
    have hascii : ∀ d ∈ ['\\', 'u', '0', '0', hexChar (c.toNat / 16), hexChar (c.toNat % 16)],
        isAscii d = true := by
      simp only [List.forall_mem_cons, hhex (c.toNat / 16) (by omega),
        hhex (c.toNat % 16) (by omega)]
      simp [isAscii]
    rw [utf8ByteSize_ascii hascii]
    exact Nat.le_refl 6
  | case9 =>
    have hplain := utf8ByteSize_ofList_le [c]
    simp only [List.length_singleton] at hplain
    omega
  | case1 | case2 | case3 | case4 | case5 | case6 | case7 => decide

theorem quote_size_le (text : String) :
    (quote text).utf8ByteSize ≤ 6 * text.toList.length + 2 := by
  have hbody : ∀ chars : List Char,
      (String.ofList (chars.flatMap escape)).utf8ByteSize ≤ 6 * chars.length := by
    intro chars
    induction chars with
    | nil => simp
    | cons c rest ih =>
      have hc := escape_size c
      rw [List.flatMap_cons, String.ofList_append, String.utf8ByteSize_append, List.length_cons]
      omega
  have htext := hbody text.toList
  have hmark : (String.ofList ['"']).utf8ByteSize = 1 := by decide
  rw [quote, ← List.singleton_append, String.ofList_append, String.ofList_append,
    String.utf8ByteSize_append, String.utf8ByteSize_append, hmark]
  omega

-- -----------------------------------------------------------------------------
-- Sequences
-- -----------------------------------------------------------------------------

def isNumeral (c : Char) : Bool :=
  Text.isAsciiDigit c || c = '-' || c = '+' || c = '.' || c = 'e' || c = 'E'

def Ends (rest : List Char) : Prop := ∀ c ∈ rest.head?, isNumeral c = false

theorem numeral_inj {chars chars' rest rest' : List Char}
    (h : ∀ c ∈ chars, isNumeral c = true) (h' : ∀ c ∈ chars', isNumeral c = true)
    (hrest : Ends rest) (hrest' : Ends rest') (heq : chars ++ rest = chars' ++ rest') :
    chars = chars' ∧ rest = rest' := by
  have htake : ∀ {chars rest : List Char}, (∀ c ∈ chars, isNumeral c = true) → Ends rest →
      (chars ++ rest).takeWhile isNumeral = chars := by
    intro chars rest hall hends
    rw [List.takeWhile_append_of_pos hall]
    cases rest with
    | nil => simp
    | cons c more => simp [hends c rfl]
  have hsame : chars = chars' := by rw [← htake h hrest, heq, htake h' hrest']
  rw [hsame] at heq
  exact ⟨hsame, List.append_cancel_left heq⟩

/-- What follows an item of a sequence: more of them, each after a comma, and the end. -/
def following (close : Char) : List (List Char) → List Char
  | [] => [close]
  | item :: rest => ',' :: (item ++ following close rest)

def separated (close : Char) : List (List Char) → List Char
  | [] => [close]
  | item :: rest => item ++ following close rest

theorem intercalate_separated (close : Char) (items : List (List Char)) :
    [','].intercalate items ++ [close] = separated close items := by
  cases items with
  | nil => rfl
  | cons item rest =>
    induction rest generalizing item with
    | nil => simp [separated, following, List.intercalate]
    | cons next rest ih =>
      have hnext := ih next
      simp only [separated] at hnext
      simp only [separated, following, ← hnext]
      simp [List.intercalate]

theorem following_inj {α : Type} {code : α → List Char} {close : Char} {xs ys : List α}
    {rest rest' : List Char} (hclose : isNumeral close = false) (hcomma : close ≠ ',')
    (hread : ∀ x ∈ xs, ∀ y ∈ ys, ∀ s t, Ends s → Ends t → code x ++ s = code y ++ t →
      x = y ∧ s = t)
    (h : following close (xs.map code) ++ rest = following close (ys.map code) ++ rest') :
    xs = ys ∧ rest = rest' := by
  have hends : ∀ (zs : List α) (rest : List Char), Ends (following close (zs.map code) ++ rest) := by
    intro zs rest c hc
    cases zs with
    | nil =>
      cases hc
      exact hclose
    | cons z zs =>
      cases hc
      rfl
  induction xs generalizing ys with
  | nil =>
    cases ys with
    | nil => exact ⟨rfl, (List.cons.inj h).2⟩
    | cons y ys => exact absurd (List.cons.inj h).1 hcomma
  | cons x xs ih =>
    cases ys with
    | nil => exact absurd (List.cons.inj h).1.symm hcomma
    | cons y ys =>
      have htail : (code x ++ following close (xs.map code)) ++ rest =
          (code y ++ following close (ys.map code)) ++ rest' := (List.cons.inj h).2
      rw [List.append_assoc, List.append_assoc] at htail
      obtain ⟨rfl, hmore⟩ := hread x List.mem_cons_self y List.mem_cons_self _ _ (hends xs rest)
        (hends ys rest') htail
      obtain ⟨rfl, hrest⟩ := ih (fun x hx y hy =>
        hread x (List.mem_cons_of_mem _ hx) y (List.mem_cons_of_mem _ hy)) hmore
      exact ⟨rfl, hrest⟩

theorem separated_inj {α : Type} {code : α → List Char} {close : Char} {xs ys : List α}
    {rest rest' : List Char} (hclose : isNumeral close = false) (hcomma : close ≠ ',')
    (hread : ∀ x ∈ xs, ∀ y ∈ ys, ∀ s t, Ends s → Ends t → code x ++ s = code y ++ t →
      x = y ∧ s = t)
    (hopen : ∀ x rest, x ∈ xs ∨ x ∈ ys → (code x ++ rest).head? ≠ some close)
    (h : separated close (xs.map code) ++ rest = separated close (ys.map code) ++ rest') :
    xs = ys ∧ rest = rest' := by
  cases xs with
  | nil =>
    cases ys with
    | nil => exact ⟨rfl, (List.cons.inj h).2⟩
    | cons y ys =>
      rw [List.map_cons, separated, List.append_assoc] at h
      exact absurd (congrArg List.head? h).symm (hopen y _ (.inr List.mem_cons_self))
  | cons x xs =>
    cases ys with
    | nil =>
      rw [List.map_cons, separated, List.append_assoc] at h
      exact absurd (congrArg List.head? h) (hopen x _ (.inl List.mem_cons_self))
    | cons y ys =>
      -- A comma before both makes them followers.
      refine following_inj hclose hcomma hread ?_
      exact congrArg (',' :: ·) h

end SiliconHook.Json
