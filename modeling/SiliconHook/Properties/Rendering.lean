import SiliconHook.Properties.Grammar

/-!
# Reading a rendered expression

A rendering is cut into chunks, each of which lexes to its tokens whatever
delimiter follows. Quoting does not escape every control character, and a text
with a raw one does not lex.
-/

namespace SiliconHook

open Text

-- -----------------------------------------------------------------------------
-- Chunks
-- -----------------------------------------------------------------------------

/-- The tokens of what is left of a source, where it lexes. -/
def tokensOf (size : Nat) (chars : List Char) : Option (List Token) :=
  ((lex size chars).map (·.map Spanned.token)).toOption

def Delimited (rest : List Char) : Prop := ∀ c ∈ rest.head?, isNameChar c = false

def joined (first second : Option (List Token)) : Option (List Token) :=
  first.bind fun tokens => second.map (tokens ++ ·)

/-- A chunk lexes to its tokens, or not at all, before anything that meets a condition. -/
def Lexes (condition : List Char → Prop) (chunk : List Char) (tokens : Option (List Token)) :
    Prop :=
  ∀ size rest, condition rest → tokensOf size (chunk ++ rest) = joined tokens (tokensOf size rest)

variable {condition condition' : List Char → Prop} {chunk chunk' : List Char}
  {tokens tokens' : Option (List Token)}

theorem Lexes.nil : Lexes condition [] (some []) := by
  intro size rest _
  simp [joined]

theorem Lexes.imp (h : Lexes condition chunk tokens) (himp : ∀ rest, condition' rest → condition rest) :
    Lexes condition' chunk tokens :=
  fun size rest hrest => h size rest (himp rest hrest)

theorem Lexes.append (h : Lexes condition chunk tokens) (h' : Lexes condition' chunk' tokens')
    (hnext : ∀ rest, condition' rest → condition (chunk' ++ rest)) :
    Lexes condition' (chunk ++ chunk') (joined tokens tokens') := by
  intro size rest hrest
  rw [List.append_assoc, h size _ (hnext rest hrest), h' size rest hrest]
  cases tokens <;> cases tokens' <;> cases tokensOf size rest <;> simp [joined]

theorem tokensOf_space {c : Char} (h : isWhiteSpace c = true) (size : Nat) (rest : List Char) :
    tokensOf size (c :: rest) = tokensOf size rest := by
  rw [tokensOf, lex, if_pos h, ← tokensOf]

theorem tokensOf_token {c : Char} {token : Token} {size : Nat} {rest rest' : List Char}
    (hspace : isWhiteSpace c = false) (h : lexToken size c rest = .ok (token, rest')) :
    tokensOf size (c :: rest) = (tokensOf size rest').map (token :: ·) := by
  rw [tokensOf, lex, if_neg (Bool.eq_false_iff.mp hspace)]
  split
  · rename_i herror
    cases herror.symm.trans h
  · rename_i hok
    cases hok.symm.trans h
    rw [tokensOf]
    cases lex size rest' <;> rfl

theorem tokensOf_error {c : Char} {size : Nat} {rest : List Char} {e : ParseError}
    (hspace : isWhiteSpace c = false) (h : lexToken size c rest = .error e) :
    tokensOf size (c :: rest) = none := by
  rw [tokensOf, lex, if_neg (Bool.eq_false_iff.mp hspace)]
  split
  · rfl
  · rename_i hok
    cases hok.symm.trans h

theorem lexes_mark {c : Char} {token : Token} (hspace : isWhiteSpace c = false)
    (h : ∀ size rest, lexToken size c rest = .ok (token, rest)) :
    Lexes (fun _ => True) [c] (some [token]) := by
  intro size rest _
  rw [List.singleton_append, tokensOf_token hspace (h size rest)]
  cases tokensOf size rest <;> rfl

theorem lexes_space : Lexes (fun _ => True) [' '] (some []) := by
  intro size rest _
  rw [List.singleton_append, tokensOf_space rfl]
  simp [joined]

-- -----------------------------------------------------------------------------
-- Literals
-- -----------------------------------------------------------------------------

/-- A character that quoting leaves readable. -/
def isPlain (c : Char) : Bool := !isControl c || c = '\n' || c = '\r' || c = '\t'

def plainText (value : String) : Bool := value.toList.all isPlain

def escaped (c : Char) : List Char :=
  if c = '"' then ['\\', '"']
  else if c = '\\' then ['\\', '\\']
  else if c = '\n' then ['\\', 'n']
  else if c = '\r' then ['\\', 'r']
  else if c = '\t' then ['\\', 't']
  else [c]

theorem quoteText_toList (value : String) :
    (quoteText value).toList = '"' :: (value.toList.flatMap escaped ++ ['"']) := by
  rw [quoteText, String.toList_ofList]
  rfl

theorem lexString_raw {c : Char} (hquote : c ≠ '"') (hbackslash : c ≠ '\\') (size start : Nat)
    (tail : List Char) : lexString size start (c :: tail) =
      if isControl c ∧ c ≠ '\t' then .error ⟨offsetOf size (c :: tail), .unexpectedCharacter c⟩
      else (lexString size start tail).map fun (value, rest) => (c :: value, rest) := by
  rw [lexString]
  · exact hquote
  · exact fun h => absurd h hbackslash
  · exact fun _ _ _ _ _ h => absurd h hbackslash
  · exact fun _ _ h => absurd h hbackslash

theorem lexString_escaped (size start : Nat) (c : Char) (tail : List Char) :
    (lexString size start (escaped c ++ tail)).toOption =
      if isPlain c then (lexString size start tail).toOption.map fun (value, rest) =>
        (c :: value, rest) else none := by
  have hmap : ∀ (c : Char) (r : Except ParseError (List Char × List Char)),
      (r.map fun (value, rest) => (c :: value, rest)).toOption =
        r.toOption.map fun (value, rest) => (c :: value, rest) := by
    intro c r
    cases r <;> rfl
  unfold escaped
  split
  · rename_i h
    subst h
    exact hmap '"' (lexString size start tail)
  · rename_i hquote
    split
    · rename_i h
      subst h
      exact hmap '\\' (lexString size start tail)
    · rename_i hbackslash
      split
      · rename_i h
        subst h
        exact hmap '\n' (lexString size start tail)
      · rename_i hnewline
        split
        · rename_i h
          subst h
          exact hmap '\r' (lexString size start tail)
        · rename_i hreturn
          split
          · rename_i h
            subst h
            exact hmap '\t' (lexString size start tail)
          · rename_i htab
            rw [List.singleton_append, lexString_raw hquote hbackslash]
            have hplain : isPlain c = !isControl c := by
              simp [isPlain, hnewline, hreturn, htab]
            rw [hplain]
            cases hcontrol : isControl c with
            | true => rw [if_pos ⟨rfl, htab⟩]; rfl
            | false => rw [if_neg (fun h => nomatch h.1)]; exact hmap c _

theorem lexString_quoted (size start : Nat) (chars rest : List Char) :
    (lexString size start (chars.flatMap escaped ++ '"' :: rest)).toOption =
      if chars.all isPlain then some (chars, rest) else none := by
  induction chars with
  | nil => rfl
  | cons c chars ih =>
    rw [List.flatMap_cons, List.append_assoc, lexString_escaped, ih, List.all_cons]
    cases isPlain c <;> cases chars.all isPlain <;> rfl

def textTokens (value : String) : Option (List Token) :=
  if plainText value then some [.text value] else none

theorem lexes_quoted (value : String) :
    Lexes (fun _ => True) (quoteText value).toList (textTokens value) := by
  intro size rest _
  have hspace : isWhiteSpace '"' = false := rfl
  have hchars : (quoteText value).toList ++ rest =
      '"' :: (value.toList.flatMap escaped ++ '"' :: rest) := by
    rw [quoteText_toList, List.cons_append, List.append_assoc]
    rfl
  have hlex := lexString_quoted size
    (offsetOf size ('"' :: (value.toList.flatMap escaped ++ '"' :: rest))) value.toList rest
  have htoken : lexToken size '"' (value.toList.flatMap escaped ++ '"' :: rest) =
      (lexString size (offsetOf size ('"' :: (value.toList.flatMap escaped ++ '"' :: rest)))
        (value.toList.flatMap escaped ++ '"' :: rest)).map fun (value, rest) =>
          (.text (String.ofList value), rest) := rfl
  rw [hchars, textTokens, plainText]
  cases hread : lexString size (offsetOf size ('"' :: (value.toList.flatMap escaped ++ '"' :: rest)))
      (value.toList.flatMap escaped ++ '"' :: rest) with
  | error e =>
    rw [hread] at hlex htoken
    have hplain : value.toList.all isPlain = false := by
      by_contra h
      rw [Bool.not_eq_false] at h
      rw [if_pos h] at hlex
      cases hlex
    rw [hplain, tokensOf_error hspace htoken]
    rfl
  | ok read =>
    rw [hread] at hlex htoken
    have hplain : value.toList.all isPlain = true := by
      by_contra h
      rw [if_neg h] at hlex
      cases hlex
    rw [hplain, if_pos rfl] at hlex
    obtain rfl : read = (value.toList, rest) := Option.some.inj hlex
    rw [hplain, if_pos rfl, tokensOf_token hspace htoken]
    show (tokensOf size rest).map (.text (String.ofList value.toList) :: ·) = _
    rw [String.ofList_toList]
    cases tokensOf size rest <;> rfl

-- -----------------------------------------------------------------------------
-- Names and numbers
-- -----------------------------------------------------------------------------

theorem takeWhile_delimited {p : Char → Bool} {chars rest : List Char} (h : chars.all p = true)
    (hrest : ∀ c ∈ rest.head?, p c = false) : (chars ++ rest).takeWhile p = chars ∧
      (chars ++ rest).dropWhile p = rest := by
  have hall := List.all_eq_true.mp h
  rw [List.takeWhile_append_of_pos hall, List.dropWhile_append_of_pos hall]
  cases rest with
  | nil => simp
  | cons c tail => simp [hrest c rfl]

theorem lexToken_word {c : Char} (h : isNameStart c = true ∨ isAsciiDigit c = true) (size : Nat)
    (rest : List Char) : lexToken size c rest =
      if isAsciiDigit c then
        if decimal (c :: rest.takeWhile isAsciiDigit) ≤ usizeMax then
          .ok (.integer (decimal (c :: rest.takeWhile isAsciiDigit)), rest.dropWhile isAsciiDigit)
        else .error ⟨offsetOf size (c :: rest), .unexpectedCharacter c⟩
      else if isNameStart c then
        .ok (.identifier (String.ofList (c :: rest.takeWhile isNameChar)),
          rest.dropWhile isNameChar)
      else .error ⟨offsetOf size (c :: rest), .unexpectedCharacter c⟩ := by
  unfold lexToken
  split
  iterate 8
    · obtain h | h := h <;> cases h
  · rfl

theorem isAsciiDigit_name {c : Char} (h : isNameChar c = false) : isAsciiDigit c = false := by
  simp only [isNameChar, isAsciiAlphanumeric, Bool.or_eq_false_iff] at h
  exact h.1.1.1.1

theorem isAsciiGraphic_word {c : Char} (h : isNameStart c = true ∨ isAsciiDigit c = true) :
    isWhiteSpace c = false := by
  apply isAsciiGraphic_not_whiteSpace
  obtain h | h := h
  · simp only [isNameStart, Bool.or_eq_true, decide_eq_true_eq] at h
    obtain (h | h) | rfl := h
    · exact isAsciiAlphanumeric_graphic (by simp [isAsciiAlphanumeric, h])
    · exact isAsciiAlphanumeric_graphic (by simp [isAsciiAlphanumeric, h])
    · rfl
  · exact isAsciiAlphanumeric_graphic (by simp [isAsciiAlphanumeric, h])

theorem lexes_name {name : String} (h : isBareIdentifier name = true) :
    Lexes Delimited name.toList (some [.identifier name]) := by
  intro size rest hrest
  unfold isBareIdentifier at h
  split at h
  · cases h
  · rename_i first more hname
    rw [Bool.and_eq_true] at h
    have hstart : isNameStart first = true := h.1
    have hdigit : isAsciiDigit first = false := by
      by_contra hd
      rw [Bool.not_eq_false] at hd
      simp only [isAsciiDigit, isNameStart, isAsciiUpper, isAsciiLower, Bool.and_eq_true,
        Bool.or_eq_true, decide_eq_true_eq] at hd hstart
      obtain (hs | hs) | rfl := hstart
      · omega
      · omega
      · exact absurd hd.2 (by decide)
    obtain ⟨htake, hdrop⟩ := takeWhile_delimited h.2 hrest
    have htoken : lexToken size first (more ++ rest) = .ok (.identifier name, rest) := by
      rw [lexToken_word (.inl hstart), hdigit, if_neg Bool.false_ne_true, if_pos hstart]
      have hof : String.ofList (first :: more) = name := by rw [← hname, String.ofList_toList]
      have htake' : (more ++ rest).takeWhile isNameChar = more := htake
      have hdrop' : (more ++ rest).dropWhile isNameChar = rest := hdrop
      rw [htake', hdrop', hof]
    rw [hname, List.cons_append, tokensOf_token (isAsciiGraphic_word (.inl hstart)) htoken]
    cases tokensOf size rest <;> rfl

theorem isAsciiDigit_digit {c : Char} (h : c.isDigit = true) : isAsciiDigit c = true := by
  simp only [Char.isDigit, Bool.and_eq_true, decide_eq_true_eq] at h
  simp only [isAsciiDigit, Bool.and_eq_true, decide_eq_true_eq]
  exact ⟨UInt32.le_iff_toNat_le.mp h.1, UInt32.le_iff_toNat_le.mp h.2⟩

theorem decimal_toDigits (n : Nat) : decimal (Nat.toDigits 10 n) = n := by
  have hfold : decimal (Nat.toDigits 10 n) = Nat.ofDigitChars 10 (Nat.toDigits 10 n) 0 := by
    rw [Nat.ofDigitChars_eq_foldl, decimal]
    congr 1
    funext sofar c
    rw [Nat.mul_comm]
    rfl
  rw [hfold, Nat.ofDigitChars_ten_toDigits]

theorem lexes_number {n : Nat} (h : n ≤ usizeMax) :
    Lexes Delimited (toString n).toList (some [.integer n]) := by
  intro size rest hrest
  have hdigits : (toString n).toList = Nat.toDigits 10 n := by simp
  have hall : ∀ c ∈ Nat.toDigits 10 n, isAsciiDigit c = true := fun c hc =>
    isAsciiDigit_digit (Nat.isDigit_of_mem_toDigits (by decide) (by decide) hc)
  rw [hdigits]
  cases hn : Nat.toDigits 10 n with
  | nil => exact absurd hn Nat.toDigits_ne_nil
  | cons first more =>
    rw [hn] at hall
    have hfirst := hall first (List.mem_cons_self ..)
    obtain ⟨htake, hdrop⟩ := takeWhile_delimited
      (List.all_eq_true.mpr fun c hc => hall c (List.mem_cons_of_mem _ hc))
      fun c hc => isAsciiDigit_name (hrest c hc)
    have hvalue : decimal (first :: more) = n := hn ▸ decimal_toDigits n
    have htoken : lexToken size first (more ++ rest) = .ok (.integer n, rest) := by
      rw [lexToken_word (.inr hfirst), if_pos hfirst, htake, hdrop, hvalue, if_pos h]
    rw [List.cons_append, tokensOf_token (isAsciiGraphic_word (.inr hfirst)) htoken]
    cases tokensOf size rest <;> rfl

-- -----------------------------------------------------------------------------
-- Paths
-- -----------------------------------------------------------------------------

def Segment.plain : Segment → Bool
  | .key name => plainText name
  | .index _ => true

def Segment.Fits : Segment → Prop
  | .key _ => True
  | .index position => position ≤ usizeMax

def Segment.displayTokens : Segment → Option (List Token)
  | .key name =>
    if isBareIdentifier name then some [.dot, .identifier name]
    else joined (some [.leftBracket]) (joined (textTokens name) (some [.rightBracket]))
  | .index position => some [.leftBracket, .integer position, .rightBracket]

def segmentsDisplayTokens : List Segment → Option (List Token)
  | [] => some []
  | segment :: rest => joined segment.displayTokens (segmentsDisplayTokens rest)

theorem delimited_cons {c : Char} (h : isNameChar c = false) (rest : List Char) :
    Delimited (c :: rest) := by
  intro next hnext
  cases hnext
  exact h

theorem Segment.delimited (segment : Segment) (rest : List Char) :
    Delimited (segment.display.toList ++ rest) := by
  cases segment with
  | key name =>
    by_cases hbare : isBareIdentifier name = true
    · rw [Segment.display, if_pos hbare, String.toList_append]
      exact delimited_cons rfl _
    · rw [Segment.display, if_neg hbare, String.toList_append, String.toList_append]
      exact delimited_cons rfl _
  | index position =>
    rw [Segment.display, String.toList_append, String.toList_append]
    exact delimited_cons rfl _

theorem lexes_leftBracket : Lexes (fun _ => True) ['['] (some [.leftBracket]) :=
  lexes_mark rfl fun _ _ => rfl

theorem lexes_rightBracket : Lexes (fun _ => True) [']'] (some [.rightBracket]) :=
  lexes_mark rfl fun _ _ => rfl

theorem lexes_segment {segment : Segment} (h : segment.Fits) :
    Lexes Delimited segment.display.toList segment.displayTokens := by
  have hclose : ∀ rest, True → Delimited ([']'] ++ rest) := fun rest _ => delimited_cons rfl rest
  cases segment with
  | key name =>
    by_cases hbare : isBareIdentifier name = true
    · have hdot : Lexes (fun _ => True) ['.'] (some [.dot]) := lexes_mark rfl fun _ _ => rfl
      rw [Segment.display, Segment.displayTokens, if_pos hbare, if_pos hbare, String.toList_append]
      exact hdot.append (lexes_name hbare) fun _ _ => trivial
    · rw [Segment.display, Segment.displayTokens, if_neg hbare, if_neg hbare,
        String.toList_append, String.toList_append, List.append_assoc]
      exact (lexes_leftBracket.append ((lexes_quoted name).append lexes_rightBracket
        fun _ _ => trivial) fun _ _ => trivial).imp fun _ _ => trivial
  | index position =>
    rw [Segment.display, String.toList_append, String.toList_append, List.append_assoc]
    exact (lexes_leftBracket.append ((lexes_number h).append lexes_rightBracket hclose)
      fun _ _ => trivial).imp fun _ _ => trivial

theorem segments_delimited (segments : List Segment) {rest : List Char} (h : Delimited rest) :
    Delimited (segments.flatMap (·.display.toList) ++ rest) := by
  cases segments with
  | nil => exact h
  | cons segment more =>
    rw [List.flatMap_cons, List.append_assoc]
    exact segment.delimited _

theorem lexes_segments {segments : List Segment} (h : ∀ segment ∈ segments, segment.Fits) :
    Lexes Delimited (segments.flatMap (·.display.toList)) (segmentsDisplayTokens segments) := by
  induction segments with
  | nil => exact .nil
  | cons segment more ih =>
    rw [List.flatMap_cons]
    exact (lexes_segment (h segment (List.mem_cons_self ..))).append
      (ih fun other hm => h other (List.mem_cons_of_mem _ hm))
      fun _ hrest => segments_delimited more hrest

theorem lexes_path {path : Path} (h : ∀ segment ∈ path.segments, segment.Fits) :
    Lexes Delimited path.display.toList
      (joined (some [.identifier path.root.asStr]) (segmentsDisplayTokens path.segments)) := by
  have hroot : isBareIdentifier path.root.asStr = true := by
    cases path.root <;> decide
  rw [Path.display, String.toList_append, String.toList_join, List.flatMap_map]
  exact (lexes_name hroot).append (lexes_segments h) fun _ hrest => segments_delimited _ hrest

-- -----------------------------------------------------------------------------
-- Expressions
-- -----------------------------------------------------------------------------

def optionTokens (separator : Option String) (order : Option SortOrder) :
    List (Option (List Token)) :=
  (separator.map fun value =>
      joined (some [.identifier "separator", .colon]) (textTokens value)).toList ++
    (order.map fun direction => some [.identifier "order", .colon, .identifier direction.asStr]).toList

def commaTokens : List (Option (List Token)) → Option (List Token)
  | [] => some []
  | [tokens] => tokens
  | tokens :: rest => joined tokens (joined (some [.comma]) (commaTokens rest))

mutual

def Expr.displayTokens : Expr → Option (List Token)
  | .literal value => textTokens value
  | .path block =>
    joined (some [.identifier block.root.asStr]) (segmentsDisplayTokens block.segments)
  | .call function arguments separator order =>
    joined (some [.identifier function.name, .leftParen])
      (joined (commaTokens (optionTokens separator order ++ Expr.displayTokensList arguments))
        (some [.rightParen]))

def Expr.displayTokensList : List Expr → List (Option (List Token))
  | [] => []
  | e :: rest => e.displayTokens :: Expr.displayTokensList rest

end

mutual

def Expr.Fits : Expr → Prop
  | .literal _ => True
  | .path block => ∀ segment ∈ block.segments, segment.Fits
  | .call _ arguments _ _ => Expr.FitsList arguments

def Expr.FitsList : List Expr → Prop
  | [] => True
  | e :: rest => e.Fits ∧ Expr.FitsList rest

end

theorem lexes_options (separator : Option String) (order : Option SortOrder) :
    List.Forall₂ (fun (text : String) tokens => Lexes Delimited text.toList tokens)
      (optionTexts separator order) (optionTokens separator order) := by
  have hspaced : Lexes (fun _ => True) [':', ' '] (some [.colon]) :=
    (lexes_mark rfl fun _ _ => rfl).append lexes_space fun _ _ => trivial
  have hcolon : ∀ rest, True → Delimited ([':', ' '] ++ rest) := fun rest _ =>
    delimited_cons rfl _
  have hname : ∀ {name : String}, isBareIdentifier name = true →
      Lexes (fun _ => True) (name.toList ++ [':', ' ']) (some [.identifier name, .colon]) :=
    fun h => (lexes_name h).append hspaced hcolon
  have hseparator : ∀ value, Lexes Delimited ("separator: " ++ quoteText value).toList
      (joined (some [.identifier "separator", .colon]) (textTokens value)) := by
    intro value
    have hkeyword : "separator: ".toList = "separator".toList ++ [':', ' '] := by decide
    have hbare : isBareIdentifier "separator" = true := by decide
    rw [String.toList_append, hkeyword]
    exact ((hname hbare).append (lexes_quoted value) fun _ _ => trivial).imp fun _ _ => trivial
  have horder : ∀ direction : SortOrder, Lexes Delimited ("order: " ++ direction.asStr).toList
      (some [.identifier "order", .colon, .identifier direction.asStr]) := by
    intro direction
    have hkeyword : "order: ".toList = "order".toList ++ [':', ' '] := by decide
    have hbare : isBareIdentifier "order" = true := by decide
    have hvalue : isBareIdentifier direction.asStr = true := by
      cases direction <;> decide
    rw [String.toList_append, hkeyword]
    exact (hname hbare).append (lexes_name hvalue) fun _ _ => trivial
  unfold optionTexts optionTokens
  cases separator with
  | none =>
    cases order with
    | none => exact .nil
    | some direction => exact .cons (horder direction) .nil
  | some value =>
    cases order with
    | none => exact .cons (hseparator value) .nil
    | some direction => exact .cons (hseparator value) (.cons (horder direction) .nil)

theorem lexes_commaSeparated {texts : List String} {tokens : List (Option (List Token))}
    (h : List.Forall₂ (fun (text : String) tokens => Lexes Delimited text.toList tokens)
      texts tokens) :
    Lexes Delimited (commaSeparated texts).toList (commaTokens tokens) := by
  have hcomma : Lexes (fun _ => True) [',', ' '] (some [.comma]) :=
    (lexes_mark rfl fun _ _ => rfl).append lexes_space fun _ _ => trivial
  induction h with
  | nil => exact .nil
  | @cons text first texts tokens hfirst hrest ih =>
    cases hrest with
    | nil => exact hfirst
    | cons hsecond hmore =>
      show Lexes Delimited (text ++ ", " ++ commaSeparated (_ :: _)).toList
        (joined first (joined (some [.comma]) (commaTokens (_ :: _))))
      rw [String.toList_append, String.toList_append, List.append_assoc]
      exact hfirst.append (hcomma.append ih fun _ _ => trivial) fun _ _ => delimited_cons rfl _

mutual

theorem lexes_display : (e : Expr) → e.Fits → Lexes Delimited e.display.toList e.displayTokens
  | .literal value, _ => (lexes_quoted value).imp fun _ _ => trivial
  | .path block, h => lexes_path h
  | .call function arguments separator order, h => by
    have hname : isBareIdentifier function.name = true := by
      cases function <;> decide
    have hopen : Lexes (fun _ => True) ['('] (some [.leftParen]) := lexes_mark rfl fun _ _ => rfl
    have hclose : Lexes (fun _ => True) [')'] (some [.rightParen]) := lexes_mark rfl fun _ _ => rfl
    have hitems := lexes_commaSeparated
      (List.rel_append (lexes_options separator order) (lexes_displayList arguments h))
    have hstart : Lexes (fun _ => True) (function.name.toList ++ ['('])
        (some [.identifier function.name, .leftParen]) :=
      (lexes_name hname).append hopen fun rest _ => delimited_cons rfl rest
    rw [Expr.display, Expr.displayTokens, String.toList_append, String.toList_append,
      String.toList_append, List.append_assoc]
    exact (hstart.append (hitems.append hclose fun rest _ => delimited_cons rfl rest)
      fun _ _ => trivial).imp fun _ _ => trivial

theorem lexes_displayList : (es : List Expr) → Expr.FitsList es →
    List.Forall₂ (fun (text : String) tokens => Lexes Delimited text.toList tokens)
      (Expr.displayList es) (Expr.displayTokensList es)
  | [], _ => .nil
  | e :: rest, h => .cons (lexes_display e h.1) (lexes_displayList rest h.2)

end

-- -----------------------------------------------------------------------------
-- What the rendering's tokens derive
-- -----------------------------------------------------------------------------

theorem Root.parse_asStr (root : Root) : Root.parse root.asStr = some root := by
  cases root <;> rfl

theorem SortOrder.parse_asStr (direction : SortOrder) :
    SortOrder.parse direction.asStr = some direction := by
  cases direction <;> rfl

theorem Function.parse_name (function : Function) : Function.parse function.name = some function := by
  cases function <;> rfl

theorem joined_eq_some {first second : Option (List Token)} {ts : List Token} :
    joined first second = some ts ↔ ∃ as bs, first = some as ∧ second = some bs ∧ ts = as ++ bs := by
  cases first <;> cases second <;> simp [joined, eq_comm]

theorem textTokens_eq_some {value : String} {ts : List Token} (h : textTokens value = some ts) :
    ts = [.text value] := by
  unfold textTokens at h
  split at h <;> cases h
  rfl

theorem segment_derives {segment : Segment} {ts : List Token}
    (h : segment.displayTokens = some ts) : SegmentTokens ts segment := by
  cases segment with
  | key name =>
    unfold Segment.displayTokens at h
    dsimp only at h
    split at h
    · cases h
      exact .member name
    · obtain ⟨_, _, ho, hinner, rfl⟩ := joined_eq_some.mp h
      obtain ⟨_, _, ht, hc, rfl⟩ := joined_eq_some.mp hinner
      obtain rfl := textTokens_eq_some ht
      cases ho
      cases hc
      exact .quoted name
  | index position =>
    cases h
    exact .index position

theorem segments_derive {segments : List Segment} {ts : List Token}
    (h : segmentsDisplayTokens segments = some ts) : SegmentsTokens ts segments := by
  induction segments generalizing ts with
  | nil =>
    cases h
    exact .nil
  | cons segment more ih =>
    obtain ⟨_, _, hs, hmore, rfl⟩ := joined_eq_some.mp h
    exact .cons (segment_derives hs) (ih hmore)

/-- The options of a call as its first items. -/
def optionItems (separator : Option String) (order : Option SortOrder) : List Item :=
  (separator.map Item.separator).toList ++ (order.map Item.order).toList

theorem options_derive (separator : Option String) (order : Option SortOrder) :
    List.Forall₂ (fun (tokens : Option (List Token)) item => ∀ ts ∈ tokens, ItemTokens ts item)
      (optionTokens separator order) (optionItems separator order) := by
  have hseparator : ∀ value,
      ∀ ts ∈ joined (some [.identifier "separator", .colon]) (textTokens value),
        ItemTokens ts (.separator value) := by
    intro value ts hts
    obtain ⟨_, _, hk, hv, rfl⟩ := joined_eq_some.mp hts
    obtain rfl := textTokens_eq_some hv
    cases hk
    exact .separator value
  have horder : ∀ direction : SortOrder, ∀ ts ∈ some
      [Token.identifier "order", .colon, .identifier direction.asStr],
        ItemTokens ts (.order direction) := by
    intro direction ts hts
    cases hts
    exact .order direction.parse_asStr
  cases separator with
  | none =>
    cases order with
    | none => exact .nil
    | some direction => exact .cons (horder direction) .nil
  | some value =>
    cases order with
    | none => exact .cons (hseparator value) .nil
    | some direction => exact .cons (hseparator value) (.cons (horder direction) .nil)

theorem items_derive {tokens : List (Option (List Token))} {items : List Item} {ts : List Token}
    (h : List.Forall₂ (fun (tokens : Option (List Token)) item => ∀ ts ∈ tokens, ItemTokens ts item)
      tokens items) (hne : items ≠ []) (hts : commaTokens tokens = some ts) :
    ItemsTokens ts items := by
  induction h generalizing ts with
  | nil => exact absurd rfl hne
  | @cons first item tokens items hfirst hrest ih =>
    cases hrest with
    | nil => exact .last (hfirst ts hts)
    | cons hsecond hmore =>
      obtain ⟨_, _, hf, h, rfl⟩ := joined_eq_some.mp hts
      obtain ⟨_, _, hc, hm, rfl⟩ := joined_eq_some.mp h
      cases hc
      exact .more (hfirst _ hf) (ih (List.cons_ne_nil _ _) hm)

theorem optionItems_arguments (separator : Option String) (order : Option SortOrder) :
    (optionItems separator order).filterMap Item.argument? = [] := by
  cases separator <;> cases order <;> rfl

theorem argumentItems (arguments : List Expr) :
    (arguments.map Item.argument).filterMap Item.argument? = arguments ∧
      (arguments.map Item.argument).filterMap Item.separator? = [] ∧
      (arguments.map Item.argument).filterMap Item.order? = [] := by
  induction arguments with
  | nil => exact ⟨rfl, rfl, rfl⟩
  | cons e rest ih =>
    obtain ⟨h₁, h₂, h₃⟩ := ih
    refine ⟨congrArg (e :: ·) h₁, h₂, h₃⟩

mutual

theorem display_derives : (e : Expr) → ∀ ts ∈ e.displayTokens, ExprTokens ts e
  | .literal value, ts, hts => by
    obtain rfl := textTokens_eq_some hts
    exact .literal value
  | .path block, ts, hts => by
    obtain ⟨_, _, hr, hs, rfl⟩ := joined_eq_some.mp hts
    cases hr
    exact .path block.root.parse_asStr (segments_derive hs)
  | .call function arguments separator order, ts, hts => by
    obtain ⟨_, _, hn, h, rfl⟩ := joined_eq_some.mp hts
    obtain ⟨cs, _, hc, hp, rfl⟩ := joined_eq_some.mp h
    cases hn
    cases hp
    have hitems := List.rel_append (options_derive separator order) (displayList_derives arguments)
    obtain ⟨h₁, h₂, h₃⟩ := argumentItems arguments
    by_cases hnil : optionItems separator order ++ arguments.map Item.argument = []
    · obtain ⟨hoptions, hargs⟩ := List.append_eq_nil_iff.mp hnil
      obtain rfl := List.map_eq_nil_iff.mp hargs
      cases separator <;> cases order <;> cases hoptions
      cases hc
      exact .emptyCall function.parse_name
    · refine .call function.parse_name (items_derive hitems hnil hc) ?_ ?_ ?_
      · rw [List.filterMap_append, optionItems_arguments, h₁, List.nil_append]
      · rw [List.filterMap_append, h₂, List.append_nil]
        cases separator <;> cases order <;> rfl
      · rw [List.filterMap_append, h₃, List.append_nil]
        cases separator <;> cases order <;> rfl

theorem displayList_derives : (es : List Expr) →
    List.Forall₂ (fun (tokens : Option (List Token)) item => ∀ ts ∈ tokens, ItemTokens ts item)
      (Expr.displayTokensList es) (es.map Item.argument)
  | [] => .nil
  | e :: rest => .cons (fun ts hts => .argument (display_derives e ts hts)) (displayList_derives rest)

end

-- -----------------------------------------------------------------------------
-- Plain expressions
-- -----------------------------------------------------------------------------

mutual

/-- No literal or member name holds a control character that quoting leaves raw. -/
def Expr.plain : Expr → Bool
  | .literal value => plainText value
  | .path block => block.segments.all Segment.plain
  | .call _ arguments separator _ => separator.all plainText && Expr.plainList arguments

def Expr.plainList : List Expr → Bool
  | [] => true
  | e :: rest => e.plain && Expr.plainList rest

end

theorem joined_isSome (first second : Option (List Token)) :
    (joined first second).isSome = (first.isSome && second.isSome) := by
  cases first <;> cases second <;> rfl

theorem textTokens_isSome (value : String) : (textTokens value).isSome = plainText value := by
  unfold textTokens
  cases plainText value <;> rfl

theorem isNameChar_graphic {c : Char} (h : isNameChar c = true) : isAsciiGraphic c = true := by
  simp only [isNameChar, Bool.or_eq_true, decide_eq_true_eq] at h
  obtain (h | rfl) | rfl := h
  · exact isAsciiAlphanumeric_graphic h
  · rfl
  · rfl

theorem isNameChar_plain {c : Char} (h : isNameChar c = true) : isPlain c = true := by
  simp [isPlain, isAsciiGraphic_not_control (isNameChar_graphic h)]

theorem isNameStart_nameChar {c : Char} (h : isNameStart c = true) : isNameChar c = true := by
  simp only [isNameStart, Bool.or_eq_true, decide_eq_true_eq] at h
  obtain (h | h) | rfl := h
  · simp [isNameChar, isAsciiAlphanumeric, h]
  · simp [isNameChar, isAsciiAlphanumeric, h]
  · rfl

theorem bare_plain {name : String} (h : isBareIdentifier name = true) : plainText name = true := by
  unfold isBareIdentifier at h
  split at h
  · cases h
  · rename_i first more hname
    rw [Bool.and_eq_true] at h
    rw [plainText, hname, List.all_cons, isNameChar_plain (isNameStart_nameChar h.1),
      Bool.true_and]
    exact List.all_eq_true.mpr fun c hc => isNameChar_plain (List.all_eq_true.mp h.2 c hc)

theorem segments_isSome (segments : List Segment) :
    (segmentsDisplayTokens segments).isSome = segments.all Segment.plain := by
  induction segments with
  | nil => rfl
  | cons segment more ih =>
    have hsegment : segment.displayTokens.isSome = segment.plain := by
      cases segment with
      | key name =>
        by_cases hbare : isBareIdentifier name = true
        · rw [Segment.displayTokens, if_pos hbare, Segment.plain, bare_plain hbare]
          rfl
        · rw [Segment.displayTokens, if_neg hbare, joined_isSome, joined_isSome,
            textTokens_isSome, Segment.plain]
          simp
      | index position => rfl
    rw [segmentsDisplayTokens, joined_isSome, hsegment, ih, List.all_cons]

theorem commaTokens_isSome (tokens : List (Option (List Token))) :
    (commaTokens tokens).isSome = tokens.all Option.isSome := by
  induction tokens with
  | nil => rfl
  | cons first rest ih =>
    cases rest with
    | nil => simp [commaTokens]
    | cons second more =>
      show (joined first (joined (some [.comma]) (commaTokens (second :: more)))).isSome = _
      rw [joined_isSome, joined_isSome, ih, Option.isSome_some, Bool.true_and]
      rfl

mutual

theorem display_isSome : (e : Expr) → e.displayTokens.isSome = e.plain
  | .literal value => textTokens_isSome value
  | .path block => by
    rw [Expr.displayTokens, joined_isSome, segments_isSome, Expr.plain, Option.isSome_some,
      Bool.true_and]
  | .call function arguments separator order => by
    have hoptions : (optionTokens separator order).all Option.isSome = separator.all plainText := by
      cases separator <;> cases order <;>
        simp [optionTokens, joined_isSome, textTokens_isSome]
    rw [Expr.displayTokens, joined_isSome, joined_isSome, commaTokens_isSome, List.all_append,
      hoptions, displayList_isSome arguments, Expr.plain]
    simp

theorem displayList_isSome : (es : List Expr) →
    (Expr.displayTokensList es).all Option.isSome = Expr.plainList es
  | [] => rfl
  | e :: rest => by
    rw [Expr.displayTokensList, List.all_cons, display_isSome e, displayList_isSome rest,
      Expr.plainList]

end

-- -----------------------------------------------------------------------------
-- Positions of a parsed expression
-- -----------------------------------------------------------------------------

theorem lexToken_integer {size n : Nat} {c : Char} {rest rest' : List Char}
    (h : lexToken size c rest = .ok (.integer n, rest')) : n ≤ usizeMax := by
  unfold lexToken at h
  split at h
  iterate 7
    · cases h
  · obtain ⟨_, _, heq⟩ := Except.map_ok.mp h
    cases heq
  · split at h
    · dsimp only at h
      split at h
      · rename_i hle
        cases h
        exact hle
      · cases h
    · split at h <;> cases h

theorem lex_integers {size : Nat} {chars : List Char} {found : List Spanned}
    (h : lex size chars = .ok found) :
    ∀ n, Token.integer n ∈ found.map Spanned.token → n ≤ usizeMax := by
  fun_induction lex size chars generalizing found with
  | case1 =>
    cases h
    exact fun _ hm => nomatch hm
  | case2 c rest hspace ih => exact ih h
  | case3 => cases h
  | case4 c rest hspace token rest' hlexed ih =>
    obtain ⟨more, hmore, rfl⟩ := Except.map_ok.mp h
    intro n hm
    rw [List.map_cons, List.mem_cons] at hm
    obtain hm | hm := hm
    · have htoken : token = .integer n := hm.symm
      exact lexToken_integer (htoken ▸ hlexed)
    · exact ih hmore n hm

theorem SegmentsTokens.fits {ts : List Token} {segments : List Segment}
    (h : SegmentsTokens ts segments) (hints : ∀ n, Token.integer n ∈ ts → n ≤ usizeMax) :
    ∀ segment ∈ segments, segment.Fits := by
  induction h with
  | nil => exact fun _ hm => nomatch hm
  | @cons first segment more segments hsegment _ ih =>
    rw [List.forall_mem_cons]
    refine ⟨?_, ih fun n hm => hints n (List.mem_append_right _ hm)⟩
    cases hsegment with
    | member | quoted => trivial
    | index position => exact hints position (by simp)

theorem Expr.fitsList_iff {es : List Expr} : Expr.FitsList es ↔ ∀ e ∈ es, e.Fits := by
  induction es with
  | nil => simp [Expr.FitsList]
  | cons e rest ih => rw [Expr.FitsList, ih, List.forall_mem_cons]

mutual

theorem ExprTokens.fits {ts : List Token} {e : Expr} (h : ExprTokens ts e)
    (hints : ∀ n, Token.integer n ∈ ts → n ≤ usizeMax) : e.Fits := by
  match h with
  | .literal _ => trivial
  | .path _ hsegments => exact hsegments.fits fun n hm => hints n (List.mem_cons_of_mem _ hm)
  | .emptyCall _ => trivial
  | .call _ hitems harguments _ _ =>
    rw [Expr.Fits, Expr.fitsList_iff, ← harguments]
    refine ItemsTokens.fits hitems fun n hm => hints n ?_
    exact List.mem_cons_of_mem _ (List.mem_cons_of_mem _ (List.mem_append_left _ hm))

theorem ItemTokens.fits {ts : List Token} {item : Item} (h : ItemTokens ts item)
    (hints : ∀ n, Token.integer n ∈ ts → n ≤ usizeMax) : ∀ e ∈ item.argument?, e.Fits := by
  match h with
  | .argument he =>
    intro e hm
    cases hm
    exact ExprTokens.fits he hints
  | .separator _ => exact fun _ hm => nomatch hm
  | .order _ => exact fun _ hm => nomatch hm

theorem ItemsTokens.fits {ts : List Token} {items : List Item} (h : ItemsTokens ts items)
    (hints : ∀ n, Token.integer n ∈ ts → n ≤ usizeMax) :
    ∀ e ∈ items.filterMap Item.argument?, e.Fits := by
  match h with
  | .last hitem =>
    have hfirst := ItemTokens.fits hitem hints
    intro e hm
    obtain ⟨item, hitems, hargument⟩ := List.mem_filterMap.mp hm
    cases List.mem_singleton.mp hitems
    exact hfirst e hargument
  | .more hitem hmore =>
    have hfirst := ItemTokens.fits hitem fun n hn => hints n (List.mem_append_left _ hn)
    have hothers := ItemsTokens.fits hmore fun n hn =>
      hints n (List.mem_append_right _ (List.mem_cons_of_mem _ hn))
    intro e hm
    obtain ⟨item, hitems, hargument⟩ := List.mem_filterMap.mp hm
    obtain rfl | hitems := List.mem_cons.mp hitems
    · exact hfirst e hargument
    · exact hothers e (List.mem_filterMap.mpr ⟨item, hitems, hargument⟩)

end

-- -----------------------------------------------------------------------------
-- The rendering, read back
-- -----------------------------------------------------------------------------

theorem tokensOf_display {e : Expr} (h : e.Fits) (size : Nat) :
    tokensOf size e.display.toList = e.displayTokens := by
  have hdelimited : Delimited [] := fun _ hm => nomatch hm
  have hlex := lexes_display e h size [] hdelimited
  have hend : tokensOf size [] = some [] := by rw [tokensOf, lex]; rfl
  rw [List.append_nil, hend] at hlex
  rw [hlex, joined]
  cases e.displayTokens <;> simp

theorem tokensOf_eq_some {size : Nat} {chars : List Char} {ts : List Token} :
    tokensOf size chars = some ts ↔
      ∃ found, lex size chars = .ok found ∧ found.map Spanned.token = ts := by
  rw [tokensOf]
  cases lex size chars <;> simp [Except.map, Except.toOption]

/-- Parsing the rendering of a parsed expression gives it again exactly when no
literal or member name needs an escape that quoting does not write. -/
theorem display_parses_iff (source : String) (ast : Expr) (h : parse source = .ok ast)
    (hsize : ast.display.utf8ByteSize ≤ maxExpressionBytes) :
    parse ast.display = .ok ast ↔ ast.plain = true := by
  obtain ⟨-, found, hlex, hderived⟩ := parse_ok.mp h
  have hfits : ast.Fits := hderived.derives.fits (lex_integers hlex)
  have htokens := tokensOf_display hfits ast.display.utf8ByteSize
  constructor
  · intro hparse
    obtain ⟨-, again, hagain, -⟩ := parse_ok.mp hparse
    have hsome := tokensOf_eq_some.mpr ⟨again, hagain, rfl⟩
    rw [htokens] at hsome
    rw [← display_isSome, hsome, Option.isSome_some]
  · intro hplain
    rw [← display_isSome] at hplain
    obtain ⟨ts, hts⟩ := Option.isSome_iff_exists.mp hplain
    obtain ⟨again, hagain, hmap⟩ := tokensOf_eq_some.mp (htokens.trans hts)
    have hagree : Derived (again.map Spanned.token) ast :=
      ⟨hmap ▸ display_derives ast ts hts, hderived.wellFormed, hderived.depth, hderived.nodes⟩
    exact parse_ok.mpr ⟨hsize, again, hagain, hagree⟩

namespace Rendered

def source : String :=
  "join(sort(request.headers[\"web hook\"], order: desc), \"a\\\"\\t\", separator: \"\\n\")"

def ast : Expr :=
  .call .join [.call .sort [.path ⟨.request, [.key "headers", .key "web hook"]⟩] none
    (some .descending), .literal "a\"\t"] (some "\n") none

theorem reordered_source_parses : parse ast.display = .ok ast := by
  have hparse : parse source = .ok ast := by decide +kernel
  exact (display_parses_iff source ast hparse (by decide +kernel)).mpr (by decide +kernel)

/-- The literal of an escaped control character is rendered with the character itself. -/
theorem escaped_control_unreadable : ¬ ∀ source ast, parse source = .ok ast →
    ast.display.utf8ByteSize ≤ maxExpressionBytes → parse ast.display = .ok ast := by
  intro h
  have hparse : parse "\"\\u0001\"" = .ok (.literal "\x01") := by decide +kernel
  exact absurd (h _ _ hparse (by decide +kernel)) (by decide +kernel)

end Rendered

end SiliconHook
