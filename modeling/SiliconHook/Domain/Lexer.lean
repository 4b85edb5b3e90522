import SiliconHook.Library.Encoding
import SiliconHook.Library.Result

/-!
# Tokens of signature expressions

The tokenizer of the expression language. Offsets are byte positions in the
source, counted from what is left of it.
-/

namespace SiliconHook

open Encoding Text

def maxExpressionBytes : Nat := 4096

def usizeMax : Nat := 2 ^ 64 - 1

inductive ParseErrorKind
  | tooLong
  | empty
  | unexpectedCharacter (character : Char)
  | unterminatedString
  | invalidEscape
  | unexpectedToken (expected found : String)
  | unknownFunction (name : String)
  | unknownRoot (name : String)
  | unsupportedPath (path : String)
  | unexpectedOption (name : String)
  | invalidOrder (value : String)
  | invalidSeparator (value : String)
  | missingOption (name : String)
  | duplicateOption (name : String)
  | arity (function : String) (min : Nat) (max : Option Nat) (actual : Nat)
  | tooDeep
  | tooManyNodes
  deriving DecidableEq, Repr

structure ParseError where
  offset : Nat
  kind : ParseErrorKind
  deriving DecidableEq, Repr

inductive Token
  | identifier (name : String)
  | text (value : String)
  | integer (value : Nat)
  | leftParen
  | rightParen
  | leftBracket
  | rightBracket
  | dot
  | comma
  | colon
  deriving DecidableEq, Repr

def Token.describe : Token → String
  | .identifier name => "identifier " ++ name
  | .text _ => "string literal"
  | .integer value => "integer " ++ toString value
  | .leftParen => "("
  | .rightParen => ")"
  | .leftBracket => "["
  | .rightBracket => "]"
  | .dot => "."
  | .comma => ","
  | .colon => ":"

structure Spanned where
  token : Token
  offset : Nat
  deriving DecidableEq, Repr

-- -----------------------------------------------------------------------------
-- Characters
-- -----------------------------------------------------------------------------

def isNameStart (c : Char) : Bool := isAsciiUpper c || isAsciiLower c || c = '_'

def isNameChar (c : Char) : Bool := isAsciiAlphanumeric c || c = '_' || c = '-'

def unicodeEscape (digits : List Char) : Option Char := do
  let values ← digits.mapM hexDigit
  let n := values.foldl (fun n digit => n * 16 + digit) 0
  if n.isValidChar then some (Char.ofNat n) else none

def simpleEscape : Char → Option Char
  | '"' => some '"'
  | '\\' => some '\\'
  | '/' => some '/'
  | 'n' => some '\n'
  | 'r' => some '\r'
  | 't' => some '\t'
  | _ => none

def decimal (digits : List Char) : Nat :=
  digits.foldl (fun n digit => n * 10 + (digit.toNat - 48)) 0

def offsetOf (size : Nat) (rest : List Char) : Nat := size - (String.ofList rest).utf8ByteSize

-- -----------------------------------------------------------------------------
-- Tokens
-- -----------------------------------------------------------------------------

/-- The rest of a string literal that starts at an offset, and what follows it. -/
def lexString (size start : Nat) : List Char → Except ParseError (List Char × List Char)
  | [] => .error ⟨start, .unterminatedString⟩
  | '"' :: rest => .ok ([], rest)
  | ['\\'] => .error ⟨offsetOf size ['\\'], .unterminatedString⟩
  | '\\' :: 'u' :: a :: b :: c :: d :: rest =>
    match unicodeEscape [a, b, c, d] with
    | none => .error ⟨offsetOf size ('\\' :: 'u' :: a :: b :: c :: d :: rest), .invalidEscape⟩
    | some c => (lexString size start rest).map fun (value, rest) => (c :: value, rest)
  | '\\' :: escaped :: rest =>
    -- an unfinished `\u` is no simple escape
    match simpleEscape escaped with
    | none => .error ⟨offsetOf size ('\\' :: escaped :: rest), .invalidEscape⟩
    | some c => (lexString size start rest).map fun (value, rest) => (c :: value, rest)
  | c :: rest =>
    if isControl c ∧ c ≠ '\t' then .error ⟨offsetOf size (c :: rest), .unexpectedCharacter c⟩
    else (lexString size start rest).map fun (value, rest) => (c :: value, rest)

def lexToken (size : Nat) (character : Char) (rest : List Char) :
    Except ParseError (Token × List Char) :=
  let offset := offsetOf size (character :: rest)
  match character with
  | '(' => .ok (.leftParen, rest)
  | ')' => .ok (.rightParen, rest)
  | '[' => .ok (.leftBracket, rest)
  | ']' => .ok (.rightBracket, rest)
  | '.' => .ok (.dot, rest)
  | ',' => .ok (.comma, rest)
  | ':' => .ok (.colon, rest)
  | '"' => (lexString size offset rest).map fun (value, rest) => (.text (String.ofList value), rest)
  | _ =>
    if isAsciiDigit character then
      let value := decimal (character :: rest.takeWhile isAsciiDigit)
      if value ≤ usizeMax then .ok (.integer value, rest.dropWhile isAsciiDigit)
      else .error ⟨offset, .unexpectedCharacter character⟩
    else if isNameStart character then
      .ok (.identifier (String.ofList (character :: rest.takeWhile isNameChar)),
        rest.dropWhile isNameChar)
    else .error ⟨offset, .unexpectedCharacter character⟩

theorem lexString_length (h : lexString size start chars = .ok (value, rest)) :
    rest.length < chars.length := by
  have hmap : ∀ {c : Char} {r : Except ParseError (List Char × List Char)} {value rest},
      r.map (fun (value, rest) => (c :: value, rest)) = .ok (value, rest) →
      ∃ value, r = .ok (value, rest) := by
    intro c r value rest h
    obtain ⟨⟨value', rest'⟩, hr, heq⟩ := Except.map_ok.mp h
    cases heq
    exact ⟨value', hr⟩
  fun_induction lexString size start chars generalizing value rest with
  | case1 => cases h
  | case2 tail =>
    cases h
    exact Nat.lt_succ_self _
  | case3 => cases h
  | case4 => cases h
  | case5 a b c d tail escaped hescape ih =>
    obtain ⟨_, hr⟩ := hmap h
    have := ih hr
    simp only [List.length_cons]
    omega
  | case6 => cases h
  | case7 escaped tail hshort c hescape ih =>
    obtain ⟨_, hr⟩ := hmap h
    have := ih hr
    simp only [List.length_cons]
    omega
  | case8 => cases h
  | case9 c tail _ _ _ _ _ ih =>
    obtain ⟨_, hr⟩ := hmap h
    have := ih hr
    simp only [List.length_cons]
    omega

theorem lexToken_length (h : lexToken size character rest = .ok (token, rest')) :
    rest'.length ≤ rest.length := by
  unfold lexToken at h
  split at h
  iterate 7
    · cases h
      exact Nat.le_refl _
  · obtain ⟨⟨value, tail⟩, hr, heq⟩ := Except.map_ok.mp h
    cases heq
    exact Nat.le_of_lt (lexString_length hr)
  · split at h
    · dsimp only at h
      split at h
      · cases h
        exact (List.dropWhile_sublist _).length_le
      · cases h
    · split at h
      · cases h
        exact (List.dropWhile_sublist _).length_le
      · cases h

def lex (size : Nat) (chars : List Char) : Except ParseError (List Spanned) :=
  match chars with
  | [] => .ok []
  | character :: rest =>
    if isWhiteSpace character then lex size rest
    else match _hlexed : lexToken size character rest with
      | .error e => .error e
      | .ok (token, rest') =>
        (lex size rest').map (⟨token, offsetOf size (character :: rest)⟩ :: ·)
termination_by chars.length
decreasing_by
  · exact Nat.lt_succ_self _
  · exact Nat.lt_succ_of_le (lexToken_length _hlexed)

def tokenize (source : String) : Except ParseError (List Spanned) :=
  if maxExpressionBytes < source.utf8ByteSize then .error ⟨0, .tooLong⟩
  else match lex source.utf8ByteSize source.toList with
    | .error e => .error e
    | .ok [] => .error ⟨0, .empty⟩
    | .ok tokens => .ok tokens

end SiliconHook
