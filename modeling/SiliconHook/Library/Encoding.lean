import SiliconHook.Library.Text
import Mathlib.Algebra.Group.Nat.Defs

/-!
# Text encodings of bytes

UTF-8, hexadecimal and base64 as the `hex` and `base64` crates read and write
them. Base64 comes in the standard and the URL-safe alphabet. A decoder either
requires canonical padding or refuses it, and both refuse nonzero trailing bits.
-/

namespace SiliconHook.Encoding

open Text

-- -----------------------------------------------------------------------------
-- UTF-8
-- -----------------------------------------------------------------------------

def utf8 (text : String) : List UInt8 := text.toByteArray.data.toList

def fromUtf8 (bytes : List UInt8) : Option String := String.fromUTF8? ⟨bytes.toArray⟩

@[simp]
theorem fromUtf8_utf8 (text : String) : fromUtf8 (utf8 text) = some text := by
  simp [fromUtf8, utf8, String.fromUTF8?, String.fromUTF8, text.isValidUTF8]

theorem utf8_fromUtf8 {bytes : List UInt8} {text : String} (h : fromUtf8 bytes = some text) :
    utf8 text = bytes := by
  unfold fromUtf8 String.fromUTF8? at h
  split at h
  · cases h
    rfl
  · cases h

theorem length_utf8 (text : String) : (utf8 text).length = text.utf8ByteSize := by
  simp only [utf8, Array.length_toList]
  rfl

theorem utf8_ne_nil (h : text ≠ "") : utf8 text ≠ [] := by
  intro he
  have hl := length_utf8 text
  rw [he] at hl
  exact h (String.utf8ByteSize_eq_zero_iff.mp hl.symm)

theorem utf8_inj {a b : String} (h : utf8 a = utf8 b) : a = b := by
  have hread := congrArg fromUtf8 h
  rw [fromUtf8_utf8, fromUtf8_utf8] at hread
  exact Option.some.inj hread

def byte (n : Nat) : UInt8 := UInt8.ofNat n

theorem byte_eq (h : n = b.toNat) : byte n = b := by
  rw [h]
  exact UInt8.ofNat_toNat

theorem utf8_ascii {chars : List Char} (h : ∀ c ∈ chars, isAscii c = true) :
    utf8 (String.ofList chars) = chars.map fun c => byte c.toNat := by
  have hbytes : chars.flatMap String.utf8EncodeChar = chars.map fun c => byte c.toNat := by
    induction chars with
    | nil => rfl
    | cons c rest ih =>
      have hc := h c List.mem_cons_self
      have hsize : c.utf8Size = 1 := by
        rw [Char.utf8Size_eq_one_iff, UInt32.le_iff_toNat_le]
        simp only [isAscii, decide_eq_true_eq] at hc
        exact Nat.le_of_lt_succ hc
      rw [List.flatMap_cons, List.map_cons, String.utf8EncodeChar_eq_singleton hsize,
        ih fun d hd => h d (List.mem_cons_of_mem _ hd)]
      rfl
  rw [utf8, String.toByteArray_ofList, List.utf8Encode, hbytes]
  simp

theorem utf8ByteSize_ascii {chars : List Char} (h : ∀ c ∈ chars, isAscii c = true) :
    (String.ofList chars).utf8ByteSize = chars.length := by
  rw [← length_utf8, utf8_ascii h, List.length_map]

-- -----------------------------------------------------------------------------
-- Hexadecimal
-- -----------------------------------------------------------------------------

def hexChar (n : Nat) : Char := Char.ofNat (if n < 10 then 48 + n else 87 + n)

def hexDigit (c : Char) : Option Nat :=
  if isAsciiDigit c then some (c.toNat - 48)
  else if 97 ≤ c.toNat ∧ c.toNat ≤ 102 then some (c.toNat - 87)
  else if 65 ≤ c.toNat ∧ c.toNat ≤ 70 then some (c.toNat - 55)
  else none

def hexEncode : List UInt8 → List Char
  | [] => []
  | b :: rest => hexChar (b.toNat / 16) :: hexChar (b.toNat % 16) :: hexEncode rest

def hexDecode : List Char → Option (List UInt8)
  | [] => some []
  | [_] => none
  | hi :: lo :: rest => do
    let h ← hexDigit hi
    let l ← hexDigit lo
    let bytes ← hexDecode rest
    return byte (16 * h + l) :: bytes

theorem hexDigit_hexChar (h : n < 16) : hexDigit (hexChar n) = some n := by
  revert n
  decide

theorem hexChar_graphic (h : n < 16) : isAsciiGraphic (hexChar n) = true := by
  revert n
  decide

theorem length_hexEncode (bytes : List UInt8) : (hexEncode bytes).length = 2 * bytes.length := by
  induction bytes with
  | nil => rfl
  | cons b rest ih =>
    simp only [hexEncode, List.length_cons, ih]
    omega

theorem hexEncode_graphic (bytes : List UInt8) : ∀ c ∈ hexEncode bytes, isAsciiGraphic c = true := by
  induction bytes with
  | nil => simp [hexEncode]
  | cons b rest ih =>
    have hb := b.toNat_lt
    simp only [hexEncode, List.mem_cons, forall_eq_or_imp]
    exact ⟨hexChar_graphic (by omega), hexChar_graphic (by omega), ih⟩

theorem hexDecode_hexEncode (bytes : List UInt8) : hexDecode (hexEncode bytes) = some bytes := by
  induction bytes with
  | nil => rfl
  | cons b rest ih =>
    have hb := b.toNat_lt
    have hn := byte_eq (Nat.div_add_mod b.toNat 16)
    simp [hexEncode, hexDecode, hexDigit_hexChar (n := b.toNat / 16) (by omega),
      hexDigit_hexChar (n := b.toNat % 16) (by omega), ih, hn]

-- -----------------------------------------------------------------------------
-- Base64
-- -----------------------------------------------------------------------------

inductive Alphabet
  | standard
  | urlSafe
  deriving DecidableEq, Repr

def sextetChar (alphabet : Alphabet) (n : Nat) : Char :=
  if n < 26 then Char.ofNat (65 + n)
  else if n < 52 then Char.ofNat (71 + n)
  else if n < 62 then Char.ofNat (n - 4)
  else match alphabet with
    | .standard => if n = 62 then '+' else '/'
    | .urlSafe => if n = 62 then '-' else '_'

def sextet (alphabet : Alphabet) (c : Char) : Option Nat :=
  if isAsciiUpper c then some (c.toNat - 65)
  else if isAsciiLower c then some (c.toNat - 71)
  else if isAsciiDigit c then some (c.toNat + 4)
  else match alphabet with
    | .standard => if c = '+' then some 62 else if c = '/' then some 63 else none
    | .urlSafe => if c = '-' then some 62 else if c = '_' then some 63 else none

def base64Encode (alphabet : Alphabet) (padded : Bool) : List UInt8 → List Char
  | [] => []
  | [a] =>
    sextetChar alphabet (a.toNat / 4) :: sextetChar alphabet (a.toNat % 4 * 16) ::
      if padded then ['=', '='] else []
  | [a, b] =>
    sextetChar alphabet (a.toNat / 4) ::
      sextetChar alphabet (a.toNat % 4 * 16 + b.toNat / 16) ::
      sextetChar alphabet (b.toNat % 16 * 4) ::
      if padded then ['='] else []
  | a :: b :: c :: rest =>
    sextetChar alphabet (a.toNat / 4) ::
      sextetChar alphabet (a.toNat % 4 * 16 + b.toNat / 16) ::
      sextetChar alphabet (b.toNat % 16 * 4 + c.toNat / 64) ::
      sextetChar alphabet (c.toNat % 64) :: base64Encode alphabet padded rest

/-- Two final sextets: one byte, the low four bits zero. -/
def oneByte (alphabet : Alphabet) (p q : Char) : Option (List UInt8) := do
  let x ← sextet alphabet p
  let y ← sextet alphabet q
  if y % 16 = 0 then some [byte (x * 4 + y / 16)] else none

/-- Three final sextets: two bytes, the low two bits zero. -/
def twoBytes (alphabet : Alphabet) (p q r : Char) : Option (List UInt8) := do
  let x ← sextet alphabet p
  let y ← sextet alphabet q
  let z ← sextet alphabet r
  if z % 4 = 0 then
    some [byte (x * 4 + y / 16), byte (y % 16 * 16 + z / 4)]
  else none

def base64Decode (alphabet : Alphabet) (padded : Bool) : List Char → Option (List UInt8)
  | [] => some []
  | [_] => none
  | [p, q] => if padded then none else oneByte alphabet p q
  | [p, q, r] => if padded then none else twoBytes alphabet p q r
  | p :: q :: r :: s :: rest =>
    if s = '=' then
      if padded && rest.isEmpty then
        if r = '=' then oneByte alphabet p q else twoBytes alphabet p q r
      else none
    else do
      let x ← sextet alphabet p
      let y ← sextet alphabet q
      let z ← sextet alphabet r
      let w ← sextet alphabet s
      let bytes ← base64Decode alphabet padded rest
      return byte (x * 4 + y / 16) :: byte (y % 16 * 16 + z / 4) ::
        byte (z % 4 * 64 + w) :: bytes

theorem sextet_sextetChar (alphabet : Alphabet) (h : n < 64) :
    sextet alphabet (sextetChar alphabet n) = some n := by
  revert n
  cases alphabet <;> decide

theorem sextetChar_ne_pad (alphabet : Alphabet) (h : n < 64) : sextetChar alphabet n ≠ '=' := by
  revert n
  cases alphabet <;> decide

theorem sextetChar_graphic (alphabet : Alphabet) (h : n < 64) :
    isAsciiGraphic (sextetChar alphabet n) = true := by
  revert n
  cases alphabet <;> decide

theorem length_base64Encode_le (alphabet : Alphabet) (padded : Bool) (bytes : List UInt8) :
    (base64Encode alphabet padded bytes).length ≤ 4 * bytes.length := by
  fun_induction base64Encode alphabet padded bytes with
  | case1 => simp
  | case2 a => cases padded <;> simp
  | case3 a b => cases padded <;> simp
  | case4 a b c rest ih =>
    simp only [List.length_cons]
    omega

theorem base64Encode_graphic (alphabet : Alphabet) (padded : Bool) (bytes : List UInt8) :
    ∀ c ∈ base64Encode alphabet padded bytes, isAsciiGraphic c = true := by
  have pad : isAsciiGraphic '=' = true := by decide
  fun_induction base64Encode alphabet padded bytes with
  | case1 => simp
  | case2 a =>
    have ha := a.toNat_lt
    have h := sextetChar_graphic alphabet (n := a.toNat / 4) (by omega)
    have h' := sextetChar_graphic alphabet (n := a.toNat % 4 * 16) (by omega)
    cases padded <;> simp [h, h', pad]
  | case3 a b =>
    have ha := a.toNat_lt
    have hb := b.toNat_lt
    have h := sextetChar_graphic alphabet (n := a.toNat / 4) (by omega)
    have h' := sextetChar_graphic alphabet (n := a.toNat % 4 * 16 + b.toNat / 16) (by omega)
    have h'' := sextetChar_graphic alphabet (n := b.toNat % 16 * 4) (by omega)
    cases padded <;> simp [h, h', h'', pad]
  | case4 a b c rest ih =>
    have ha := a.toNat_lt
    have hb := b.toNat_lt
    have hc := c.toNat_lt
    simp only [List.mem_cons, forall_eq_or_imp]
    exact ⟨sextetChar_graphic _ (by omega), sextetChar_graphic _ (by omega),
      sextetChar_graphic _ (by omega), sextetChar_graphic _ (by omega), ih⟩

theorem base64Decode_base64Encode (alphabet : Alphabet) (padded : Bool) (bytes : List UInt8) :
    base64Decode alphabet padded (base64Encode alphabet padded bytes) = some bytes := by
  fun_induction base64Encode alphabet padded bytes with
  | case1 => rfl
  | case2 a =>
    have ha := a.toNat_lt
    have h : byte (a.toNat / 4 * 4 + a.toNat % 4) = a := byte_eq (by omega)
    cases padded <;>
      simp [base64Decode, oneByte, sextet_sextetChar alphabet (n := a.toNat / 4) (by omega),
        sextet_sextetChar alphabet (n := a.toNat % 4 * 16) (by omega), h]
  | case3 a b =>
    have ha := a.toNat_lt
    have hb := b.toNat_lt
    have h : byte (a.toNat / 4 * 4 + (a.toNat % 4 * 16 + b.toNat / 16) / 16) = a :=
      byte_eq (by omega)
    have h' : byte (b.toNat / 16 % 16 * 16 + b.toNat % 16) = b := byte_eq (by omega)
    have hp := sextetChar_ne_pad alphabet (n := b.toNat % 16 * 4) (by omega)
    cases padded <;>
      simp [base64Decode, twoBytes, sextet_sextetChar alphabet (n := a.toNat / 4) (by omega),
        sextet_sextetChar alphabet (n := a.toNat % 4 * 16 + b.toNat / 16) (by omega),
        sextet_sextetChar alphabet (n := b.toNat % 16 * 4) (by omega), hp, h, h']
  | case4 a b c rest ih =>
    have ha := a.toNat_lt
    have hb := b.toNat_lt
    have hc := c.toNat_lt
    have h : byte (a.toNat / 4 * 4 + (a.toNat % 4 * 16 + b.toNat / 16) / 16) = a :=
      byte_eq (by omega)
    have h' : byte (b.toNat / 16 % 16 * 16 + (b.toNat % 16 * 4 + c.toNat / 64) / 4) = b :=
      byte_eq (by omega)
    have h'' : byte (c.toNat / 64 % 4 * 64 + c.toNat % 64) = c := byte_eq (by omega)
    have hp := sextetChar_ne_pad alphabet (n := c.toNat % 64) (by omega)
    simp [base64Decode, sextet_sextetChar alphabet (n := a.toNat / 4) (by omega),
      sextet_sextetChar alphabet (n := a.toNat % 4 * 16 + b.toNat / 16) (by omega),
      sextet_sextetChar alphabet (n := b.toNat % 16 * 4 + c.toNat / 64) (by omega),
      sextet_sextetChar alphabet (n := c.toNat % 64) (by omega), hp, h, h', h'', ih]

end SiliconHook.Encoding
