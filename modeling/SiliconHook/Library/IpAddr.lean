/-!
# Addresses in text

The address parsers of Rust's `std::net`: dotted quads, colon-separated groups
with one run of zeros left out, and socket addresses around either. A reader
consumes a prefix; a parser the whole text.
-/

namespace SiliconHook

inductive IpAddr
  | v4 (bits : BitVec 32)
  | v6 (bits : BitVec 128)
  deriving DecidableEq, Repr

namespace IpAddr

abbrev Reader (α : Type) := List Char → Option (α × List Char)

def readGivenChar (target : Char) : Reader Unit
  | [] => none
  | c :: rest => if c = target then some ((), rest) else none

/-- `char::to_digit`. -/
def toDigit (radix : Nat) (c : Char) : Option Nat :=
  let n := c.toNat
  let value :=
    if 48 ≤ n ∧ n ≤ 57 then some (n - 48)
    else if 97 ≤ n ∧ n ≤ 122 then some (n - 97 + 10)
    else if 65 ≤ n ∧ n ≤ 90 then some (n - 65 + 10)
    else none
  value.filter (· < radix)

/-- A number of at most so many digits, where they are bounded, up to a limit. -/
def readNumber (radix : Nat) (maxDigits : Option Nat) (limit : Nat) (allowZeroPrefix : Bool) :
    Reader Nat := fun text =>
  let digits := text.takeWhile fun c => (toDigit radix c).isSome
  let value := digits.foldl (fun n c => n * radix + (toDigit radix c).getD 0) 0
  if maxDigits.any (· < digits.length) || digits.isEmpty || limit < value ||
      (!allowZeroPrefix && digits.head? = some '0' && 1 < digits.length) then none
  else some (value, text.drop digits.length)

def readSeparated (separator : Char) (first : Bool) (item : Reader α) : Reader α := fun text =>
  if first then item text
  else (readGivenChar separator text).bind fun (_, text) => item text

def readOctets : Nat → Bool → Reader (List Nat)
  | 0, _ => fun text => some ([], text)
  | k + 1, first => fun text => do
    let (octet, text) ← readSeparated '.' first (readNumber 10 (some 3) 255 false) text
    let (octets, text) ← readOctets k false text
    return (octet :: octets, text)

def readIpv4 : Reader (List Nat) := readOctets 4 true

/-- Up to so many groups, and whether a dotted quad ended them. -/
def readGroups : Nat → Bool → List Char → (List Nat × Bool) × List Char
  | 0, _, text => (([], false), text)
  | k + 1, first, text =>
    -- an embedded quad takes two groups
    match if 1 ≤ k then readSeparated ':' first readIpv4 text else none with
    | some ([a, b, c, d], text) => (([a * 256 + b, c * 256 + d], true), text)
    | _ =>
      match readSeparated ':' first (readNumber 16 (some 4) 65535 true) text with
      | none => (([], false), text)
      | some (group, text) =>
        let ((groups, quad), text) := readGroups k false text
        ((group :: groups, quad), text)

def readIpv6 : Reader (List Nat) := fun text =>
  let ((head, quad), text) := readGroups 8 true text
  if head.length = 8 then some (head, text)
  else if quad then none
  else do
    let (_, text) ← readGivenChar ':' text
    let (_, text) ← readGivenChar ':' text
    -- the two colons stand for one group at least
    let ((tail, _), text) := readGroups (8 - (head.length + 1)) true text
    return (head ++ List.replicate (8 - head.length - tail.length) 0 ++ tail, text)

def ofOctets (octets : List Nat) : IpAddr :=
  .v4 (BitVec.ofNat 32 (octets.foldl (fun n octet => n * 256 + octet) 0))

def ofGroups (groups : List Nat) : IpAddr :=
  .v6 (BitVec.ofNat 128 (groups.foldl (fun n group => n * 65536 + group) 0))

def readIpAddr : Reader IpAddr := fun text =>
  match readIpv4 text with
  | some (octets, text) => some (ofOctets octets, text)
  | none => (readIpv6 text).map fun (groups, text) => (ofGroups groups, text)

def readPort : Reader Nat := fun text =>
  (readGivenChar ':' text).bind fun (_, text) => readNumber 10 none 65535 true text

def dropScopeId (text : List Char) : List Char :=
  let scope := (readGivenChar '%' text).bind fun (_, text) =>
    readNumber 10 none 4294967295 true text
  scope.elim text Prod.snd

def readSocketV4 : Reader IpAddr := fun text => do
  let (octets, text) ← readIpv4 text
  let (_, text) ← readPort text
  return (ofOctets octets, text)

def readSocketV6 : Reader IpAddr := fun text => do
  let (_, text) ← readGivenChar '[' text
  let (groups, text) ← readIpv6 text
  let (_, text) ← readGivenChar ']' (dropScopeId text)
  let (_, text) ← readPort text
  return (ofGroups groups, text)

def whole (reader : Reader α) (text : List Char) : Option α :=
  (reader text).bind fun (a, rest) => if rest.isEmpty then some a else none

def parse (text : List Char) : Option IpAddr := whole readIpAddr text

def parseSocket (text : List Char) : Option IpAddr :=
  whole (fun text => (readSocketV4 text).or (readSocketV6 text)) text

example : parse "2001:db8::192.0.2.33".toList =
    some (.v6 0x20010db80000000000000000c0000221) := by decide +kernel

end IpAddr

end SiliconHook
