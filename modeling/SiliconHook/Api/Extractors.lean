import Mathlib.Algebra.GroupWithZero.Nat
import SiliconHook.Library.IpAddr
import SiliconHook.Library.Text

/-!
# Client addresses

Resolving the client's address behind a known number of trusted proxies, each
of which appends the address it received the request from to
`X-Forwarded-For`.
-/

namespace SiliconHook

open Text

inductive AppError
  | badRequest (code : String)
  | internal (detail : String)
  deriving DecidableEq, Repr

def maxForwardedForBytes : Nat := 1024

/-- `HeaderValue::to_str`: visible ASCII and tabs only. -/
def headerToStr (value : List UInt8) : Option (List Char) :=
  if value.all fun b => (32 ≤ b.toNat && b.toNat < 127) || b.toNat = 9 then
    some (value.map fun b => Char.ofNat b.toNat)
  else none

def forwardedEntries (value : List Char) : List (List Char) :=
  ((splitBy (· = ',') value).map (trimBy isWhiteSpace)).filter fun entry => !entry.isEmpty

def forwarded (values : List (List UInt8)) : List (List Char) :=
  (values.filterMap headerToStr).flatMap forwardedEntries

def isQuote (c : Char) : Bool := c = '"' || c = '\x27'

def parseForwardedIp (entry : List Char) : Option IpAddr :=
  let entry := trimBy isQuote entry
  match IpAddr.parseSocket entry with
  | some ip => some ip
  | none => IpAddr.parse
      (((entry.dropWhile (· = '[')).reverse.dropWhile (· = ']')).reverse)

def peerAddress (peer : Option IpAddr) : Except AppError IpAddr :=
  match peer with
  | some ip => .ok ip
  | none => .error (.internal "listener did not provide peer addresses")

/-- The `X-Forwarded-For` values and the TCP peer of a request, resolved. -/
def clientIp (values : List (List UInt8)) (peer : Option IpAddr) (trustedProxyHops : Nat) :
    Except AppError IpAddr :=
  if trustedProxyHops = 0 then peerAddress peer
  else
    let entries := forwarded values
    if maxForwardedForBytes < (entries.map List.length).sum then
      .error (.badRequest "header_too_large")
    else
      let entry := if trustedProxyHops ≤ entries.length then
        entries[entries.length - trustedProxyHops]? else none
      match entry.bind parseForwardedIp with
      | some ip => .ok ip
      | none => peerAddress peer

end SiliconHook
