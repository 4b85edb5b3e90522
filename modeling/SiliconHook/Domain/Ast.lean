/-!
# Signature expressions

Parsed form of the expressions that locate a provider's payload and signature.
-/

namespace SiliconHook

inductive Root
  | request
  | hook
  | secret
  | key
  deriving DecidableEq, Repr

inductive Segment
  | key (name : String)
  | index (position : Nat)
  deriving DecidableEq, Repr

structure Path where
  root : Root
  segments : List Segment
  deriving DecidableEq, Repr

inductive SortOrder
  | ascending
  | descending
  deriving DecidableEq, Repr

inductive Function
  | concat
  | join
  | sort
  | sortKeys
  | utf8
  | ascii
  | urlEncode
  | urlDecode
  | percentEncode
  | percentDecode
  | canonicalizeUrl
  | canonicalizeQuery
  | jsonEncode
  | formEncode
  | sha1
  | sha256
  | sha384
  | sha512
  | hex
  | hexDecode
  | base64
  | base64Decode
  | base64Url
  | base64UrlDecode
  | lowercase
  | uppercase
  | trim
  deriving DecidableEq, Repr

inductive Expr where
  | literal (value : String)
  | path (path : Path)
  | call (function : Function) (arguments : List Expr) (separator : Option String)
      (order : Option SortOrder)
  deriving Repr

-- The arguments of a call nest, so equality is decided with their list.
mutual

def Expr.decEq : (a b : Expr) → Decidable (a = b)
  | .literal v, .literal w => decidable_of_iff (v = w) (by simp)
  | .path p, .path q => decidable_of_iff (p = q) (by simp)
  | .call f xs s o, .call g ys t r =>
    match Expr.decEqList xs ys with
    | isTrue h => decidable_of_iff (f = g ∧ s = t ∧ o = r) (by simp [h])
    | isFalse h => isFalse (by simp [h])
  | .literal _, .path _ => isFalse (by simp)
  | .literal _, .call .. => isFalse (by simp)
  | .path _, .literal _ => isFalse (by simp)
  | .path _, .call .. => isFalse (by simp)
  | .call .., .literal _ => isFalse (by simp)
  | .call .., .path _ => isFalse (by simp)

def Expr.decEqList : (xs ys : List Expr) → Decidable (xs = ys)
  | [], [] => isTrue rfl
  | [], _ :: _ => isFalse (by simp)
  | _ :: _, [] => isFalse (by simp)
  | x :: xs, y :: ys =>
    match Expr.decEq x y, Expr.decEqList xs ys with
    | isTrue h, isTrue hs => isTrue (by rw [h, hs])
    | isFalse h, _ => isFalse (by simp [h])
    | isTrue _, isFalse hs => isFalse (by simp [hs])

end

instance : DecidableEq Expr := Expr.decEq

/-- A parsed expression that remembers its source text. -/
structure Expression where
  source : String
  parsed : Expr
  deriving DecidableEq, Repr

end SiliconHook
