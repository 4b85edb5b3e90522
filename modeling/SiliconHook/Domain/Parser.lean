import SiliconHook.Domain.Eval
import SiliconHook.Domain.Lexer

/-!
# Parsing signature expressions

The recursive-descent parser. Every function takes the tokens from its position
on and answers with those it leaves, fewer than it was given; `levels` is how
many more calls may nest, and the count of nodes is passed along.
-/

namespace SiliconHook

-- -----------------------------------------------------------------------------
-- Names
-- -----------------------------------------------------------------------------

def Root.parse : String → Option Root
  | "request" => some .request
  | "hook" => some .hook
  | "secret" => some .secret
  | "key" => some .key
  | _ => none

def SortOrder.parse : String → Option SortOrder
  | "asc" => some .ascending
  | "desc" => some .descending
  | _ => none

namespace Function

def parse : String → Option Function
  | "concat" => some .concat
  | "join" => some .join
  | "sort" => some .sort
  | "sort_keys" => some .sortKeys
  | "utf8" => some .utf8
  | "ascii" => some .ascii
  | "url_encode" => some .urlEncode
  | "url_decode" => some .urlDecode
  | "percent_encode" => some .percentEncode
  | "percent_decode" => some .percentDecode
  | "canonicalize_url" => some .canonicalizeUrl
  | "canonicalize_query" => some .canonicalizeQuery
  | "json_encode" => some .jsonEncode
  | "form_encode" => some .formEncode
  | "sha1" => some .sha1
  | "sha256" => some .sha256
  | "sha384" => some .sha384
  | "sha512" => some .sha512
  | "hex" => some .hex
  | "hex_decode" => some .hexDecode
  | "base64" => some .base64
  | "base64_decode" => some .base64Decode
  | "base64url" => some .base64Url
  | "base64url_decode" => some .base64UrlDecode
  | "lowercase" => some .lowercase
  | "uppercase" => some .uppercase
  | "trim" => some .trim
  | _ => none

def arity : Function → Nat × Nat
  | .concat | .join => (1, usizeMax)
  | _ => (1, 1)

def acceptsSeparator : Function → Bool
  | .join => true
  | _ => false

def requiresSeparator : Function → Bool
  | .join => true
  | _ => false

def acceptsOrder : Function → Bool
  | .sort | .sortKeys => true
  | _ => false

end Function

def separators : List String := ["", ".", ":", ",", ";", "\n", " "]

def requestBlocks : List String :=
  ["raw_body", "raw_body_bytes", "body", "form", "multipart", "method", "url", "scheme",
    "authority", "host", "hostname", "port", "path", "query_string", "query", "headers", "cookies"]

-- -----------------------------------------------------------------------------
-- Bounds and checks
-- -----------------------------------------------------------------------------

def maxDepth : Nat := 32
def maxNodes : Nat := 512

/-- A call while its arguments are read. -/
structure Call where
  function : Function
  arguments : List Expr
  separator : Option String
  order : Option SortOrder

def Call.toExpr (call : Call) : Expr :=
  .call call.function call.arguments call.separator call.order

def validateCall (call : Call) (offset : Nat) : Except ParseError Unit :=
  let (min, max) := call.function.arity
  let actual := call.arguments.length
  if actual < min ∨ max < actual then
    .error ⟨offset, .arity call.function.name min (if max = usizeMax then none else some max) actual⟩
  else if call.function.requiresSeparator ∧ call.separator.isNone then
    .error ⟨offset, .missingOption "separator"⟩
  else .ok ()

def Path.supported (path : Path) : Bool :=
  let first := match path.segments.head? with
    | some (.key name) => some name
    | some (.index _) => none
    | none => some ""
  match path.root with
  | .request => first.any requestBlocks.contains
  | .hook => path.segments.length == 1 && (first == some "id" || first == some "url")
  | .secret => path.segments.isEmpty
  -- a provider's private key is never held
  | .key => path.segments.length == 1 && first == some "public"

def validatePath (path : Path) (offset : Nat) : Except ParseError Unit :=
  if path.supported then .ok () else .error ⟨offset, .unsupportedPath path.display⟩

-- -----------------------------------------------------------------------------
-- The parser
-- -----------------------------------------------------------------------------

/-- What is left of some tokens after at least one. -/
abbrev Shorter (tokens : List Spanned) := { rest : List Spanned // rest.length < tokens.length }

abbrev NoLonger (tokens : List Spanned) := { rest : List Spanned // rest.length ≤ tokens.length }

namespace Parser

section

variable (endOffset : Nat)

def currentOffset (tokens : List Spanned) : Nat :=
  (tokens.head?.map Spanned.offset).getD endOffset

def unexpected (expected : String) (found : Option Spanned) : ParseError where
  offset := (found.map Spanned.offset).getD endOffset
  kind := .unexpectedToken expected ((found.map (·.token.describe)).getD "end of input")

def countNode (nodes : Nat) (tokens : List Spanned) : Except ParseError Nat :=
  if maxNodes < nodes + 1 then .error ⟨currentOffset endOffset tokens, .tooManyNodes⟩
  else .ok (nodes + 1)

/-- The segment some tokens start with, and what follows it; no segment where they
start with neither a dot nor a bracket. -/
def segment (tokens : List Spanned) : Except ParseError (Option (Segment × Shorter tokens)) :=
  match tokens with
  | ⟨.dot, _⟩ :: ⟨.identifier name, _⟩ :: rest =>
    .ok (some (.key name, ⟨rest, by simp only [List.length_cons]; omega⟩))
  | ⟨.dot, _⟩ :: rest => .error (unexpected endOffset "member name" rest.head?)
  | ⟨.leftBracket, _⟩ :: ⟨.text name, _⟩ :: ⟨.rightBracket, _⟩ :: rest =>
    .ok (some (.key name, ⟨rest, by simp; omega⟩))
  | ⟨.leftBracket, _⟩ :: ⟨.integer index, _⟩ :: ⟨.rightBracket, _⟩ :: rest =>
    .ok (some (.index index, ⟨rest, by simp; omega⟩))
  | ⟨.leftBracket, _⟩ :: ⟨.text _, _⟩ :: rest => .error (unexpected endOffset "]" rest.head?)
  | ⟨.leftBracket, _⟩ :: ⟨.integer _, _⟩ :: rest => .error (unexpected endOffset "]" rest.head?)
  | ⟨.leftBracket, _⟩ :: rest =>
    .error (unexpected endOffset "string or integer index" rest.head?)
  | _ => .ok none

def segments (nodes : Nat) (tokens : List Spanned) :
    Except ParseError (List Segment × Nat × NoLonger tokens) := do
  match ← segment endOffset tokens with
  | none => return ([], nodes, ⟨tokens, Nat.le_refl _⟩)
  | some (segment, ⟨rest, hrest⟩) =>
    let nodes ← countNode endOffset nodes rest
    let (more, nodes, ⟨rest, hmore⟩) ← segments nodes rest
    return (segment :: more, nodes, ⟨rest, by omega⟩)
termination_by tokens.length

def path (rootName : String) (offset nodes : Nat) (tokens : List Spanned) :
    Except ParseError (Expr × Nat × NoLonger tokens) :=
  match Root.parse rootName with
  | none => .error ⟨offset, .unknownRoot rootName⟩
  | some root => do
    let (segments, nodes, rest) ← segments endOffset nodes tokens
    validatePath ⟨root, segments⟩ offset
    return (.path ⟨root, segments⟩, nodes, rest)

def option (call : Call) (keyword : String) (offset : Nat) (tokens : List Spanned) :
    Except ParseError (Call × Shorter tokens) :=
  if keyword = "separator" ∧ call.function.acceptsSeparator then
    if call.separator.isSome then .error ⟨offset, .duplicateOption "separator"⟩
    else match tokens with
      | ⟨.text value, offset⟩ :: rest =>
        if separators.contains value then
          .ok ({ call with separator := some value }, ⟨rest, Nat.lt_succ_self _⟩)
        else .error ⟨offset, .invalidSeparator value⟩
      | other => .error (unexpected endOffset "separator string" other.head?)
  else if keyword = "order" ∧ call.function.acceptsOrder then
    if call.order.isSome then .error ⟨offset, .duplicateOption "order"⟩
    else match tokens with
      | ⟨.identifier value, offset⟩ :: rest =>
        match SortOrder.parse value with
        | some order => .ok ({ call with order := some order }, ⟨rest, Nat.lt_succ_self _⟩)
        | none => .error ⟨offset, .invalidOrder value⟩
      | other => .error (unexpected endOffset "asc or desc" other.head?)
  else .error ⟨offset, .unexpectedOption keyword⟩

abbrev ArgumentParser :=
  Nat → (tokens : List Spanned) → Except ParseError (Expr × Nat × Shorter tokens)

def argument (expression : ArgumentParser) (call : Call) (nodes : Nat) (tokens : List Spanned) :
    Except ParseError (Call × Nat × Shorter tokens) :=
  match tokens with
  | ⟨.identifier keyword, offset⟩ :: ⟨.colon, _⟩ :: rest => do
    let (call, ⟨left, hleft⟩) ← option endOffset call keyword offset rest
    return (call, nodes, ⟨left, by simp; omega⟩)
  | tokens => do
    let (argument, nodes, rest) ← expression nodes tokens
    return ({ call with arguments := call.arguments ++ [argument] }, nodes, rest)

/-- The arguments of a call up to its closing parenthesis. -/
def arguments (expression : ArgumentParser) (call : Call) (nodes : Nat) (tokens : List Spanned) :
    Except ParseError (Call × Nat × Shorter tokens) := do
  let (call, nodes, ⟨rest, hrest⟩) ← argument endOffset expression call nodes tokens
  match rest, hrest with
  | ⟨.comma, _⟩ :: rest, hrest =>
    have hcomma : rest.length < tokens.length := Nat.lt_of_succ_lt hrest
    let (call, nodes, ⟨left, hleft⟩) ← arguments expression call nodes rest
    return (call, nodes, ⟨left, by omega⟩)
  | ⟨.rightParen, _⟩ :: rest, hrest => return (call, nodes, ⟨rest, Nat.lt_of_succ_lt hrest⟩)
  | other, _ => throw (unexpected endOffset ", or )" other.head?)
termination_by tokens.length

def callArguments (expression : ArgumentParser) (call : Call) (nodes : Nat)
    (tokens : List Spanned) : Except ParseError (Call × Nat × Shorter tokens) :=
  match tokens with
  | ⟨.rightParen, _⟩ :: rest => .ok (call, nodes, ⟨rest, Nat.lt_succ_self _⟩)
  | tokens => arguments endOffset expression call nodes tokens

def call (expression : ArgumentParser) (name : String) (offset nodes : Nat)
    (tokens : List Spanned) : Except ParseError (Expr × Nat × Shorter tokens) :=
  match Function.parse name with
  | none => .error ⟨offset, .unknownFunction name⟩
  | some function => do
    let (call, nodes, rest) ←
      callArguments endOffset expression ⟨function, [], none, none⟩ nodes tokens
    validateCall call offset
    return (call.toExpr, nodes, rest)

/-- An expression once it is counted, its arguments read by `expression`. -/
def operand (expression : ArgumentParser) : ArgumentParser := fun nodes tokens =>
  match tokens with
  | ⟨.text value, _⟩ :: rest => .ok (.literal value, nodes, ⟨rest, Nat.lt_succ_self _⟩)
  | ⟨.identifier name, offset⟩ :: ⟨.leftParen, _⟩ :: rest => do
    let (call, nodes, ⟨left, hleft⟩) ← call endOffset expression name offset nodes rest
    return (call, nodes, ⟨left, by simp only [List.length_cons]; omega⟩)
  | ⟨.identifier name, offset⟩ :: rest => do
    let (path, nodes, ⟨left, hleft⟩) ← path endOffset name offset nodes rest
    return (path, nodes, ⟨left, Nat.lt_succ_of_le hleft⟩)
  | other => .error (unexpected endOffset "expression" other.head?)

def expression (levels : Nat) : ArgumentParser := fun nodes tokens =>
  match levels with
  | 0 => .error ⟨currentOffset endOffset tokens, .tooDeep⟩
  | levels + 1 => do
    let nodes ← countNode endOffset nodes tokens
    operand endOffset (expression levels) nodes tokens

end

end Parser

def parseTokens (endOffset : Nat) (tokens : List Spanned) : Except ParseError Expr := do
  let (expression, _, rest) ← Parser.expression endOffset (maxDepth + 1) 0 tokens
  match rest.val.head? with
  | some extra => throw (Parser.unexpected endOffset "end of input" (some extra))
  | none => return expression

def parse (source : String) : Except ParseError Expr := do
  parseTokens source.utf8ByteSize (← tokenize source)

-- -----------------------------------------------------------------------------
-- Rendering
-- -----------------------------------------------------------------------------

def SortOrder.asStr : SortOrder → String
  | .ascending => "asc"
  | .descending => "desc"

def commaSeparated : List String → String
  | [] => ""
  | [text] => text
  | text :: rest => text ++ ", " ++ commaSeparated rest

/-- The keyword arguments of a call, which are written first. -/
def optionTexts (separator : Option String) (order : Option SortOrder) : List String :=
  (separator.map fun value => "separator: " ++ quoteText value).toList ++
    (order.map fun direction => "order: " ++ direction.asStr).toList

mutual

def Expr.display : Expr → String
  | .literal value => quoteText value
  | .path block => block.display
  | .call function arguments separator order =>
    function.name ++ "(" ++
      commaSeparated (optionTexts separator order ++ Expr.displayList arguments) ++ ")"

def Expr.displayList : List Expr → List String
  | [] => []
  | e :: rest => e.display :: Expr.displayList rest

end

end SiliconHook
