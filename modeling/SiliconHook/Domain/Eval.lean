import Mathlib.Data.List.Sort
import SiliconHook.Domain.Ast
import SiliconHook.Domain.Event
import SiliconHook.Domain.Value

/-!
# Evaluation of signature expressions

An expression is evaluated against a captured request, the hook and its key
material. URLs, form parsing, JSON parsing, Unicode case and hashing are
libraries: their operations are fields of one record.
-/

namespace SiliconHook

open Encoding Text

inductive HashFunction
  | sha1
  | sha256
  | sha384
  | sha512
  deriving DecidableEq, Repr

/-- The library operations expressions use. A URL is given by its text. -/
structure ExpressionLibrary where
  parseUrl : String → Option String
  scheme : String → String
  hostStr : String → Option String
  port : String → Option Nat
  portOrKnownDefault : String → Option Nat
  path : String → String
  query : String → Option String
  queryPairs : String → List (String × String)
  /-- The URL with these query pairs, or without a query. -/
  withQuery : Option (List (String × String)) → String → String
  withoutFragment : String → String
  parseForm : List UInt8 → List (String × String)
  parseJson : List UInt8 → Option JsonValue
  /-- The names and data of the parts, given the `Content-Type` and the body. -/
  parseMultipart : String → List UInt8 → Option (List (String × List UInt8))
  lowercase : String → String
  uppercase : String → String
  digest : HashFunction → List UInt8 → List UInt8
  hmac : HashFunction → List UInt8 → List UInt8 → List UInt8

-- -----------------------------------------------------------------------------
-- Views of a request
-- -----------------------------------------------------------------------------

namespace CapturedRequest

/-- A header's value, repeated fields combined with `, `. -/
def header (request : CapturedRequest) (name : String) : Option String :=
  match (request.headers.filter (·.1 = asciiLowercase name)).map Prod.snd with
  | [] => none
  | values => some (", ".intercalate values)

def cookies (request : CapturedRequest) : List (String × String) :=
  (request.headers.filter (·.1 = "cookie")).flatMap fun header =>
    (splitBy (· = ';') header.2.toList).filterMap fun pair =>
      (splitOnce '=' pair).map fun (name, value) =>
        (String.ofList (trimBy isWhiteSpace name), String.ofList (trimBy isWhiteSpace value))

def contentType (request : CapturedRequest) : Option String :=
  (request.header "content-type").bind fun value =>
    (splitBy (· = ';') value.toList).head?.map fun media =>
      asciiLowercase (String.ofList (trimBy isWhiteSpace media))

def form (lib : ExpressionLibrary) (request : CapturedRequest) : Option (List (String × String)) :=
  if request.contentType = some "application/x-www-form-urlencoded" then
    some (lib.parseForm request.body)
  else none

def maxMultipartParts : Nat := 64

/-- The parts, which ingress parses before it verifies. -/
def multipartParts (lib : ExpressionLibrary) (request : CapturedRequest) :
    Option (List (String × List UInt8)) :=
  if request.contentType = some "multipart/form-data" then
    (request.header "content-type").bind fun contentType =>
      (lib.parseMultipart contentType request.body).bind fun parts =>
        if parts.length ≤ maxMultipartParts then some parts else none
  else none

/-- `host`, or `host:port` when a non-default port is present. -/
def authority (lib : ExpressionLibrary) (request : CapturedRequest) : String :=
  let host := (lib.hostStr request.url).getD ""
  match lib.port request.url with
  | some port => host ++ ":" ++ toString port
  | none => host

end CapturedRequest

-- -----------------------------------------------------------------------------
-- Names and errors
-- -----------------------------------------------------------------------------

namespace Function

def name : Function → String
  | .concat => "concat"
  | .join => "join"
  | .sort => "sort"
  | .sortKeys => "sort_keys"
  | .utf8 => "utf8"
  | .ascii => "ascii"
  | .urlEncode => "url_encode"
  | .urlDecode => "url_decode"
  | .percentEncode => "percent_encode"
  | .percentDecode => "percent_decode"
  | .canonicalizeUrl => "canonicalize_url"
  | .canonicalizeQuery => "canonicalize_query"
  | .jsonEncode => "json_encode"
  | .formEncode => "form_encode"
  | .sha1 => "sha1"
  | .sha256 => "sha256"
  | .sha384 => "sha384"
  | .sha512 => "sha512"
  | .hex => "hex"
  | .hexDecode => "hex_decode"
  | .base64 => "base64"
  | .base64Decode => "base64_decode"
  | .base64Url => "base64url"
  | .base64UrlDecode => "base64url_decode"
  | .lowercase => "lowercase"
  | .uppercase => "uppercase"
  | .trim => "trim"

end Function

def Root.asStr : Root → String
  | .request => "request"
  | .hook => "hook"
  | .secret => "secret"
  | .key => "key"

def isBareIdentifier (value : String) : Bool :=
  match value.toList with
  | [] => false
  | first :: rest =>
    (isAsciiUpper first || isAsciiLower first || first = '_') &&
      rest.all fun c => isAsciiAlphanumeric c || c = '_' || c = '-'

/-- A string under the expression language's escape rules. -/
def quoteText (value : String) : String :=
  String.ofList ('"' :: value.toList.flatMap (fun c =>
    if c = '"' then ['\\', '"']
    else if c = '\\' then ['\\', '\\']
    else if c = '\n' then ['\\', 'n']
    else if c = '\r' then ['\\', 'r']
    else if c = '\t' then ['\\', 't']
    else [c]) ++ ['"'])

def Segment.display : Segment → String
  | .key name => if isBareIdentifier name then "." ++ name else "[" ++ quoteText name ++ "]"
  | .index position => "[" ++ toString position ++ "]"

def Path.display (path : Path) : String :=
  path.root.asStr ++ String.join (path.segments.map Segment.display)

inductive EvalError
  | missingValue (path : String)
  | unsupportedBlock (path : String)
  | notIndexable (path : String)
  | bodyNotJson
  | bodyNotForm
  | bodyNotMultipart
  | bodyNotText
  | type (function expected actual : String)
  | missing (function : String)
  | invalidUtf8 (function : String)
  | invalidEncoding (function : String)
  deriving DecidableEq, Repr

def EvalError.message : EvalError → String
  | .missingValue path => path ++ " is missing"
  | .unsupportedBlock path => path ++ " is not available"
  | .notIndexable path => path ++ " cannot be indexed"
  | .bodyNotJson => "request body is not JSON"
  | .bodyNotForm => "request body is not form-encoded"
  | .bodyNotMultipart => "request body is not multipart"
  | .bodyNotText => "request body is not UTF-8 text"
  | .type function expected actual =>
    function ++ " expected " ++ expected ++ " but received " ++ actual
  | .missing function => function ++ " received a missing value"
  | .invalidUtf8 function => function ++ " received bytes that are not UTF-8"
  | .invalidEncoding function => function ++ " received malformed input"

def EvalError.fromValue (function expected : String) : ValueError → EvalError
  | .missing => .missing function
  | .invalidUtf8 => .invalidUtf8 function
  | .notScalar actual | .notList actual | .notObject actual => .type function expected actual

def coerce (function expected : String) (result : Except ValueError α) : Except EvalError α :=
  match result with
  | .ok value => .ok value
  | .error e => .error (.fromValue function expected e)

-- -----------------------------------------------------------------------------
-- Blocks
-- -----------------------------------------------------------------------------

structure EvalContext where
  request : CapturedRequest
  hookId : String
  hookUrl : String
  secret : Option (List UInt8)
  publicKey : Option (List UInt8)

def orElse (value : Option α) (e : EvalError) : Except EvalError α :=
  match value with
  | some value => .ok value
  | none => .error e

def pairsObject (pairs : List (String × String)) : Value :=
  .object (pairs.map fun (name, value) => (name, .text value))

def addHeader (members : List (String × Value)) (name value : String) : List (String × Value) :=
  match members with
  | [] => [(name, .text value)]
  | (other, .text existing) :: rest =>
    if other = name then (other, .text (existing ++ ", " ++ value)) :: rest
    else (other, .text existing) :: addHeader rest name value
  | member :: rest => member :: addHeader rest name value

def headersObject (request : CapturedRequest) : Value :=
  .object (request.headers.foldl (fun members header => addHeader members header.1 header.2) [])

def multipartObject (parts : List (String × List UInt8)) : Value :=
  .object (parts.map fun (name, data) =>
    match fromUtf8 data with
    | some text => (name, .text text)
    | none => (name, .bytes data))

def requestValue (lib : ExpressionLibrary) (context : EvalContext) (path : Path)
    (block : String) : Except EvalError Value :=
  let request := context.request
  match block with
  | "raw_body" => .text <$> orElse (fromUtf8 request.body) .bodyNotText
  | "raw_body_bytes" => .ok (.bytes request.body)
  | "body" => .fromJson <$> orElse (lib.parseJson request.body) .bodyNotJson
  | "form" => pairsObject <$> orElse (request.form lib) .bodyNotForm
  | "multipart" => multipartObject <$> orElse (request.multipartParts lib) .bodyNotMultipart
  | "method" => .ok (.text request.method)
  | "url" => .ok (.text request.url)
  | "scheme" => .ok (.text (lib.scheme request.url))
  | "authority" | "host" => .ok (.text (request.authority lib))
  | "hostname" => .ok (.text ((lib.hostStr request.url).getD ""))
  | "port" => .ok (match lib.portOrKnownDefault request.url with
    | some port => .text (toString port)
    | none => .null)
  | "path" => .ok (.text (lib.path request.url))
  | "query_string" => .ok (.text ((lib.query request.url).getD ""))
  | "query" => .ok (pairsObject (lib.queryPairs request.url))
  | "headers" => .ok (headersObject request)
  | "cookies" => .ok (pairsObject request.cookies)
  | _ => .error (.unsupportedBlock path.display)

def baseOf (lib : ExpressionLibrary) (context : EvalContext) (path : Path) :
    Except EvalError (Value × List Segment) :=
  match path.root, path.segments with
  | .request, .key block :: rest => (·, rest) <$> requestValue lib context path block
  | .hook, .key "id" :: rest => .ok (.text context.hookId, rest)
  | .hook, .key "url" :: rest => .ok (.text context.hookUrl, rest)
  | .secret, segments => .ok (context.secret.elim .null .bytes, segments)
  | .key, .key "public" :: rest => .ok (context.publicKey.elim .null .bytes, rest)
  | _, _ => .error (.unsupportedBlock path.display)

/-- One step into a value; header names are matched in lower case. -/
def Value.follow (value : Value) (lowercaseKeys : Bool) : Segment → Option Value
  | .key name => value.member (if lowercaseKeys then asciiLowercase name else name)
  | .index position => value.element position

def indexInto (path : Path) (lowercaseKeys : Bool) : Value → List Segment → Except EvalError Value
  | value, [] => .ok value
  | value, segment :: rest =>
    match value.follow lowercaseKeys segment with
    | none => .error (.notIndexable path.display)
    | some next => indexInto path lowercaseKeys next rest

def Path.isHeaderBlock (path : Path) : Bool :=
  path.root = .request && path.segments.head? = some (.key "headers")

def evaluatePath (lib : ExpressionLibrary) (context : EvalContext) (path : Path) :
    Except EvalError Value := do
  let (base, rest) ← baseOf lib context path
  indexInto path path.isHeaderBlock base rest

-- -----------------------------------------------------------------------------
-- Functions
-- -----------------------------------------------------------------------------

namespace Eval

def argumentText (function : Function) (value : Value) : Except EvalError String :=
  coerce function.name "text" value.intoText

def argumentBytes (function : Function) (value : Value) : Except EvalError (List UInt8) :=
  coerce function.name "text or bytes" value.intoBytes

def single (arguments : List Value) : Value := arguments.getLast?.getD .null

def flatten (arguments : List Value) : List Value :=
  arguments.flatMap fun argument =>
    match argument with
    | .list values => values
    | other => [other]

/-- Text, unless an argument is bytes. -/
def concatenate (function : Function) (arguments : List Value) (separator : Option String) :
    Except EvalError Value := do
  let parts ← arguments.mapM (argumentBytes function)
  let output := (utf8 (separator.getD "")).intercalate parts
  if arguments.any Value.isBytes then return .bytes output
  .text <$> orElse (fromUtf8 output) (.invalidUtf8 function.name)

def ordered (order : SortOrder) (a b : List UInt8) : Bool :=
  match order with
  | .ascending => bytesLe a b
  | .descending => bytesLe b a

def sortValues (function : Function) (value : Value) (order : SortOrder) :
    Except EvalError Value := do
  let values ← coerce function.name "list" value.intoList
  let keyed ← values.mapM fun value =>
    (·, value) <$> coerce function.name "list of scalars" value.intoBytes
  return .list ((keyed.insertionSort fun a b => ordered order a.1 b.1).map Prod.snd)

def sortKeys (function : Function) (value : Value) (order : SortOrder) :
    Except EvalError Value := do
  let members ← coerce function.name "object" value.intoObject
  return .object (members.insertionSort fun a b => ordered order (utf8 a.1) (utf8 b.1))

def upperHexChar (n : Nat) : Char := Char.ofNat (if n < 10 then 48 + n else 55 + n)

def percentByte (b : UInt8) : List Char :=
  ['%', upperHexChar (b.toNat / 16), upperHexChar (b.toNat % 16)]

/-- Alphanumerics and `-._~` as they are, everything else as `%XX`. -/
def percentEncode (bytes : List UInt8) : String :=
  String.ofList (bytes.flatMap fun b =>
    let c := Char.ofNat b.toNat
    if isAsciiAlphanumeric c || c = '-' || c = '.' || c = '_' || c = '~' then [c]
    else percentByte b)

/-- `form_urlencoded::byte_serialize`. -/
def byteSerialize (bytes : List UInt8) : String :=
  String.ofList (bytes.flatMap fun b =>
    let c := Char.ofNat b.toNat
    if isAsciiAlphanumeric c || c = '*' || c = '-' || c = '.' || c = '_' then [c]
    else if c = ' ' then ['+']
    else percentByte b)

/-- Escapes that are not two hexadecimal digits stay as they are. -/
def percentDecode : List UInt8 → List UInt8
  | 37 :: hi :: lo :: rest =>
    match hexDigit (Char.ofNat hi.toNat), hexDigit (Char.ofNat lo.toNat) with
    | some h, some l => byte (16 * h + l) :: percentDecode rest
    | _, _ => 37 :: percentDecode (hi :: lo :: rest)
  | b :: rest => b :: percentDecode rest
  | [] => []

def serializePairs (pairs : List (String × String)) : String :=
  "&".intercalate (pairs.map fun (name, value) =>
    byteSerialize (utf8 name) ++ "=" ++ byteSerialize (utf8 value))

def sortPairs (pairs : List (String × String)) : List (String × String) :=
  pairs.insertionSort fun a b =>
    utf8 a.1 < utf8 b.1 ∨ a.1 = b.1 ∧ utf8 a.2 ≤ utf8 b.2

def objectPairs (function : Function) (members : List (String × Value)) :
    Except EvalError (List (String × String)) :=
  members.mapM fun (name, value) => (name, ·) <$> argumentText function value

def canonicalizeUrl (lib : ExpressionLibrary) (function : Function) (text : String) :
    Except EvalError Value := do
  let url ← orElse (lib.parseUrl text) (.invalidEncoding function.name)
  let pairs := sortPairs (lib.queryPairs url)
  return .text (lib.withoutFragment
    (lib.withQuery (if pairs.isEmpty then none else some pairs) url))

def queryArgument (lib : ExpressionLibrary) (function : Function) :
    Value → Except EvalError (List (String × String))
  | .object members => objectPairs function members
  | other => do return lib.parseForm (utf8 (← argumentText function other))

def digest (lib : ExpressionLibrary) (hash : HashFunction) (function : Function) (value : Value) :
    Except EvalError Value := do
  return .bytes (lib.digest hash (← argumentBytes function value))

/-- A decoder on the trimmed text of a value. -/
def decodeText (function : Function) (decode : List Char → Option (List UInt8)) (value : Value) :
    Except EvalError Value := do
  let text ← argumentText function value
  .bytes <$> orElse (decode (trimBy isWhiteSpace text.toList)) (.invalidEncoding function.name)

def applyFunction (lib : ExpressionLibrary) (function : Function) (separator : Option String)
    (order : Option SortOrder) (arguments : List Value) : Except EvalError Value :=
  let argument := single arguments
  match function with
  | .concat => concatenate function arguments none
  | .join => concatenate function (flatten arguments) separator
  | .sort => sortValues function argument (order.getD .ascending)
  | .sortKeys => sortKeys function argument (order.getD .ascending)
  | .utf8 => .text <$> argumentText function argument
  | .lowercase => (.text <| lib.lowercase ·) <$> argumentText function argument
  | .uppercase => (.text <| lib.uppercase ·) <$> argumentText function argument
  | .trim => (.text <| trim ·) <$> argumentText function argument
  | .ascii => do
    let text ← argumentText function argument
    if text.toList.all isAscii then return .text text
    else throw (.invalidEncoding function.name)
  | .urlEncode => (.text <| byteSerialize ·) <$> argumentBytes function argument
  | .urlDecode => do
    let text ← argumentText function argument
    let spaced := utf8 (String.ofList (text.toList.map fun c => if c = '+' then ' ' else c))
    .text <$> orElse (fromUtf8 (percentDecode spaced)) (.invalidUtf8 function.name)
  | .percentEncode => (.text <| percentEncode <| Encoding.utf8 ·) <$> argumentText function argument
  | .percentDecode => do
    let text ← argumentText function argument
    .text <$> orElse (fromUtf8 (Eval.percentDecode (utf8 text)))
      (.invalidUtf8 function.name)
  | .canonicalizeUrl => do
    Eval.canonicalizeUrl lib function (← argumentText function argument)
  | .canonicalizeQuery => do
    return .text (serializePairs (sortPairs (← queryArgument lib function argument)))
  | .formEncode => do
    let members ← coerce function.name "object" argument.intoObject
    return .text (serializePairs (← objectPairs function members))
  | .jsonEncode => (.text <| JsonValue.render ·) <$> coerce function.name "JSON value" argument.toJson
  | .sha1 => digest lib .sha1 function argument
  | .sha256 => digest lib .sha256 function argument
  | .sha384 => digest lib .sha384 function argument
  | .sha512 => digest lib .sha512 function argument
  | .hex => (.text <| String.ofList <| hexEncode ·) <$> argumentBytes function argument
  | .hexDecode => decodeText function SiliconHook.Encoding.hexDecode argument
  | .base64 =>
    (.text <| String.ofList <| base64Encode .standard true ·) <$> argumentBytes function argument
  | .base64Url =>
    (.text <| String.ofList <| base64Encode .urlSafe false ·) <$> argumentBytes function argument
  | .base64Decode => decodeText function (fun text =>
      SiliconHook.Encoding.base64Decode .standard true text <|>
        SiliconHook.Encoding.base64Decode .standard false text) argument
  | .base64UrlDecode => decodeText function (fun text =>
      SiliconHook.Encoding.base64Decode .urlSafe false text <|>
        SiliconHook.Encoding.base64Decode .urlSafe true text) argument

end Eval

-- -----------------------------------------------------------------------------
-- Expressions
-- -----------------------------------------------------------------------------

mutual

def evaluate (lib : ExpressionLibrary) (context : EvalContext) : Expr → Except EvalError Value
  | .literal text => .ok (.text text)
  | .path path => evaluatePath lib context path
  | .call function arguments separator order => do
    Eval.applyFunction lib function separator order (← evaluateAll lib context arguments)

def evaluateAll (lib : ExpressionLibrary) (context : EvalContext) :
    List Expr → Except EvalError (List Value)
  | [] => .ok []
  | argument :: rest => do
    return (← evaluate lib context argument) :: (← evaluateAll lib context rest)

end

end SiliconHook
