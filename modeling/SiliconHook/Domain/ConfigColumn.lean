import SiliconHook.Domain.Parser
import SiliconHook.Domain.Signing

/-!
# The stored signing configuration

A hook's signing configuration as the JSON object its column holds. Expressions
are written as their source and parsed again.
-/

namespace SiliconHook

open Text

/-- Parses expression source and remembers its trimmed text. -/
def Expression.parse (source : String) : Except ParseError Expression :=
  (SiliconHook.parse source).map fun parsed => ⟨trim source, parsed⟩

-- -----------------------------------------------------------------------------
-- Names
-- -----------------------------------------------------------------------------

namespace SignatureAlgorithm

def asStr : SignatureAlgorithm → String
  | .hmacSha1 => "HMAC-SHA1"
  | .hmacSha256 => "HMAC-SHA256"
  | .hmacSha384 => "HMAC-SHA384"
  | .hmacSha512 => "HMAC-SHA512"
  | .sha1 => "SHA1"
  | .sha256 => "SHA256"
  | .sha384 => "SHA384"
  | .sha512 => "SHA512"
  | .ed25519 => "Ed25519"
  | .ecdsaSha256 => "ECDSA-SHA256"
  | .rsaSha1 => "RSA-SHA1"
  | .rsaSha256 => "RSA-SHA256"

def parse : String → Option SignatureAlgorithm
  | "HMAC-SHA1" => some .hmacSha1
  | "HMAC-SHA256" => some .hmacSha256
  | "HMAC-SHA384" => some .hmacSha384
  | "HMAC-SHA512" => some .hmacSha512
  | "SHA1" => some .sha1
  | "SHA256" => some .sha256
  | "SHA384" => some .sha384
  | "SHA512" => some .sha512
  | "Ed25519" => some .ed25519
  | "ECDSA-SHA256" => some .ecdsaSha256
  | "RSA-SHA1" => some .rsaSha1
  | "RSA-SHA256" => some .rsaSha256
  | _ => none

theorem parse_asStr (algorithm : SignatureAlgorithm) : parse algorithm.asStr = some algorithm := by
  cases algorithm <;> rfl

end SignatureAlgorithm

namespace SignatureEncoding

def asStr : SignatureEncoding → String
  | .hex => "hex"
  | .base64 => "base64"
  | .base64Url => "base64url"
  | .raw => "raw"

def parse : String → Option SignatureEncoding
  | "hex" => some .hex
  | "base64" => some .base64
  | "base64url" => some .base64Url
  | "raw" => some .raw
  | _ => none

theorem parse_asStr (encoding : SignatureEncoding) : parse encoding.asStr = some encoding := by
  cases encoding <;> rfl

end SignatureEncoding

namespace SecretEncoding

def asStr : SecretEncoding → String
  | .utf8 => "utf8"
  | .ascii => "ascii"
  | .hex => "hex"
  | .base64 => "base64"
  | .base64Url => "base64url"
  | .raw => "raw"

def parse : String → Option SecretEncoding
  | "utf8" => some .utf8
  | "ascii" => some .ascii
  | "hex" => some .hex
  | "base64" => some .base64
  | "base64url" => some .base64Url
  | "raw" => some .raw
  | _ => none

theorem parse_asStr (encoding : SecretEncoding) : parse encoding.asStr = some encoding := by
  cases encoding <;> rfl

end SecretEncoding

-- -----------------------------------------------------------------------------
-- The object
-- -----------------------------------------------------------------------------

def JsonValue.ofMembers (members : List (String × JsonValue)) : JsonValue :=
  .object (members.foldl (fun map member => insertMember member.1 member.2 map) [])

namespace SignatureConfig

/-- The members in the order of the fields; no public key leaves no member. -/
def members (config : SignatureConfig) : List (String × JsonValue) :=
  [("algorithm", .string config.algorithm.asStr), ("payload", .string config.payload.source),
    ("signature", .string config.signature.source),
    ("signature_encoding", .string config.signatureEncoding.asStr),
    ("secret_encoding", .string config.secretEncoding.asStr)] ++
    (config.publicKey.map fun material => ("public_key", .string material)).toList

def toJson (config : SignatureConfig) : JsonValue := .ofMembers config.members

end SignatureConfig

inductive ConfigReadError
  | notObject
  | unknownField (name : String)
  | duplicateField (name : String)
  | missingField (name : String)
  | notString (name : String)
  | unknownVariant (name value : String)
  | expression (name : String) (error : ParseError)
  deriving DecidableEq, Repr

structure ConfigFields where
  algorithm : Option SignatureAlgorithm
  payload : Option Expression
  signature : Option Expression
  signatureEncoding : Option SignatureEncoding
  secretEncoding : Option SecretEncoding
  publicKey : Option (Option String)

namespace ConfigFields

def empty : ConfigFields := ⟨none, none, none, none, none, none⟩

def text (name : String) : JsonValue → Except ConfigReadError String
  | .string value => .ok value
  | _ => .error (.notString name)

def variant (name : String) (parse : String → Option α) (value : JsonValue) :
    Except ConfigReadError α := do
  let value ← text name value
  match parse value with
  | some read => return read
  | none => throw (.unknownVariant name value)

def expression (name : String) (value : JsonValue) : Except ConfigReadError Expression := do
  (Expression.parse (← text name value)).mapError (.expression name)

def optionalText (name : String) : JsonValue → Except ConfigReadError (Option String)
  | .null => .ok none
  | value => some <$> text name value

def first (name : String) (earlier : Option α) (value : Except ConfigReadError α) :
    Except ConfigReadError (Option α) :=
  match earlier with
  | some _ => .error (.duplicateField name)
  | none => some <$> value

def read (fields : ConfigFields) (member : String × JsonValue) :
    Except ConfigReadError ConfigFields :=
  let (name, value) := member
  match name with
  | "algorithm" =>
    ({ fields with algorithm := · }) <$>
      first name fields.algorithm (variant name SignatureAlgorithm.parse value)
  | "payload" =>
    ({ fields with payload := · }) <$> first name fields.payload (expression name value)
  | "signature" =>
    ({ fields with signature := · }) <$> first name fields.signature (expression name value)
  | "signature_encoding" =>
    ({ fields with signatureEncoding := · }) <$>
      first name fields.signatureEncoding (variant name SignatureEncoding.parse value)
  | "secret_encoding" =>
    ({ fields with secretEncoding := · }) <$>
      first name fields.secretEncoding (variant name SecretEncoding.parse value)
  | "public_key" =>
    ({ fields with publicKey := · }) <$> first name fields.publicKey (optionalText name value)
  | other => .error (.unknownField other)

def require (name : String) (field : Option α) : Except ConfigReadError α :=
  match field with
  | some value => .ok value
  | none => .error (.missingField name)

def finish (fields : ConfigFields) : Except ConfigReadError SignatureConfig := do
  let algorithm ← require "algorithm" fields.algorithm
  let payload ← require "payload" fields.payload
  let signature ← require "signature" fields.signature
  let signatureEncoding ← require "signature_encoding" fields.signatureEncoding
  let secretEncoding ← require "secret_encoding" fields.secretEncoding
  return ⟨algorithm, payload, signature, signatureEncoding, secretEncoding,
    fields.publicKey.getD none⟩

end ConfigFields

def SignatureConfig.fromJson : JsonValue → Except ConfigReadError SignatureConfig
  | .object members => do (← members.foldlM ConfigFields.read .empty).finish
  | _ => .error .notObject

end SiliconHook
