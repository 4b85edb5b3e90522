import SiliconHook.Library.Encoding
import SiliconHook.Domain.Ast
import SiliconHook.Domain.Identity

/-!
# Signing policies

How a hook verifies its provider's requests: the configuration, the secret in
clear and encrypted form, and the patch an update merges onto a policy.
-/

namespace SiliconHook

open Text Encoding

-- -----------------------------------------------------------------------------
-- Configuration
-- -----------------------------------------------------------------------------

inductive SignatureAlgorithm
  | hmacSha1
  | hmacSha256
  | hmacSha384
  | hmacSha512
  | sha1
  | sha256
  | sha384
  | sha512
  | ed25519
  | ecdsaSha256
  | rsaSha1
  | rsaSha256
  deriving DecidableEq, Repr

def SignatureAlgorithm.isAsymmetric : SignatureAlgorithm → Bool
  | .ed25519 | .ecdsaSha256 | .rsaSha1 | .rsaSha256 => true
  | _ => false

def SignatureAlgorithm.usesSecret (algorithm : SignatureAlgorithm) : Bool :=
  !algorithm.isAsymmetric

inductive SignatureEncoding
  | hex
  | base64
  | base64Url
  | raw
  deriving DecidableEq, Repr

inductive SecretEncoding
  | utf8
  | ascii
  | hex
  | base64
  | base64Url
  | raw
  deriving DecidableEq, Repr

/-- Debug form of an encoding, as a decode error shows it. -/
def SecretEncoding.debug : SecretEncoding → String
  | .utf8 => "Utf8"
  | .ascii => "Ascii"
  | .hex => "Hex"
  | .base64 => "Base64"
  | .base64Url => "Base64Url"
  | .raw => "Raw"

structure SecretDecodeError where
  encoding : SecretEncoding
  deriving DecidableEq, Repr

def SecretDecodeError.message (error : SecretDecodeError) : String :=
  "secret is not valid " ++ error.encoding.debug

/-- Secret text to key bytes, `none` where the text is not in the encoding. -/
def SecretEncoding.keyBytes (encoding : SecretEncoding) (secret : String) : Option (List UInt8) :=
  match encoding with
  | .utf8 | .raw => some (Encoding.utf8 secret)
  | .ascii => if secret.toList.all isAscii then some (Encoding.utf8 secret) else none
  | .hex => hexDecode (trimBy isWhiteSpace secret.toList)
  | .base64 =>
    base64Decode .standard true (trimBy isWhiteSpace secret.toList) <|>
      base64Decode .standard false (trimBy isWhiteSpace secret.toList)
  | .base64Url =>
    base64Decode .urlSafe false (trimBy isWhiteSpace secret.toList) <|>
      base64Decode .urlSafe true (trimBy isWhiteSpace secret.toList)

def SecretEncoding.decode (encoding : SecretEncoding) (secret : String) :
    Except SecretDecodeError (List UInt8) :=
  match encoding.keyBytes secret with
  | none => .error ⟨encoding⟩
  | some bytes => if bytes.isEmpty then .error ⟨encoding⟩ else .ok bytes

structure SignatureConfig where
  algorithm : SignatureAlgorithm
  payload : Expression
  signature : Expression
  signatureEncoding : SignatureEncoding
  secretEncoding : SecretEncoding
  publicKey : Option String
  deriving DecidableEq, Repr

def headerPath (name : String) : Expr := .path ⟨.request, [.key "headers", .key name]⟩

def rawBodyPath : Expr := .path ⟨.request, [.key "raw_body"]⟩

def defaultPayloadExpression : Expression where
  source := "concat(request.headers[\"webhook-id\"], \".\", request.headers[\"webhook-timestamp\"], \".\", request.raw_body)"
  parsed := .call .concat
    [headerPath "webhook-id", .literal ".", headerPath "webhook-timestamp", .literal ".",
      rawBodyPath] none none

def defaultSignatureExpression : Expression where
  source := "request.headers[\"webhook-signature\"]"
  parsed := headerPath "webhook-signature"

/-- Standard Webhooks. -/
def SignatureConfig.default : SignatureConfig where
  algorithm := .hmacSha256
  payload := defaultPayloadExpression
  signature := defaultSignatureExpression
  signatureEncoding := .base64
  secretEncoding := .utf8
  publicKey := none

inductive PublicKeyError
  | missing
  | notApplicable
  | tooLarge
  | malformed
  | weakRsaKey
  | encoding
  deriving DecidableEq, Repr

def PublicKeyError.message : PublicKeyError → String
  | .missing => "a public key is required for this signature algorithm"
  | .notApplicable => "a public key cannot be used with a symmetric signature algorithm"
  | .tooLarge => "public key material exceeds 16384 bytes"
  | .malformed => "public key material is malformed for the signature algorithm"
  | .weakRsaKey => "RSA public keys must have at least 2048-bit moduli"
  | .encoding => "public key cannot be encoded as SubjectPublicKeyInfo"

def maxPublicKeyBytes : Nat := 16 * 1024

/-- The key readers of the Ed25519, P-256 and RSA libraries, on trimmed
material of the asymmetric algorithm given. -/
abbrev KeyReader := SignatureAlgorithm → String → Except PublicKeyError Unit

def PublicKey.parse (read : KeyReader) (algorithm : SignatureAlgorithm) (material : String) :
    Except PublicKeyError Unit :=
  if !algorithm.isAsymmetric then .error .notApplicable
  else if maxPublicKeyBytes < material.utf8ByteSize then .error .tooLarge
  else if (trim material).isEmpty then .error .missing
  else read algorithm (trim material)

def SignatureConfig.validate (read : KeyReader) (config : SignatureConfig) :
    Except PublicKeyError Unit :=
  match config.algorithm.isAsymmetric, config.publicKey with
  | true, none => .error .missing
  | true, some material => PublicKey.parse read config.algorithm material
  | false, some _ => .error .notApplicable
  | false, none => .ok ()

-- -----------------------------------------------------------------------------
-- Secrets
-- -----------------------------------------------------------------------------

def maxSecretBytes : Nat := 4096

def SigningSecret.check (value : String) : Except DomainError Unit :=
  if value.isEmpty then .error (.empty "secret")
  else if maxSecretBytes < value.utf8ByteSize then .error (.tooLong "secret" maxSecretBytes)
  else if value.toList.any isControl then
    .error (.invalidFormat "secret" "must not contain control characters")
  else .ok ()

structure SigningSecret where
  value : String
  valid : SigningSecret.check value = .ok ()
  deriving DecidableEq

def SigningSecret.fromText (value : String) : Except DomainError SigningSecret :=
  match h : SigningSecret.check value with
  | .error e => .error e
  | .ok () => .ok ⟨value, h⟩

def signingSecretGeneratedLength : Nat := 32

structure SecretEntropy where
  chars : List Char
  length : chars.length = signingSecretGeneratedLength
  alphanumeric : chars.all isAsciiAlphanumeric = true
  deriving DecidableEq, Repr

/-- `v1.` followed by the drawn characters. -/
def SigningSecret.generateText (entropy : SecretEntropy) : String :=
  String.ofList ("v1.".toList ++ entropy.chars)

structure EncryptionKeyId where
  value : String
  deriving DecidableEq, Repr

def encryptionTagBytes : Nat := 16

/-- Versioned AES-GCM ciphertext stored for a hook signing secret. -/
structure EncryptedSecret where
  keyId : EncryptionKeyId
  nonce : List UInt8
  ciphertext : List UInt8
  bounded : encryptionTagBytes < ciphertext.length ∧
    ciphertext.length - encryptionTagBytes ≤ maxSecretBytes
  deriving DecidableEq

def EncryptedSecret.new (keyId : EncryptionKeyId) (nonce ciphertext : List UInt8) :
    Except DomainError EncryptedSecret :=
  if h : encryptionTagBytes < ciphertext.length ∧
      ciphertext.length - encryptionTagBytes ≤ maxSecretBytes then
    .ok ⟨keyId, nonce, ciphertext, h⟩
  else .error (.invalidFormat "encrypted_signing_secret"
    "ciphertext must contain a bounded secret and its AES-GCM tag")

-- -----------------------------------------------------------------------------
-- Policies and patches
-- -----------------------------------------------------------------------------

/-- How a hook authenticates provider requests. The configuration is retained
even while signatures are not required. -/
structure SigningPolicy where
  required : Bool
  config : SignatureConfig
  encryptedSecret : Option EncryptedSecret
  deriving DecidableEq

structure SigningInput where
  required : Bool
  config : SignatureConfig
  secret : Option SigningSecret
  deriving DecidableEq

/-- Partial signing policy; `publicKey := some none` clears the key. -/
structure SigningPatch where
  required : Option Bool
  algorithm : Option SignatureAlgorithm
  payload : Option Expression
  signature : Option Expression
  signatureEncoding : Option SignatureEncoding
  secretEncoding : Option SecretEncoding
  publicKey : Option (Option String)
  secret : Option SigningSecret
  deriving DecidableEq

def SigningPatch.empty : SigningPatch := ⟨none, none, none, none, none, none, none, none⟩

def SigningPatch.resolve (patch : SigningPatch) (base : SignatureConfig) (baseRequired : Bool) :
    SigningInput where
  required := patch.required.getD baseRequired
  config := {
    algorithm := patch.algorithm.getD base.algorithm
    payload := patch.payload.getD base.payload
    signature := patch.signature.getD base.signature
    signatureEncoding := patch.signatureEncoding.getD base.signatureEncoding
    secretEncoding := patch.secretEncoding.getD base.secretEncoding
    publicKey := patch.publicKey.getD base.publicKey }
  secret := patch.secret

-- -----------------------------------------------------------------------------
-- What the checks say
-- -----------------------------------------------------------------------------

theorem SigningSecret.check_ok {text : String} :
    SigningSecret.check text = .ok () ↔
      text ≠ "" ∧ text.utf8ByteSize ≤ maxSecretBytes ∧ ∀ c ∈ text.toList, isControl c = false := by
  simp only [SigningSecret.check]
  split
  · simp_all
  · split
    · simp only [reduceCtorEq, false_iff]
      rintro ⟨-, h, -⟩
      omega
    · split <;> simp_all

theorem SecretEncoding.decode_ok {encoding : SecretEncoding} {bytes : List UInt8} :
    encoding.decode secret = .ok bytes ↔ encoding.keyBytes secret = some bytes ∧ bytes ≠ [] := by
  simp only [SecretEncoding.decode]
  split
  · simp_all
  · rename_i found h
    rw [h]
    split
    · rename_i he
      rw [List.isEmpty_iff] at he
      simp only [he, reduceCtorEq, Option.some.injEq, false_iff, not_and, not_not]
      exact Eq.symm
    · rename_i he
      rw [List.isEmpty_iff] at he
      simp only [Except.ok.injEq, Option.some.injEq]
      constructor
      · rintro rfl
        exact ⟨rfl, he⟩
      · exact And.left

end SiliconHook
