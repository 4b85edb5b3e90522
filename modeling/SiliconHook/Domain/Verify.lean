import SiliconHook.Library.Result
import SiliconHook.Domain.Eval
import SiliconHook.Domain.Signing

/-!
# Signature verification

A request against a hook's configuration: the payload and the presented
candidates are evaluated, and one candidate has to match.
-/

namespace SiliconHook

open Encoding Text

/-- Operations on the keys a reader accepts. A parsed key is its trimmed
material under its algorithm. -/
structure KeyLibrary (reader : KeyReader) where
  toSpkiDer : SignatureAlgorithm → String → Except PublicKeyError (List UInt8)
  /-- The library's verifier: key material, payload and candidate. -/
  verifies : SignatureAlgorithm → String → List UInt8 → List UInt8 → Bool
  encodes : ∀ algorithm material, reader algorithm material = .ok () →
    ∃ der, toSpkiDer algorithm material = .ok der

variable {reader : KeyReader}

-- -----------------------------------------------------------------------------
-- Key material
-- -----------------------------------------------------------------------------

structure VerificationMaterial where
  secret : Option (List UInt8)
  publicKey : Option String
  publicKeyDer : Option (List UInt8)
  deriving DecidableEq, Repr

inductive MaterialError
  | secret (error : SecretDecodeError)
  | publicKey (error : PublicKeyError)
  deriving DecidableEq, Repr

def MaterialError.message : MaterialError → String
  | .secret error => error.message
  | .publicKey error => error.message

namespace SignatureConfig

def decodeSecret (config : SignatureConfig) (secret : Option String) :
    Except SecretDecodeError (Option (List UInt8)) :=
  match secret with
  | none => .ok none
  | some secret => some <$> config.secretEncoding.decode secret

def parsedKey (reader : KeyReader) (config : SignatureConfig) :
    Except PublicKeyError (Option String) :=
  match config.publicKey with
  | none => .ok none
  | some material =>
    match PublicKey.parse reader config.algorithm material with
    | .error e => .error e
    | .ok () => .ok (some (trim material))

def keyDer (keys : KeyLibrary reader) (config : SignatureConfig) (key : Option String) :
    Except PublicKeyError (Option (List UInt8)) :=
  match key with
  | none => .ok none
  | some material => some <$> keys.toSpkiDer config.algorithm material

def material (keys : KeyLibrary reader) (config : SignatureConfig) (secret : Option String) :
    Except MaterialError VerificationMaterial := do
  let secret ← (config.decodeSecret secret).mapError .secret
  let publicKey ← (config.parsedKey reader).mapError .publicKey
  let publicKeyDer ← (config.keyDer keys publicKey).mapError .publicKey
  return ⟨secret, publicKey, publicKeyDer⟩

end SignatureConfig

-- -----------------------------------------------------------------------------
-- Rejections
-- -----------------------------------------------------------------------------

inductive RejectionReason
  | payloadUnavailable (error : EvalError)
  | signatureUnavailable (error : EvalError)
  | signatureMissing
  | signatureNotText
  | signatureTooLarge
  | signatureMismatch
  | secretMissing
  | publicKeyMissing
  deriving DecidableEq, Repr

namespace RejectionReason

def code : RejectionReason → String
  | .payloadUnavailable _ => "payload_unavailable"
  | .signatureUnavailable _ => "signature_unavailable"
  | .signatureMissing => "signature_missing"
  | .signatureNotText => "signature_not_text"
  | .signatureTooLarge => "signature_too_large"
  | .signatureMismatch => "signature_mismatch"
  | .secretMissing => "secret_missing"
  | .publicKeyMissing => "public_key_missing"

def message : RejectionReason → String
  | .payloadUnavailable error => "payload unavailable: " ++ error.message
  | .signatureUnavailable error => "signature unavailable: " ++ error.message
  | .signatureMissing => "signature missing"
  | .signatureNotText => "signature is not text"
  | .signatureTooLarge => "signature too large"
  | .signatureMismatch => "signature mismatch"
  | .secretMissing => "secret missing"
  | .publicKeyMissing => "public key missing"

end RejectionReason

def BlockReason.signature (reason : RejectionReason) : BlockReason :=
  ⟨reason.code, boundedDetail reason.message⟩

inductive VerificationOutcome
  | verified
  | rejected (reason : RejectionReason)
  deriving DecidableEq, Repr

-- -----------------------------------------------------------------------------
-- Candidates
-- -----------------------------------------------------------------------------

def maxSignatureCandidates : Nat := 16
def maxPresentedSignatureBytes : Nat := 8 * 1024

def maxLabelLength : Nat := 16

/-- What follows a short `label=` prefix. -/
def unlabelled (token : List Char) : Option (List Char) :=
  (splitOnce '=' token).bind fun (label, rest) =>
    if !rest.isEmpty && 1 ≤ label.length && label.length ≤ maxLabelLength &&
        label.all (fun c => isAsciiAlphanumeric c || c = '_' || c = '-') then some rest
    else none

def addCandidates (collected : List (List Char)) (token : List Char) : List (List Char) :=
  if token.isEmpty || maxSignatureCandidates ≤ collected.length then collected
  else match unlabelled token with
    | some rest =>
      if collected.length + 1 < maxSignatureCandidates then collected ++ [token, rest]
      else collected ++ [token]
    | none => collected ++ [token]

def candidates (presented : String) : List (List Char) :=
  (splitBy (fun c => isWhiteSpace c || c = ',') presented.toList).foldl addCandidates []

def decodeCandidate (candidate : List Char) : SignatureEncoding → Option (List UInt8)
  | .hex => hexDecode candidate
  | .base64 =>
    base64Decode .standard true candidate <|> base64Decode .standard false candidate
  | .base64Url =>
    base64Decode .urlSafe false candidate <|> base64Decode .urlSafe true candidate
  | .raw => some (utf8 (String.ofList candidate))

-- -----------------------------------------------------------------------------
-- Verification
-- -----------------------------------------------------------------------------

def symmetricSignature (lib : ExpressionLibrary) (secret payload : List UInt8) :
    SignatureAlgorithm → Option (List UInt8)
  | .hmacSha1 => some (lib.hmac .sha1 secret payload)
  | .hmacSha256 => some (lib.hmac .sha256 secret payload)
  | .hmacSha384 => some (lib.hmac .sha384 secret payload)
  | .hmacSha512 => some (lib.hmac .sha512 secret payload)
  | .sha1 => some (lib.digest .sha1 payload)
  | .sha256 => some (lib.digest .sha256 payload)
  | .sha384 => some (lib.digest .sha384 payload)
  | .sha512 => some (lib.digest .sha512 payload)
  | .ed25519 | .ecdsaSha256 | .rsaSha1 | .rsaSha256 => none

def signedPayload (lib : ExpressionLibrary) (config : SignatureConfig) (context : EvalContext) :
    Except RejectionReason (List UInt8) := do
  let value ← (evaluate lib context config.payload.parsed).mapError .payloadUnavailable
  (coerce "payload" "text or bytes" value.intoBytes).mapError .payloadUnavailable

/-- A raw signature is the one candidate, delimiters and all. -/
def rawCandidate (value : Value) : Except RejectionReason (List (List UInt8)) := do
  let bytes ← value.intoBytes.mapError fun _ => .signatureNotText
  ensure (bytes.length ≤ maxPresentedSignatureBytes) .signatureTooLarge
  ensure (¬ bytes.isEmpty) .signatureMissing
  return [bytes]

def textCandidates (encoding : SignatureEncoding) (value : Value) :
    Except RejectionReason (List (List UInt8)) := do
  let presented ← value.intoText.mapError fun _ => .signatureNotText
  ensure (presented.utf8ByteSize ≤ maxPresentedSignatureBytes) .signatureTooLarge
  ensure (¬ (trim presented).isEmpty) .signatureMissing
  return (candidates presented).filterMap fun candidate => decodeCandidate candidate encoding

def presentedCandidates (lib : ExpressionLibrary) (config : SignatureConfig)
    (context : EvalContext) : Except RejectionReason (List (List UInt8)) := do
  let value ← (evaluate lib context config.signature.parsed).mapError .signatureUnavailable
  ensure (¬ value.isNull) .signatureMissing
  if config.signatureEncoding = .raw then rawCandidate value
  else textCandidates config.signatureEncoding value

def matchesAny (lib : ExpressionLibrary) (keys : KeyLibrary reader) (config : SignatureConfig)
    (material : VerificationMaterial) (payload : List UInt8) (presented : List (List UInt8)) :
    Except RejectionReason Bool :=
  if config.algorithm.usesSecret then
    match material.secret.bind fun secret =>
        symmetricSignature lib secret payload config.algorithm with
    | none => .error .secretMissing
    | some expected => .ok (presented.contains expected)
  else match material.publicKey with
    | none => .error .publicKeyMissing
    | some key => .ok (presented.any (keys.verifies config.algorithm key payload))

structure HookContext where
  id : String
  url : String
  deriving DecidableEq, Repr

def verificationContext (request : CapturedRequest) (hook : HookContext)
    (material : VerificationMaterial) : EvalContext where
  request := request
  hookId := hook.id
  hookUrl := hook.url
  secret := material.secret
  publicKey := material.publicKeyDer

def verificationResult (lib : ExpressionLibrary) (keys : KeyLibrary reader)
    (config : SignatureConfig) (request : CapturedRequest) (hook : HookContext)
    (material : VerificationMaterial) : Except RejectionReason Bool := do
  let context := verificationContext request hook material
  let payload ← signedPayload lib config context
  let presented ← presentedCandidates lib config context
  matchesAny lib keys config material payload presented

def verify (lib : ExpressionLibrary) (keys : KeyLibrary reader) (config : SignatureConfig)
    (request : CapturedRequest) (hook : HookContext) (material : VerificationMaterial) :
    VerificationOutcome :=
  match verificationResult lib keys config request hook material with
  | .error reason => .rejected reason
  | .ok true => .verified
  | .ok false => .rejected .signatureMismatch

-- -----------------------------------------------------------------------------
-- What the checks of a configuration give a verification
-- -----------------------------------------------------------------------------

variable {keys : KeyLibrary reader} {config : SignatureConfig}
  {material : VerificationMaterial}

theorem SignatureConfig.validate_ok : config.validate reader = .ok () ↔
    (config.algorithm.isAsymmetric = true ∧
      ∃ key, config.publicKey = some key ∧ PublicKey.parse reader config.algorithm key = .ok ()) ∨
    config.algorithm.isAsymmetric = false ∧ config.publicKey = none := by
  unfold SignatureConfig.validate
  cases config.algorithm.isAsymmetric <;> cases config.publicKey <;> simp

theorem PublicKey.parse_ok {algorithm : SignatureAlgorithm} {key : String}
    (h : PublicKey.parse reader algorithm key = .ok ()) : reader algorithm (trim key) = .ok () := by
  unfold PublicKey.parse at h
  split at h
  · cases h
  · split at h
    · cases h
    · split at h
      · cases h
      · exact h

theorem SignatureConfig.parsedKey_ok (keys : KeyLibrary reader) (h : config.validate reader = .ok ()) :
    ∃ key der, config.parsedKey reader = .ok key ∧ config.keyDer keys key = .ok der ∧
      (config.algorithm.isAsymmetric = true → key.isSome = true) := by
  obtain ⟨ha, key, hkey, hparse⟩ | ⟨ha, hkey⟩ := SignatureConfig.validate_ok.mp h
  · obtain ⟨der, hder⟩ := keys.encodes _ _ (PublicKey.parse_ok hparse)
    refine ⟨some (trim key), some der, ?_, ?_, fun _ => rfl⟩
    · simp [parsedKey, hkey, hparse]
    · simp [keyDer, hder]
  · exact ⟨none, none, by simp [parsedKey, hkey], rfl, fun h => by simp [ha] at h⟩

theorem SignatureConfig.material_ok (keys : KeyLibrary reader) {secret : Option String}
    {bytes : Option (List UInt8)} (h : config.validate reader = .ok ())
    (hs : config.decodeSecret secret = .ok bytes) :
    ∃ material, config.material keys secret = .ok material ∧ material.secret = bytes ∧
      (config.algorithm.isAsymmetric = true → material.publicKey.isSome = true) := by
  obtain ⟨key, der, hkey, hder, hsome⟩ := config.parsedKey_ok keys h
  refine ⟨⟨bytes, key, der⟩, ?_, rfl, hsome⟩
  simp [SignatureConfig.material, hs, hkey, hder, Except.mapError, bind, Except.bind, pure,
    Except.pure]

theorem symmetricSignature_isSome (lib : ExpressionLibrary) {algorithm : SignatureAlgorithm}
    (h : algorithm.usesSecret = true) (secret payload : List UInt8) :
    (symmetricSignature lib secret payload algorithm).isSome = true := by
  cases algorithm <;> first | rfl | cases h

-- -----------------------------------------------------------------------------
-- What a rejection is for
-- -----------------------------------------------------------------------------

variable {lib : ExpressionLibrary} {reason : RejectionReason}

theorem signedPayload_error (h : signedPayload lib config context = .error reason) :
    ∃ error, reason = .payloadUnavailable error := by
  unfold signedPayload at h
  obtain h | ⟨_, -, h⟩ := Except.bind_error.mp h
  all_goals
    obtain ⟨error, -, rfl⟩ := Except.mapError_error.mp h
    exact ⟨error, rfl⟩

inductive RejectionReason.OfSignature : RejectionReason → Prop
  | unavailable (error : EvalError) : OfSignature (.signatureUnavailable error)
  | missing : OfSignature .signatureMissing
  | notText : OfSignature .signatureNotText
  | tooLarge : OfSignature .signatureTooLarge

theorem rawCandidate_error (h : rawCandidate value = .error reason) : reason.OfSignature := by
  simp only [rawCandidate, Except.bind_error, Except.mapError_error, ensure_error] at h
  obtain ⟨_, -, rfl⟩ | ⟨_, -, ⟨-, rfl⟩ | ⟨_, -, ⟨-, rfl⟩ | ⟨_, -, h⟩⟩⟩ := h
  · exact .notText
  · exact .tooLarge
  · exact .missing
  · cases h

theorem textCandidates_error (h : textCandidates encoding value = .error reason) :
    reason.OfSignature := by
  simp only [textCandidates, Except.bind_error, Except.mapError_error, ensure_error] at h
  obtain ⟨_, -, rfl⟩ | ⟨_, -, ⟨-, rfl⟩ | ⟨_, -, ⟨-, rfl⟩ | ⟨_, -, h⟩⟩⟩ := h
  · exact .notText
  · exact .tooLarge
  · exact .missing
  · cases h

theorem presentedCandidates_error (h : presentedCandidates lib config context = .error reason) :
    reason.OfSignature := by
  unfold presentedCandidates at h
  obtain h | ⟨value, -, h⟩ := Except.bind_error.mp h
  · obtain ⟨error, -, rfl⟩ := Except.mapError_error.mp h
    exact .unavailable error
  · obtain h | ⟨_, -, h⟩ := Except.bind_error.mp h
    · obtain ⟨-, rfl⟩ := ensure_error.mp h
      exact .missing
    · split at h
      · exact rawCandidate_error h
      · exact textCandidates_error h

def VerificationMaterial.Suffices (material : VerificationMaterial)
    (algorithm : SignatureAlgorithm) : Prop :=
  (algorithm.usesSecret = true → material.secret.isSome = true) ∧
    (algorithm.usesSecret = false → material.publicKey.isSome = true)

theorem matchesAny_ok (lib : ExpressionLibrary) (keys : KeyLibrary reader)
    (h : material.Suffices config.algorithm) (payload : List UInt8)
    (presented : List (List UInt8)) :
    ∃ found, matchesAny lib keys config material payload presented = .ok found := by
  unfold matchesAny
  cases hu : config.algorithm.usesSecret with
  | true =>
    obtain ⟨secret, hs⟩ := Option.isSome_iff_exists.mp (h.1 hu)
    obtain ⟨expected, he⟩ := Option.isSome_iff_exists.mp
      (symmetricSignature_isSome lib hu secret payload)
    simp [hs, he]
  | false =>
    obtain ⟨key, hk⟩ := Option.isSome_iff_exists.mp (h.2 hu)
    simp [hk]

/-- With sufficient material a request is turned down for its payload, for its
signature, or because none matches. -/
theorem verify_rejected (h : material.Suffices config.algorithm)
    (hv : verify lib keys config request hook material = .rejected reason) :
    (∃ error, reason = .payloadUnavailable error) ∨ reason.OfSignature ∨
      reason = .signatureMismatch := by
  unfold verify at hv
  split at hv
  · rename_i hr
    cases hv
    simp only [verificationResult] at hr
    obtain hr | ⟨payload, -, hr⟩ := Except.bind_error.mp hr
    · exact .inl (signedPayload_error hr)
    · obtain hr | ⟨presented, -, hr⟩ := Except.bind_error.mp hr
      · exact .inr (.inl (presentedCandidates_error hr))
      · obtain ⟨found, hfound⟩ := matchesAny_ok lib keys h payload presented
        rw [hfound] at hr
        cases hr
  · cases hv
  · cases hv
    exact .inr (.inr rfl)

end SiliconHook
