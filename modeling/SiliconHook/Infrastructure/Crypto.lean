import SiliconHook.Domain.Signing

/-!
# Protection of stored signing secrets

AES-256-GCM is a library: its two operations are fields, with the laws every
authenticated cipher keeps. Keys are versioned, ciphertexts are bound to the
hook they belong to.
-/

namespace SiliconHook

open Encoding

/-- An authenticated cipher: key, nonce, associated data and text. -/
structure Aead where
  encrypt : (key nonce aad message : List UInt8) → List UInt8
  decrypt : (key nonce aad ciphertext : List UInt8) → Option (List UInt8)
  decrypt_encrypt : ∀ key nonce aad message,
    decrypt key nonce aad (encrypt key nonce aad message) = some message
  length_encrypt : ∀ key nonce aad message,
    (encrypt key nonce aad message).length = message.length + encryptionTagBytes

structure SecretKeyring where
  currentKeyId : EncryptionKeyId
  keys : List (EncryptionKeyId × List UInt8)
  current : (keys.lookup currentKeyId).isSome = true

inductive SecretCipherError
  | unknownKey
  | authentication
  | invalidRepresentation (error : DomainError)
  deriving DecidableEq, Repr

def SecretCipherError.message : SecretCipherError → String
  | .unknownKey => "encrypted secret references an unavailable key"
  | .authentication => "signing-secret authentication failed"
  | .invalidRepresentation error => "invalid encrypted-secret representation: " ++ error.message

structure SecretCipher where
  aead : Aead
  keyring : SecretKeyring

def secretAadDomain : List UInt8 := utf8 "silicon-hook/signing-secret/v2\x00"

def signingSecretAad (hookId : HookId) : List UInt8 := secretAadDomain ++ hookId.uuid.asBytes

namespace SecretCipher

def key (cipher : SecretCipher) (keyId : EncryptionKeyId) : Except SecretCipherError (List UInt8) :=
  match cipher.keyring.keys.lookup keyId with
  | none => .error .unknownKey
  | some key => .ok key

def encrypt (cipher : SecretCipher) (nonce : List UInt8) (hookId : HookId)
    (secret : SigningSecret) : Except SecretCipherError EncryptedSecret := do
  let key ← cipher.key cipher.keyring.currentKeyId
  let ciphertext := cipher.aead.encrypt key nonce (signingSecretAad hookId) (utf8 secret.value)
  match EncryptedSecret.new cipher.keyring.currentKeyId nonce ciphertext with
  | .ok encrypted => .ok encrypted
  | .error e => .error (.invalidRepresentation e)

def decrypt (cipher : SecretCipher) (hookId : HookId) (encrypted : EncryptedSecret) :
    Except SecretCipherError SigningSecret := do
  let key ← cipher.key encrypted.keyId
  match cipher.aead.decrypt key encrypted.nonce (signingSecretAad hookId) encrypted.ciphertext with
  | none => .error .authentication
  | some plaintext =>
    match fromUtf8 plaintext with
    | none => .error .authentication
    | some text =>
      match SigningSecret.fromText text with
      | .ok secret => .ok secret
      | .error e => .error (.invalidRepresentation e)

end SecretCipher

theorem SigningSecret.fromText_value (secret : SigningSecret) :
    SigningSecret.fromText secret.value = .ok secret := by
  unfold fromText
  split
  · rename_i e h
    rw [secret.valid] at h
    cases h
  · rfl

theorem SecretCipher.encrypt_ok (cipher : SecretCipher) (nonce : List UInt8) (hookId : HookId)
    (secret : SigningSecret) :
    ∃ encrypted, cipher.encrypt nonce hookId secret = .ok encrypted ∧
      cipher.decrypt hookId encrypted = .ok secret := by
  obtain ⟨key, hkey⟩ := Option.isSome_iff_exists.mp cipher.keyring.current
  have hk : cipher.key cipher.keyring.currentKeyId = .ok key := by simp [SecretCipher.key, hkey]
  have hvalid := SigningSecret.check_ok.mp secret.valid
  have hlen : 0 < (utf8 secret.value).length := by
    rw [length_utf8]
    exact Nat.pos_of_ne_zero fun h => hvalid.1 (String.utf8ByteSize_eq_zero_iff.mp h)
  have hmax : (utf8 secret.value).length ≤ maxSecretBytes := by
    rw [length_utf8]
    exact hvalid.2.1
  let ciphertext := cipher.aead.encrypt key nonce (signingSecretAad hookId) (utf8 secret.value)
  have hc : ciphertext.length = (utf8 secret.value).length + encryptionTagBytes :=
    cipher.aead.length_encrypt ..
  have hb : encryptionTagBytes < ciphertext.length ∧
      ciphertext.length - encryptionTagBytes ≤ maxSecretBytes := by omega
  refine ⟨⟨cipher.keyring.currentKeyId, nonce, ciphertext, hb⟩, ?_, ?_⟩
  · simp only [SecretCipher.encrypt, hk, bind, Except.bind, EncryptedSecret.new]
    split
    · rename_i h
      split at h
      · cases h
        rfl
      · contradiction
    · rename_i h
      split at h
      · cases h
      · contradiction
  · simp [SecretCipher.decrypt, hk, bind, Except.bind, ciphertext,
      cipher.aead.decrypt_encrypt, SigningSecret.fromText_value]

end SiliconHook
