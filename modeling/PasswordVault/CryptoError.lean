/-!
# Errors of encryption and key derivation

Every cause has a wording for logs (`message`) and a key that names the text shown to the user
(`userMessage`).
-/

namespace PasswordVault

/-- Why a cryptographic operation failed. -/
inductive CryptoError where
  | unsupportedKdfVersion (version : Int)
  | invalidKdfParams (reason : String)
  | outOfMemoryKdf (memoryKb : Nat)
  | kdfFailed (reason : String)
  | authenticationFailed
  | malformedEnvelope (reason : String)
  | unsupportedCipherType (name : String)
  | keyTypeMismatch (cipherType : Nat) (reason : String)
  | invalidKeyLength (expected got : Nat)
  | encryptionFailed (reason : String)
  | decryptionFailed (reason : String)
  | invalidKeyMaterial (reason : String)
  | unsupportedKeySize (bits : Nat)
  | passwordMismatch
deriving DecidableEq, Repr

namespace CryptoError

def message : CryptoError → String
  | .unsupportedKdfVersion version => s!"Unsupported KDF version: {version}"
  | .invalidKdfParams reason => s!"Invalid KDF parameters: {reason}"
  | .outOfMemoryKdf memoryKb => s!"Not enough memory to derive the key ({memoryKb} KiB requested)"
  | .kdfFailed reason => s!"Key derivation failed: {reason}"
  | .authenticationFailed =>
    "Authentication failed - data may have been tampered with or the key is wrong"
  | .malformedEnvelope reason => s!"Malformed cipher envelope: {reason}"
  | .unsupportedCipherType name => s!"Unsupported cipher type: {name}"
  | .keyTypeMismatch cipherType reason => s!"Key does not fit cipher type {cipherType}: {reason}"
  | .invalidKeyLength expected got => s!"Invalid key length: expected {expected}, got {got}"
  | .encryptionFailed reason => s!"Encryption failed: {reason}"
  | .decryptionFailed reason => s!"Decryption failed: {reason}"
  | .invalidKeyMaterial reason => s!"Invalid key material: {reason}"
  | .unsupportedKeySize bits => s!"Unsupported key size: {bits} bits"
  | .passwordMismatch => "Master password does not match"

def userMessage : CryptoError → String
  | .authenticationFailed => "error_authentication_failed"
  | .passwordMismatch => "error_incorrect_password"
  | .outOfMemoryKdf _ => "error_kdf_out_of_memory"
  | .unsupportedKdfVersion _ => "error_kdf_unsupported"
  | _ => "error_crypto"

end CryptoError
end PasswordVault
