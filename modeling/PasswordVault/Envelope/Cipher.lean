import PasswordVault.Aes.Cbc
import PasswordVault.Digest.Hmac
import PasswordVault.Envelope
import PasswordVault.Key
import PasswordVault.Rsa.Oaep

/-!
# Encryption into envelopes

`encrypt` puts a plaintext into an envelope of a given type, `decrypt` takes it out. A key must fit
the type of the envelope exactly. Where a type has an authentication code, it is checked before
anything is decrypted.
-/

namespace PasswordVault
namespace Envelope

/-! ## Keys that fit -/

def mismatch (t : CipherType) (reason : String) : CryptoError := .keyTypeMismatch t.raw reason

def requireSym (t : CipherType) : Option SymmetricKey → Except CryptoError SymmetricKey
  | some k => .ok k
  | none => .error (mismatch t "a symmetric key is required")

def requireAsym (t : CipherType) : Option AsymmetricKey → Except CryptoError AsymmetricKey
  | some k => .ok k
  | none => .error (mismatch t "an RSA key is required")

/-- The key of type 0: 32 bytes, or the encryption half of 64. -/
def plainKey (k : SymmetricKey) : Bytes := k.bytes.take 32

/-- The encryption and the authentication half of a key of 32 bytes. -/
def shortKeys (t : CipherType) (k : SymmetricKey) : Except CryptoError (Bytes × Bytes) :=
  if k.bytes.length = 32 then .ok (k.bytes.take 16, k.bytes.drop 16)
  else .error (mismatch t "expected a 32 byte key")

/-- The encryption and the authentication half of a key of 64 bytes. -/
def longKeys (t : CipherType) (k : SymmetricKey) : Except CryptoError (Bytes × Bytes) :=
  match k.halves? with
  | some halves => .ok halves
  | none => .error (mismatch t "expected a 64 byte key with a MAC half")

/-! ## Authentication codes -/

/-- The authentication code of a message. -/
def macOf (key message : Bytes) : Mac := ⟨Hmac.sha256 key message, rfl⟩

/-- Nothing, if a message has the given code. -/
def checkMac (key message : Bytes) (mac : Mac) : Except CryptoError Unit :=
  if macOf key message = mac then .ok () else .error .authenticationFailed

/-! ## AES -/

def aesDecrypt (key : Bytes) (iv : Block 16) (data : Bytes) : Except CryptoError Bytes :=
  match Cbc.decrypt? (Aes.cipher key) iv data with
  | some plaintext => .ok plaintext
  | none => .error (.decryptionFailed "invalid padding")

/-! ## RSA -/

def oaep : CipherType → Rsa.Oaep.Digest
  | .rsaOaepSha256 | .rsaOaepSha256Hmac => Rsa.Oaep.sha256
  | _ => Rsa.Oaep.sha1

def badPrivateKey : CryptoError := .invalidKeyMaterial "RSA private key: malformed document"

def badPublicKey : CryptoError := .invalidKeyMaterial "RSA public key: malformed document"

def publicHalf : AsymmetricKey → Except CryptoError Rsa.PublicKey
  | .publicKey der =>
    match Rsa.PublicKey.decode? der with
    | some k => .ok k
    | none => .error badPublicKey
  | .privateKey der =>
    match Rsa.PrivateKey.decode? der with
    | some k => .ok k.toPublicKey
    | none => .error badPrivateKey

def rsaEncrypt (t : CipherType) (key : AsymmetricKey) (seed : Block 32) (plaintext : Bytes) :
    Except CryptoError Bytes := do
  let k ← publicHalf key
  (k.encrypt (oaep t) (seed.bytes.take (oaep t).size) plaintext).mapError fun fault =>
    .encryptionFailed fault.message

def rsaDecrypt (t : CipherType) (key : AsymmetricKey) (data : Bytes) : Except CryptoError Bytes :=
  match key with
  | .publicKey _ => .error (mismatch t "decryption needs the private key")
  | .privateKey der =>
    match Rsa.PrivateKey.decode? der with
    | none => .error badPrivateKey
    | some k => (k.decrypt (oaep t) data).mapError fun fault => .decryptionFailed fault.message

/-! ## Envelopes -/

/-- What is drawn at random for one envelope: an initial vector and a padding seed. -/
structure Fresh where
  iv : Block 16
  seed : Block 32

/-- A plaintext encrypted into an envelope of a type. -/
def encrypt (t : CipherType) (plaintext : Bytes) (sym : Option SymmetricKey)
    (asym : Option AsymmetricKey) (fresh : Fresh) : Except CryptoError Envelope :=
  match t with
  | .aesCbc256 => do
    let k ← requireSym t sym
    return .aesCbc256 fresh.iv (Cbc.encrypt (Aes.cipher (plainKey k)) fresh.iv plaintext)
  | .aesCbc128Hmac => do
    let (enc, auth) ← shortKeys t (← requireSym t sym)
    let data := Cbc.encrypt (Aes.cipher enc) fresh.iv plaintext
    return .aesCbc128Hmac fresh.iv data (macOf auth (fresh.iv.bytes ++ data))
  | .aesCbc256Hmac => do
    let (enc, auth) ← longKeys t (← requireSym t sym)
    let data := Cbc.encrypt (Aes.cipher enc) fresh.iv plaintext
    return .aesCbc256Hmac fresh.iv data (macOf auth (fresh.iv.bytes ++ data))
  | .rsaOaepSha256 => do
    return .rsaOaepSha256 (← rsaEncrypt t (← requireAsym t asym) fresh.seed plaintext)
  | .rsaOaepSha1 => do
    return .rsaOaepSha1 (← rsaEncrypt t (← requireAsym t asym) fresh.seed plaintext)
  | .rsaOaepSha256Hmac => do
    let (_, auth) ← longKeys t (← requireSym t sym)
    let data ← rsaEncrypt t (← requireAsym t asym) fresh.seed plaintext
    return .rsaOaepSha256Hmac data (macOf auth data)
  | .rsaOaepSha1Hmac => do
    let (_, auth) ← longKeys t (← requireSym t sym)
    let data ← rsaEncrypt t (← requireAsym t asym) fresh.seed plaintext
    return .rsaOaepSha1Hmac data (macOf auth data)

/-- The plaintext of an envelope. The key is checked first, then the authentication code, and only
then is anything decrypted. -/
def decrypt (e : Envelope) (sym : Option SymmetricKey) (asym : Option AsymmetricKey) :
    Except CryptoError Bytes :=
  let t := e.cipherType
  match e with
  | .aesCbc256 iv data => do
    let k ← requireSym t sym
    aesDecrypt (plainKey k) iv data
  | .aesCbc128Hmac iv data mac => do
    let (enc, auth) ← shortKeys t (← requireSym t sym)
    checkMac auth (iv.bytes ++ data) mac
    aesDecrypt enc iv data
  | .aesCbc256Hmac iv data mac => do
    let (enc, auth) ← longKeys t (← requireSym t sym)
    checkMac auth (iv.bytes ++ data) mac
    aesDecrypt enc iv data
  | .rsaOaepSha256 data | .rsaOaepSha1 data => do
    rsaDecrypt t (← requireAsym t asym) data
  | .rsaOaepSha256Hmac data mac | .rsaOaepSha1Hmac data mac => do
    let (_, auth) ← longKeys t (← requireSym t sym)
    checkMac auth data mac
    rsaDecrypt t (← requireAsym t asym) data

/-! ## Texts -/

def decode (text : String) (sym : Option SymmetricKey) (asym : Option AsymmetricKey) :
    Except CryptoError Bytes := do
  (← parse text).decrypt sym asym

def encodeString (t : CipherType) (plaintext : String) (sym : Option SymmetricKey)
    (asym : Option AsymmetricKey) (fresh : Fresh) : Except CryptoError String := do
  return (← encrypt t (Bytes.ofText plaintext) sym asym fresh).toText

def decodeString (text : String) (sym : Option SymmetricKey) (asym : Option AsymmetricKey) :
    Except CryptoError String := do
  match Bytes.text? (← decode text sym asym) with
  | some s => .ok s
  | none => .error (.decryptionFailed "plaintext is not valid UTF-8")

end Envelope
end PasswordVault
