import PasswordVault.Proofs.Envelope.Authentication
import PasswordVault.Proofs.KeyDerivation.SubKeys
import PasswordVault.Store.File

/-!
# Sealed texts

A key that was derived from a master key has two halves of 32 bytes. Under such a key sealing never
fails, and what was sealed is found again (`unsealBytes_sealBytes`).
-/

namespace PasswordVault

/-! ## Halves of a key -/

def SymmetricKey.rowEnc (key : SymmetricKey) : Bytes := key.bytes.take 32

def SymmetricKey.rowMac (key : SymmetricKey) : Bytes := key.bytes.drop 32

theorem SymmetricKey.encPart_row (key : SymmetricKey) : key.encPart .aesCbc256Hmac = key.rowEnc :=
  rfl

theorem SymmetricKey.macPart_row (key : SymmetricKey) : key.macPart .aesCbc256Hmac = key.rowMac :=
  rfl

/-! ## Sealing -/

def rowEnvelope (key : SymmetricKey) (plaintext : Bytes) (fresh : Envelope.Fresh) : Envelope :=
  let data := Cbc.encrypt (Aes.cipher key.rowEnc) fresh.iv plaintext
  .aesCbc256Hmac fresh.iv data (Envelope.macOf key.rowMac (fresh.iv.bytes ++ data))

theorem data_rowEnvelope_ne_nil (key : SymmetricKey) (plaintext : Bytes) (fresh : Envelope.Fresh) :
    (rowEnvelope key plaintext fresh).data ≠ [] :=
  Cbc.encrypt_ne_nil _ _ _

/-- Sealing under a derived key does not fail. -/
theorem sealBytes_eq {key : SymmetricKey} (hkey : key.IsDerived) (plaintext : Bytes)
    (fresh : Envelope.Fresh) :
    sealBytes key plaintext fresh = .ok (rowEnvelope key plaintext fresh).toText := by
  have hlength : key.bytes.length = CipherType.aesCbc256Hmac.keyLength := hkey.length_eq
  have hkeys : Envelope.longKeys .aesCbc256Hmac key = .ok (key.rowEnc, key.rowMac) :=
    Envelope.longKeys_of_length (by decide) hlength
  have hencrypt : Envelope.encrypt rowCipherType plaintext (some key) none fresh =
      .ok (rowEnvelope key plaintext fresh) := by
    simp only [rowCipherType, Envelope.encrypt, Envelope.requireSym, ok_bind, hkeys]
    rfl
  simp only [sealBytes, hencrypt]

theorem unsealBytes_of_parse {key : SymmetricKey} {text : String} {e : Envelope}
    (h : Envelope.parse text = .ok e) :
    unsealBytes key text = (e.decrypt (some key) none).mapError .crypto := by
  rw [unsealBytes, Envelope.decode_of_parse h]

/-- The key of a row checks the code first and decrypts after that. -/
theorem decrypt_of_rowCipherType {key : SymmetricKey} (hkey : key.IsDerived) (iv : Block 16)
    (data : Bytes) (mac : Mac) :
    (Envelope.aesCbc256Hmac iv data mac).decrypt (some key) none = (do
      Envelope.checkMac key.rowMac (iv.bytes ++ data) mac
      Envelope.aesDecrypt key.rowEnc iv data) := by
  have hlength : key.bytes.length = (Envelope.aesCbc256Hmac iv data mac).cipherType.keyLength :=
    hkey.length_eq
  rw [Envelope.decrypt_of_mac rfl, if_pos hlength]
  simp only [Envelope.cipherType, Envelope.covered, Envelope.iv?, Envelope.data, Envelope.openWith,
    key.encPart_row, key.macPart_row, Option.map_some, Option.getD_some]

theorem decrypt_rowEnvelope {key : SymmetricKey} (hkey : key.IsDerived) (plaintext : Bytes)
    (fresh : Envelope.Fresh) :
    (rowEnvelope key plaintext fresh).decrypt (some key) none = .ok plaintext := by
  rw [rowEnvelope, decrypt_of_rowCipherType hkey, Envelope.checkMac_eq_ok_iff.2 rfl, ok_bind,
    Envelope.aesDecrypt, Cbc.decrypt?_encrypt (Aes.cipher_undoes _)]

/-- What was sealed under a derived key is found again. -/
theorem unsealBytes_sealBytes {key : SymmetricKey} (hkey : key.IsDerived) {plaintext : Bytes}
    {fresh : Envelope.Fresh} {text : String} (h : sealBytes key plaintext fresh = .ok text) :
    unsealBytes key text = .ok plaintext := by
  have htext : (rowEnvelope key plaintext fresh).toText = text := by
    rw [sealBytes_eq hkey] at h
    cases h
    rfl
  have hparse := Envelope.parse_toText (data_rowEnvelope_ne_nil key plaintext fresh)
  rw [htext] at hparse
  rw [unsealBytes_of_parse hparse, decrypt_rowEnvelope hkey]
  rfl

end PasswordVault
