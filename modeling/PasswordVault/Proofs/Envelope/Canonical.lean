import PasswordVault.Proofs.Aes.Ciphertexts
import PasswordVault.Proofs.Envelope.Recovery

/-!
# Envelopes — one ciphertext for each plaintext

Under a key and an initial vector an envelope of an AES type is decrypted to a plaintext exactly if the
plaintext is encrypted to that envelope, so nothing but what encryption writes is ever decrypted. What is
not decrypted although its code is right has the wrong length or a last block without padding.

- `Envelope.decrypt_eq_ok_iff_of_iv`: which data and which code are decrypted to a plaintext;
- `Envelope.encrypt_eq_ok_iff_of_iv`: which are written for it;
- `Envelope.decrypt_canonical`: both, with the lengths and the failures.
-/

namespace PasswordVault

/-- Whether a key has the length that a type asks for. The AES type without a code takes every key. -/
def SymmetricKey.Fits (k : SymmetricKey) (t : CipherType) : Prop :=
  t.hasMac = true → k.bytes.length = t.keyLength

namespace Envelope

/-! ## AES -/

theorem aesDecrypt_eq_ok_iff_encrypt {key : Bytes} {iv : Block 16} {data plaintext : Bytes} :
    aesDecrypt key iv data = .ok plaintext ↔ data = Cbc.encrypt (Aes.cipher key) iv plaintext := by
  rw [aesDecrypt_eq_ok_iff, Cbc.decrypt?_eq_some_iff (Aes.cipher_undoes key)]

theorem aesDecrypt_eq_error_iff {key : Bytes} {iv : Block 16} {data : Bytes} :
    aesDecrypt key iv data = .error (.decryptionFailed "invalid padding") ↔
      data = [] ∨ data.length % 16 ≠ 0 ∨ ¬ (Cbc.lastBlock (Aes.cipher key) iv data).EndsInPadding := by
  rw [← Cbc.decrypt?_eq_none_iff, aesDecrypt]
  cases Cbc.decrypt? (Aes.cipher key) iv data <;> simp

/-! ## Envelopes -/

/-- Whether the authentication code of an envelope, if there is one, is that of what it covers. -/
def IsAuthentic (e : Envelope) (k : SymmetricKey) : Prop :=
  ∀ mac, e.mac? = some mac → macOf (k.macPart e.cipherType) e.covered = mac

section

variable {e : Envelope} {iv : Block 16} {k : SymmetricKey}

theorem cipherType_of_no_mac (hiv : e.iv? = some iv) (hmac : e.mac? = none) :
    e.cipherType = .aesCbc256 := by
  cases e with
  | aesCbc256 => rfl
  | aesCbc128Hmac | aesCbc256Hmac => cases hmac
  | _ => cases hiv

theorem hasMac_of_mac? {mac : Mac} (hmac : e.mac? = some mac) : e.cipherType.hasMac = true := by
  cases e with
  | aesCbc256 | rsaOaepSha256 | rsaOaepSha1 => cases hmac
  | _ => rfl

theorem isAuthentic_of_decrypt {asym : Option AsymmetricKey} {plaintext : Bytes}
    (h : e.decrypt (some k) asym = .ok plaintext) : e.IsAuthentic k := by
  intro mac hmac
  rw [decrypt_of_mac hmac] at h
  split at h
  case isTrue =>
    obtain ⟨_, hcheck, -⟩ := bind_eq_ok_iff.1 h
    exact checkMac_eq_ok_iff.1 hcheck
  case isFalse => cases h

/-- With a key that fits and the right code, AES alone decides. -/
theorem decrypt_of_isAuthentic (hiv : e.iv? = some iv) (hfits : k.Fits e.cipherType)
    (hauthentic : e.IsAuthentic k) (asym : Option AsymmetricKey) :
    e.decrypt (some k) asym = aesDecrypt (k.encPart e.cipherType) iv e.data := by
  cases hmac : e.mac? with
  | none =>
      have htype := cipherType_of_no_mac hiv hmac
      have htakes : e.cipherType.takesSym = true := by
        rw [htype]
        rfl
      rw [decrypt_of_no_mac hmac, if_pos htakes, requireSym, ok_bind, openWith_of_iv hiv, htype,
        encPart_aesCbc256]
  | some mac =>
      rw [decrypt_of_mac hmac, if_pos (hfits (hasMac_of_mac? hmac)),
        checkMac_eq_ok_iff.2 (hauthentic mac hmac), ok_bind, openWith_of_iv hiv]

/-- An envelope is decrypted to a plaintext exactly if its data are the plaintext encrypted and its code
is right. -/
theorem decrypt_eq_ok_iff_of_iv (hiv : e.iv? = some iv) (hfits : k.Fits e.cipherType)
    {asym : Option AsymmetricKey} {plaintext : Bytes} :
    e.decrypt (some k) asym = .ok plaintext ↔
      e.IsAuthentic k ∧ e.data = Cbc.encrypt (Aes.cipher (k.encPart e.cipherType)) iv plaintext := by
  constructor
  · intro h
    have hauthentic := isAuthentic_of_decrypt h
    rw [decrypt_of_isAuthentic hiv hfits hauthentic] at h
    exact ⟨hauthentic, aesDecrypt_eq_ok_iff_encrypt.1 h⟩
  · rintro ⟨hauthentic, hdata⟩
    rw [decrypt_of_isAuthentic hiv hfits hauthentic]
    exact aesDecrypt_eq_ok_iff_encrypt.2 hdata

/-- The envelope that a plaintext is encrypted to is the one with these data and this code. -/
theorem encrypt_eq_ok_iff_of_iv (hiv : e.iv? = some iv) (hfits : k.Fits e.cipherType)
    {asym : Option AsymmetricKey} {seed : Block 32} {plaintext : Bytes} :
    encrypt e.cipherType plaintext (some k) asym ⟨iv, seed⟩ = .ok e ↔
      e.IsAuthentic k ∧ e.data = Cbc.encrypt (Aes.cipher (k.encPart e.cipherType)) iv plaintext := by
  constructor
  · intro h
    have hsealed := sealed_of_encrypt h
    have hhas : e.cipherType.hasIv = true := by
      cases e with
      | aesCbc256 | aesCbc128Hmac | aesCbc256Hmac => rfl
      | _ => cases hiv
    obtain ⟨_, ⟨⟩, -, hdata⟩ := hsealed.aes hhas
    refine ⟨fun mac hmac => ?_, hdata⟩
    obtain ⟨_, ⟨⟩, -, hcode⟩ := hsealed.mac mac hmac
    exact hcode
  · rintro ⟨hauthentic, hdata⟩
    -- Data and code are determined, so the envelope is the one that its type is written with.
    cases e with
    | aesCbc256 iv' found =>
        cases hiv
        obtain rfl : found = Cbc.encrypt (Aes.cipher (k.encPart .aesCbc256)) iv plaintext := hdata
        rfl
    | aesCbc128Hmac iv' found mac =>
        cases hiv
        obtain rfl : macOf (k.macPart .aesCbc128Hmac) (iv.bytes ++ found) = mac := hauthentic mac rfl
        obtain rfl : found = Cbc.encrypt (Aes.cipher (k.encPart .aesCbc128Hmac)) iv plaintext := hdata
        simp only [cipherType, encrypt, requireSym, ok_bind, shortKeys_of_length (hfits rfl)]
        rfl
    | aesCbc256Hmac iv' found mac =>
        cases hiv
        obtain rfl : macOf (k.macPart .aesCbc256Hmac) (iv.bytes ++ found) = mac := hauthentic mac rfl
        obtain rfl : found = Cbc.encrypt (Aes.cipher (k.encPart .aesCbc256Hmac)) iv plaintext := hdata
        have hkeys : longKeys .aesCbc256Hmac k = _ := longKeys_of_length (by decide) (hfits rfl)
        simp only [cipherType, encrypt, requireSym, ok_bind, hkeys]
        rfl
    | _ => cases hiv

/-- A plaintext is decrypted from an envelope exactly if encrypting it gives the envelope. -/
theorem decrypt_eq_ok_iff_encrypt (hiv : e.iv? = some iv) (hfits : k.Fits e.cipherType)
    {asym : Option AsymmetricKey} {plaintext : Bytes} (seed : Block 32) :
    e.decrypt (some k) asym = .ok plaintext ↔
      encrypt e.cipherType plaintext (some k) asym ⟨iv, seed⟩ = .ok e := by
  rw [decrypt_eq_ok_iff_of_iv hiv hfits, encrypt_eq_ok_iff_of_iv hiv hfits]

/-- Decryption is the inverse of encryption, on all envelopes with an initial vector: what is decrypted to a
plaintext is what the plaintext is encrypted to, code included. -/
theorem decrypt_canonical (hiv : e.iv? = some iv) (hfits : k.Fits e.cipherType)
    (asym : Option AsymmetricKey) :
    (∀ plaintext seed, e.decrypt (some k) asym = .ok plaintext ↔
      encrypt e.cipherType plaintext (some k) asym ⟨iv, seed⟩ = .ok e) ∧
    -- So no two envelopes of a type with the same initial vector hold the same plaintext ...
    (∀ e' plaintext, e'.cipherType = e.cipherType → e'.iv? = some iv →
      e'.decrypt (some k) asym = .ok plaintext → e.decrypt (some k) asym = .ok plaintext → e' = e) ∧
    -- ... and the data are whole blocks, one to sixteen bytes longer than the plaintext.
    (∀ plaintext, e.decrypt (some k) asym = .ok plaintext →
      e.data.length % 16 = 0 ∧ plaintext.length < e.data.length ∧
        e.data.length ≤ plaintext.length + 16) ∧
    -- All other envelopes fail, and if the code is right, they fail for their padding.
    (e.IsAuthentic k →
      (e.decrypt (some k) asym = .error (.decryptionFailed "invalid padding") ↔
        e.data = [] ∨ e.data.length % 16 ≠ 0 ∨
          ¬ (Cbc.lastBlock (Aes.cipher (k.encPart e.cipherType)) iv e.data).EndsInPadding)) := by
  refine ⟨fun _ seed => decrypt_eq_ok_iff_encrypt hiv hfits seed, ?_, ?_, ?_⟩
  · intro e' plaintext htype hiv' h' h
    have hwritten' := (decrypt_eq_ok_iff_encrypt hiv' (htype ▸ hfits) (Block.fit 32 [])).1 h'
    have hwritten := (decrypt_eq_ok_iff_encrypt hiv hfits (Block.fit 32 [])).1 h
    rw [htype] at hwritten'
    exact Except.ok.inj (hwritten'.symm.trans hwritten)
  · intro plaintext h
    obtain ⟨-, hdata⟩ := (decrypt_eq_ok_iff_of_iv hiv hfits).1 h
    have hlength := congrArg List.length hdata
    rw [Cbc.length_encrypt] at hlength
    omega
  · intro hauthentic
    rw [decrypt_of_isAuthentic hiv hfits hauthentic, aesDecrypt_eq_error_iff]

end

/-- A message sealed under zeros is opened again, and data that are one byte too short are not. -/
theorem decrypt_canonical_zeros :
    ∃ (k : SymmetricKey) (iv : Block 16) (data : Bytes) (mac : Mac),
      (aesCbc256Hmac iv data mac).decrypt (some k) none = .ok [1, 2, 3] ∧ data.length = 16 ∧
        (aesCbc256 iv data.tail).decrypt (some k) none = .error (.decryptionFailed "invalid padding") := by
  let k : SymmetricKey := ⟨List.replicate 64 0, .inr rfl⟩
  let iv : Block 16 := ⟨List.replicate 16 0, rfl⟩
  let data := Cbc.encrypt (Aes.cipher (k.bytes.take 32)) iv [1, 2, 3]
  let mac := macOf (k.bytes.drop 32) (iv.bytes ++ data)
  have hsealed := decrypt_canonical (e := .aesCbc256Hmac iv data mac) (k := k) rfl (fun _ => rfl) none
  have hshort := decrypt_canonical (e := .aesCbc256 iv data.tail) (k := k) rfl (fun h => by cases h) none
  have hbare : (aesCbc256 iv data.tail).IsAuthentic k := fun _ hmac => by cases hmac
  have hopen := (hsealed.1 [1, 2, 3] (Block.fit 32 [])).2 rfl
  have hlength : data.length = 16 := by
    have hlengths := hsealed.2.2.1 _ hopen
    simp only [Envelope.data, List.length_cons, List.length_nil] at hlengths
    omega
  refine ⟨k, iv, data, mac, hopen, hlength, (hshort.2.2.2 hbare).2 (.inr (.inl ?_))⟩
  simp only [Envelope.data, List.length_tail, hlength]
  decide

end Envelope
end PasswordVault
