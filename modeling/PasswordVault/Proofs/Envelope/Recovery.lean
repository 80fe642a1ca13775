import PasswordVault.Proofs.Envelope.Authentication
import PasswordVault.Proofs.Rsa.Padding

/-!
# Envelopes — what was sealed is recovered

Whatever was put into an envelope comes out of its text under keys that belong to the ones it was
sealed with (`Envelope.Opens`), for every type and every message, and so does every string
(`Envelope.Opens.recovers`). Of RSA this assumes that the private operation undoes the public one,
which it does for two different primes (`Rsa.PrivateKey.inverts_of_prime`); nothing is assumed of AES.

What can be sealed at all is told by the type, the keys and the length of the message
(`Envelope.Takes`, `Envelope.exists_encrypt_iff`); what is drawn at random has no part in it.
-/

namespace PasswordVault
namespace Envelope

/-- Keys that take a message of some length into an envelope of a type: a symmetric key where the type
uses one, of the right length if it authenticates, and for RSA a key of the pair with enough room. -/
structure Takes (t : CipherType) (sym : Option SymmetricKey) (asym : Option AsymmetricKey)
    (length : Nat) : Prop where
  sym : t.takesSym = true → ∃ k, sym = some k ∧ (t.hasMac = true → k.bytes.length = t.keyLength)
  asym : t.isAsymmetric = true → ∃ half k, asym = some half ∧ publicHalf half = .ok k ∧
    length + 2 * (oaep t).size + 2 ≤ k.size

/-- Keys that open what is sealed under other keys. The symmetric key is the same, or has the same
encryption half where nothing else of it is used. Of the asymmetric pair one half seals, and only the
private one opens. -/
structure Opens (t : CipherType) (sym sym' : Option SymmetricKey) (asym asym' : Option AsymmetricKey) :
    Prop where
  sym : sym' = sym ∨ t = .aesCbc256 ∧ sym'.map plainKey = sym.map plainKey
  asym : t.isAsymmetric = true → ∃ k der half,
    Rsa.PrivateKey.decode? der = some k ∧ k.Inverts ∧ asym' = some (.privateKey der) ∧
      asym = some half ∧ publicHalf half = .ok k.toPublicKey

/-! ## The primitives -/

theorem aesDecrypt_encrypt (key : Bytes) (iv : Block 16) (plaintext : Bytes) :
    aesDecrypt key iv (Cbc.encrypt (Aes.cipher key) iv plaintext) = .ok plaintext :=
  aesDecrypt_eq_ok_iff.2 (Cbc.decrypt?_encrypt (Aes.cipher_undoes key) iv plaintext)

/-- Both halves of a pair give its public half. -/
theorem publicHalf_eq_ok_iff {half : AsymmetricKey} {k : Rsa.PublicKey} :
    publicHalf half = .ok k ↔
      (∃ der, half = .publicKey der ∧ Rsa.PublicKey.decode? der = some k) ∨
        ∃ der secret, half = .privateKey der ∧ Rsa.PrivateKey.decode? der = some secret ∧
          secret.toPublicKey = k := by
  cases half with
  | publicKey der => cases h : Rsa.PublicKey.decode? der <;> simp [publicHalf, h]
  | privateKey der => cases h : Rsa.PrivateKey.decode? der <;> simp [publicHalf, h]

theorem size_oaep (t : CipherType) : 0 < (oaep t).size ∧ (oaep t).size ≤ 32 := by
  cases t <;> decide

/-- Which half of a pair sealed does not matter to the private half. -/
theorem rsaDecrypt_of_rsaEncrypt {t : CipherType} {half : AsymmetricKey} {der : Bytes}
    {k : Rsa.PrivateKey} {seed : Block 32} {plaintext data : Bytes}
    (hder : Rsa.PrivateKey.decode? der = some k) (hk : k.Inverts)
    (hhalf : publicHalf half = .ok k.toPublicKey)
    (hdata : rsaEncrypt t half seed plaintext = .ok data) :
    rsaDecrypt t (.privateKey der) data = .ok plaintext := by
  rcases size_oaep t with ⟨hsize, hroom⟩
  have hseed : (seed.bytes.take (oaep t).size).length = (oaep t).size := by
    rw [List.length_take, seed.length_eq, Nat.min_eq_left hroom]
  have hencrypt : k.toPublicKey.encrypt (oaep t) (seed.bytes.take (oaep t).size) plaintext =
      .ok data := by
    rw [rsaEncrypt, hhalf, ok_bind] at hdata
    exact mapError_eq_ok_iff.1 hdata
  simp only [rsaDecrypt, hder, Rsa.PrivateKey.decrypt_encrypt hk hsize hseed hencrypt, mapError_ok]

/-- Encryption with RSA succeeds exactly if there is a public half and the padding leaves room for the
plaintext. -/
theorem exists_rsaEncrypt_iff {t : CipherType} {half : AsymmetricKey} {seed : Block 32}
    {plaintext : Bytes} :
    (∃ data, rsaEncrypt t half seed plaintext = .ok data) ↔
      ∃ k, publicHalf half = .ok k ∧ plaintext.length + 2 * (oaep t).size + 2 ≤ k.size := by
  simp only [rsaEncrypt, exists_bind_eq_ok_iff, mapError_eq_ok_iff, Rsa.PublicKey.exists_encrypt_iff]

/-! ## Envelopes -/

section

variable {t : CipherType} {sym sym' : Option SymmetricKey} {asym asym' : Option AsymmetricKey}
  {fresh : Fresh} {plaintext : Bytes} {e : Envelope}

/-- A type without RSA takes messages of any length. -/
theorem takes_iff_of_iv {length : Nat} (ht : t.hasIv = true) :
    Takes t sym asym length ↔ ∃ k, sym = some k ∧ (t.hasMac = true → k.bytes.length = t.keyLength) := by
  constructor
  · intro h
    exact h.sym (by rw [CipherType.takesSym, ht, Bool.true_or])
  · intro hsym
    exact ⟨fun _ => hsym, fun hasym => by simp [CipherType.isAsymmetric, ht] at hasym⟩

/-- RSA with an authentication code takes a symmetric key as well, for the code. -/
theorem takes_iff_of_rsa {length : Nat} (ht : t.isAsymmetric = true) :
    Takes t sym asym length ↔
      (t.hasMac = true → ∃ k, sym = some k ∧ k.bytes.length = t.keyLength) ∧
      ∃ half, asym = some half ∧ ∃ k, publicHalf half = .ok k ∧ length + 2 * (oaep t).size + 2 ≤ k.size := by
  have htakes : t.takesSym = t.hasMac := by
    cases t <;> first | rfl | cases ht
  constructor
  · intro h
    obtain ⟨half, k, hasym, hhalf, hroom⟩ := h.asym ht
    refine ⟨fun hmac => ?_, half, hasym, k, hhalf, hroom⟩
    obtain ⟨key, hsym, hlength⟩ := h.sym (htakes.trans hmac)
    exact ⟨key, hsym, hlength hmac⟩
  · rintro ⟨hsym, half, hasym, k, hhalf, hroom⟩
    refine ⟨fun hmac => ?_, fun _ => ⟨half, k, hasym, hhalf, hroom⟩⟩
    obtain ⟨key, hkey, hlength⟩ := hsym (htakes.symm.trans hmac)
    exact ⟨key, hkey, fun _ => hlength⟩

/-- Encryption succeeds exactly where the keys take the message. -/
theorem exists_encrypt_iff :
    (∃ e, encrypt t plaintext sym asym fresh = .ok e) ↔ Takes t sym asym plaintext.length := by
  have hpure : ∀ e : Envelope, ∃ e', (pure e : Except CryptoError Envelope) = .ok e' := fun e => ⟨e, rfl⟩
  -- Type by type, the steps that can fail are the conditions on the keys.
  cases t with
  | aesCbc256 =>
      rw [takes_iff_of_iv rfl]
      simp only [encrypt, exists_bind_eq_ok_iff, requireSym_eq_ok_iff, hpure]
      simp [CipherType.hasMac]
  | aesCbc128Hmac =>
      rw [takes_iff_of_iv rfl]
      simp only [encrypt, exists_bind_eq_ok_iff, requireSym_eq_ok_iff, shortKeys_eq_ok_iff, hpure]
      simp [CipherType.hasMac]
  | aesCbc256Hmac =>
      rw [takes_iff_of_iv rfl]
      simp (disch := decide) only [encrypt, exists_bind_eq_ok_iff, requireSym_eq_ok_iff, longKeys_eq_ok_iff,
        hpure]
      simp [CipherType.hasMac]
  | rsaOaepSha256 | rsaOaepSha1 =>
      rw [takes_iff_of_rsa rfl]
      simp only [encrypt, exists_bind_eq_ok_iff, requireAsym_eq_ok_iff, hpure, and_true,
        exists_rsaEncrypt_iff]
      simp [CipherType.hasMac]
  | rsaOaepSha256Hmac | rsaOaepSha1Hmac =>
      rw [takes_iff_of_rsa rfl]
      simp (disch := decide) only [encrypt, exists_bind_eq_ok_iff, requireSym_eq_ok_iff, longKeys_eq_ok_iff,
        requireAsym_eq_ok_iff, hpure, and_true, exists_rsaEncrypt_iff]
      simp [CipherType.hasMac, ← and_assoc]

theorem encPart_aesCbc256 (k : SymmetricKey) : k.encPart .aesCbc256 = plainKey k :=
  rfl

theorem openWith_of_iv {iv : Block 16} (hiv : e.iv? = some iv) (enc : Bytes) :
    e.openWith enc asym = aesDecrypt enc iv e.data := by
  cases e <;> cases hiv <;> rfl

theorem openWith_of_isAsymmetric (ht : e.cipherType.isAsymmetric = true) (enc : Bytes)
    (key : AsymmetricKey) :
    e.openWith enc (some key) = rsaDecrypt e.cipherType key e.data := by
  cases e <;> cases ht <;> rfl

/-- Behind the authentication code stands the plaintext, under the part of the key that encrypts. -/
theorem Opens.openWith (h : Opens t sym sym' asym asym') (hs : Sealed t plaintext sym asym fresh e)
    {enc : Bytes} (henc : t.hasIv = true → ∀ k, sym = some k → k.encPart t = enc) :
    e.openWith enc asym' = .ok plaintext := by
  cases hiv : t.hasIv with
  | true =>
      rcases hs.aes hiv with ⟨k, hsym, hsome, hdata⟩
      rw [openWith_of_iv hsome, hdata, ← henc hiv k hsym, aesDecrypt_encrypt]
  | false =>
      have ht : t.isAsymmetric = true := by
        simp [CipherType.isAsymmetric, hiv]
      rcases hs.rsa ht with ⟨half, hhalf, hdata⟩
      rcases h.asym ht with ⟨k, der, half', hder, hk, rfl, hhalf', hpublic⟩
      cases hhalf.symm.trans hhalf'
      cases hs.cipherType
      rw [openWith_of_isAsymmetric ht, rsaDecrypt_of_rsaEncrypt hder hk hpublic hdata]

/-- What was sealed with one key is opened with one that fits it. -/
theorem Opens.decrypt (h : Opens t sym sym' asym asym') (hs : Sealed t plaintext sym asym fresh e) :
    e.decrypt sym' asym' = .ok plaintext := by
  cases hs.cipherType
  cases hmac : e.mac? with
  | some mac =>
      -- Types with a code need the same key, and the code is the one that was written.
      rcases hs.mac mac hmac with ⟨k, rfl, hlength, hcode⟩
      have hsym : sym' = some k := by
        refine h.sym.resolve_right fun hplain => ?_
        cases e with
        | aesCbc256 => cases hmac
        | _ => cases hplain.1
      have hopen : e.openWith (k.encPart e.cipherType) asym' = .ok plaintext :=
        h.openWith hs fun _ _ hk => by cases hk; rfl
      rw [hsym, decrypt_of_mac hmac, if_pos hlength, checkMac_eq_ok_iff.2 hcode, ok_bind, hopen]
  | none =>
      rw [decrypt_of_no_mac hmac]
      cases e with
      | aesCbc256 iv data =>
          -- Only the encryption half of the key takes part, so the other key is as good.
          rcases hs.aes rfl with ⟨k, rfl, -⟩
          obtain ⟨k', rfl, hkey⟩ : ∃ k', sym' = some k' ∧ plainKey k' = plainKey k := by
            rcases h.sym with rfl | ⟨-, hplain⟩
            · exact ⟨k, rfl, rfl⟩
            · exact Option.map_eq_some_iff.1 hplain
          have hopen : (aesCbc256 iv data).openWith (plainKey k) asym' = .ok plaintext :=
            h.openWith hs fun _ _ hk => by cases hk; exact encPart_aesCbc256 k
          have htakes : (aesCbc256 iv data).cipherType.takesSym = true := rfl
          rw [if_pos htakes, requireSym_eq_ok_iff.2 rfl, ok_bind, hkey, hopen]
      | rsaOaepSha256 data | rsaOaepSha1 data =>
          exact (if_neg Bool.false_ne_true).trans (h.openWith hs nofun)
      | _ => cases hmac

/-! ## Texts -/

theorem decode_of_encrypt (h : Opens t sym sym' asym asym')
    (he : encrypt t plaintext sym asym fresh = .ok e) : decode e.toText sym' asym' = .ok plaintext := by
  have hsealed := sealed_of_encrypt he
  rw [decode_of_parse (parse_toText hsealed.data_ne_nil)]
  exact h.decrypt hsealed

theorem encodeString_eq_ok_iff {s text : String} :
    encodeString t s sym asym fresh = .ok text ↔
      ∃ e, encrypt t (Bytes.ofText s) sym asym fresh = .ok e ∧ e.toText = text := by
  rw [encodeString, bind_eq_ok_iff]
  simp only [pure, Except.pure, Except.ok.injEq]

theorem decodeString_of_encrypt {s : String} (h : Opens t sym sym' asym asym')
    (he : encrypt t (Bytes.ofText s) sym asym fresh = .ok e) :
    decodeString e.toText sym' asym' = .ok s := by
  simp only [decodeString, decode_of_encrypt h he, ok_bind, Bytes.text?_ofText]

/-- What is sealed is recovered from the text of the envelope. The keys tell which messages can be sealed; a
string is sealed exactly as its bytes are, and every string that is sealed is recovered as well. -/
theorem Opens.recovers (h : Opens t sym sym' asym asym') (fresh : Fresh) :
    (∀ plaintext : Bytes, (∃ e, encrypt t plaintext sym asym fresh = .ok e) ↔
      Takes t sym asym plaintext.length) ∧
    (∀ plaintext e, encrypt t plaintext sym asym fresh = .ok e →
      decode e.toText sym' asym' = .ok plaintext) ∧
    (∀ s e, encrypt t (Bytes.ofText s) sym asym fresh = .ok e →
      encodeString t s sym asym fresh = .ok e.toText ∧ decodeString e.toText sym' asym' = .ok s) ∧
    ∀ s text, encodeString t s sym asym fresh = .ok text → decodeString text sym' asym' = .ok s := by
  refine ⟨fun _ => exists_encrypt_iff, fun _ _ he => decode_of_encrypt h he, ?_, ?_⟩
  · intro s e he
    exact ⟨encodeString_eq_ok_iff.2 ⟨e, he, rfl⟩, decodeString_of_encrypt h he⟩
  · intro s text htext
    obtain ⟨e, he, rfl⟩ := encodeString_eq_ok_iff.1 htext
    exact decodeString_of_encrypt h he

end

/-- Under a pair and a key of 64 bytes: bytes and a string sealed with the public half of the pair and opened
with the private one, and a string sealed without RSA, where the key and its first half open for each
other. -/
theorem Opens.recovers_mersenneKey :
    ∃ (key half : SymmetricKey) (publicDer privateDer : Bytes) (fresh : Fresh) (e : Envelope),
      key.bytes.length = 64 ∧ half.bytes = key.bytes.take 32 ∧
      Rsa.PublicKey.decode? publicDer = some Rsa.mersenneKey.toPublicKey ∧
      Rsa.PrivateKey.decode? privateDer = some Rsa.mersenneKey ∧
      encrypt .rsaOaepSha256Hmac (Bytes.ofText "grün") (some key) (some (.publicKey publicDer)) fresh =
        .ok e ∧
      decode e.toText (some key) (some (.privateKey privateDer)) = .ok (Bytes.ofText "grün") ∧
      encodeString .rsaOaepSha256Hmac "grün" (some key) (some (.publicKey publicDer)) fresh =
        .ok e.toText ∧
      decodeString e.toText (some key) (some (.privateKey privateDer)) = .ok "grün" ∧
      (∃ text, encodeString .aesCbc256 "grün" (some key) none fresh = .ok text ∧
        decodeString text (some half) none = .ok "grün") ∧
      ∃ text, encodeString .aesCbc256 "grün" (some half) none fresh = .ok text ∧
        decodeString text (some key) none = .ok "grün" := by
  let k := Rsa.mersenneKey
  let key : SymmetricKey := ⟨List.replicate 64 0, .inr rfl⟩
  let half : SymmetricKey := ⟨List.replicate 32 0, .inl rfl⟩
  let fresh : Fresh := ⟨⟨List.replicate 16 0, rfl⟩, ⟨List.replicate 32 0, rfl⟩⟩
  let numbers := Der.sequence [Der.natural k.n, Der.natural k.e]
  let publicDer := Der.sequence [Rsa.algorithm.encode, Der.element Der.bitStringTag (0 :: numbers)]
  have hpublic : Rsa.PublicKey.decode? publicDer = some k.toPublicKey := by decide +kernel
  obtain ⟨privateDer, -, hprivate⟩ :
      ∃ der, k.encode? = some der ∧ Rsa.PrivateKey.decode? der = some k :=
    Option.bind_eq_some_iff.1 (by decide +kernel)
  have hhalf : publicHalf (.publicKey publicDer) = .ok k.toPublicKey :=
    publicHalf_eq_ok_iff.2 (.inl ⟨publicDer, rfl, hpublic⟩)
  have hopens : Opens .rsaOaepSha256Hmac (some key) (some key) (some (.publicKey publicDer))
      (some (.privateKey privateDer)) :=
    ⟨.inl rfl, fun _ => ⟨k, privateDer, _, hprivate, Rsa.inverts_mersenneKey, rfl, rfl, hhalf⟩⟩
  obtain ⟨hseals, hbytes, hstring, -⟩ := hopens.recovers fresh
  obtain ⟨e, he⟩ := (hseals (Bytes.ofText "grün")).2
    ⟨fun _ => ⟨key, rfl, fun _ => rfl⟩, fun _ => ⟨_, _, rfl, hhalf, by decide +kernel⟩⟩
  have hplain : ∀ sym sym' : SymmetricKey, plainKey sym' = plainKey sym →
      ∃ text, encodeString .aesCbc256 "grün" (some sym) none fresh = .ok text ∧
        decodeString text (some sym') none = .ok "grün" := by
    intro sym sym' hsame
    have hopens : Opens .aesCbc256 (some sym) (some sym') none none :=
      ⟨.inr ⟨rfl, congrArg some hsame⟩, fun hrsa => by cases hrsa⟩
    obtain ⟨hseals, -, hstring, -⟩ := hopens.recovers fresh
    obtain ⟨e, he⟩ := (hseals (Bytes.ofText "grün")).2 ((takes_iff_of_iv rfl).2 ⟨sym, rfl, nofun⟩)
    exact ⟨_, hstring "grün" e he⟩
  exact ⟨key, half, publicDer, privateDer, fresh, e, rfl, rfl, hpublic, hprivate, he, hbytes _ e he,
    (hstring "grün" e he).1, (hstring "grün" e he).2, hplain key half rfl, hplain half key rfl⟩

end Envelope
end PasswordVault
