import PasswordVault.Envelope.Cipher
import PasswordVault.Proofs.Aes.Chaining
import PasswordVault.Proofs.Envelope.RoundTrip
import PasswordVault.Proofs.Outcome

/-!
# Envelopes — authenticated before decrypted

An envelope with an authentication code passes three stages: the key must have the length that the
type requires, the code must fit, and only then is anything decrypted. `Envelope.decrypt_of_mac`
says so in one equation for all four types, and everything else here is read off it.

* `Envelope.decode_authenticates` says exactly when reading an envelope reports that it is not
  authentic, what that outcome can not depend on, and which failures come before it.
* `Envelope.decode_of_altered_mac` is the case of an envelope whose code was exchanged.
* `Envelope.sealed_of_encrypt` says what encryption writes.
-/

namespace PasswordVault

/-! ## The parts of a key -/

/-- The length of the keys of an authenticated type. -/
def CipherType.keyLength : CipherType → Nat
  | .aesCbc128Hmac => 32
  | _ => 64

/-- Whether a symmetric key takes part in opening envelopes of a type. -/
def CipherType.takesSym (t : CipherType) : Bool := t.hasIv || t.hasMac

/-- The part of a key that encrypts under an authenticated type. -/
def SymmetricKey.encPart (k : SymmetricKey) (t : CipherType) : Bytes :=
  k.bytes.take (t.keyLength / 2)

/-- The part of a key that authenticates under an authenticated type. -/
def SymmetricKey.macPart (k : SymmetricKey) (t : CipherType) : Bytes :=
  k.bytes.drop (t.keyLength / 2)

namespace Envelope

/-- What the authentication code of an envelope covers: the initial vector, if there is one, and the
data. -/
def covered (e : Envelope) : Bytes := (e.iv?.map Block.bytes).getD [] ++ e.data

/-- Whether an envelope carries a code, the key fits, and the code is another than the one of what it
covers. -/
def MacDiffers (e : Envelope) (sym : Option SymmetricKey) : Prop :=
  ∃ mac k, e.mac? = some mac ∧ sym = some k ∧ k.bytes.length = e.cipherType.keyLength ∧
    macOf (k.macPart e.cipherType) e.covered ≠ mac

/-- An envelope with another authentication code, if it carries one. -/
def withMac (e : Envelope) (mac : Mac) : Envelope :=
  match e with
  | .aesCbc128Hmac iv data _ => .aesCbc128Hmac iv data mac
  | .aesCbc256Hmac iv data _ => .aesCbc256Hmac iv data mac
  | .rsaOaepSha256Hmac data _ => .rsaOaepSha256Hmac data mac
  | .rsaOaepSha1Hmac data _ => .rsaOaepSha1Hmac data mac
  | e => e

@[simp] theorem cipherType_withMac (e : Envelope) (mac : Mac) :
    (e.withMac mac).cipherType = e.cipherType := by
  cases e <;> rfl

@[simp] theorem data_withMac (e : Envelope) (mac : Mac) : (e.withMac mac).data = e.data := by
  cases e <;> rfl

@[simp] theorem covered_withMac (e : Envelope) (mac : Mac) : (e.withMac mac).covered = e.covered := by
  cases e <;> rfl

theorem mac?_withMac {e : Envelope} (h : e.mac? ≠ none) (mac : Mac) :
    (e.withMac mac).mac? = some mac := by
  cases e <;> simp_all [mac?, withMac]

theorem withMac_self {e : Envelope} {mac : Mac} (h : e.mac? = some mac) : e.withMac mac = e := by
  cases e <;> simp_all [mac?, withMac]

/-- The code stands in the last segment, and in no other. -/
theorem chars_withMac {e : Envelope} (h : e.mac? ≠ none) :
    ∃ head, ∀ mac, (e.withMac mac).chars = head ++ '|' :: Base64.encodeChars mac.bytes := by
  -- What stands in front of the code does not mention it.
  obtain ⟨before, hne, hsegments⟩ :
      ∃ before, before ≠ [] ∧ ∀ mac, (e.withMac mac).segments = before ++ [mac.bytes] := by
    cases e with
    | aesCbc256 | rsaOaepSha256 | rsaOaepSha1 => exact absurd rfl h
    | aesCbc128Hmac iv data _ | aesCbc256Hmac iv data _ =>
        exact ⟨[iv.bytes, data], by simp, fun _ => rfl⟩
    | rsaOaepSha256Hmac data _ | rsaOaepSha1Hmac data _ => exact ⟨[data], by simp, fun _ => rfl⟩
  refine ⟨(toString e.cipherType.raw).toList ++ '.' ::
    Text.joinWith '|' (before.map Base64.encodeChars), fun mac => ?_⟩
  rw [chars, cipherType_withMac, hsegments, List.map_append, List.map_singleton,
    Text.joinWith_concat (by simpa using hne)]
  simp

/-! ## The three stages -/

/-- What is left to do for an envelope when its code was found to fit. -/
def openWith (e : Envelope) (enc : Bytes) (asym : Option AsymmetricKey) : Except CryptoError Bytes :=
  match e with
  | .aesCbc256 iv data | .aesCbc128Hmac iv data _ | .aesCbc256Hmac iv data _ => aesDecrypt enc iv data
  | .rsaOaepSha256 data | .rsaOaepSha1 data | .rsaOaepSha256Hmac data _ | .rsaOaepSha1Hmac data _ => do
    rsaDecrypt e.cipherType (← requireAsym e.cipherType asym) data

def wrongLength (t : CipherType) : CryptoError :=
  mismatch t (if t = .aesCbc128Hmac then "expected a 32 byte key"
    else "expected a 64 byte key with a MAC half")

theorem keyLength_of_ne {t : CipherType} (ht : t ≠ .aesCbc128Hmac) : t.keyLength = 64 := by
  cases t with
  | aesCbc128Hmac => exact absurd rfl ht
  | _ => rfl

theorem longKeys_of_length {t : CipherType} (ht : t ≠ .aesCbc128Hmac) {k : SymmetricKey}
    (h : k.bytes.length = t.keyLength) : longKeys t k = .ok (k.encPart t, k.macPart t) := by
  rw [keyLength_of_ne ht] at h
  simp [longKeys, SymmetricKey.halves?, SymmetricKey.hasMac, SymmetricKey.encPart,
    SymmetricKey.macPart, keyLength_of_ne ht, h]

theorem longKeys_of_length_ne {t : CipherType} (ht : t ≠ .aesCbc128Hmac) {k : SymmetricKey}
    (h : k.bytes.length ≠ t.keyLength) : longKeys t k = .error (wrongLength t) := by
  rw [keyLength_of_ne ht] at h
  simp [longKeys, SymmetricKey.halves?, SymmetricKey.hasMac, wrongLength, h, ht]

theorem longKeys_eq_ok_iff {t : CipherType} (ht : t ≠ .aesCbc128Hmac) {k : SymmetricKey}
    {parts : Bytes × Bytes} :
    longKeys t k = .ok parts ↔ k.bytes.length = t.keyLength ∧ (k.encPart t, k.macPart t) = parts := by
  by_cases h : k.bytes.length = t.keyLength
  · simp [longKeys_of_length ht h, h]
  · simp [longKeys_of_length_ne ht h, h]

theorem shortKeys_of_length {k : SymmetricKey}
    (h : k.bytes.length = CipherType.aesCbc128Hmac.keyLength) :
    shortKeys .aesCbc128Hmac k = .ok (k.encPart .aesCbc128Hmac, k.macPart .aesCbc128Hmac) :=
  if_pos h

theorem shortKeys_of_length_ne {k : SymmetricKey}
    (h : k.bytes.length ≠ CipherType.aesCbc128Hmac.keyLength) :
    shortKeys .aesCbc128Hmac k = .error (wrongLength .aesCbc128Hmac) :=
  if_neg h

theorem shortKeys_eq_ok_iff {k : SymmetricKey} {parts : Bytes × Bytes} :
    shortKeys .aesCbc128Hmac k = .ok parts ↔
      k.bytes.length = CipherType.aesCbc128Hmac.keyLength ∧
        (k.encPart .aesCbc128Hmac, k.macPart .aesCbc128Hmac) = parts := by
  by_cases h : k.bytes.length = CipherType.aesCbc128Hmac.keyLength
  · simp [shortKeys_of_length h, h]
  · simp [shortKeys_of_length_ne h, h]

theorem requireSym_eq_ok_iff {t : CipherType} {sym : Option SymmetricKey} {k : SymmetricKey} :
    requireSym t sym = .ok k ↔ sym = some k := by
  cases sym <;> simp [requireSym]

theorem requireAsym_eq_ok_iff {t : CipherType} {asym : Option AsymmetricKey} {key : AsymmetricKey} :
    requireAsym t asym = .ok key ↔ asym = some key := by
  cases asym <;> simp [requireAsym]

/-- An envelope with a code is opened in three stages: the key, the code, the rest. -/
theorem decrypt_of_mac {e : Envelope} {mac : Mac} (hmac : e.mac? = some mac) (k : SymmetricKey)
    (asym : Option AsymmetricKey) :
    e.decrypt (some k) asym =
      if k.bytes.length = e.cipherType.keyLength then do
        checkMac (k.macPart e.cipherType) e.covered mac
        e.openWith (k.encPart e.cipherType) asym
      else .error (wrongLength e.cipherType) := by
  -- Both branches of the conditional are compared type by type.
  by_cases hfits : k.bytes.length = e.cipherType.keyLength
  · rw [if_pos hfits]
    cases e with
    | aesCbc256 | rsaOaepSha256 | rsaOaepSha1 => cases hmac
    | aesCbc128Hmac =>
        cases hmac
        simp only [decrypt, requireSym, ok_bind, cipherType] at hfits ⊢
        rw [shortKeys_of_length hfits]
        rfl
    | aesCbc256Hmac | rsaOaepSha256Hmac | rsaOaepSha1Hmac =>
        cases hmac
        simp only [decrypt, requireSym, ok_bind, cipherType] at hfits ⊢
        rw [longKeys_of_length (by decide) hfits]
        rfl
  · rw [if_neg hfits]
    cases e with
    | aesCbc256 | rsaOaepSha256 | rsaOaepSha1 => cases hmac
    | aesCbc128Hmac =>
        simp only [decrypt, requireSym, ok_bind, cipherType] at hfits ⊢
        rw [shortKeys_of_length_ne hfits]
        rfl
    | aesCbc256Hmac | rsaOaepSha256Hmac | rsaOaepSha1Hmac =>
        simp only [decrypt, requireSym, ok_bind, cipherType] at hfits ⊢
        rw [longKeys_of_length_ne (by decide) hfits]
        rfl

theorem decrypt_none_of_takesSym {e : Envelope} (h : e.cipherType.takesSym = true)
    (asym : Option AsymmetricKey) :
    e.decrypt none asym = .error (mismatch e.cipherType "a symmetric key is required") := by
  cases e with
  | rsaOaepSha256 | rsaOaepSha1 => cases h
  | _ => rfl

/-- Without a code there is nothing to check after the key. -/
theorem decrypt_of_no_mac {e : Envelope} (hmac : e.mac? = none) (sym : Option SymmetricKey)
    (asym : Option AsymmetricKey) :
    e.decrypt sym asym =
      if e.cipherType.takesSym then do
        let k ← requireSym e.cipherType sym
        e.openWith (plainKey k) asym
      else e.openWith [] asym := by
  cases e with
  | aesCbc256 | rsaOaepSha256 | rsaOaepSha1 => rfl
  | _ => cases hmac

/-! ## Only the code can fail to authenticate -/

theorem checkMac_eq_error_iff {key message : Bytes} {mac : Mac} {fault : CryptoError} :
    checkMac key message mac = .error fault ↔
      macOf key message ≠ mac ∧ fault = .authenticationFailed := by
  unfold checkMac
  split
  case isTrue h => simp [h]
  case isFalse h => simp [h, eq_comm]

theorem checkMac_eq_ok_iff {key message : Bytes} {mac : Mac} :
    checkMac key message mac = .ok () ↔ macOf key message = mac := by
  simp [checkMac]

theorem aesDecrypt_eq_ok_iff {key : Bytes} {iv : Block 16} {data plaintext : Bytes} :
    aesDecrypt key iv data = .ok plaintext ↔ Cbc.decrypt? (Aes.cipher key) iv data = some plaintext := by
  unfold aesDecrypt
  split
  case h_1 found h => simp [h]
  case h_2 h => simp [h]

theorem aesDecrypt_ne (key : Bytes) (iv : Block 16) (data : Bytes) :
    aesDecrypt key iv data ≠ .error .authenticationFailed := by
  unfold aesDecrypt
  split <;> simp

/-- A failure of RSA is never reported as one of authentication. -/
theorem rsaDecrypt_ne (t : CipherType) (key : AsymmetricKey) (data : Bytes) :
    rsaDecrypt t key data ≠ .error .authenticationFailed := by
  intro h
  cases key with
  | publicKey der => simp [rsaDecrypt, mismatch] at h
  | privateKey der =>
      simp only [rsaDecrypt] at h
      split at h
      · simp [badPrivateKey] at h
      · rcases mapError_eq_error_iff.1 h with ⟨cause, -, hcause⟩
        cases hcause

/-- Once the code was checked nothing is reported as a failure of authentication. -/
theorem openWith_ne (e : Envelope) (enc : Bytes) (asym : Option AsymmetricKey) :
    e.openWith enc asym ≠ .error .authenticationFailed := by
  -- All types that encrypt with RSA end alike.
  have hrsa : ∀ t data,
      (requireAsym t asym >>= fun key => rsaDecrypt t key data) ≠ .error .authenticationFailed := by
    intro t data
    cases asym with
    | none => simp [requireAsym, mismatch, error_bind]
    | some key => exact rsaDecrypt_ne t key data
  cases e with
  | aesCbc256 iv data | aesCbc128Hmac iv data | aesCbc256Hmac iv data => exact aesDecrypt_ne enc iv data
  | rsaOaepSha256 data | rsaOaepSha1 data | rsaOaepSha256Hmac data | rsaOaepSha1Hmac data =>
      exact hrsa _ data

theorem parse_ne (text : String) : parse text ≠ .error .authenticationFailed := by
  intro h
  rcases mapError_eq_error_iff.1 h with ⟨fault, -, hfault⟩
  cases fault <;> cases hfault

/-- An envelope is reported as not authentic exactly when its code differs. -/
theorem decrypt_not_authentic_iff (e : Envelope) (sym : Option SymmetricKey)
    (asym : Option AsymmetricKey) :
    e.decrypt sym asym = .error .authenticationFailed ↔ e.MacDiffers sym := by
  cases hmac : e.mac? with
  | none =>
      -- There is no code that could differ, and no other stage reports it.
      have hnot : ¬ e.MacDiffers sym := by
        rintro ⟨mac, k, hsome, -⟩
        rw [hmac] at hsome
        cases hsome
      refine iff_of_false ?_ hnot
      rw [decrypt_of_no_mac hmac]
      split
      · cases sym with
        | none => simp [requireSym, mismatch, error_bind]
        | some k => exact openWith_ne e (plainKey k) asym
      · exact openWith_ne e [] asym
  | some mac =>
      cases sym with
      | none =>
          have htakes : e.cipherType.takesSym = true := by
            cases e with
            | aesCbc256 | rsaOaepSha256 | rsaOaepSha1 => cases hmac
            | _ => rfl
          simp [decrypt_none_of_takesSym htakes, mismatch, MacDiffers]
      | some k =>
          -- The key is checked before the code, and the code before the rest.
          rw [decrypt_of_mac hmac]
          split
          case isTrue hfits =>
            have hopen := openWith_ne e (k.encPart e.cipherType) asym
            simp [bind_eq_error_iff, checkMac_eq_error_iff, hopen, MacDiffers, hmac, hfits]
          case isFalse hfits =>
            simp [wrongLength, mismatch, MacDiffers, hfits]

/-! ## What encryption writes -/

section

variable {t : CipherType} {plaintext : Bytes} {sym : Option SymmetricKey} {asym : Option AsymmetricKey}
  {fresh : Fresh} {e : Envelope}

/-- Everything there is to say about an envelope that a plaintext was sealed in: the data are the
plaintext under AES with the encrypting part of the symmetric key, or under RSA, and the code, if there
is one, is that of what it covers. -/
structure Sealed (t : CipherType) (plaintext : Bytes) (sym : Option SymmetricKey)
    (asym : Option AsymmetricKey) (fresh : Fresh) (e : Envelope) : Prop where
  cipherType : e.cipherType = t
  aes : t.hasIv = true → ∃ k, sym = some k ∧ e.iv? = some fresh.iv ∧
    e.data = Cbc.encrypt (Aes.cipher (k.encPart t)) fresh.iv plaintext
  rsa : t.isAsymmetric = true → ∃ key, asym = some key ∧
    rsaEncrypt t key fresh.seed plaintext = .ok e.data
  mac : ∀ mac, e.mac? = some mac → ∃ k, sym = some k ∧ k.bytes.length = t.keyLength ∧
    macOf (k.macPart t) e.covered = mac

/-- What encryption gives is sealed in the way of its type. -/
theorem sealed_of_encrypt (he : encrypt t plaintext sym asym fresh = .ok e) :
    Sealed t plaintext sym asym fresh e := by
  -- Each type asks for its keys in its own order, so each has its own chain of steps.
  cases t with
  | aesCbc256 =>
      rcases bind_eq_ok_iff.1 he with ⟨k, hsym, heq⟩
      cases heq
      refine ⟨rfl, fun _ => ?_, nofun, nofun⟩
      exact ⟨k, requireSym_eq_ok_iff.1 hsym, rfl, rfl⟩
  | aesCbc128Hmac =>
      rcases bind_eq_ok_iff.1 he with ⟨k, hsym, hrest⟩
      rcases bind_eq_ok_iff.1 hrest with ⟨parts, hparts, heq⟩
      rcases shortKeys_eq_ok_iff.1 hparts with ⟨hlength, rfl⟩
      cases heq
      refine ⟨rfl, fun _ => ?_, nofun, fun mac hmac => ?_⟩
      · exact ⟨k, requireSym_eq_ok_iff.1 hsym, rfl, rfl⟩
      · cases hmac
        exact ⟨k, requireSym_eq_ok_iff.1 hsym, hlength, rfl⟩
  | aesCbc256Hmac =>
      rcases bind_eq_ok_iff.1 he with ⟨k, hsym, hrest⟩
      rcases bind_eq_ok_iff.1 hrest with ⟨parts, hparts, heq⟩
      rcases (longKeys_eq_ok_iff (by decide)).1 hparts with ⟨hlength, rfl⟩
      cases heq
      refine ⟨rfl, fun _ => ?_, nofun, fun mac hmac => ?_⟩
      · exact ⟨k, requireSym_eq_ok_iff.1 hsym, rfl, rfl⟩
      · cases hmac
        exact ⟨k, requireSym_eq_ok_iff.1 hsym, hlength, rfl⟩
  | rsaOaepSha256 | rsaOaepSha1 =>
      rcases bind_eq_ok_iff.1 he with ⟨key, hasym, hrest⟩
      rcases bind_eq_ok_iff.1 hrest with ⟨data, hdata, heq⟩
      cases heq
      refine ⟨rfl, nofun, fun _ => ?_, nofun⟩
      exact ⟨key, requireAsym_eq_ok_iff.1 hasym, hdata⟩
  | rsaOaepSha256Hmac | rsaOaepSha1Hmac =>
      rcases bind_eq_ok_iff.1 he with ⟨k, hsym, hrest⟩
      rcases bind_eq_ok_iff.1 hrest with ⟨parts, hparts, hrest⟩
      rcases bind_eq_ok_iff.1 hrest with ⟨key, hasym, hrest⟩
      rcases bind_eq_ok_iff.1 hrest with ⟨data, hdata, heq⟩
      rcases (longKeys_eq_ok_iff (by decide)).1 hparts with ⟨hlength, rfl⟩
      cases heq
      refine ⟨rfl, nofun, fun _ => ?_, fun mac hmac => ?_⟩
      · exact ⟨key, requireAsym_eq_ok_iff.1 hasym, hdata⟩
      · cases hmac
        exact ⟨k, requireSym_eq_ok_iff.1 hsym, hlength, rfl⟩

/-- A ciphertext of RSA is as long as the modulus, and no modulus is empty. -/
theorem rsaEncrypt_ne_nil {key : AsymmetricKey} {seed : Block 32} {data : Bytes}
    (h : rsaEncrypt t key seed plaintext = .ok data) : data ≠ [] := by
  rcases bind_eq_ok_iff.1 h with ⟨k, -, hrest⟩
  rcases bind_eq_ok_iff.1 (mapError_eq_ok_iff.1 hrest) with ⟨padded, hpadded, heq⟩
  -- A modulus too short for the padding is refused, so there is at least one byte.
  have hsize : 0 < k.size := by
    unfold Rsa.Oaep.pad at hpadded
    split at hpadded
    · cases hpadded
    · omega
  cases heq
  intro hnil
  have hlength := congrArg List.length hnil
  simp only [Bytes.length_ofNat, List.length_nil] at hlength
  omega

/-- What is encrypted is never an empty segment. -/
theorem Sealed.data_ne_nil (h : Sealed t plaintext sym asym fresh e) : e.data ≠ [] := by
  cases hiv : t.hasIv with
  | true =>
      rcases h.aes hiv with ⟨k, -, -, hdata⟩
      rw [hdata]
      exact Cbc.encrypt_ne_nil _ _ _
  | false =>
      rcases h.rsa (by simp [CipherType.isAsymmetric, hiv]) with ⟨key, -, hdata⟩
      exact rsaEncrypt_ne_nil hdata

end

/-! ## Texts -/

theorem decode_of_parse {text : String} {e : Envelope} (h : parse text = .ok e)
    (sym : Option SymmetricKey) (asym : Option AsymmetricKey) :
    decode text sym asym = e.decrypt sym asym := by
  simp only [decode, h, ok_bind]

/-- A text that is no envelope is reported as such, whatever the keys are. -/
theorem decode_of_parse_error {text : String} {fault : CryptoError} (h : parse text = .error fault)
    (sym : Option SymmetricKey) (asym : Option AsymmetricKey) :
    decode text sym asym = .error fault := by
  simp only [decode, h, error_bind]

/-- A text fails authentication exactly if it is an envelope whose code is not that of its content. -/
theorem decode_not_authentic_iff (text : String) (sym : Option SymmetricKey)
    (asym : Option AsymmetricKey) :
    decode text sym asym = .error .authenticationFailed ↔
      ∃ e, parse text = .ok e ∧ e.MacDiffers sym := by
  cases h : parse text with
  | error fault =>
      have hne : fault ≠ .authenticationFailed := fun heq => parse_ne text (heq ▸ h)
      simp [decode_of_parse_error h, hne]
  | ok e => simp [decode_of_parse h, decrypt_not_authentic_iff]

/-- Only the half that authenticates has a say in whether a code differs. -/
theorem macDiffers_congr {e : Envelope} {k k' : SymmetricKey}
    (hlength : k'.bytes.length = k.bytes.length)
    (hpart : k'.macPart e.cipherType = k.macPart e.cipherType) :
    e.MacDiffers (some k') ↔ e.MacDiffers (some k) := by
  simp [MacDiffers, hlength, hpart]

/-- An envelope whose code was exchanged is not authentic under the key that sealed it. -/
theorem decode_of_altered_mac {t : CipherType} {plaintext : Bytes} {sym : Option SymmetricKey}
    {asym : Option AsymmetricKey} {fresh : Fresh} {e : Envelope} {mac mac' : Mac} {head : List Char}
    (he : encrypt t plaintext sym asym fresh = .ok e) (hmac : e.mac? = some mac)
    (htext : e.toText = String.ofList (head ++ '|' :: Base64.encodeChars mac.bytes))
    (hne : mac' ≠ mac) (asym' : Option AsymmetricKey) :
    decode (String.ofList (head ++ '|' :: Base64.encodeChars mac'.bytes)) sym asym' =
      .error .authenticationFailed := by
  have hsome : e.mac? ≠ none := by simp [hmac]
  have hsealed := sealed_of_encrypt he
  rcases chars_withMac hsome with ⟨before, hchars⟩
  -- The code's own text ends the envelope, so what is in front of it is determined.
  have hhead : head = before := by
    have hself := hchars mac
    rw [withMac_self hmac] at hself
    have hlist := String.ofList_injective htext
    rw [hself] at hlist
    exact (List.append_cancel_right hlist).symm
  have haltered : String.ofList (head ++ '|' :: Base64.encodeChars mac'.bytes) =
      (e.withMac mac').toText := by
    rw [hhead, ← hchars, toText]
  have hdata : (e.withMac mac').data ≠ [] := by
    simpa using hsealed.data_ne_nil
  rcases hsealed.mac mac hmac with ⟨k, hsym, hlength, hcode⟩
  rw [← hsealed.cipherType] at hlength hcode
  have hdiffers : (e.withMac mac').MacDiffers sym := by
    refine ⟨mac', k, mac?_withMac hsome mac', hsym, ?_, ?_⟩
    · simpa using hlength
    · simp only [cipherType_withMac, covered_withMac, hcode]
      exact hne.symm
  rw [haltered]
  exact (decode_not_authentic_iff _ _ _).2 ⟨_, parse_toText hdata, hdiffers⟩

/-- Authentication comes after parsing and after the check of the key, and before decryption. -/
theorem decode_authenticates (text : String) (sym : Option SymmetricKey)
    (asym : Option AsymmetricKey) :
    -- The outcome is reported exactly when the code differs under a key of the right length ...
    (decode text sym asym = .error .authenticationFailed ↔
      ∃ e, parse text = .ok e ∧ e.MacDiffers sym) ∧
    -- ... so neither the encrypting part of that key nor the asymmetric key has a say in it.
    (∀ e k k' asym', parse text = .ok e → sym = some k → k'.bytes.length = k.bytes.length →
      k'.macPart e.cipherType = k.macPart e.cipherType →
      decode text sym asym = .error .authenticationFailed →
      decode text (some k') asym' = .error .authenticationFailed) ∧
    -- Faults of the text come before faults of the key, and these before everything else.
    (∀ fault, parse text = .error fault → decode text sym asym = .error fault) ∧
    (∀ e, parse text = .ok e → e.cipherType.takesSym = true → sym = none →
      decode text sym asym =
        .error (.keyTypeMismatch e.cipherType.raw "a symmetric key is required")) ∧
    (∀ e k, parse text = .ok e → e.cipherType.hasMac = true → sym = some k →
      k.bytes.length ≠ e.cipherType.keyLength →
      decode text sym asym = .error (wrongLength e.cipherType)) ∧
    -- No other code than the one that was written is accepted.
    (∀ t plaintext asym₀ fresh e head mac mac',
      encrypt t plaintext sym asym₀ fresh = .ok e → e.mac? = some mac →
      e.toText = String.ofList (head ++ '|' :: Base64.encodeChars mac.bytes) → mac' ≠ mac →
      decode (String.ofList (head ++ '|' :: Base64.encodeChars mac'.bytes)) sym asym =
        .error .authenticationFailed) := by
  refine ⟨decode_not_authentic_iff text sym asym, ?_, ?_, ?_, ?_, ?_⟩
  · rintro e k k' asym' hparse rfl hlength hpart hfails
    rcases (decode_not_authentic_iff text _ asym).1 hfails with ⟨e', hparse', hdiffers⟩
    -- The key has a say only by its length and by the part that computes the code.
    have heq : e' = e := by
      rw [hparse] at hparse'
      cases hparse'
      rfl
    subst heq
    exact (decode_not_authentic_iff text _ asym').2
      ⟨e', hparse, (macDiffers_congr hlength hpart).2 hdiffers⟩
  · intro fault hparse
    exact decode_of_parse_error hparse sym asym
  · rintro e hparse htakes rfl
    rw [decode_of_parse hparse]
    exact decrypt_none_of_takesSym htakes asym
  · rintro e k hparse hhas rfl hlength
    obtain ⟨mac, hmac⟩ : ∃ mac, e.mac? = some mac := by
      cases e with
      | aesCbc256 | rsaOaepSha256 | rsaOaepSha1 => cases hhas
      | aesCbc128Hmac _ _ mac | aesCbc256Hmac _ _ mac => exact ⟨mac, rfl⟩
      | rsaOaepSha256Hmac _ mac | rsaOaepSha1Hmac _ mac => exact ⟨mac, rfl⟩
    rw [decode_of_parse hparse, decrypt_of_mac hmac, if_neg hlength]
  · intro t plaintext asym₀ fresh e head mac mac' he hmac htext hne
    exact decode_of_altered_mac he hmac htext hne asym

/-- An empty message sealed under zeros, with a code of zeros instead of its own. -/
theorem decode_authenticates_zeros :
    ∃ (k : SymmetricKey) (fresh : Fresh) (iv : Block 16) (data : Bytes) (mac : Mac),
      encrypt .aesCbc256Hmac [] (some k) none fresh = .ok (.aesCbc256Hmac iv data mac) ∧
      decode (aesCbc256Hmac iv data ⟨List.replicate 32 0, rfl⟩).toText (some k) none =
        .error .authenticationFailed := by
  let k : SymmetricKey := ⟨List.replicate 64 0, .inr rfl⟩
  let iv : Block 16 := ⟨List.replicate 16 0, rfl⟩
  let fresh : Fresh := ⟨iv, ⟨List.replicate 32 0, rfl⟩⟩
  let data := Cbc.encrypt (Aes.cipher (k.bytes.take 32)) iv []
  let mac := macOf (k.bytes.drop 32) (iv.bytes ++ data)
  refine ⟨k, fresh, iv, data, mac, rfl, ?_⟩
  have hne : (⟨List.replicate 32 0, rfl⟩ : Mac) ≠ mac := by decide +kernel
  rcases chars_withMac (e := .aesCbc256Hmac iv data mac) (by simp [mac?]) with ⟨head, hchars⟩
  have haltered := hchars ⟨List.replicate 32 0, rfl⟩
  rw [withMac] at haltered
  rw [toText, haltered]
  exact (decode_authenticates "" (some k) none).2.2.2.2.2 .aesCbc256Hmac [] none fresh
    (.aesCbc256Hmac iv data mac) head mac _ rfl rfl (congrArg String.ofList (hchars mac)) hne

end Envelope
end PasswordVault
