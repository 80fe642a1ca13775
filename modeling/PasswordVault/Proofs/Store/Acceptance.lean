import PasswordVault.Proofs.Store.Operations

/-!
# Acceptance — which texts a store takes for its own

The text of a row may have been written by anybody. `unsealBytes_eq_ok_iff` says which texts open
under the key of a store: those whose code is the one of their content (`AuthenticRow`), and
those of the type that has no code (`BareRow`), for the key of a store opens them with its first
half. No other text opens.

`Store.accepts_iff` carries this over to all operations that open rows or the check of the key. It
asks of the store only that its key was derived, which holds of every store that was opened
(`Store.deriveSubKeys_of_openFile`); what stands in its file is arbitrary.
-/

namespace PasswordVault

/-! ## Two ways to open -/

/-- A text in the type that rows are sealed in, with the code of its content, around a plaintext. -/
def AuthenticRow (key : SymmetricKey) (text : String) (plaintext : Bytes) : Prop :=
  ∃ iv data mac, Envelope.parse text = .ok (.aesCbc256Hmac iv data mac) ∧
    mac = Envelope.macOf key.rowMac (iv.bytes ++ data) ∧
    Cbc.decrypt? (Aes.cipher key.rowEnc) iv data = some plaintext

/-- A text in the type without a code around a plaintext. -/
def BareRow (key : SymmetricKey) (text : String) (plaintext : Bytes) : Prop :=
  ∃ iv data, Envelope.parse text = .ok (.aesCbc256 iv data) ∧
    Cbc.decrypt? (Aes.cipher key.rowEnc) iv data = some plaintext

/-- A text that opens to a plaintext in either way. -/
def AcceptedRow (key : SymmetricKey) (text : String) (plaintext : Bytes) : Prop :=
  AuthenticRow key text plaintext ∨ BareRow key text plaintext

/-- What is encrypted with RSA does not open without an asymmetric key. -/
theorem openWith_none_of_rsa {e : Envelope} (h : e.cipherType.isAsymmetric = true) (enc : Bytes) :
    e.openWith enc none = .error (Envelope.mismatch e.cipherType "an RSA key is required") := by
  cases e with
  | aesCbc256 | aesCbc128Hmac | aesCbc256Hmac => cases h
  | _ => rfl

/-- Under a derived key only two types of envelopes open. -/
theorem decrypt_eq_ok_iff {key : SymmetricKey} (hkey : key.IsDerived) {e : Envelope}
    {plaintext : Bytes} :
    e.decrypt (some key) none = .ok plaintext ↔
      (∃ iv data mac, e = .aesCbc256Hmac iv data mac ∧
        mac = Envelope.macOf key.rowMac (iv.bytes ++ data) ∧
        Cbc.decrypt? (Aes.cipher key.rowEnc) iv data = some plaintext) ∨
      (∃ iv data, e = .aesCbc256 iv data ∧
        Cbc.decrypt? (Aes.cipher key.rowEnc) iv data = some plaintext) := by
  -- One case for each type that an attacker could write in front.
  cases e with
  | aesCbc256 iv data =>
      have hopen : (Envelope.aesCbc256 iv data).decrypt (some key) none =
          Envelope.aesDecrypt key.rowEnc iv data := rfl
      simp [hopen, Envelope.aesDecrypt_eq_ok_iff]
  | aesCbc256Hmac iv data mac =>
      rw [decrypt_of_rowCipherType hkey]
      constructor
      · intro h
        rcases bind_eq_ok_iff.1 h with ⟨_, hmac, hopen⟩
        exact Or.inl ⟨iv, data, mac, rfl, (Envelope.checkMac_eq_ok_iff.1 hmac).symm,
          Envelope.aesDecrypt_eq_ok_iff.1 hopen⟩
      · rintro (⟨iv', data', mac', heq, hmac, hopen⟩ | ⟨_, _, heq, _⟩)
        · cases heq
          rw [Envelope.checkMac_eq_ok_iff.2 hmac.symm, ok_bind]
          exact Envelope.aesDecrypt_eq_ok_iff.2 hopen
        · cases heq
  | aesCbc128Hmac iv data mac =>
      -- The halves of a derived key are too long for this type.
      have hlength : key.bytes.length ≠
          (Envelope.aesCbc128Hmac iv data mac).cipherType.keyLength := by
        simp [hkey.length_eq, Envelope.cipherType, CipherType.keyLength]
      rw [Envelope.decrypt_of_mac rfl, if_neg hlength]
      simp
  | rsaOaepSha256 data | rsaOaepSha1 data =>
      simp [Envelope.decrypt, Envelope.requireAsym, error_bind]
  | rsaOaepSha256Hmac data mac | rsaOaepSha1Hmac data mac =>
      rw [Envelope.decrypt_of_mac rfl, openWith_none_of_rsa rfl]
      split <;> simp [bind_eq_ok_iff]

/-- The texts that open under the key of a store. -/
theorem unsealBytes_eq_ok_iff {key : SymmetricKey} (hkey : key.IsDerived) {text : String}
    {plaintext : Bytes} :
    unsealBytes key text = .ok plaintext ↔ AcceptedRow key text plaintext := by
  rw [unsealBytes, mapError_eq_ok_iff]
  cases hparse : Envelope.parse text with
  | error fault =>
      simp [Envelope.decode_of_parse_error hparse, AcceptedRow, AuthenticRow, BareRow, hparse]
  | ok e =>
      rw [Envelope.decode_of_parse hparse, decrypt_eq_ok_iff hkey]
      simp [AcceptedRow, AuthenticRow, BareRow, hparse]

/-- The only plaintexts whose code nobody vouches for are those in the type without one. -/
theorem authentic_of_accepted_iff (key : SymmetricKey) (text : String) :
    ((∃ plaintext, AcceptedRow key text plaintext) → ∃ plaintext, AuthenticRow key text plaintext) ↔
      ¬ ∃ plaintext, BareRow key text plaintext := by
  constructor
  · rintro himp ⟨plaintext, iv, data, hparse, hopen⟩
    rcases himp ⟨plaintext, Or.inr ⟨iv, data, hparse, hopen⟩⟩ with ⟨_, _, _, _, hparse', -⟩
    rw [hparse] at hparse'
    cases hparse'
  · rintro hnone ⟨plaintext, hauth | hbare⟩
    · exact ⟨plaintext, hauth⟩
    · exact absurd ⟨plaintext, hbare⟩ hnone

theorem authenticRow_rowText (key : SymmetricKey) (plaintext : Bytes) (fresh : Envelope.Fresh) :
    AuthenticRow key (rowText key plaintext fresh) plaintext :=
  ⟨_, _, _, Envelope.parse_toText (data_rowEnvelope_ne_nil key plaintext fresh), rfl,
    Cbc.decrypt?_encrypt (Aes.cipher_undoes _) _ _⟩

/-! ## Operations of a store -/

namespace Store

/-- Every operation that opens a row or a check takes exactly the accepted texts, and an accepted
text is authentic unless it is of the type without a code. -/
theorem accepts_iff {s : Store} {t : Table} (hkey : s.key.IsDerived) (htable : s.table = .ok t) :
    (∀ (α : Type) (read : Json.Reader α) kind id text found, t.find? kind id = some text →
      (s.get? kind id read = .ok found ↔
        ∃ plaintext value, AcceptedRow s.key text plaintext ∧ readRow read plaintext = some value ∧
          some value = found)) ∧
    (∀ (α : Type) (read : Json.Reader α) kind values,
      (s.list kind read = .ok values ↔
        List.Forall₂ (fun r value => ∃ plaintext, AcceptedRow s.key r.data plaintext ∧
          readRow read plaintext = some value) (t.ofKind kind) values)) ∧
    (∀ masterKey fresh,
      ((∃ s', s.changePassword masterKey fresh = .ok s') ↔
        32 ≤ masterKey.bytes.length ∧ ∀ r ∈ t.rows, ∃ plaintext, AcceptedRow s.key r.data plaintext)) ∧
    (∀ masterKey c check fresh, deriveSubKeys masterKey = .ok s.key → c.keyCheck = some check →
      ((∃ opened, (openFile (.store c) masterKey fresh).1 = .ok opened) ↔
        AcceptedRow s.key check keyCheckText)) ∧
    (∀ text,
      (((∃ plaintext, AcceptedRow s.key text plaintext) →
        ∃ plaintext, AuthenticRow s.key text plaintext) ↔
      ¬ ∃ plaintext, BareRow s.key text plaintext)) := by
  have haccept : ∀ {text : String} {plaintext : Bytes},
      unsealBytes s.key text = .ok plaintext ↔ AcceptedRow s.key text plaintext := by
    intro text plaintext
    exact unsealBytes_eq_ok_iff hkey
  -- Each operation opens its rows in the same way, so one equivalence carries over to all of them.
  refine ⟨?_, ?_, ?_, ?_, authentic_of_accepted_iff s.key⟩
  · intro α read kind id text found hfind
    simpa only [haccept] using get?_eq_ok_iff htable hfind
  · intro α read kind values
    simpa only [haccept] using list_eq_ok_iff htable
  · intro masterKey fresh
    simpa only [haccept] using exists_changePassword_iff htable
  · intro masterKey c check fresh hderive hcheck
    rw [← haccept, ← checkKey_eq_ok_iff]
    exact exists_openFile_iff hderive hcheck

/-- A store that has written one row takes it. -/
theorem accepts_own_row :
    ∃ (s : Store) (t : Table), s.key.IsDerived ∧ s.table = .ok t ∧ t.rows ≠ [] ∧
      ∃ s', s.changePassword ⟨KdfVersion.v0, List.replicate 32 2⟩
        (fun _ => ⟨Block.fit 16 [], Block.fit 32 []⟩) = .ok s' := by
  let fresh : Envelope.Fresh := ⟨Block.fit 16 [], Block.fit 32 []⟩
  rcases (@exists_deriveSubKeys_iff ⟨KdfVersion.v0, List.replicate 32 1⟩).2 (by decide) with
    ⟨key, hderive⟩
  have hkey : key.IsDerived := ⟨_, hderive⟩
  let row : Row := ⟨"k", "i", rowText key [] fresh⟩
  let s : Store := ⟨key, .store { table := some (Table.empty.insert row) }⟩
  have hrow : ∀ r ∈ (Table.empty.insert row).rows, ∃ plaintext, AcceptedRow key r.data plaintext := by
    intro r hr
    rcases Table.mem_rows_insert.1 hr with ⟨hempty, -⟩ | rfl
    · cases hempty
    · exact ⟨[], Or.inl (authenticRow_rowText key [] fresh)⟩
  refine ⟨s, Table.empty.insert row, hkey, rfl, by simp [Table.insert], ?_⟩
  exact ((accepts_iff (s := s) hkey rfl).2.2.1 _ _).2 ⟨by decide, hrow⟩

/-! ## A row that nobody vouches for -/

/-- A text in the type without a code, made under 32 bytes of one as the master key. -/
def forgedText : String := "0.AAAAAAAAAAAAAAAAAAAAAA==|lKAtNha43mtT6f+SX6ueaA=="

/-- What that text encrypts its value to. -/
def forgedData : Bytes :=
  [148, 160, 45, 54, 22, 184, 222, 107, 83, 233, 255, 146, 95, 171, 158, 104]

/-- A new store whose only row was written behind its back. -/
def forgedStore (key : SymmetricKey) : Store where
  key
  file := .store {
    version := StoreContent.schemaVersion
    keyCheck := some (rowText key keyCheckText ⟨Block.fit 16 [], Block.fit 32 []⟩)
    table := some (Table.empty.insert ⟨"k", "i", forgedText⟩) }

theorem parse_forgedText :
    Envelope.parse forgedText = .ok (.aesCbc256 (Block.fit 16 []) forgedData) := by
  decide +kernel

/-- The value of such a row is given out, and another key takes the row over. -/
theorem accepts_forgedText :
    ∃ (masterKey : MasterKey) (s : Store), masterKey.bytes = List.replicate 32 1 ∧
      deriveSubKeys masterKey = .ok s.key ∧ s = forgedStore s.key ∧
      s.get? "k" "i" Json.Reader.text = .ok (some "forged") ∧
      (∃ s', s.changePassword masterKey (fun _ => ⟨Block.fit 16 [], Block.fit 32 []⟩) = .ok s') ∧
      ∀ plaintext, ¬ AuthenticRow s.key forgedText plaintext := by
  let masterKey : MasterKey := ⟨KdfVersion.v0, List.replicate 32 1⟩
  rcases (@exists_deriveSubKeys_iff masterKey).2 (by decide) with ⟨key, hderive⟩
  have hkey : key.IsDerived := ⟨masterKey, hderive⟩
  have henc : key.rowEnc = Hkdf.expand masterKey.bytes (Bytes.ofText "enc") 32 := by
    rw [SymmetricKey.rowEnc, bytes_of_deriveSubKeys hderive]
    exact List.take_left' (by simp)
  have hopen : Cbc.decrypt? (Aes.cipher key.rowEnc) (Block.fit 16 []) forgedData =
      some (Bytes.ofText "\"forged\"") := by
    rw [henc]
    decide +kernel
  have hunseal : unsealBytes key forgedText = .ok (Bytes.ofText "\"forged\"") :=
    (unsealBytes_eq_ok_iff hkey).2 (Or.inr ⟨_, _, parse_forgedText, hopen⟩)
  have htable : (forgedStore key).table = .ok (Table.empty.insert ⟨"k", "i", forgedText⟩) := rfl
  refine ⟨masterKey, forgedStore key, rfl, hderive, rfl, ?_, ?_, ?_⟩
  · exact (get?_eq_ok_iff htable rfl).2 ⟨_, "forged", hunseal, by decide +kernel, rfl⟩
  · refine (exists_changePassword_iff htable).2 ⟨by decide, ?_⟩
    intro r hr
    rcases Table.mem_rows_insert.1 hr with ⟨hempty, -⟩ | rfl
    · cases hempty
    · exact ⟨_, hunseal⟩
  · rintro plaintext ⟨_, _, _, hparse, -⟩
    rw [parse_forgedText] at hparse
    cases hparse

end Store
end PasswordVault
