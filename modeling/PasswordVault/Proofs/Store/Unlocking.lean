import PasswordVault.Proofs.Store.Rotation
import PasswordVault.Store.Manager

/-!
# Unlocking — what a key finds in a file

Whether a file is opened, replaced or left alone is decided by the check in it alone.

* `StoreFile.finding`: what a key finds in a file.
* `StoreFile.unlockOrReplace_of_finding`: only a file that is foreign, or whose check was sealed under
  another key or around another text, is replaced; a check that cannot be read is an error.
-/

namespace PasswordVault

/-- What a key finds in a file. -/
inductive Finding where
  /-- The check opens to the text that was sealed in it. -/
  | own
  /-- The file is no store, or its check is not authentic, or opens to another text. -/
  | strange
  /-- The check cannot be read at all. -/
  | broken (e : CryptoError)
  /-- There is no check yet. -/
  | unbound

namespace StoreFile

def rows : StoreFile → Table
  | .foreign => .empty
  | .store c => c.table.getD .empty

/-- What a key finds in a file. -/
def finding (key : SymmetricKey) : StoreFile → Finding
  | .foreign => .strange
  | .store c =>
    match c.keyCheck with
    | none => .unbound
    | some check =>
      match Envelope.decode check (some key) none with
      | .ok plaintext => if plaintext = keyCheckText then .own else .strange
      | .error .authenticationFailed => .strange
      | .error e => .broken e

variable {key : SymmetricKey} {masterKey : MasterKey} {c : StoreContent}

/-- The schema is not looked at, only the check. -/
@[simp] theorem finding_withSchema (key : SymmetricKey) (c : StoreContent) :
    finding key (.store c.withSchema) = finding key (.store c) := rfl

@[simp] theorem rows_withSchema (c : StoreContent) : rows (.store c.withSchema) = rows (.store c) := rfl

/-- A key finds its own check exactly if it opens that. -/
theorem finding_eq_own_iff : finding key (.store c) = .own ↔
    ∃ check, c.keyCheck = some check ∧ unsealBytes key check = .ok keyCheckText := by
  cases hcheck : c.keyCheck with
  | none => simp [finding, hcheck]
  | some check =>
      simp only [finding, hcheck, Option.some.injEq, exists_eq_left', unsealBytes, mapError_eq_ok_iff]
      cases hopen : Envelope.decode check (some key) none with
      | error e => cases e <;> simp
      | ok plaintext => by_cases htext : plaintext = keyCheckText <;> simp [htext]

theorem finding_eq_unbound_iff : finding key (.store c) = .unbound ↔ c.keyCheck = none := by
  cases hcheck : c.keyCheck with
  | none => simp [finding, hcheck]
  | some check =>
      simp only [finding, hcheck]
      cases Envelope.decode check (some key) none with
      | error e => cases e <;> simp
      | ok plaintext => by_cases htext : plaintext = keyCheckText <;> simp [htext]

/-- Opening a store, by what the key finds in it. The schema is made in any case. -/
theorem unlock_of_finding (hderive : deriveSubKeys masterKey = .ok key) (c : StoreContent)
    (fresh : Envelope.Fresh) :
    unlock (.store c) masterKey fresh = match finding key (.store c) with
      | .own => (.ok key, .store c.withSchema)
      | .strange => (.error .notADatabase, .store c.withSchema)
      | .broken e => (.error (.crypto e), .store c.withSchema)
      | .unbound =>
        (.ok key, .store { c.withSchema with keyCheck := some (rowText key keyCheckText fresh) }) := by
  cases hcheck : c.keyCheck with
  | none =>
      have hnone : c.withSchema.keyCheck = none := hcheck
      have hbound := Store.boundTo_of_no_check ⟨masterKey, hderive⟩ hnone fresh
      simp only [unlock, hderive, hbound, finding, hcheck]
  | some check =>
      have hschema : c.withSchema.keyCheck = some check := hcheck
      simp only [unlock, hderive, StoreContent.boundTo, hschema, checkKey, finding, hcheck]
      cases hopen : Envelope.decode check (some key) none with
      | error e => cases e <;> rfl
      | ok plaintext =>
          by_cases htext : plaintext = keyCheckText
          · simp only [htext, if_true]
            rfl
          · simp only [htext, if_false]
            rfl

theorem unlock_of_short (h : masterKey.bytes.length < 32) (file : StoreFile) (fresh : Envelope.Fresh) :
    unlock file masterKey fresh = (.error (.crypto (.kdfFailed
      "Invalid HKDF key: invalid pseudorandom key length, too short")), file) := by
  simp only [unlock, deriveSubKeys_of_short h]

/-! ## Replacing a file -/

/-- Too short a key has no say in what a file is. -/
theorem unlockOrReplace_of_short (h : masterKey.bytes.length < 32) (file : StoreFile)
    (fresh : Envelope.Fresh) :
    file.unlockOrReplace masterKey fresh = (.error (.crypto (.kdfFailed
      "Invalid HKDF key: invalid pseudorandom key length, too short")), file) := by
  simp [unlockOrReplace, unlock_of_short h, StoreError.isNotADatabase]

/-- Whether a file is bound to a key and has exactly the given rows. -/
def IsBound (key : SymmetricKey) (t : Table) (file : StoreFile) : Prop :=
  file.finding key = .own ∧ (⟨key, file⟩ : Store).table = .ok t

theorem isBound_withSchema (hfinding : finding key (.store c) = .own) :
    IsBound key (rows (.store c)) (.store c.withSchema) :=
  ⟨hfinding, Store.table_eq_ok_iff.2 ⟨c.withSchema, rfl, rfl⟩⟩

/-- A content with a new check for a key. -/
theorem isBound_of_sealed (hkey : key.IsDerived) (c : StoreContent) (fresh : Envelope.Fresh) :
    IsBound key (rows (.store c))
      (.store { c.withSchema with keyCheck := some (rowText key keyCheckText fresh) }) := by
  refine ⟨finding_eq_own_iff.2 ⟨_, rfl, ?_⟩, Store.table_eq_ok_iff.2 ⟨_, rfl, rfl⟩⟩
  exact unsealBytes_sealBytes hkey (sealBytes_eq hkey keyCheckText fresh)

/-- A blank file is bound to the key that opens it. -/
theorem unlock_blank (hderive : deriveSubKeys masterKey = .ok key) (fresh : Envelope.Fresh) :
    ∃ after, unlock blank masterKey fresh = (.ok key, after) ∧ IsBound key .empty after :=
  ⟨_, unlock_of_finding hderive {} fresh, isBound_of_sealed ⟨masterKey, hderive⟩ {} fresh⟩

/-- Opening any file, by what the key finds in it: its rows are kept, or it is replaced by an empty store
that is bound to the key, or it is left as it was with an error. -/
theorem unlockOrReplace_of_finding (hderive : deriveSubKeys masterKey = .ok key) (file : StoreFile)
    (fresh : Envelope.Fresh) :
    match file.finding key with
    | .own | .unbound =>
      ∃ after, file.unlockOrReplace masterKey fresh = (.ok key, after) ∧ IsBound key file.rows after
    | .strange =>
      ∃ after, file.unlockOrReplace masterKey fresh = (.ok key, after) ∧
        blank.unlock masterKey fresh = (.ok key, after) ∧ IsBound key .empty after
    | .broken e =>
      ∃ after, file.unlockOrReplace masterKey fresh = (.error (.crypto e), after) ∧
        after.rows = file.rows ∧ ∀ key', after.finding key' = file.finding key' := by
  -- What is put in the place of a file that belongs to nobody here.
  obtain ⟨empty, hblank, hempty⟩ := unlock_blank hderive fresh
  cases file with
  | «foreign» =>
      have hunlock : unlock .foreign masterKey fresh = (.error (.storage .notADatabase), .foreign) := by
        simp only [unlock, hderive]
      refine ⟨empty, ?_, hblank, hempty⟩
      simp only [unlockOrReplace, hunlock, StoreError.isNotADatabase, if_true]
      exact hblank
  | store c =>
      have hunlock := unlock_of_finding hderive c fresh
      cases hfinding : finding key (.store c) with
      | own =>
          rw [hfinding] at hunlock
          refine ⟨_, ?_, isBound_withSchema hfinding⟩
          simp only [unlockOrReplace, hunlock]
      | unbound =>
          rw [hfinding] at hunlock
          refine ⟨_, ?_, isBound_of_sealed ⟨masterKey, hderive⟩ c fresh⟩
          simp only [unlockOrReplace, hunlock]
      | strange =>
          rw [hfinding] at hunlock
          refine ⟨empty, ?_, hblank, hempty⟩
          simp only [unlockOrReplace, hunlock, StoreError.isNotADatabase, if_true]
          exact hblank
      | broken e =>
          rw [hfinding] at hunlock
          refine ⟨_, ?_, rows_withSchema c, fun key' => finding_withSchema key' c⟩
          simp [unlockOrReplace, hunlock, StoreError.isNotADatabase]

/-- A file that is bound to a key is opened by it, with its rows. -/
theorem IsBound.finding_eq {file : StoreFile} {t : Table} (h : IsBound key t file) :
    file.finding key = .own ∧ file.rows = t := by
  refine ⟨h.1, ?_⟩
  obtain ⟨c, hfile, htable⟩ := Store.table_eq_ok_iff.1 h.2
  have hfile' : file = .store c := hfile
  rw [hfile', rows, htable, Option.getD_some]

end StoreFile
end PasswordVault
