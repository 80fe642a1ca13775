import PasswordVault.KdfConfig
import PasswordVault.Proofs.Outcome

/-!
# Derived keys

Every master key of at least 32 bytes gives a key of two halves, and no shorter one does
(`exists_deriveSubKeys_iff`). A key with two halves is what sealing and opening of rows need.
-/

namespace PasswordVault

theorem Hkdf.deriveExpanded_of_short {key : Bytes} (h : key.length < 32) (info : Bytes) (length : Nat) :
    Hkdf.deriveExpanded key info length =
      .error (.kdfFailed "Invalid HKDF key: invalid pseudorandom key length, too short") := by
  simp [Hkdf.deriveExpanded, h]

theorem Hkdf.deriveExpanded_of_long {key : Bytes} (h : 32 ≤ key.length) (info : Bytes) :
    Hkdf.deriveExpanded key info 32 = .ok (Hkdf.expand key info 32) := by
  have hlong : ¬ key.length < 32 := by omega
  simp [Hkdf.deriveExpanded, hlong, Hkdf.maxLength]

theorem SymmetricKey.bytes_ofParts {enc mac : Bytes} {key : SymmetricKey}
    (h : SymmetricKey.ofParts enc mac = .ok key) : key.bytes = enc ++ mac := by
  unfold SymmetricKey.ofParts at h
  split at h
  · split at h
    · cases h
      rfl
    · cases h
  · cases h

/-- Too short a master key is the only reason why there are no keys. -/
theorem exists_deriveSubKeys_iff {masterKey : MasterKey} :
    (∃ key, deriveSubKeys masterKey = .ok key) ↔ 32 ≤ masterKey.bytes.length := by
  constructor
  · rintro ⟨key, hderive⟩
    rcases bind_eq_ok_iff.1 hderive with ⟨enc, henc, -⟩
    rcases Nat.lt_or_ge masterKey.bytes.length 32 with hshort | hlong
    · rw [Hkdf.deriveExpanded_of_short hshort] at henc
      cases henc
    · exact hlong
  · intro hlong
    have hparts : ∀ enc mac : Bytes, enc.length = 32 → mac.length = 32 →
        ∃ key, SymmetricKey.ofParts enc mac = .ok key := by
      intro enc mac henc hmac
      simp [SymmetricKey.ofParts, henc, hmac]
    rcases hparts (Hkdf.expand masterKey.bytes (Bytes.ofText "enc") 32)
      (Hkdf.expand masterKey.bytes (Bytes.ofText "mac") 32) (by simp) (by simp) with ⟨key, hkey⟩
    refine ⟨key, ?_⟩
    simp only [deriveSubKeys, Hkdf.deriveExpanded_of_long hlong, ok_bind]
    exact hkey

theorem deriveSubKeys_of_short {masterKey : MasterKey} (h : masterKey.bytes.length < 32) :
    deriveSubKeys masterKey =
      .error (.kdfFailed "Invalid HKDF key: invalid pseudorandom key length, too short") := by
  simp only [deriveSubKeys, Hkdf.deriveExpanded_of_short h, error_bind]

/-- The keys of a master key are expanded from it one after the other. -/
theorem bytes_of_deriveSubKeys {masterKey : MasterKey} {key : SymmetricKey}
    (h : deriveSubKeys masterKey = .ok key) :
    key.bytes = Hkdf.expand masterKey.bytes (Bytes.ofText "enc") 32 ++
      Hkdf.expand masterKey.bytes (Bytes.ofText "mac") 32 := by
  have hlong := exists_deriveSubKeys_iff.1 ⟨key, h⟩
  simp only [deriveSubKeys, Hkdf.deriveExpanded_of_long hlong, ok_bind] at h
  exact SymmetricKey.bytes_ofParts h

/-- Whether a key was derived from a master key. -/
def SymmetricKey.IsDerived (key : SymmetricKey) : Prop :=
  ∃ masterKey, deriveSubKeys masterKey = .ok key

theorem SymmetricKey.IsDerived.length_eq {key : SymmetricKey} (h : key.IsDerived) :
    key.bytes.length = 64 := by
  rcases h with ⟨masterKey, hderive⟩
  simp [bytes_of_deriveSubKeys hderive]

end PasswordVault
