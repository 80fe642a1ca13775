import PasswordVault.KdfConfig
import PasswordVault.Proofs.Text.Base64Grammar

/-!
# Proofs of a password — one text for each

The text that proves a password to a server is the base64 form of a digest. A text is read before it is
compared, so it is a matter of the reader that no second text counts: of all the ways to write the same bytes,
padded in another way, with spare bits set or with something in front or behind, it takes the canonical one.

- `verifyPasswordHash_eq_ok_iff`: the texts that verify;
- `verifyPasswordHash_unique`: the outcome for every text.
-/

namespace PasswordVault

namespace Base64

/-- A byte string is read from one text only. -/
theorem decode_eq_ok_iff_eq_encode {text : String} {b : Bytes} : decode text = .ok b ↔ text = encode b := by
  rw [decode_eq_ok_iff, canonical_iff, encode, ← String.toList_inj, String.toList_ofList]

theorem length_encodeChars (b : Bytes) : (encodeChars b).length = 4 * ((b.length + 2) / 3) := by
  fun_induction encodeChars b with
  | case1 => rfl
  | case2 => simp
  | case3 => simp
  | case4 a b c rest ih =>
      simp only [List.length_cons, ih]
      omega

end Base64

theorem length_passwordDigest (key : MasterKey) (password : Bytes) :
    (passwordDigest key password).length = 32 :=
  Pbkdf2.length_derive _ _ _ _

theorem length_passwordHash (key : MasterKey) (password : Bytes) :
    (passwordHash key password).length = 44 := by
  rw [passwordHash, Base64.encode, String.length_ofList, Base64.length_encodeChars, length_passwordDigest]

/-- The digest is made by a derivation that does not fail. -/
theorem stretch_passwordDigest (key : MasterKey) (password : Bytes) :
    Pbkdf2.stretch key.bytes password 1 masterKeyLength = .ok (passwordDigest key password) :=
  if_neg (by decide)

/-- A proof is accepted exactly if it is the one that the password has. -/
theorem verifyPasswordHash_eq_ok_iff {key : MasterKey} {password : Bytes} {text : String} :
    verifyPasswordHash key password text = .ok () ↔ text = passwordHash key password := by
  rw [passwordHash, ← Base64.decode_eq_ok_iff_eq_encode, verifyPasswordHash]
  cases Base64.decode text with
  | error fault => simp
  | ok found => simp [eq_comm]

/-- There is one way only to fail. -/
theorem verifyPasswordHash_eq_error {key : MasterKey} {password : Bytes} {text : String}
    {fault : CryptoError} (h : verifyPasswordHash key password text = .error fault) :
    fault = .passwordMismatch := by
  unfold verifyPasswordHash at h
  split at h
  · cases h
    rfl
  · split at h <;> cases h
    rfl

/-- Exactly one text verifies a password under a master key, the one that is made for them, and all others are
mismatches. It is the one that spells the digest in padded base64 without spare bits, has 44 characters, and
can always be made. -/
theorem verifyPasswordHash_unique (key : MasterKey) (password : Bytes) :
    (∀ text, verifyPasswordHash key password text =
      if text = passwordHash key password then .ok () else .error .passwordMismatch) ∧
    (∀ text, text = passwordHash key password ↔
      Base64.Canonical text.toList (passwordDigest key password)) ∧
    (passwordHash key password).length = 44 ∧
    Pbkdf2.stretch key.bytes password 1 masterKeyLength = .ok (passwordDigest key password) := by
  refine ⟨fun text => ?_, fun text => ?_, length_passwordHash key password,
    stretch_passwordDigest key password⟩
  · split
    case isTrue hsame => exact verifyPasswordHash_eq_ok_iff.2 hsame
    case isFalse hother =>
      cases houtcome : verifyPasswordHash key password text with
      | ok => exact absurd (verifyPasswordHash_eq_ok_iff.1 houtcome) hother
      | error fault => rw [verifyPasswordHash_eq_error houtcome]
  · rw [passwordHash, ← Base64.decode_eq_ok_iff_eq_encode, Base64.decode_eq_ok_iff]

/-- Neither padding that is left out nor a spare bit that is set is taken. -/
example :
    let key : MasterKey := ⟨KdfVersion.v0, List.replicate 32 9⟩
    let verify := verifyPasswordHash key (Bytes.ofText "hunter2")
    verify "lCX4HR7F2AntdacsqHq925ToRWzeVnhneRVWJk5Kl5Q=" = .ok () ∧
      verify "lCX4HR7F2AntdacsqHq925ToRWzeVnhneRVWJk5Kl5Q" = .error .passwordMismatch ∧
      verify "lCX4HR7F2AntdacsqHq925ToRWzeVnhneRVWJk5Kl5R=" = .error .passwordMismatch := by
  decide +kernel

end PasswordVault
