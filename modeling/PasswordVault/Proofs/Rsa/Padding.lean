import PasswordVault.Rsa.Oaep
import PasswordVault.Proofs.Bytes
import PasswordVault.Proofs.Outcome
import PasswordVault.Proofs.Rsa.Inversion

/-!
# Padded messages under RSA

Padding leaves the seed masked by the data and the data masked by the seed. Taking the masks off in
the other order gives the message back (`Oaep.unpad_pad`). The padded message starts with a zero byte,
which keeps its number below the modulus, so a key that finds every residue again decrypts what was
encrypted (`PrivateKey.decrypt_encrypt`).
-/

namespace PasswordVault
namespace Rsa
namespace Oaep

/-! ## Masks -/

/-- A mask has the length that is asked for. -/
theorem length_mask {h : Digest} (hsize : 0 < h.size) (seed : Bytes) (length : Nat) :
    (mask h seed length).length = length := by
  have hblocks : ∀ indices : List Nat,
      (indices.flatMap fun i => h.hash (seed ++ Bytes.ofNat 4 i)).length = indices.length * h.size := by
    intro indices
    induction indices with
    | nil => simp
    | cons i rest ih => simp [ih, h.length_hash, Nat.succ_mul, Nat.add_comm]
  -- The number of blocks is rounded up, so nothing is missing.
  have henough : length ≤ (length + h.size - 1) / h.size * h.size := by
    have hdivision := Nat.mod_add_div (length + h.size - 1) h.size
    have hrest := Nat.mod_lt (length + h.size - 1) hsize
    rw [Nat.mul_comm h.size] at hdivision
    omega
  rw [mask, List.length_take, hblocks, List.length_range]
  exact Nat.min_eq_left henough

/-! ## Padding and what takes it off -/

theorem afterZeros?_zeros (n : Nat) (message : Bytes) :
    afterZeros? (List.replicate n 0 ++ 1 :: message) = some message := by
  induction n with
  | zero => rfl
  | succ n ih => exact ih

/-- A padded message is a zero byte, the masked seed and the masked data. -/
theorem exists_data_of_pad {h : Digest} {size : Nat} {seed message padded : Bytes}
    (hpad : pad h size seed message = .ok padded) :
    ∃ data, h.size + data.length + 1 = size ∧ h.size < data.length ∧ data.take h.size = h.hash [] ∧
      afterZeros? (data.drop h.size) = some message ∧
      padded = 0 ::
        (Bytes.xor seed (mask h (Bytes.xor data (mask h seed data.length)) h.size) ++
          Bytes.xor data (mask h seed data.length)) := by
  simp only [pad] at hpad
  split at hpad
  case isTrue => cases hpad
  case isFalse hfits =>
    cases hpad
    have hlabel : (h.hash []).length = h.size := h.length_hash []
    refine ⟨_, ?_, ?_, ?_, ?_, rfl⟩
    · simp only [List.length_append, List.length_replicate, List.length_cons, hlabel]
      omega
    · simp only [List.length_append, List.length_replicate, List.length_cons, hlabel]
      omega
    · rw [List.append_assoc, ← hlabel, List.take_left]
    · rw [List.append_assoc, ← hlabel, List.drop_left]
      exact afterZeros?_zeros _ message

section

variable {h : Digest} {size : Nat} {seed message padded : Bytes}

theorem length_of_pad (hsize : 0 < h.size) (hseed : seed.length = h.size)
    (hpad : pad h size seed message = .ok padded) : padded.length = size := by
  rcases exists_data_of_pad hpad with ⟨data, hlength, -, -, -, rfl⟩
  rw [List.length_cons, List.length_append, Bytes.length_xor (by rw [length_mask hsize, hseed]),
    Bytes.length_xor (length_mask hsize _ _).symm, hseed]
  omega

theorem size_of_pad (hpad : pad h size seed message = .ok padded) : 2 * h.size + 2 ≤ size := by
  rcases exists_data_of_pad hpad with ⟨data, hlength, hlabel, -⟩
  omega

/-- The leading zero keeps the number of a padded message below that of any modulus of its size. -/
theorem toNat_lt_of_pad (hsize : 0 < h.size) (hseed : seed.length = h.size)
    (hpad : pad h size seed message = .ok padded) : Bytes.toNat padded < 256 ^ (size - 1) := by
  have hlength := length_of_pad hsize hseed hpad
  rcases exists_data_of_pad hpad with ⟨data, -, -, -, -, hpadded⟩
  obtain ⟨payload, hpayload⟩ : ∃ payload, padded = 0 :: payload := ⟨_, hpadded⟩
  rw [hpayload, List.length_cons] at hlength
  have hzero : Bytes.toNat (0 :: payload) = Bytes.toNat payload := by simp [Bytes.toNat]
  rw [hpayload, hzero, ← hlength, Nat.add_sub_cancel]
  exact Bytes.toNat_lt payload

/-- The masks come off in the reverse order: the data unmask the seed, and the seed the data. -/
theorem unpad_pad (hsize : 0 < h.size) (hseed : seed.length = h.size)
    (hpad : pad h size seed message = .ok padded) : unpad h padded = .ok message := by
  rcases exists_data_of_pad hpad with ⟨data, -, -, hlabel, hmessage, rfl⟩
  -- The seed masks the data, and then the masked data mask the seed; the masks come off in the other order.
  obtain ⟨maskedData, hmaskedData⟩ :
      ∃ maskedData, Bytes.xor data (mask h seed data.length) = maskedData := ⟨_, rfl⟩
  obtain ⟨maskedSeed, hmaskedSeed⟩ :
      ∃ maskedSeed, Bytes.xor seed (mask h maskedData h.size) = maskedSeed := ⟨_, rfl⟩
  have hseedMask : seed.length = (mask h maskedData h.size).length := by
    rw [length_mask hsize, hseed]
  have hdataMask : data.length = (mask h seed data.length).length := (length_mask hsize _ _).symm
  have hlengthSeed : maskedSeed.length = h.size := by
    rw [← hmaskedSeed, Bytes.length_xor hseedMask, hseed]
  have hlengthData : maskedData.length = data.length := by
    rw [← hmaskedData, Bytes.length_xor hdataMask]
  have hunmaskSeed : Bytes.xor maskedSeed (mask h maskedData h.size) = seed := by
    rw [← hmaskedSeed, Bytes.xor_xor_cancel hseedMask]
  have hunmaskData : Bytes.xor maskedData (mask h seed maskedData.length) = data := by
    rw [hlengthData, ← hmaskedData, Bytes.xor_xor_cancel hdataMask]
  rw [hmaskedData, hmaskedSeed, unpad, ← hlengthSeed, List.take_left, List.drop_left, hlengthSeed]
  simp only [hunmaskSeed, hunmaskData, hlabel, hmessage, and_self, if_true]

end

end Oaep

/-! ## Messages under a key -/

/-- Encryption fails only for a message that is too long. -/
theorem PublicKey.exists_encrypt_iff {k : PublicKey} {h : Oaep.Digest} {seed message : Bytes} :
    (∃ data, k.encrypt h seed message = .ok data) ↔ message.length + 2 * h.size + 2 ≤ k.size := by
  rw [encrypt, exists_bind_eq_ok_iff]
  constructor
  · rintro ⟨padded, hpad, -⟩
    by_contra hlong
    rw [Oaep.pad, if_pos (Nat.not_le.1 hlong)] at hpad
    cases hpad
  · intro hfits
    exact ⟨_, if_neg (Nat.not_lt.2 hfits), _, rfl⟩

/-- A key that finds every residue again decrypts what was encrypted under its public half. -/
theorem PrivateKey.decrypt_encrypt {k : PrivateKey} (hk : k.Inverts) {h : Oaep.Digest}
    (hsize : 0 < h.size) {seed message data : Bytes} (hseed : seed.length = h.size)
    (hencrypt : k.toPublicKey.encrypt h seed message = .ok data) : k.decrypt h data = .ok message := by
  rcases bind_eq_ok_iff.1 hencrypt with ⟨padded, hpad, heq⟩
  cases heq
  have hlength := Oaep.length_of_pad hsize hseed hpad
  have hroom := Oaep.size_of_pad hpad
  -- Padding needs room, so the modulus is not zero.
  have hn : k.n ≠ 0 := by
    intro hzero
    simp only [PublicKey.size, hzero, Bytes.widthOf, if_true] at hroom
    omega
  have hpadded : Bytes.toNat padded < k.n :=
    (Oaep.toNat_lt_of_pad hsize hseed hpad).trans_le (Bytes.pow_widthOf_le hn)
  have hresidue : k.toPublicKey.apply (Bytes.toNat padded) < k.n :=
    Modular.pow_lt _ _ (Nat.pos_of_ne_zero hn)
  have hnumber : Bytes.toNat (Bytes.ofNat k.size (k.toPublicKey.apply (Bytes.toNat padded))) =
      k.toPublicKey.apply (Bytes.toNat padded) :=
    Bytes.toNat_ofNat (hresidue.trans (Bytes.lt_pow_widthOf k.n))
  have hbytes : Bytes.ofNat k.size (Bytes.toNat padded) = padded := by
    rw [← hlength, Bytes.ofNat_toNat]
  have hrefused : ¬ ((Bytes.ofNat k.size (k.toPublicKey.apply (Bytes.toNat padded))).length ≠ k.size ∨
      k.n ≤ k.toPublicKey.apply (Bytes.toNat padded)) := by
    rintro (hother | hgreat)
    · exact hother (Bytes.length_ofNat _ _)
    · exact absurd hresidue (Nat.not_lt.2 hgreat)
  -- All checks of the ciphertext pass, and the power of the power is the padded message.
  simp only [PrivateKey.decrypt, hnumber, if_neg hrefused, hk _ hpadded, if_neg (Nat.not_lt.2 hroom),
    hbytes, Oaep.unpad_pad hsize hseed hpad]

end Rsa
end PasswordVault
