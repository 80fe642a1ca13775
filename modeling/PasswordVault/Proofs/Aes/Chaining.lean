import PasswordVault.Aes.Cbc
import PasswordVault.Proofs.Aes.Inverse
import PasswordVault.Proofs.Bytes

/-!
# Cipher block chaining — decryption undoes encryption

Every message, of any length, is decrypted to itself under the same key and initial vector
(`Cbc.decrypt?_encrypt`). The block cipher only has to undo itself (`BlockCipher.Undoes`), which
AES does under every key.

A byte string consists of whole blocks exactly if sixteen divides its length, and then it is the
blocks written one after the other (`Cbc.exists_ofBlocks`, `Cbc.blocks?_ofBlocks`).
-/

namespace PasswordVault

/-- Decryption of a block undoes its encryption. -/
def BlockCipher.Undoes (c : BlockCipher) : Prop := ∀ b, c.decrypt (c.encrypt b) = b

theorem Aes.cipher_undoes (key : Bytes) : (Aes.cipher key).Undoes :=
  Aes.decrypt_encrypt key

theorem Block.xor_xor_cancel {n : Nat} (x y : Block n) : (x.xor y).xor y = x := by
  have hbytes : Bytes.xor (Bytes.xor x.bytes y.bytes) y.bytes = x.bytes :=
    Bytes.xor_xor_cancel (x.length_eq.trans y.length_eq.symm)
  simp only [Block.xor, hbytes]

namespace Bytes

theorem chunks_nil (size : Nat) : chunks size [] = [] := by
  rw [chunks]

/-- The first piece of a byte string is the one that it was put together with. -/
theorem chunks_append {size : Nat} {a : Bytes} (hpos : 0 < size) (hlength : a.length = size)
    (b : Bytes) : chunks size (a ++ b) = a :: chunks size b := by
  cases a with
  | nil =>
      simp at hlength
      omega
  | cons x rest =>
      have hrest : rest.length = size - 1 := by
        simp at hlength
        omega
      rw [List.cons_append, chunks, List.take_append_of_le_length (by omega),
        List.take_of_length_le (by omega), List.drop_append_of_le_length (by omega),
        List.drop_of_length_le (by omega), List.nil_append]

theorem flatten_chunks (size : Nat) (b : Bytes) : (b.chunks size).flatten = b := by
  fun_induction chunks size b with
  | case1 => rfl
  | case2 x rest ih => rw [List.flatten_cons, ih, List.cons_append, List.take_append_drop]

end Bytes

namespace Cbc

/-! ## Whole blocks -/

theorem ofBlocks_cons (x : Block 16) (bs : List (Block 16)) :
    ofBlocks (x :: bs) = x.bytes ++ ofBlocks bs := by
  simp [ofBlocks]

/-- Blocks written one after the other are found again. -/
theorem blocks?_ofBlocks (bs : List (Block 16)) : blocks? (ofBlocks bs) = some bs := by
  induction bs with
  | nil => simp [blocks?, ofBlocks, Bytes.chunks_nil]
  | cons x rest ih =>
      simp only [blocks?, blockLength] at ih ⊢
      rw [ofBlocks_cons, Bytes.chunks_append (by decide) x.length_eq]
      simp [ih]

/-- A byte string whose length sixteen divides consists of whole blocks. -/
theorem exists_ofBlocks {b : Bytes} (h : b.length % 16 = 0) : ∃ bs, ofBlocks bs = b := by
  obtain ⟨n, hn⟩ : ∃ n, b.length = 16 * n := ⟨b.length / 16, by omega⟩
  clear h
  -- One block is cut off at a time.
  induction n generalizing b with
  | zero =>
      have hnil : b = [] := List.length_eq_zero_iff.1 (by omega)
      exact ⟨[], by simp [ofBlocks, hnil]⟩
  | succ n ih =>
      rcases ih (b := b.drop 16) (by simp; omega) with ⟨bs, hbs⟩
      have hfirst : (b.take 16).length = 16 := by
        simp
        omega
      refine ⟨⟨b.take 16, hfirst⟩ :: bs, ?_⟩
      rw [ofBlocks_cons, hbs]
      exact List.take_append_drop 16 b

/-! ## Padding -/

theorem length_pad (message : Bytes) : (pad message).length = 16 * (message.length / 16 + 1) := by
  simp only [pad, blockLength, List.length_append, List.length_replicate]
  omega

theorem length_pad_mod (message : Bytes) : (pad message).length % 16 = 0 := by
  rw [length_pad, Nat.mul_mod_right]

theorem pad_ne_nil (message : Bytes) : pad message ≠ [] := by
  have hpos : 16 - message.length % 16 ≠ 0 := by omega
  simp [pad, blockLength, hpos]

/-- What is taken off are one to sixteen bytes that tell their number. -/
theorem unpad?_eq_some_iff {padded message : Bytes} :
    unpad? padded = some message ↔
      ∃ n, 0 < n ∧ n ≤ 16 ∧ padded = message ++ List.replicate n (UInt8.ofNat n) := by
  constructor
  · intro h
    simp only [unpad?] at h
    split at h
    case isTrue hends =>
      obtain ⟨hpos, hle, -, hdrop⟩ := hends
      obtain rfl := Option.some.inj h
      exact ⟨_, hpos, hle, by rw [← hdrop, List.take_append_drop]⟩
    case isFalse => cases h
  · rintro ⟨n, hpos, hle, rfl⟩
    -- The padding repeats the number of its bytes, so the last byte is that number.
    have hlast : (message ++ List.replicate n (UInt8.ofNat n)).getLast? = some (UInt8.ofNat n) := by
      rw [List.getLast?_append, List.getLast?_replicate, if_neg (Nat.ne_of_gt hpos), Option.some_or]
    have hcount : (UInt8.ofNat n).toNat = n := by
      rw [UInt8.toNat_ofNat']
      omega
    simp only [unpad?, hlast, Option.getD_some, hcount, blockLength, List.length_append,
      List.length_replicate, Nat.add_sub_cancel, List.drop_left, List.take_left]
    exact if_pos ⟨hpos, hle, Nat.le_add_left _ _, trivial⟩

theorem unpad?_pad (message : Bytes) : unpad? (pad message) = some message := by
  refine unpad?_eq_some_iff.2 ⟨16 - message.length % 16, ?_, ?_, rfl⟩ <;> omega

/-! ## Chains -/

theorem decryptBlocks_encryptBlocks {c : BlockCipher} (hc : c.Undoes) (before : Block 16)
    (bs : List (Block 16)) : decryptBlocks c before (encryptBlocks c before bs) = bs := by
  induction bs generalizing before with
  | nil => rfl
  | cons b rest ih => rw [encryptBlocks, decryptBlocks, hc (b.xor before), Block.xor_xor_cancel, ih]

/-! ## Messages -/

theorem encrypt_of_blocks {c : BlockCipher} {iv : Iv} {message : Bytes} {bs : List (Block 16)}
    (hbs : ofBlocks bs = pad message) : encrypt c iv message = ofBlocks (encryptBlocks c iv bs) := by
  simp only [encrypt, ← hbs, blocks?_ofBlocks]

/-- A message is encrypted as the chain of the blocks that it is padded to; there is at least one. -/
theorem encrypt_eq_ofBlocks (c : BlockCipher) (iv : Iv) (message : Bytes) :
    ∃ bs, bs ≠ [] ∧ ofBlocks bs = pad message ∧
      encrypt c iv message = ofBlocks (encryptBlocks c iv bs) := by
  rcases exists_ofBlocks (length_pad_mod message) with ⟨bs, hbs⟩
  refine ⟨bs, ?_, hbs, encrypt_of_blocks hbs⟩
  rintro rfl
  exact pad_ne_nil message hbs.symm

/-- A message is decrypted to itself. -/
theorem decrypt?_encrypt {c : BlockCipher} (hc : c.Undoes) (iv : Iv) (message : Bytes) :
    decrypt? c iv (encrypt c iv message) = some message := by
  rcases encrypt_eq_ofBlocks c iv message with ⟨bs, -, hpad, hencrypt⟩
  simp [decrypt?, hencrypt, blocks?_ofBlocks, decryptBlocks_encryptBlocks hc, hpad, unpad?_pad]

/-- Even an empty message has a ciphertext, since padding adds at least a byte. -/
theorem encrypt_ne_nil (c : BlockCipher) (iv : Iv) (message : Bytes) : encrypt c iv message ≠ [] := by
  rcases encrypt_eq_ofBlocks c iv message with ⟨bs, hne, -, hencrypt⟩
  rw [hencrypt]
  cases bs with
  | nil => exact absurd rfl hne
  | cons b rest =>
      intro hnil
      have hlength := congrArg List.length hnil
      rw [encryptBlocks, ofBlocks_cons, List.length_append, Block.length_eq] at hlength
      simp at hlength

end Cbc
end PasswordVault
