import PasswordVault.Proofs.Aes.Chaining
import PasswordVault.Proofs.Outcome
import Mathlib.Data.Finite.Prod

/-!
# Cipher block chaining — which ciphertexts are decrypted

There are finitely many blocks, so a block cipher that undoes itself is a permutation of them. A chain of
blocks is therefore encrypted to what it was decrypted from, and padding is taken off only where it is what
would be put on: the data that are decrypted to a message are the ones that the message is encrypted to.

- `Cbc.decrypt?_eq_some_iff`: what is decrypted to a message;
- `Cbc.decrypt?_eq_none_iff`: what is not decrypted;
- `Cbc.length_encrypt`: how long the data are.
-/

namespace PasswordVault

/-! ## Blocks -/

def Block.byte {n : Nat} (b : Block n) (i : Fin n) : UInt8 := b.bytes.get (i.cast b.length_eq.symm)

theorem Block.byte_injective {n : Nat} : Function.Injective (@Block.byte n) := by
  intro x y h
  have hlength : x.bytes.length = y.bytes.length := x.length_eq.trans y.length_eq.symm
  refine Block.bytes_injective (List.ext_get hlength fun i hx _ => ?_)
  exact congrFun h ⟨i, x.length_eq ▸ hx⟩

instance Block.finite (n : Nat) : Finite (Block n) := by
  have hbyte : Finite UInt8 := Finite.of_injective UInt8.toFin fun _ _ => UInt8.toFin_inj.1
  exact Finite.of_injective _ Block.byte_injective

/-- Encryption of a block undoes its decryption, too. -/
theorem BlockCipher.Undoes.encrypt_decrypt {c : BlockCipher} (hc : c.Undoes) (b : Block 16) :
    c.encrypt (c.decrypt b) = b := by
  have hinjective : Function.Injective c.encrypt := Function.LeftInverse.injective hc
  obtain ⟨a, rfl⟩ := Finite.injective_iff_surjective.1 hinjective b
  rw [hc a]

/-- Whether a block ends as a padded message does: with one to sixteen bytes that tell their number. -/
def Block.EndsInPadding (b : Block 16) : Prop :=
  ∃ n, 0 < n ∧ n ≤ 16 ∧ b.bytes.drop (16 - n) = List.replicate n (UInt8.ofNat n)

namespace Cbc

variable {c : BlockCipher} {iv : Iv} {data message : Bytes}

/-! ## Whole blocks -/

theorem length_ofBlocks (bs : List (Block 16)) : (ofBlocks bs).length = 16 * bs.length := by
  induction bs with
  | nil => rfl
  | cons b rest ih =>
      rw [ofBlocks_cons, List.length_append, b.length_eq, ih, List.length_cons]
      omega

theorem ofBlocks_concat (bs : List (Block 16)) (b : Block 16) :
    ofBlocks (bs ++ [b]) = ofBlocks bs ++ b.bytes := by
  simp [ofBlocks]

/-- The blocks that a byte string consists of are the ones that it is written from. -/
theorem blocks?_eq_some_iff {b : Bytes} {bs : List (Block 16)} : blocks? b = some bs ↔ b = ofBlocks bs := by
  constructor
  · intro h
    have hchunks : Bytes.chunks 16 b = bs.map Block.bytes :=
      eq_map_of_mapM_eq_some (fun _ _ hblock => (Block.ofBytes?_eq_some_iff.1 hblock).symm) h
    rw [ofBlocks, List.flatMap_def, ← hchunks, Bytes.flatten_chunks]
  · rintro rfl
    exact blocks?_ofBlocks bs

/-- A byte string consists of whole blocks exactly if its length says so. -/
theorem blocks?_eq_none_iff {b : Bytes} : blocks? b = none ↔ b.length % 16 ≠ 0 := by
  constructor
  · intro h hlength
    obtain ⟨bs, rfl⟩ := exists_ofBlocks hlength
    rw [blocks?_ofBlocks] at h
    cases h
  · intro h
    refine Option.eq_none_iff_forall_ne_some.2 fun bs hbs => h ?_
    rw [blocks?_eq_some_iff.1 hbs, length_ofBlocks]
    omega

/-! ## Padding -/

/-- Padding is taken off whole blocks exactly where it is what would be put on. -/
theorem unpad?_eq_some_iff_pad {padded : Bytes} (hlength : padded.length % 16 = 0) :
    unpad? padded = some message ↔ padded = pad message := by
  constructor
  · intro h
    obtain ⟨n, hpos, hle, rfl⟩ := unpad?_eq_some_iff.1 h
    rw [List.length_append, List.length_replicate] at hlength
    have hcount : 16 - message.length % 16 = n := by omega
    rw [pad, blockLength, hcount]
  · rintro rfl
    exact unpad?_pad message

/-- What stands in front of the last block does not matter to whether there is padding. -/
theorem unpad?_append_eq_none_iff (front : Bytes) (b : Block 16) :
    unpad? (front ++ b.bytes) = none ↔ ¬ b.EndsInPadding := by
  rw [Option.eq_none_iff_forall_ne_some, ← not_exists, not_iff_not]
  constructor
  · rintro ⟨message, h⟩
    obtain ⟨n, hpos, hle, happend⟩ := unpad?_eq_some_iff.1 h
    have hlength := congrArg List.length happend
    rw [List.length_append, List.length_append, List.length_replicate, b.length_eq] at hlength
    have hdrop := congrArg (List.drop message.length) happend
    rw [List.drop_left, List.drop_append, List.drop_of_length_le (by omega), List.nil_append] at hdrop
    refine ⟨n, hpos, hle, ?_⟩
    rwa [show 16 - n = message.length - front.length by omega]
  · rintro ⟨n, hpos, hle, hdrop⟩
    refine ⟨front ++ b.bytes.take (16 - n), unpad?_eq_some_iff.2 ⟨n, hpos, hle, ?_⟩⟩
    rw [List.append_assoc, ← hdrop, List.take_append_drop]

/-! ## Chains -/

theorem length_encryptBlocks (c : BlockCipher) (before : Block 16) (bs : List (Block 16)) :
    (encryptBlocks c before bs).length = bs.length := by
  induction bs generalizing before with
  | nil => rfl
  | cons b rest ih => rw [encryptBlocks, List.length_cons, ih, List.length_cons]

theorem encryptBlocks_decryptBlocks (hc : c.Undoes) (before : Block 16) (bs : List (Block 16)) :
    encryptBlocks c before (decryptBlocks c before bs) = bs := by
  induction bs generalizing before with
  | nil => rfl
  | cons b rest ih => rw [decryptBlocks, encryptBlocks, Block.xor_xor_cancel, hc.encrypt_decrypt, ih]

/-- The last block of a chain is combined with the one before it. -/
theorem decryptBlocks_concat (c : BlockCipher) (before : Block 16) (bs : List (Block 16)) (b : Block 16) :
    decryptBlocks c before (bs ++ [b]) =
      decryptBlocks c before bs ++ [(c.decrypt b).xor ((before :: bs).getLast (List.cons_ne_nil _ _))] := by
  induction bs generalizing before with
  | nil => rfl
  | cons e rest ih =>
      rw [List.cons_append, decryptBlocks, ih, decryptBlocks, List.cons_append, List.getLast_cons_cons]

/-! ## Messages -/

/-- The data that are decrypted to a message are the ones that it is encrypted to. -/
theorem decrypt?_eq_some_iff (hc : c.Undoes) :
    decrypt? c iv data = some message ↔ data = encrypt c iv message := by
  constructor
  · intro h
    obtain ⟨bs, hbs, hunpad⟩ := Option.bind_eq_some_iff.1 h
    have hlength : (ofBlocks (decryptBlocks c iv bs)).length % 16 = 0 := by
      rw [length_ofBlocks, Nat.mul_mod_right]
    have hpad := (unpad?_eq_some_iff_pad hlength).1 hunpad
    rw [encrypt_of_blocks hpad, encryptBlocks_decryptBlocks hc, blocks?_eq_some_iff.1 hbs]
  · rintro rfl
    exact decrypt?_encrypt hc iv message

/-- A message is filled up to whole blocks, and encryption keeps the length. -/
theorem length_encrypt (c : BlockCipher) (iv : Iv) (message : Bytes) :
    (encrypt c iv message).length = 16 * (message.length / 16 + 1) := by
  obtain ⟨bs, -, hpad, hencrypt⟩ := encrypt_eq_ofBlocks c iv message
  rw [hencrypt, length_ofBlocks, length_encryptBlocks, ← length_ofBlocks, hpad, length_pad]

/-- The last block of data, decrypted and combined with the block before it. -/
def lastBlock (c : BlockCipher) (iv : Iv) (data : Bytes) : Block 16 :=
  (c.decrypt (Block.fit 16 (data.drop (data.length - 16)))).xor
    (Block.fit 16 ((iv.bytes ++ data).drop (data.length - 16)))

/-- The last block of a chain is decrypted from the last two blocks of the ciphertext alone. -/
theorem lastBlock_ofBlocks (c : BlockCipher) (iv : Iv) (bs : List (Block 16)) (b : Block 16) :
    lastBlock c iv (ofBlocks (bs ++ [b])) =
      (c.decrypt b).xor ((iv :: bs).getLast (List.cons_ne_nil _ _)) := by
  have hlength : (ofBlocks (bs ++ [b])).length - 16 = (ofBlocks bs).length := by
    rw [ofBlocks_concat, List.length_append, b.length_eq, Nat.add_sub_cancel]
  have hlast : Block.fit 16 ((ofBlocks (bs ++ [b])).drop (ofBlocks bs).length) = b := by
    rw [ofBlocks_concat, List.drop_left, ← List.append_nil b.bytes, Block.fit_append]
  -- The initial vector stands in front of the blocks, so what is before the last one ends in its neighbour.
  have hbefore : iv.bytes ++ ofBlocks (bs ++ [b]) =
      ofBlocks (iv :: bs).dropLast ++
        (((iv :: bs).getLast (List.cons_ne_nil _ _)).bytes ++ b.bytes) := by
    rw [← List.append_assoc, ← ofBlocks_concat, List.dropLast_append_getLast, ← ofBlocks_concat,
      List.cons_append, ofBlocks_cons]
  have hfront : (ofBlocks (iv :: bs).dropLast).length = (ofBlocks bs).length := by
    rw [length_ofBlocks, length_ofBlocks, List.length_dropLast, List.length_cons, Nat.add_sub_cancel]
  rw [lastBlock, hlength, hlast, hbefore, ← hfront, List.drop_left, Block.fit_append]

/-- Data are not decrypted exactly if they do not consist of whole blocks, at least one, or if their last
block does not end in padding. -/
theorem decrypt?_eq_none_iff :
    decrypt? c iv data = none ↔
      data = [] ∨ data.length % 16 ≠ 0 ∨ ¬ (lastBlock c iv data).EndsInPadding := by
  by_cases hlength : data.length % 16 = 0
  · obtain ⟨bs, rfl⟩ := exists_ofBlocks hlength
    rw [decrypt?, blocks?_ofBlocks, Option.bind_eq_bind, Option.bind_some]
    cases bs using List.reverseRecOn with
    | nil => exact iff_of_true rfl (.inl rfl)
    | append_singleton front b =>
        have hne : ofBlocks (front ++ [b]) ≠ [] := by
          rw [ofBlocks_concat]
          exact List.append_ne_nil_of_right_ne_nil _ b.bytes_ne_nil
        rw [lastBlock_ofBlocks, decryptBlocks_concat, ofBlocks_concat, unpad?_append_eq_none_iff]
        simp only [hne, hlength, ne_eq, not_true_eq_false, false_or]
  · rw [decrypt?, blocks?_eq_none_iff.2 hlength]
    exact iff_of_true rfl (.inr (.inl hlength))

end Cbc
end PasswordVault
