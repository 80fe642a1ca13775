import PasswordVault.Aes

/-!
# Cipher block chaining

Messages of any length under a block cipher: the message is padded to whole blocks (`pad`), and each
block is combined with the ciphertext block before it. Padding is checked strictly when it is taken
off (`unpad?`), so a ciphertext has at most one reading under a key and initial vector.
-/

namespace PasswordVault

/-- The block that starts a chain. -/
abbrev Iv := Block 16

/-- A permutation of blocks and the permutation meant to undo it. -/
structure BlockCipher where
  encrypt : Block 16 → Block 16
  decrypt : Block 16 → Block 16

def Aes.cipher (key : Bytes) : BlockCipher :=
  let schedule := Aes.Schedule.ofKey key
  { encrypt := fun b => (schedule.encrypt (Aes.State.ofBlock b)).toBlock
    decrypt := fun b => (schedule.decrypt (Aes.State.ofBlock b)).toBlock }

namespace Block

def xor {n : Nat} (x y : Block n) : Block n :=
  ⟨Bytes.xor x.bytes y.bytes, by simp [Bytes.xor, x.length_eq, y.length_eq]⟩

end Block

namespace Cbc

/-! ## Padding -/

def blockLength : Nat := 16

/-- A message filled up to whole blocks: one to sixteen bytes, each telling their number. -/
def pad (message : Bytes) : Bytes :=
  let n := blockLength - message.length % blockLength
  message ++ List.replicate n (UInt8.ofNat n)

/-- A padded message without its padding, if that is well-formed. -/
def unpad? (padded : Bytes) : Option Bytes :=
  let n := (padded.getLast?.getD 0).toNat
  if 0 < n ∧ n ≤ blockLength ∧ n ≤ padded.length
      ∧ padded.drop (padded.length - n) = List.replicate n (UInt8.ofNat n) then
    some (padded.take (padded.length - n))
  else none

/-! ## Blocks -/

/-- The whole blocks that a byte string consists of, if it does. -/
def blocks? (b : Bytes) : Option (List (Block 16)) := (b.chunks blockLength).mapM (Block.ofBytes? 16)

def ofBlocks (blocks : List (Block 16)) : Bytes := blocks.flatMap Block.bytes

/-! ## Chaining -/

/-- Blocks encrypted, each combined with the ciphertext block before it. -/
def encryptBlocks (c : BlockCipher) : (before : Block 16) → List (Block 16) → List (Block 16)
  | _, [] => []
  | before, b :: rest =>
    let e := c.encrypt (b.xor before)
    e :: encryptBlocks c e rest

/-- Blocks decrypted, each combined with the ciphertext block before it. -/
def decryptBlocks (c : BlockCipher) : (before : Block 16) → List (Block 16) → List (Block 16)
  | _, [] => []
  | before, e :: rest => (c.decrypt e).xor before :: decryptBlocks c e rest

def encrypt (c : BlockCipher) (iv : Iv) (message : Bytes) : Bytes :=
  match blocks? (pad message) with
  | some blocks => ofBlocks (encryptBlocks c iv blocks)
  | none => []

/-- A ciphertext decrypted; none if it does not consist of whole blocks or its padding is wrong. -/
def decrypt? (c : BlockCipher) (iv : Iv) (data : Bytes) : Option Bytes := do
  let blocks ← blocks? data
  unpad? (ofBlocks (decryptBlocks c iv blocks))

end Cbc
end PasswordVault
