import PasswordVault.Digest.Sha1
import PasswordVault.Digest.Sha256
import PasswordVault.Rsa

/-!
# RSA with optimal asymmetric encryption padding

Short messages under an RSA key. The padding has an empty label, and masks are generated with the
digest of the padding. Encryption takes the random seed as an argument.
-/

namespace PasswordVault
namespace Rsa
namespace Oaep

/-- A digest with the length of its results. -/
structure Digest where
  size : Nat
  hash : Bytes → Bytes
  length_hash : ∀ b, (hash b).length = size

def sha1 : Digest := ⟨20, Sha1.hash, Sha1.length_hash⟩

def sha256 : Digest := ⟨32, Sha256.hash, Sha256.length_hash⟩

/-- A mask of the given length that a seed generates. -/
def mask (h : Digest) (seed : Bytes) (length : Nat) : Bytes :=
  ((List.range ((length + h.size - 1) / h.size)).flatMap fun i => h.hash (seed ++ Bytes.ofNat 4 i)).take
    length

/-- Why a message can not be encrypted or decrypted. -/
inductive Fault where
  | messageTooLong
  | decryption
  | internal
deriving DecidableEq

def Fault.message : Fault → String
  | .messageTooLong => "message too long"
  | .decryption => "decryption error"
  | .internal => "internal error"

/-- A message padded to `size` bytes with a seed. -/
def pad (h : Digest) (size : Nat) (seed message : Bytes) : Except Fault Bytes :=
  if size < message.length + 2 * h.size + 2 then .error .messageTooLong
  else
    let zeros := List.replicate (size - message.length - 2 * h.size - 2) 0
    let data := h.hash [] ++ zeros ++ 1 :: message
    let maskedData := Bytes.xor data (mask h seed data.length)
    let maskedSeed := Bytes.xor seed (mask h maskedData h.size)
    .ok (0 :: (maskedSeed ++ maskedData))

/-- The message after zeros and a one byte. -/
def afterZeros? : Bytes → Option Bytes
  | [] => none
  | b :: rest => if b = 0 then afterZeros? rest else if b = 1 then some rest else none

/-- The message of a padded byte string. -/
def unpad (h : Digest) (padded : Bytes) : Except Fault Bytes :=
  match padded with
  | [] => .error .decryption
  | top :: payload =>
    let maskedSeed := payload.take h.size
    let maskedData := payload.drop h.size
    let seed := Bytes.xor maskedSeed (mask h maskedData h.size)
    let data := Bytes.xor maskedData (mask h seed maskedData.length)
    if top = 0 ∧ data.take h.size = h.hash [] then
      match afterZeros? (data.drop h.size) with
      | some message => .ok message
      | none => .error .decryption
    else .error .decryption

end Oaep

/-- A message encrypted under a public key with a random seed. -/
def PublicKey.encrypt (k : PublicKey) (h : Oaep.Digest) (seed message : Bytes) :
    Except Oaep.Fault Bytes := do
  let padded ← Oaep.pad h k.size seed message
  return Bytes.ofNat k.size (k.apply (Bytes.toNat padded))

def PrivateKey.decrypt (k : PrivateKey) (h : Oaep.Digest) (data : Bytes) : Except Oaep.Fault Bytes := do
  let c := Bytes.toNat data
  if data.length ≠ k.size ∨ k.n ≤ c then .error .decryption
  match k.invert? c with
  | none => .error .internal
  | some m => if k.size < 2 * h.size + 2 then .error .decryption else Oaep.unpad h (Bytes.ofNat k.size m)

end Rsa
end PasswordVault
