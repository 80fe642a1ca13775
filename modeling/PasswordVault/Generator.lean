import PasswordVault.Bytes.Hex
import PasswordVault.CryptoError
import PasswordVault.Entropy
import PasswordVault.Digest.Sha1
import PasswordVault.KeyDerivation.Argon2
import PasswordVault.KeyDerivation.Hkdf
import PasswordVault.KeyDerivation.Pbkdf2

/-!
# Key material

Key derivation functions with their limits, and the `Generator` through which key pipelines reach
them. A generator may fail and may keep a state, which survives a failure: `Generator.standard` draws
seeds from a row of random bytes, and `Generator.recording` notes every call of another generator.
-/

namespace PasswordVault

/-! ## Derivation functions -/

namespace Hkdf

/-- A seed extracted and expanded; there is a limit to the length. -/
def derive (seed : Bytes) (salt info : Option Bytes) (length : Nat) : Except CryptoError Bytes :=
  if maxLength < length then
    .error (.kdfFailed "HKDF expand failed: invalid number of blocks, too large output")
  else .ok (expand (extract (salt.getD []) seed) (info.getD []) length)

/-- A pseudorandom key expanded; it must have 32 bytes, and there is a limit to the length. -/
def deriveExpanded (key info : Bytes) (length : Nat) : Except CryptoError Bytes :=
  if key.length < 32 then
    .error (.kdfFailed "Invalid HKDF key: invalid pseudorandom key length, too short")
  else if maxLength < length then
    .error (.kdfFailed "HKDF expand failed: invalid number of blocks, too large output")
  else .ok (expand key info length)

end Hkdf

namespace Pbkdf2

/-- A password stretched; at least one iteration is needed. -/
def stretch (seed salt : Bytes) (iterations length : Nat) : Except CryptoError Bytes :=
  if iterations < 1 then .error (.invalidKdfParams "PBKDF2 needs at least one iteration")
  else .ok (derive seed salt iterations length)

end Pbkdf2

namespace Argon2

/-- The memory in KiB that a derivation can be given. -/
def availableMemory : Nat := 16 * 1024 * 1024

/-- A password stretched with memory: the costs are checked, then the memory is reserved, then the
salt is checked. -/
def stretch (variant : Variant) (seed salt : Bytes) (c : Costs) : Except CryptoError Bytes :=
  match c.fault? with
  | some fault => .error (.invalidKdfParams ("Argon2: " ++ fault.message))
  | none =>
    if availableMemory < c.memory then .error (.outOfMemoryKdf c.memory)
    else if salt.length < minSaltLength then .error (.kdfFailed "Argon2 hashing failed: salt is too short")
    else .ok (derive variant seed salt c)

end Argon2

/-! ## Generators -/

/-- A step that may fail and keeps its state when it does. -/
abbrev Attempt (σ : Type) := ExceptT CryptoError (StateM σ)

/-- A source of digests, derived keys and random bytes. -/
structure Generator (σ : Type) where
  hkdfExpand : (key info : Bytes) → (length : Nat) → Attempt σ Bytes
  pbkdf2 : (seed salt : Bytes) → (iterations length : Nat) → Attempt σ Bytes
  argon2 : (variant : Argon2.Variant) → (seed salt : Bytes) → (costs : Argon2.Costs) → Attempt σ Bytes
  sha256 : (data : Bytes) → StateM σ Bytes
  seed : (length : Nat) → StateM σ Bytes

namespace Generator

def lift {σ α : Type} (r : Except CryptoError α) : Attempt σ α := ExceptT.mk (pure r)

def standard : Generator Entropy where
  hkdfExpand key info length := lift (Hkdf.deriveExpanded key info length)
  pbkdf2 seed salt iterations length := lift (Pbkdf2.stretch seed salt iterations length)
  argon2 variant seed salt costs := lift (Argon2.stretch variant seed salt costs)
  sha256 data := pure (Sha256.hash data)
  seed length := Entropy.draw length

inductive Call where
  | seed (length : Nat)
  | pbkdf2 (seed salt : Bytes) (iterations length : Nat)
  | argon2 (variant : Argon2.Variant) (seed salt : Bytes) (costs : Argon2.Costs)
  | hkdfExpand (key info : Bytes) (length : Nat)
  | sha256 (data : Bytes)
deriving DecidableEq

def noting {σ α : Type} (call : Call) (step : StateM σ α) : StateM (σ × List Call) α := fun (s, calls) =>
  let (a, s) := step s
  (a, (s, calls ++ [call]))

/-- A generator that notes its calls in order, those that fail included. -/
def recording {σ : Type} (g : Generator σ) : Generator (σ × List Call) where
  hkdfExpand key info length :=
    ExceptT.mk (noting (.hkdfExpand key info length) (g.hkdfExpand key info length).run)
  pbkdf2 seed salt iterations length :=
    ExceptT.mk (noting (.pbkdf2 seed salt iterations length) (g.pbkdf2 seed salt iterations length).run)
  argon2 variant seed salt costs :=
    ExceptT.mk (noting (.argon2 variant seed salt costs) (g.argon2 variant seed salt costs).run)
  sha256 data := noting (.sha256 data) (g.sha256 data)
  seed length := noting (.seed length) (g.seed length)

end Generator

/-! ## Other random values -/

namespace Entropy

/-- A random identifier of version 4: sixteen bytes in hexadecimal, in five groups. -/
def uuid : StateM Entropy String := do
  let b ← draw 16
  let marked := b.mapIdx fun i x =>
    if i = 6 then (x &&& 0x0f) ||| 0x40 else if i = 8 then (x &&& 0x3f) ||| 0x80 else x
  let group (first count : Nat) := Bytes.toHex ((marked.drop first).take count)
  return group 0 4 ++ "-" ++ group 4 2 ++ "-" ++ group 6 2 ++ "-" ++ group 8 2 ++ "-" ++ group 10 6

/-- A random number from `first` up to but without `end_`. -/
def numberBetween (first end_ : Nat) : StateM Entropy Nat := do
  let b ← draw 16
  return first + Bytes.toNat b % (end_ - first)

end Entropy
end PasswordVault
