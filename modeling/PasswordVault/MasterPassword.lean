import PasswordVault.Generator
import PasswordVault.Json.Printer
import PasswordVault.Key

/-!
# The local master password

A password is proved against a stored hash before the master key is derived from it. The version of
the stored hash selects the derivation and its fixed costs.
-/

namespace PasswordVault
namespace MasterPassword

/-- The stored proof of a password. -/
structure Proof where
  version : KdfVersion
  hash : Bytes
deriving DecidableEq

/-- A stored proof as JSON, its hash as a list of numbers. -/
def Proof.toJson (h : Proof) : Json :=
  .object [("version", .int h.version.raw), ("hash", .array (h.hash.map fun b => .nat b.toNat))]

def saltLength : Nat := 64

def keyLength : Nat := 32

def hashIterations : Nat := 100000

def keyIterations : Nat := 10000

def argonCosts : Argon2.Costs := ⟨3, 65536, 4⟩

variable {σ : Type}

def newSalt (g : Generator σ) : StateM σ Bytes := g.seed saltLength

/-- A password stretched with a salt as a version asks, `iterations` being those of PBKDF2. -/
def stretch (g : Generator σ) (version : KdfVersion) (iterations : Nat) (password salt : Bytes) :
    Attempt σ Bytes :=
  if version = KdfVersion.v0 then g.pbkdf2 password salt iterations keyLength
  else if version = KdfVersion.v1 then g.argon2 .id password salt argonCosts
  else throw (.unsupportedKdfVersion version.raw)

def hash (g : Generator σ) (password salt : Bytes) (version : KdfVersion) : Attempt σ Proof := do
  return ⟨version, ← stretch g version hashIterations password salt⟩

/-- The master key of a password, salted with its proof. -/
def key (g : Generator σ) (password : Bytes) (proof : Proof) : Attempt σ MasterKey := do
  return ⟨proof.version, ← stretch g proof.version keyIterations password proof.hash⟩

/-- An unsupported version counts as a wrong password: the user can do nothing but try another. -/
def asMismatch : CryptoError → CryptoError
  | .unsupportedKdfVersion _ => .passwordMismatch
  | other => other

/-- The master key of a password that its stored proof confirms. -/
def confirm (g : Generator σ) (password salt : Bytes) (expected : Proof) : Attempt σ MasterKey := do
  let actual ← (hash g password salt expected.version).adapt asMismatch
  if actual.hash ≠ expected.hash then throw .passwordMismatch
  (key g password actual).adapt asMismatch

end MasterPassword
end PasswordVault
