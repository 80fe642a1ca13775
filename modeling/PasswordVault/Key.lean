import PasswordVault.Bytes
import PasswordVault.CryptoError

/-!
# Keys

* `MasterKey`: what a password is stretched to, with the version of the derivation.
* `SymmetricKey`: 32 bytes, or 64 bytes whose second half authenticates.
* `AsymmetricKey`: the document of an RSA key, read only when it is used.

None of them shows its bytes when it is described.
-/

namespace PasswordVault

/-! ## Master keys -/

/-- The version of a key derivation. Any number may be stored; two are supported. -/
structure KdfVersion where
  raw : Int
deriving DecidableEq, Repr

namespace KdfVersion

def v0 : KdfVersion := ⟨0⟩

def v1 : KdfVersion := ⟨1⟩

def isSupported (v : KdfVersion) : Bool := v = v0 ∨ v = v1

end KdfVersion

/-- A master key with the version of its derivation. -/
structure MasterKey where
  version : KdfVersion
  bytes : Bytes
deriving DecidableEq

/-- A description of a master key that keeps its bytes secret. -/
def MasterKey.describe (k : MasterKey) : String :=
  "MasterKey \x7b version: MasterKdfVersion(" ++ toString k.version.raw ++ "), len: "
    ++ toString k.bytes.length ++ " \x7d"

/-! ## Symmetric keys -/

/-- A key of 32 bytes, or of 64 bytes: an encryption half and a half that authenticates. -/
structure SymmetricKey where
  bytes : Bytes
  length_eq : bytes.length = 32 ∨ bytes.length = 64
deriving DecidableEq

namespace SymmetricKey

def ofBytes (b : Bytes) : Except CryptoError SymmetricKey :=
  if h : b.length = 32 ∨ b.length = 64 then .ok ⟨b, h⟩ else .error (.invalidKeyLength 64 b.length)

def ofParts (enc mac : Bytes) : Except CryptoError SymmetricKey :=
  if he : enc.length = 32 then
    if hm : mac.length = 32 then .ok ⟨enc ++ mac, .inr (by simp [he, hm])⟩
    else .error (.invalidKeyLength 32 mac.length)
  else .error (.invalidKeyLength 32 enc.length)

def hasMac (k : SymmetricKey) : Bool := k.bytes.length = 64

def halves? (k : SymmetricKey) : Option (Bytes × Bytes) :=
  if k.hasMac then some (k.bytes.take 32, k.bytes.drop 32) else none

/-- A description of a key that keeps its bytes secret. -/
def describe (k : SymmetricKey) : String :=
  "SymmetricCryptoKey \x7b len: " ++ toString k.bytes.length ++ " \x7d"

end SymmetricKey

/-! ## Asymmetric keys -/

/-- The document of a private or a public RSA key. -/
inductive AsymmetricKey where
  | privateKey (der : Bytes)
  | publicKey (der : Bytes)
deriving DecidableEq

namespace AsymmetricKey

def isPrivate : AsymmetricKey → Bool
  | .privateKey _ => true
  | .publicKey _ => false

/-- A description of a key that shows no more than the length of a public one. -/
def describe : AsymmetricKey → String
  | .privateKey _ => "AsymmetricCryptoKey::Private(..)"
  | .publicKey der => s!"AsymmetricCryptoKey::Public({der.length} bytes)"

end AsymmetricKey
end PasswordVault
