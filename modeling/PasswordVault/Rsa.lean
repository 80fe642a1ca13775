import PasswordVault.Arithmetic.Prime
import PasswordVault.Der.PrivateKeyInfo

/-!
# RSA keys

A public key is a modulus and an exponent; a private key adds the private exponent and the two
factors of the modulus. A private key is accepted when its parts fit together; that its factors are
prime is not checked.

* `PublicKey.decode?`, `PrivateKey.decode?`: keys from their documents.
* `PublicKey.apply`, `PrivateKey.invert?`: the two operations on residues.
* `PrivateKey.generate?`: a new key.
-/

namespace PasswordVault
namespace Rsa

def oid : Bytes := [0x2a, 0x86, 0x48, 0x86, 0xf7, 0x0d, 0x01, 0x01, 0x01]

def algorithm : Der.Algorithm := ⟨oid, some ⟨Der.nullTag, []⟩⟩

structure PublicKey where
  n : Nat
  e : Nat
deriving DecidableEq

/-- A public key with its private exponent and the factors of its modulus. -/
structure PrivateKey extends PublicKey where
  d : Nat
  p : Nat
  q : Nat
deriving DecidableEq

def bitLength (n : Nat) : Nat := if n = 0 then 0 else n.log2 + 1

namespace PublicKey

def maxExponent : Nat := 0x1ffffffff

/-- The greatest length of a modulus in a public key document. -/
def maxBits : Nat := 4096

/-- Whether the modulus is odd and the exponent is odd, not too great and below the modulus. -/
def isValid (k : PublicKey) : Bool :=
  k.e < k.n && k.n % 2 = 1 && k.e % 2 = 1 && 2 ≤ k.e && k.e ≤ maxExponent

def size (k : PublicKey) : Nat := Bytes.widthOf k.n

def apply (k : PublicKey) (m : Nat) : Nat := Modular.pow m k.e k.n

def decode? (der : Bytes) : Option PublicKey := do
  let (found, key) ← Der.publicKeyInfo? der
  if found ≠ algorithm then none
  let content ← Der.only? Der.sequenceTag key
  match ← Der.naturals? 2 content with
  | [n, e] => if bitLength n ≤ maxBits ∧ isValid ⟨n, e⟩ then some ⟨n, e⟩ else none
  | _ => none

end PublicKey

namespace PrivateKey

def isValid (k : PrivateKey) : Bool :=
  k.toPublicKey.isValid && 1 < k.p && 1 < k.q && k.p * k.q = k.n
    && k.e * k.d % (k.p - 1) = 1 % (k.p - 1) && k.e * k.d % (k.q - 1) = 1 % (k.q - 1)

/-- The inverse of the second factor modulo the first. -/
def coefficient? (k : PrivateKey) : Option Nat := Modular.inverse? k.q k.p

/-- The private operation, computed modulo each factor where they are prime to each other. The result
is given only if the public operation takes it back. -/
def invert? (k : PrivateKey) (c : Nat) : Option Nat :=
  let m := match k.coefficient? with
    | some inverse =>
      let m1 := Modular.pow c (k.d % (k.p - 1)) k.p
      let m2 := Modular.pow c (k.d % (k.q - 1)) k.q
      let h := (m1 + (k.p - m2 % k.p)) * inverse % k.p
      h * k.q + m2
    | none => Modular.pow c k.d k.n
  if k.toPublicKey.apply m = c then some m else none

def ofNumbers? (key : Bytes) : Option PrivateKey := do
  let content ← Der.only? Der.sequenceTag key
  match ← Der.naturals? 9 content with
  | [0, n, e, d, p, q, _, _, _] =>
    let k : PrivateKey := ⟨⟨n, e⟩, d, p, q⟩
    if k.isValid then some k else none
  | _ => none

def decode? (der : Bytes) : Option PrivateKey := do
  let info ← Der.PrivateKeyInfo.decode? der
  if info.algorithm = algorithm then ofNumbers? info.key else none

/-- The private key document of a key, unless its factors have a common divisor or the document would be
too long. -/
def encode? (k : PrivateKey) : Option Bytes := do
  let coefficient ← k.coefficient?
  let numbers := [0, k.n, k.e, k.d, k.p, k.q, k.d % (k.p - 1), k.d % (k.q - 1), coefficient]
  let der := Der.PrivateKeyInfo.encode ⟨algorithm, Der.sequence (numbers.map Der.natural), none⟩
  if der.length ≤ Der.maxLength then some der else none

/-! ## New keys -/

def newExponent : Nat := 65537

/-- How many candidates for a prime are tried. -/
def primeTries : Nat := 100000

/-- An odd number of the given length with its two top bits set, from random bytes. -/
def candidate (bits : Nat) (random : Bytes) : Nat :=
  -- With two top bits set in both factors the modulus has its full length.
  (Bytes.toNat random ||| Nat.pow 2 (bits - 1) ||| Nat.pow 2 (bits - 2) ||| 1) % Nat.pow 2 bits

/-- A key of the given length from random bytes for either factor. -/
def generate? (bits : Nat) (random₁ random₂ : Bytes) : Option PrivateKey := do
  let half := bits / 2
  let p ← Prime.next? newExponent primeTries (candidate half random₁)
  let q ← Prime.next? newExponent primeTries (candidate (bits - half) random₂)
  let d ← Modular.inverse? newExponent ((p - 1) * (q - 1))
  let k : PrivateKey := ⟨⟨p * q, newExponent⟩, d, p, q⟩
  if p ≠ q ∧ k.isValid then some k else none

end PrivateKey
end Rsa
end PasswordVault
