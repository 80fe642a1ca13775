import PasswordVault.Arithmetic.Modular
import PasswordVault.Der.PrivateKeyInfo
import PasswordVault.Digest.Sha512

/-!
# Ed25519 keys

A private key is a seed of 32 bytes; the public key is the point that the digest of the seed leads to
on the twisted Edwards curve. The private key document holds both when it is written.
-/

namespace PasswordVault
namespace Ed25519

/-! ## The curve -/

def fieldOrder : Nat := Nat.pow 2 255 - 19

def curveConstant : Nat :=
  37095705934669439343138083508754565189542113879843219016388785533085940283555

structure Point where
  x : Nat
  y : Nat
  z : Nat
  t : Nat

namespace Point

def neutral : Point := ⟨0, 1, 1, 0⟩

def base : Point :=
  let x := 15112221349535400772501151409588531511454012693041857206046113283949847762202
  let y := 46316835694926478169428394003475163141307993866256225615783033603165251855960
  ⟨x, y, 1, x * y % fieldOrder⟩

/-- The sum of two points. -/
def add (p q : Point) : Point :=
  let m := fieldOrder
  let a := (p.y + m - p.x) * (q.y + m - q.x) % m
  let b := (p.y + p.x) * (q.y + q.x) % m
  let c := 2 * curveConstant * (p.t * q.t % m) % m
  let d := 2 * p.z * q.z % m
  let e := b + m - a
  let f := d + m - c
  let g := d + c
  let h := b + a
  ⟨e * f % m, g * h % m, f * g % m, e * h % m⟩

def multiple (n : Nat) (p : Point) : Point :=
  if n = 0 then neutral
  else
    let rest := multiple (n / 2) (p.add p)
    if n % 2 = 1 then p.add rest else rest
termination_by n

/-- The 32 bytes of a point: the second coordinate, and the parity of the first in the top bit. -/
def encode (p : Point) : Bytes :=
  -- By Fermat's little theorem this power is the inverse.
  let inverse := Modular.pow p.z (fieldOrder - 2) fieldOrder
  let x := p.x * inverse % fieldOrder
  let y := p.y * inverse % fieldOrder
  Bytes.ofNatLE 32 (y + x % 2 * Nat.pow 2 255)

end Point

/-! ## Keys -/

def scalar (seed : Bytes) : Nat :=
  -- The top bit is always set and the three lowest bits never.
  Bytes.toNatLE ((Sha512.hash seed).take 32) % Nat.pow 2 254 / 8 * 8 + Nat.pow 2 254

def publicKey (seed : Bytes) : Bytes := (Point.base.multiple (scalar seed)).encode

def algorithm : Der.Algorithm := ⟨[0x2b, 0x65, 0x70], none⟩

/-- The seed in a private key document. A public key in it must be that of the seed. -/
def decode? (der : Bytes) : Option (Block 32) := do
  let info ← Der.PrivateKeyInfo.decode? der
  if info.algorithm ≠ algorithm then none
  let seed ← Der.only? Der.octetStringTag info.key
  let block ← Block.ofBytes? 32 seed
  match info.publicKey with
  | none => some block
  | some found => if found = publicKey seed then some block else none

def encode (seed : Block 32) : Bytes :=
  Der.PrivateKeyInfo.encode
    ⟨algorithm, Der.element Der.octetStringTag seed.bytes, some (publicKey seed.bytes)⟩

end Ed25519
end PasswordVault
