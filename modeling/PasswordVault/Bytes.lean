/-!
# Byte strings

Keys, envelopes and rows are made of byte strings. This module holds the type, the passage from
and to UTF-8 text, big-endian numbers, and byte strings of a fixed length.

* `Bytes.ofText` / `Bytes.text?`: UTF-8.
* `Bytes.ofNat` / `Bytes.toNat`: big-endian numbers of a given width.
* `Bytes.minimal`: the shortest big-endian form of a number.
* `Block n`: byte strings of length `n`.
-/

namespace PasswordVault

abbrev Bytes := List UInt8

namespace Bytes

/-! ## Text -/

def ofText (s : String) : Bytes := s.toUTF8.data.toList

def text? (b : Bytes) : Option String := String.fromUTF8? ⟨b.toArray⟩

/-! ## Big-endian numbers -/

/-- The number that `b` spells, most significant byte first. -/
def toNat (b : Bytes) : Nat := b.foldl (fun acc x => acc * 256 + x.toNat) 0

/-- The `width` low bytes of `n`, most significant first. -/
def ofNat : (width : Nat) → (n : Nat) → Bytes
  | 0, _ => []
  | width + 1, n => ofNat width (n / 256) ++ [UInt8.ofNat n]

/-- The number of bytes that `n` needs; zero needs none. -/
def widthOf (n : Nat) : Nat := if n = 0 then 0 else n.log2 / 8 + 1

/-- The shortest big-endian form of `n`, empty for zero. -/
def minimal (n : Nat) : Bytes := ofNat (widthOf n) n

/-- The `width` low bytes of `n`, least significant first. -/
def ofNatLE (width n : Nat) : Bytes := (ofNat width n).reverse

/-- The number that `b` spells, least significant byte first. -/
def toNatLE (b : Bytes) : Nat := toNat b.reverse

/-! ## Byte-wise operations -/

/-- Exclusive or, position by position, as long as both last. -/
def xor (a b : Bytes) : Bytes := List.zipWith (· ^^^ ·) a b

/-- Consecutive pieces of `size` bytes, at least one each; the last may be shorter. -/
def chunks (size : Nat) : Bytes → List Bytes
  | [] => []
  | x :: rest => (x :: rest.take (size - 1)) :: chunks size (rest.drop (size - 1))
termination_by b => b.length
decreasing_by simp only [List.length_drop, List.length_cons]; omega

@[simp] theorem length_ofNat (width n : Nat) : (ofNat width n).length = width := by
  induction width generalizing n with
  | zero => rfl
  | succ width ih => simp [ofNat, ih]

end Bytes

/-! ## Fixed lengths -/

/-- A byte string of length `n`. -/
structure Block (n : Nat) where
  bytes : Bytes
  length_eq : bytes.length = n
deriving DecidableEq

namespace Block

/-- `b` as a block of length `n`, if it has that length. -/
def ofBytes? (n : Nat) (b : Bytes) : Option (Block n) :=
  if h : b.length = n then some ⟨b, h⟩ else none

/-- `b` cut, or filled with zero bytes, to length `n`. -/
def fit (n : Nat) (b : Bytes) : Block n :=
  ⟨(b ++ List.replicate n 0).take n, by simp⟩

@[simp] theorem ofBytes?_bytes {n : Nat} (b : Block n) : ofBytes? n b.bytes = some b := by
  simp [ofBytes?, b.length_eq]

end Block

end PasswordVault
