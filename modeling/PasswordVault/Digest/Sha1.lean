import PasswordVault.Bytes
import PasswordVault.Digest.Sha256

/-!
# SHA-1

The digest of a byte string in blocks of 64 bytes; a message is closed as for SHA-256. It serves
older RSA envelopes.
-/

namespace PasswordVault
namespace Sha1

/-- The chaining value: five words. -/
structure State where
  a : UInt32
  b : UInt32
  c : UInt32
  d : UInt32
  e : UInt32
deriving DecidableEq

def State.start : State := ⟨0x67452301, 0xefcdab89, 0x98badcfe, 0x10325476, 0xc3d2e1f0⟩

@[inline] def rotl (x : UInt32) (n : UInt32) : UInt32 := (x <<< n) ||| (x >>> (32 - n))

/-- The mixing function and the constant of a round. -/
def mix (round : Nat) (b c d : UInt32) : UInt32 :=
  if round < 20 then ((b &&& c) ||| (~~~b &&& d)) + 0x5a827999
  else if round < 40 then (b ^^^ c ^^^ d) + 0x6ed9eba1
  else if round < 60 then ((b &&& c) ||| (b &&& d) ||| (c &&& d)) + 0x8f1bbcdc
  else (b ^^^ c ^^^ d) + 0xca62c1d6

/-- The last `left` of the eighty rounds over a window of sixteen message words. -/
def rounds : (left : Nat) → (w0 w1 w2 w3 w4 w5 w6 w7 w8 w9 w10 w11 w12 w13 w14 w15 : UInt32) → State → State
  | 0, _, _, _, _, _, _, _, _, _, _, _, _, _, _, _, _, s => s
  | left + 1, w0, w1, w2, w3, w4, w5, w6, w7, w8, w9, w10, w11, w12, w13, w14, w15, s =>
    let t := rotl s.a 5 + mix (79 - left) s.b s.c s.d + s.e + w0
    rounds left w1 w2 w3 w4 w5 w6 w7 w8 w9 w10 w11 w12 w13 w14 w15 (rotl (w13 ^^^ w8 ^^^ w2 ^^^ w0) 1)
      ⟨t, s.a, rotl s.b 30, s.c, s.d⟩

namespace State

def absorbWords : State → List UInt32 → State
  | s, w0 :: w1 :: w2 :: w3 :: w4 :: w5 :: w6 :: w7
      :: w8 :: w9 :: w10 :: w11 :: w12 :: w13 :: w14 :: w15 :: rest =>
    let t := rounds 80 w0 w1 w2 w3 w4 w5 w6 w7 w8 w9 w10 w11 w12 w13 w14 w15 s
    absorbWords ⟨s.a + t.a, s.b + t.b, s.c + t.c, s.d + t.d, s.e + t.e⟩ rest
  | s, _ => s

def bytes (s : State) : Bytes :=
  [s.a, s.b, s.c, s.d, s.e].flatMap Sha256.State.wordBytes

end State

def hash (b : Bytes) : Bytes :=
  (State.start.absorbWords (Sha256.words (b ++ Sha256.closing b.length))).bytes

@[simp] theorem length_hash (b : Bytes) : (hash b).length = 20 := rfl

end Sha1
end PasswordVault
