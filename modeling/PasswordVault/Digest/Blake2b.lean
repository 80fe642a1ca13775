import PasswordVault.Digest.Words16

/-!
# BLAKE2b

The unkeyed digest of a byte string with a result of 1 to 64 bytes, in blocks of 128 bytes.
-/

namespace PasswordVault
namespace Blake2b

def start : List UInt64 :=
  [0x6a09e667f3bcc908, 0xbb67ae8584caa73b, 0x3c6ef372fe94f82b, 0xa54ff53a5f1d36f1,
    0x510e527fade682d1, 0x9b05688c2b3e6c1f, 0x1f83d9abfb41bd6b, 0x5be0cd19137e2179]

/-- The order of the message words in each of the twelve rounds. -/
def schedule : List (List Nat) :=
  [
    [0, 1, 2, 3, 4, 5, 6, 7, 8, 9, 10, 11, 12, 13, 14, 15],
    [14, 10, 4, 8, 9, 15, 13, 6, 1, 12, 0, 2, 11, 7, 5, 3],
    [11, 8, 12, 0, 5, 2, 15, 13, 10, 14, 3, 6, 7, 1, 9, 4],
    [7, 9, 3, 1, 13, 12, 11, 14, 2, 6, 5, 10, 4, 0, 15, 8],
    [9, 0, 5, 7, 2, 4, 10, 15, 14, 1, 11, 12, 6, 8, 3, 13],
    [2, 12, 6, 10, 0, 11, 8, 3, 4, 13, 7, 5, 15, 14, 1, 9],
    [12, 5, 1, 15, 14, 13, 4, 10, 0, 7, 6, 3, 9, 2, 8, 11],
    [13, 11, 7, 14, 12, 1, 3, 9, 5, 0, 15, 4, 8, 6, 2, 10],
    [6, 15, 14, 9, 11, 3, 0, 8, 12, 2, 13, 7, 1, 4, 10, 5],
    [10, 2, 8, 4, 7, 6, 1, 5, 15, 11, 9, 14, 3, 12, 13, 0],
    [0, 1, 2, 3, 4, 5, 6, 7, 8, 9, 10, 11, 12, 13, 14, 15],
    [14, 10, 4, 8, 9, 15, 13, 6, 1, 12, 0, 2, 11, 7, 5, 3]]

/-- One round over a block of message words in the given order. -/
def round (m : Words16) (v : Words16) : List Nat → Words16
  | [s0, s1, s2, s3, s4, s5, s6, s7, s8, s9, s10, s11, s12, s13, s14, s15] =>
  let v0 := v.w0
  let v1 := v.w1
  let v2 := v.w2
  let v3 := v.w3
  let v4 := v.w4
  let v5 := v.w5
  let v6 := v.w6
  let v7 := v.w7
  let v8 := v.w8
  let v9 := v.w9
  let v10 := v.w10
  let v11 := v.w11
  let v12 := v.w12
  let v13 := v.w13
  let v14 := v.w14
  let v15 := v.w15
  let v0 := v0 + v4 + (m.get s0)
  let v12 := rotateRight (v12 ^^^ v0) 32
  let v8 := v8 + v12
  let v4 := rotateRight (v4 ^^^ v8) 24
  let v0 := v0 + v4 + (m.get s1)
  let v12 := rotateRight (v12 ^^^ v0) 16
  let v8 := v8 + v12
  let v4 := rotateRight (v4 ^^^ v8) 63
  let v1 := v1 + v5 + (m.get s2)
  let v13 := rotateRight (v13 ^^^ v1) 32
  let v9 := v9 + v13
  let v5 := rotateRight (v5 ^^^ v9) 24
  let v1 := v1 + v5 + (m.get s3)
  let v13 := rotateRight (v13 ^^^ v1) 16
  let v9 := v9 + v13
  let v5 := rotateRight (v5 ^^^ v9) 63
  let v2 := v2 + v6 + (m.get s4)
  let v14 := rotateRight (v14 ^^^ v2) 32
  let v10 := v10 + v14
  let v6 := rotateRight (v6 ^^^ v10) 24
  let v2 := v2 + v6 + (m.get s5)
  let v14 := rotateRight (v14 ^^^ v2) 16
  let v10 := v10 + v14
  let v6 := rotateRight (v6 ^^^ v10) 63
  let v3 := v3 + v7 + (m.get s6)
  let v15 := rotateRight (v15 ^^^ v3) 32
  let v11 := v11 + v15
  let v7 := rotateRight (v7 ^^^ v11) 24
  let v3 := v3 + v7 + (m.get s7)
  let v15 := rotateRight (v15 ^^^ v3) 16
  let v11 := v11 + v15
  let v7 := rotateRight (v7 ^^^ v11) 63
  let v0 := v0 + v5 + (m.get s8)
  let v15 := rotateRight (v15 ^^^ v0) 32
  let v10 := v10 + v15
  let v5 := rotateRight (v5 ^^^ v10) 24
  let v0 := v0 + v5 + (m.get s9)
  let v15 := rotateRight (v15 ^^^ v0) 16
  let v10 := v10 + v15
  let v5 := rotateRight (v5 ^^^ v10) 63
  let v1 := v1 + v6 + (m.get s10)
  let v12 := rotateRight (v12 ^^^ v1) 32
  let v11 := v11 + v12
  let v6 := rotateRight (v6 ^^^ v11) 24
  let v1 := v1 + v6 + (m.get s11)
  let v12 := rotateRight (v12 ^^^ v1) 16
  let v11 := v11 + v12
  let v6 := rotateRight (v6 ^^^ v11) 63
  let v2 := v2 + v7 + (m.get s12)
  let v13 := rotateRight (v13 ^^^ v2) 32
  let v8 := v8 + v13
  let v7 := rotateRight (v7 ^^^ v8) 24
  let v2 := v2 + v7 + (m.get s13)
  let v13 := rotateRight (v13 ^^^ v2) 16
  let v8 := v8 + v13
  let v7 := rotateRight (v7 ^^^ v8) 63
  let v3 := v3 + v4 + (m.get s14)
  let v14 := rotateRight (v14 ^^^ v3) 32
  let v9 := v9 + v14
  let v4 := rotateRight (v4 ^^^ v9) 24
  let v3 := v3 + v4 + (m.get s15)
  let v14 := rotateRight (v14 ^^^ v3) 16
  let v9 := v9 + v14
  let v4 := rotateRight (v4 ^^^ v9) 63
  ⟨v0, v1, v2, v3, v4, v5, v6, v7, v8, v9, v10, v11, v12, v13, v14, v15⟩
  | _ => v

/-- The eight chaining words after one block; `count` bytes have been read with it. -/
def compress (h : List UInt64) (m : Words16) (count : Nat) (last : Bool) : List UInt64 :=
  let low := UInt64.ofNat count
  let high := UInt64.ofNat (count / 0x10000000000000000)
  let tail := match start with
    | [i0, i1, i2, i3, i4, i5, i6, i7] =>
      [i0, i1, i2, i3, i4 ^^^ low, i5 ^^^ high, if last then ~~~i6 else i6, i7]
    | other => other
  let v := schedule.foldl (round m) (Words16.ofList (h ++ tail))
  let w := v.toList
  List.zipWith (· ^^^ ·) h (List.zipWith (· ^^^ ·) w (w.drop 8))

/-- The chaining words after all blocks of a message; the last one is filled with zeros. -/
def absorb (h : List UInt64) (count : Nat) : List Bytes → List UInt64
  | [] => compress h Words16.zero count true
  | [block] =>
    compress h (Words16.ofList (Bytes.wordsLE (block ++ List.replicate (128 - block.length) 0)))
      (count + block.length) true
  | block :: rest =>
    absorb (compress h (Words16.ofList (Bytes.wordsLE block)) (count + block.length) false)
      (count + block.length) rest

def hash (length : Nat) (b : Bytes) : Bytes :=
  let first := match start with
    | i0 :: rest => (i0 ^^^ 0x01010000 ^^^ UInt64.ofNat length) :: rest
    | [] => []
  ((absorb first 0 (b.chunks 128)).flatMap Bytes.ofWordLE).take length

end Blake2b
end PasswordVault
