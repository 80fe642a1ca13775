import PasswordVault.Digest.Words16

/-!
# Memory blocks of Argon2

A block has 1024 bytes: eight rows of sixteen words. `mix` combines two blocks by permuting the rows
and then the columns of their exclusive or.
-/

namespace PasswordVault
namespace Argon2

/-- A block of memory, as eight rows of sixteen words. -/
structure MemoryBlock where
  r0 : Words16
  r1 : Words16
  r2 : Words16
  r3 : Words16
  r4 : Words16
  r5 : Words16
  r6 : Words16
  r7 : Words16

/-- The sum of two words and twice the product of their lower halves. -/
@[inline] def mulAdd (x y : UInt64) : UInt64 :=
  x + y + 2 * ((x &&& 0xffffffff) * (y &&& 0xffffffff))

/-- The permutation of sixteen words. -/
def permute (v : Words16) : Words16 :=
  let v0 := v.w0
  let v1 := v.w1
  let v2 := v.w2
  let v3 := v.w3
  let v4 := v.w4
  let v5 := v.w5
  let v6 := v.w6
  let v7 := v.w7
  let v8 := v.w8
  let v9 := v.w9
  let v10 := v.w10
  let v11 := v.w11
  let v12 := v.w12
  let v13 := v.w13
  let v14 := v.w14
  let v15 := v.w15
  let v0 := mulAdd v0 v4
  let v12 := rotateRight (v12 ^^^ v0) 32
  let v8 := mulAdd v8 v12
  let v4 := rotateRight (v4 ^^^ v8) 24
  let v0 := mulAdd v0 v4
  let v12 := rotateRight (v12 ^^^ v0) 16
  let v8 := mulAdd v8 v12
  let v4 := rotateRight (v4 ^^^ v8) 63
  let v1 := mulAdd v1 v5
  let v13 := rotateRight (v13 ^^^ v1) 32
  let v9 := mulAdd v9 v13
  let v5 := rotateRight (v5 ^^^ v9) 24
  let v1 := mulAdd v1 v5
  let v13 := rotateRight (v13 ^^^ v1) 16
  let v9 := mulAdd v9 v13
  let v5 := rotateRight (v5 ^^^ v9) 63
  let v2 := mulAdd v2 v6
  let v14 := rotateRight (v14 ^^^ v2) 32
  let v10 := mulAdd v10 v14
  let v6 := rotateRight (v6 ^^^ v10) 24
  let v2 := mulAdd v2 v6
  let v14 := rotateRight (v14 ^^^ v2) 16
  let v10 := mulAdd v10 v14
  let v6 := rotateRight (v6 ^^^ v10) 63
  let v3 := mulAdd v3 v7
  let v15 := rotateRight (v15 ^^^ v3) 32
  let v11 := mulAdd v11 v15
  let v7 := rotateRight (v7 ^^^ v11) 24
  let v3 := mulAdd v3 v7
  let v15 := rotateRight (v15 ^^^ v3) 16
  let v11 := mulAdd v11 v15
  let v7 := rotateRight (v7 ^^^ v11) 63
  let v0 := mulAdd v0 v5
  let v15 := rotateRight (v15 ^^^ v0) 32
  let v10 := mulAdd v10 v15
  let v5 := rotateRight (v5 ^^^ v10) 24
  let v0 := mulAdd v0 v5
  let v15 := rotateRight (v15 ^^^ v0) 16
  let v10 := mulAdd v10 v15
  let v5 := rotateRight (v5 ^^^ v10) 63
  let v1 := mulAdd v1 v6
  let v12 := rotateRight (v12 ^^^ v1) 32
  let v11 := mulAdd v11 v12
  let v6 := rotateRight (v6 ^^^ v11) 24
  let v1 := mulAdd v1 v6
  let v12 := rotateRight (v12 ^^^ v1) 16
  let v11 := mulAdd v11 v12
  let v6 := rotateRight (v6 ^^^ v11) 63
  let v2 := mulAdd v2 v7
  let v13 := rotateRight (v13 ^^^ v2) 32
  let v8 := mulAdd v8 v13
  let v7 := rotateRight (v7 ^^^ v8) 24
  let v2 := mulAdd v2 v7
  let v13 := rotateRight (v13 ^^^ v2) 16
  let v8 := mulAdd v8 v13
  let v7 := rotateRight (v7 ^^^ v8) 63
  let v3 := mulAdd v3 v4
  let v14 := rotateRight (v14 ^^^ v3) 32
  let v9 := mulAdd v9 v14
  let v4 := rotateRight (v4 ^^^ v9) 24
  let v3 := mulAdd v3 v4
  let v14 := rotateRight (v14 ^^^ v3) 16
  let v9 := mulAdd v9 v14
  let v4 := rotateRight (v4 ^^^ v9) 63
  ⟨v0, v1, v2, v3, v4, v5, v6, v7, v8, v9, v10, v11, v12, v13, v14, v15⟩

namespace MemoryBlock

def zero : MemoryBlock :=
  ⟨Words16.zero, Words16.zero, Words16.zero, Words16.zero, Words16.zero, Words16.zero, Words16.zero, Words16.zero⟩

def xor (x y : MemoryBlock) : MemoryBlock :=
  ⟨x.r0.xor y.r0, x.r1.xor y.r1, x.r2.xor y.r2, x.r3.xor y.r3,
    x.r4.xor y.r4, x.r5.xor y.r5, x.r6.xor y.r6, x.r7.xor y.r7⟩

/-- Two neighbouring words out of every row. -/
@[inline] def column (b : MemoryBlock) (i : Nat) : Words16 :=
  ⟨b.r0.get (2 * i), b.r0.get (2 * i + 1),
    b.r1.get (2 * i), b.r1.get (2 * i + 1),
    b.r2.get (2 * i), b.r2.get (2 * i + 1),
    b.r3.get (2 * i), b.r3.get (2 * i + 1),
    b.r4.get (2 * i), b.r4.get (2 * i + 1),
    b.r5.get (2 * i), b.r5.get (2 * i + 1),
    b.r6.get (2 * i), b.r6.get (2 * i + 1),
    b.r7.get (2 * i), b.r7.get (2 * i + 1)⟩

def transpose (b : MemoryBlock) : MemoryBlock :=
  ⟨b.column 0, b.column 1, b.column 2, b.column 3, b.column 4, b.column 5, b.column 6, b.column 7⟩

def permuteRows (b : MemoryBlock) : MemoryBlock :=
  ⟨permute b.r0, permute b.r1, permute b.r2, permute b.r3,
    permute b.r4, permute b.r5, permute b.r6, permute b.r7⟩

def mix (x y : MemoryBlock) : MemoryBlock :=
  let r := x.xor y
  r.xor r.permuteRows.transpose.permuteRows.transpose

def rows (b : MemoryBlock) : List Words16 := [b.r0, b.r1, b.r2, b.r3, b.r4, b.r5, b.r6, b.r7]

def bytes (b : MemoryBlock) : Bytes := b.rows.flatMap fun r => r.toList.flatMap Bytes.ofWordLE

def ofBytes (bytes : Bytes) : MemoryBlock :=
  let words := bytes.wordsLE
  let row (i : Nat) : Words16 := Words16.ofList (words.drop (16 * i))
  ⟨row 0, row 1, row 2, row 3, row 4, row 5, row 6, row 7⟩

/-- The word at an index below 128. -/
def word (b : MemoryBlock) (i : Nat) : UInt64 :=
  match i / 16 with
  | 0 => b.r0.get (i % 16)
  | 1 => b.r1.get (i % 16)
  | 2 => b.r2.get (i % 16)
  | 3 => b.r3.get (i % 16)
  | 4 => b.r4.get (i % 16)
  | 5 => b.r5.get (i % 16)
  | 6 => b.r6.get (i % 16)
  | _ => b.r7.get (i % 16)

end MemoryBlock
end Argon2
end PasswordVault
