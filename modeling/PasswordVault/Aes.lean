import PasswordVault.Bytes

/-!
# AES

The block cipher with keys of 16 or 32 bytes. A block is a state of four columns of four bytes.
Encryption and decryption run through the same round keys in opposite order, and every step of the
one is undone by a step of the other.

* `Schedule.ofKey`: the round keys of a key.
* `Schedule.encrypt`, `Schedule.decrypt`: one block.
-/

namespace PasswordVault
namespace Aes

/-! ## Bytes -/

/-- The substitution of bytes. -/
def substitution : Array UInt8 :=
  #[
    0x63, 0x7c, 0x77, 0x7b, 0xf2, 0x6b, 0x6f, 0xc5, 0x30, 0x01, 0x67, 0x2b, 0xfe, 0xd7, 0xab, 0x76,
    0xca, 0x82, 0xc9, 0x7d, 0xfa, 0x59, 0x47, 0xf0, 0xad, 0xd4, 0xa2, 0xaf, 0x9c, 0xa4, 0x72, 0xc0,
    0xb7, 0xfd, 0x93, 0x26, 0x36, 0x3f, 0xf7, 0xcc, 0x34, 0xa5, 0xe5, 0xf1, 0x71, 0xd8, 0x31, 0x15,
    0x04, 0xc7, 0x23, 0xc3, 0x18, 0x96, 0x05, 0x9a, 0x07, 0x12, 0x80, 0xe2, 0xeb, 0x27, 0xb2, 0x75,
    0x09, 0x83, 0x2c, 0x1a, 0x1b, 0x6e, 0x5a, 0xa0, 0x52, 0x3b, 0xd6, 0xb3, 0x29, 0xe3, 0x2f, 0x84,
    0x53, 0xd1, 0x00, 0xed, 0x20, 0xfc, 0xb1, 0x5b, 0x6a, 0xcb, 0xbe, 0x39, 0x4a, 0x4c, 0x58, 0xcf,
    0xd0, 0xef, 0xaa, 0xfb, 0x43, 0x4d, 0x33, 0x85, 0x45, 0xf9, 0x02, 0x7f, 0x50, 0x3c, 0x9f, 0xa8,
    0x51, 0xa3, 0x40, 0x8f, 0x92, 0x9d, 0x38, 0xf5, 0xbc, 0xb6, 0xda, 0x21, 0x10, 0xff, 0xf3, 0xd2,
    0xcd, 0x0c, 0x13, 0xec, 0x5f, 0x97, 0x44, 0x17, 0xc4, 0xa7, 0x7e, 0x3d, 0x64, 0x5d, 0x19, 0x73,
    0x60, 0x81, 0x4f, 0xdc, 0x22, 0x2a, 0x90, 0x88, 0x46, 0xee, 0xb8, 0x14, 0xde, 0x5e, 0x0b, 0xdb,
    0xe0, 0x32, 0x3a, 0x0a, 0x49, 0x06, 0x24, 0x5c, 0xc2, 0xd3, 0xac, 0x62, 0x91, 0x95, 0xe4, 0x79,
    0xe7, 0xc8, 0x37, 0x6d, 0x8d, 0xd5, 0x4e, 0xa9, 0x6c, 0x56, 0xf4, 0xea, 0x65, 0x7a, 0xae, 0x08,
    0xba, 0x78, 0x25, 0x2e, 0x1c, 0xa6, 0xb4, 0xc6, 0xe8, 0xdd, 0x74, 0x1f, 0x4b, 0xbd, 0x8b, 0x8a,
    0x70, 0x3e, 0xb5, 0x66, 0x48, 0x03, 0xf6, 0x0e, 0x61, 0x35, 0x57, 0xb9, 0x86, 0xc1, 0x1d, 0x9e,
    0xe1, 0xf8, 0x98, 0x11, 0x69, 0xd9, 0x8e, 0x94, 0x9b, 0x1e, 0x87, 0xe9, 0xce, 0x55, 0x28, 0xdf,
    0x8c, 0xa1, 0x89, 0x0d, 0xbf, 0xe6, 0x42, 0x68, 0x41, 0x99, 0x2d, 0x0f, 0xb0, 0x54, 0xbb, 0x16]

/-- The inverse substitution. -/
def inverseSubstitution : Array UInt8 :=
  #[
    0x52, 0x09, 0x6a, 0xd5, 0x30, 0x36, 0xa5, 0x38, 0xbf, 0x40, 0xa3, 0x9e, 0x81, 0xf3, 0xd7, 0xfb,
    0x7c, 0xe3, 0x39, 0x82, 0x9b, 0x2f, 0xff, 0x87, 0x34, 0x8e, 0x43, 0x44, 0xc4, 0xde, 0xe9, 0xcb,
    0x54, 0x7b, 0x94, 0x32, 0xa6, 0xc2, 0x23, 0x3d, 0xee, 0x4c, 0x95, 0x0b, 0x42, 0xfa, 0xc3, 0x4e,
    0x08, 0x2e, 0xa1, 0x66, 0x28, 0xd9, 0x24, 0xb2, 0x76, 0x5b, 0xa2, 0x49, 0x6d, 0x8b, 0xd1, 0x25,
    0x72, 0xf8, 0xf6, 0x64, 0x86, 0x68, 0x98, 0x16, 0xd4, 0xa4, 0x5c, 0xcc, 0x5d, 0x65, 0xb6, 0x92,
    0x6c, 0x70, 0x48, 0x50, 0xfd, 0xed, 0xb9, 0xda, 0x5e, 0x15, 0x46, 0x57, 0xa7, 0x8d, 0x9d, 0x84,
    0x90, 0xd8, 0xab, 0x00, 0x8c, 0xbc, 0xd3, 0x0a, 0xf7, 0xe4, 0x58, 0x05, 0xb8, 0xb3, 0x45, 0x06,
    0xd0, 0x2c, 0x1e, 0x8f, 0xca, 0x3f, 0x0f, 0x02, 0xc1, 0xaf, 0xbd, 0x03, 0x01, 0x13, 0x8a, 0x6b,
    0x3a, 0x91, 0x11, 0x41, 0x4f, 0x67, 0xdc, 0xea, 0x97, 0xf2, 0xcf, 0xce, 0xf0, 0xb4, 0xe6, 0x73,
    0x96, 0xac, 0x74, 0x22, 0xe7, 0xad, 0x35, 0x85, 0xe2, 0xf9, 0x37, 0xe8, 0x1c, 0x75, 0xdf, 0x6e,
    0x47, 0xf1, 0x1a, 0x71, 0x1d, 0x29, 0xc5, 0x89, 0x6f, 0xb7, 0x62, 0x0e, 0xaa, 0x18, 0xbe, 0x1b,
    0xfc, 0x56, 0x3e, 0x4b, 0xc6, 0xd2, 0x79, 0x20, 0x9a, 0xdb, 0xc0, 0xfe, 0x78, 0xcd, 0x5a, 0xf4,
    0x1f, 0xdd, 0xa8, 0x33, 0x88, 0x07, 0xc7, 0x31, 0xb1, 0x12, 0x10, 0x59, 0x27, 0x80, 0xec, 0x5f,
    0x60, 0x51, 0x7f, 0xa9, 0x19, 0xb5, 0x4a, 0x0d, 0x2d, 0xe5, 0x7a, 0x9f, 0x93, 0xc9, 0x9c, 0xef,
    0xa0, 0xe0, 0x3b, 0x4d, 0xae, 0x2a, 0xf5, 0xb0, 0xc8, 0xeb, 0xbb, 0x3c, 0x83, 0x53, 0x99, 0x61,
    0x17, 0x2b, 0x04, 0x7e, 0xba, 0x77, 0xd6, 0x26, 0xe1, 0x69, 0x14, 0x63, 0x55, 0x21, 0x0c, 0x7d]

def sub (x : UInt8) : UInt8 := substitution.getD x.toNat 0

def unsub (x : UInt8) : UInt8 := inverseSubstitution.getD x.toNat 0

/-- Twice a byte in the field of 256 elements. -/
def double (x : UInt8) : UInt8 := (x <<< 1) ^^^ (if 0x80 ≤ x then 0x1b else 0)

/-! ## Columns -/

structure Column where
  a : UInt8
  b : UInt8
  c : UInt8
  d : UInt8
deriving DecidableEq

namespace Column

def xor (x y : Column) : Column := ⟨x.a ^^^ y.a, x.b ^^^ y.b, x.c ^^^ y.c, x.d ^^^ y.d⟩

def map (f : UInt8 → UInt8) (x : Column) : Column := ⟨f x.a, f x.b, f x.c, f x.d⟩

def rotate (x : Column) : Column := ⟨x.b, x.c, x.d, x.a⟩

/-- A column mixed: the product with 2, 3, 1, 1 in every rotation. -/
def mix (x : Column) : Column :=
  let all := x.a ^^^ x.b ^^^ x.c ^^^ x.d
  ⟨x.a ^^^ all ^^^ double (x.a ^^^ x.b), x.b ^^^ all ^^^ double (x.b ^^^ x.c),
    x.c ^^^ all ^^^ double (x.c ^^^ x.d), x.d ^^^ all ^^^ double (x.d ^^^ x.a)⟩

/-- A column mixed back: opposite bytes first take in four times their sum. -/
def unmix (x : Column) : Column :=
  let u := double (double (x.a ^^^ x.c))
  let v := double (double (x.b ^^^ x.d))
  mix ⟨x.a ^^^ u, x.b ^^^ v, x.c ^^^ u, x.d ^^^ v⟩

end Column

/-! ## States -/

/-- A block as four columns. -/
structure State where
  c0 : Column
  c1 : Column
  c2 : Column
  c3 : Column
deriving DecidableEq

namespace State

def xor (s t : State) : State := ⟨s.c0.xor t.c0, s.c1.xor t.c1, s.c2.xor t.c2, s.c3.xor t.c3⟩

def map (f : Column → Column) (s : State) : State := ⟨f s.c0, f s.c1, f s.c2, f s.c3⟩

/-- The second, third and fourth row moved left by one, two and three places. -/
def shiftRows (s : State) : State :=
  ⟨⟨s.c0.a, s.c1.b, s.c2.c, s.c3.d⟩, ⟨s.c1.a, s.c2.b, s.c3.c, s.c0.d⟩,
    ⟨s.c2.a, s.c3.b, s.c0.c, s.c1.d⟩, ⟨s.c3.a, s.c0.b, s.c1.c, s.c2.d⟩⟩

def unshiftRows (s : State) : State :=
  ⟨⟨s.c0.a, s.c3.b, s.c2.c, s.c1.d⟩, ⟨s.c1.a, s.c0.b, s.c3.c, s.c2.d⟩,
    ⟨s.c2.a, s.c1.b, s.c0.c, s.c3.d⟩, ⟨s.c3.a, s.c2.b, s.c1.c, s.c0.d⟩⟩

/-- Every byte substituted and the rows moved. -/
def scatter (s : State) : State := (s.map (Column.map sub)).shiftRows

/-- The inverse of `scatter`. -/
def gather (s : State) : State := s.unshiftRows.map (Column.map unsub)

def zero : State := ⟨⟨0, 0, 0, 0⟩, ⟨0, 0, 0, 0⟩, ⟨0, 0, 0, 0⟩, ⟨0, 0, 0, 0⟩⟩

/-- The sixteen bytes of a state, column by column. -/
def bytes (s : State) : Bytes :=
  [s.c0.a, s.c0.b, s.c0.c, s.c0.d, s.c1.a, s.c1.b, s.c1.c, s.c1.d,
    s.c2.a, s.c2.b, s.c2.c, s.c2.d, s.c3.a, s.c3.b, s.c3.c, s.c3.d]

def ofBytes : Bytes → State
  | [b0, b1, b2, b3, b4, b5, b6, b7, b8, b9, b10, b11, b12, b13, b14, b15] =>
    ⟨⟨b0, b1, b2, b3⟩, ⟨b4, b5, b6, b7⟩, ⟨b8, b9, b10, b11⟩, ⟨b12, b13, b14, b15⟩⟩
  | _ => zero

def toBlock (s : State) : Block 16 := ⟨s.bytes, rfl⟩

def ofBlock (b : Block 16) : State := ofBytes b.bytes

end State

/-! ## Keys -/

/-- The keys of all rounds. -/
structure Schedule where
  first : State
  middle : List State
  last : State

def columns : Bytes → List Column
  | a :: b :: c :: d :: rest => ⟨a, b, c, d⟩ :: columns rest
  | _ => []

def states : List Column → List State
  | a :: b :: c :: d :: rest => ⟨a, b, c, d⟩ :: states rest
  | _ => []

/-- The column that follows in the expansion of a key of `n` columns, at position `i`. `behind` is the
column before it, `start` the one `n` places back, and `round` the round constant. -/
def nextColumn (n i : Nat) (round : UInt8) (behind start : Column) : Column :=
  let changed :=
    if i % n = 0 then (behind.rotate.map sub).xor ⟨round, 0, 0, 0⟩
    else if 6 < n ∧ i % n = 4 then behind.map sub
    else behind
  start.xor changed

/-- `count` more columns of a key expansion. `window` holds the last `n` columns, the oldest first. -/
def expand (n : Nat) : (count i : Nat) → (round : UInt8) → (window : List Column) → List Column
  | 0, _, _, _ => []
  | _ + 1, _, _, [] => []
  | count + 1, i, round, start :: window =>
    let next := nextColumn n i round ((start :: window).getLast (by simp)) start
    next :: expand n count (i + 1) (if i % n = 0 then double round else round) (window ++ [next])

/-- The round keys of a key of 16 or 32 bytes. -/
def Schedule.ofKey (key : Bytes) : Schedule :=
  let start := columns key
  let n := start.length
  let all := states (start ++ expand n (4 * (n + 7) - n) n 1 start)
  match all with
  | [] => ⟨State.zero, [], State.zero⟩
  | first :: rest => ⟨first, rest.dropLast, rest.getLastD State.zero⟩

namespace Schedule

def encrypt (k : Schedule) (s : State) : State :=
  ((k.middle.foldl (fun s key => (s.scatter.map Column.mix).xor key) (s.xor k.first)).scatter).xor k.last

def decrypt (k : Schedule) (s : State) : State :=
  (k.middle.foldr (fun key s => ((s.xor key).map Column.unmix).gather) (s.xor k.last).gather).xor k.first

end Schedule
end Aes
end PasswordVault
