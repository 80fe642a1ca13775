import PasswordVault.Bytes

/-!
# Base64

The standard alphabet with canonical padding: `encode` writes the one text of a byte string and
`decode` reads it back. A text that is no canonical form is refused, and `fault` says which rule it
breaks first: a length that no padding mends, a foreign byte, a misplaced padding mark, missing
padding, or a last symbol with bits to spare.
-/

namespace PasswordVault
namespace Base64

/-! ## Symbols -/

def symbol (n : Nat) : Char :=
  if n < 26 then Char.ofNat (65 + n)
  else if n < 52 then Char.ofNat (71 + n)
  else if n < 62 then Char.ofNat (n - 4)
  else if n = 62 then '+'
  else '/'

def value? (b : UInt8) : Option Nat :=
  let n := b.toNat
  if 65 ≤ n ∧ n ≤ 90 then some (n - 65)
  else if 97 ≤ n ∧ n ≤ 122 then some (n - 71)
  else if 48 ≤ n ∧ n ≤ 57 then some (n + 4)
  else if n = 43 then some 62
  else if n = 47 then some 63
  else none

def pad : UInt8 := 61

/-! ## Writing -/

/-- Three bytes become four symbols; a shorter rest is padded. -/
def encodeChars : Bytes → List Char
  | [] => []
  | [a] => [symbol (a.toNat / 4), symbol (a.toNat % 4 * 16), '=', '=']
  | [a, b] =>
    [symbol (a.toNat / 4), symbol (a.toNat % 4 * 16 + b.toNat / 16), symbol (b.toNat % 16 * 4), '=']
  | a :: b :: c :: rest =>
    symbol (a.toNat / 4) :: symbol (a.toNat % 4 * 16 + b.toNat / 16)
      :: symbol (b.toNat % 16 * 4 + c.toNat / 64) :: symbol (c.toNat % 64) :: encodeChars rest

def encode (b : Bytes) : String := String.ofList (encodeChars b)

/-! ## Reading -/

/-- The bytes of a canonical text, given as its own bytes: whole groups of four symbols, with one or
two padding marks allowed at the very end and no spare bits set. -/
def decodeBytes? : Bytes → Option Bytes
  | [] => some []
  | [s, t, u, v] => do
    let x ← value? s
    let y ← value? t
    if u = pad ∧ v = pad then
      if y % 16 = 0 then some [UInt8.ofNat (x * 4 + y / 16)] else none
    else do
      let z ← value? u
      if v = pad then
        if z % 4 = 0 then some [UInt8.ofNat (x * 4 + y / 16), UInt8.ofNat (y % 16 * 16 + z / 4)]
        else none
      else do
        let w ← value? v
        return [UInt8.ofNat (x * 4 + y / 16), UInt8.ofNat (y % 16 * 16 + z / 4),
          UInt8.ofNat (z % 4 * 64 + w)]
  | s :: t :: u :: v :: rest => do
    let x ← value? s
    let y ← value? t
    let z ← value? u
    let w ← value? v
    let bytes ← decodeBytes? rest
    return UInt8.ofNat (x * 4 + y / 16) :: UInt8.ofNat (y % 16 * 16 + z / 4)
      :: UInt8.ofNat (z % 4 * 64 + w) :: bytes
  | _ => none

/-- Why a text is no canonical form. Offsets count bytes. -/
inductive Fault where
  | invalidByte (byte : UInt8) (offset : Nat)
  | invalidLength
  | invalidPadding
  | invalidLastSymbol (byte : UInt8) (offset : Nat)
deriving DecidableEq

namespace Fault

def message : Fault → String
  | .invalidByte byte offset => s!"Invalid byte {byte.toNat}, offset {offset}."
  | .invalidLength => "Encoded text cannot have a 6-bit remainder."
  | .invalidPadding => "Invalid padding"
  | .invalidLastSymbol byte offset => s!"Invalid last symbol {byte.toNat}, offset {offset}."

end Fault

/-- The first byte from `offset` on that is no symbol. -/
def foreign? (offset : Nat) : Bytes → Option Fault
  | [] => none
  | b :: rest => if (value? b).isNone then some (.invalidByte b offset) else foreign? (offset + 1) rest

/-- The fault of the final chunk, which alone may hold padding. `start` is the chunk's offset, `i`
the index within it, `firstPad` the offset of the first padding mark seen, `last` the last symbol
seen with its offset, and `symbols` and `pads` count both kinds. -/
def chunkFault (start : Nat) (firstPad : Option Nat) (last : UInt8 × Nat) (symbols pads : Nat) :
    (i : Nat) → Bytes → Fault
  | _, [] =>
    if (symbols + pads) % 4 ≠ 0 then .invalidPadding else .invalidLastSymbol last.1 last.2
  | i, b :: rest =>
    if b = pad then
      let first := firstPad.getD (start + i)
      if i % 4 < 2 then .invalidByte pad first
      else chunkFault start (some first) last symbols (pads + 1) (i + 1) rest
    else match firstPad with
      | some first => .invalidByte pad first
      | none =>
        if (value? b).isNone then .invalidByte b (start + i)
        else chunkFault start none (b, start + i) (symbols + 1) pads (i + 1) rest

/-- What is wrong with a text that is no canonical form. -/
def fault (bytes : Bytes) : Fault :=
  let n := bytes.length
  let last := bytes.getLast?.getD 0
  if n % 4 = 1 then
    if last ≠ pad ∧ (value? last).isNone then .invalidByte last (n - 1) else .invalidLength
  else
    -- The final chunk holds eight bytes, or fewer if eight does not divide the length.
    let start := (n - 1) / 8 * 8
    match foreign? 0 (bytes.take start) with
    | some found => found
    | none => chunkFault start none (0, 0) 0 0 0 (bytes.drop start)

def decode (text : String) : Except Fault Bytes :=
  let bytes := Bytes.ofText text
  match decodeBytes? bytes with
  | some b => .ok b
  | none => .error (fault bytes)

end Base64
end PasswordVault
