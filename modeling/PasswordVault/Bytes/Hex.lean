import PasswordVault.Bytes

/-!
# Hexadecimal text

Byte strings written with two lower-case digits a byte; reading takes both cases.
-/

namespace PasswordVault
namespace Bytes

def hexDigit (n : Nat) : Char :=
  if n < 10 then Char.ofNat (48 + n) else Char.ofNat (87 + n)

def hexValue? (c : Char) : Option Nat :=
  if '0' ≤ c ∧ c ≤ '9' then some (c.toNat - 48)
  else if 'a' ≤ c ∧ c ≤ 'f' then some (c.toNat - 87)
  else if 'A' ≤ c ∧ c ≤ 'F' then some (c.toNat - 55)
  else none

def hexChars : Bytes → List Char
  | [] => []
  | x :: rest => hexDigit (x.toNat / 16) :: hexDigit (x.toNat % 16) :: hexChars rest

def toHex (b : Bytes) : String := String.ofList b.hexChars

def ofHexChars? : List Char → Option Bytes
  | [] => some []
  | hi :: lo :: rest => do
    let h ← hexValue? hi
    let l ← hexValue? lo
    let b ← ofHexChars? rest
    return UInt8.ofNat (h * 16 + l) :: b
  | [_] => none

def ofHex? (s : String) : Option Bytes := ofHexChars? s.toList

end Bytes
end PasswordVault
