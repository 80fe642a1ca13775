import PasswordVault.Bytes

/-!
# The SSH wire format

Strings with a length of four bytes in front, and natural numbers as strings: the shortest big-endian
form, with a zero byte in front where the top bit is set.
-/

namespace PasswordVault
namespace Ssh

def string (data : Bytes) : Bytes := Bytes.ofNat 4 data.length ++ data

def naturalContent (n : Nat) : Bytes :=
  match Bytes.minimal n with
  | [] => []
  | b :: rest => if 0x80 ≤ b then 0 :: b :: rest else b :: rest

def natural (n : Nat) : Bytes := string (naturalContent n)

/-- The string that stands at an offset, and the offset behind it. -/
def readString? (data : Bytes) (offset : Nat) : Option (Bytes × Nat) :=
  let rest := data.drop offset
  if rest.length < 4 then none
  else
    let length := Bytes.toNat (rest.take 4)
    let content := (rest.drop 4).take length
    if content.length = length then some (content, offset + 4 + length) else none

end Ssh
end PasswordVault
