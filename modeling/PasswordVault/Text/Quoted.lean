import PasswordVault.Text.Case
import PasswordVault.Text.HiddenTable

/-!
# Quoted texts

A text between double quotes, for descriptions. Quotes, backslashes and whatever has no picture of its
own are escaped.
-/

namespace PasswordVault
namespace Text

def isHidden (c : Char) : Bool :=
  c.toNat < 32 ∨ c.toNat = 127 ∨ (128 ≤ c.toNat ∧ inRanges hiddenRanges c.toNat)

/-- A character between quotes. -/
def quotedChar (c : Char) : List Char :=
  match c with
  | '\x00' => ['\\', '0']
  | '\t' => ['\\', 't']
  | '\r' => ['\\', 'r']
  | '\n' => ['\\', 'n']
  | '"' => ['\\', '"']
  | '\\' => ['\\', '\\']
  | c => if isHidden c then ['\\', 'u', '\x7b'] ++ Nat.toDigits 16 c.toNat ++ ['\x7d'] else [c]

def quoted (s : String) : String := String.ofList ('"' :: s.toList.flatMap quotedChar ++ ['"'])

end Text
end PasswordVault
