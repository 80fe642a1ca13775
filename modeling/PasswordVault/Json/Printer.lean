import PasswordVault.Json.Basic
import PasswordVault.Bytes.Hex

/-!
# Writing JSON

The compact form has no blanks; the indented form puts every item on a line of its own. Only the
quote, the backslash and the control characters below the blank are escaped.
-/

namespace PasswordVault
namespace Json

/-- A character as it stands within a string. -/
def escape (c : Char) : List Char :=
  if c = '"' then ['\\', '"']
  else if c = '\\' then ['\\', '\\']
  else if c.toNat = 8 then ['\\', 'b']
  else if c.toNat = 12 then ['\\', 'f']
  else if c = '\n' then ['\\', 'n']
  else if c = '\r' then ['\\', 'r']
  else if c = '\t' then ['\\', 't']
  else if c.toNat < 0x20 then
    ['\\', 'u', '0', '0', Bytes.hexDigit (c.toNat / 16), Bytes.hexDigit (c.toNat % 16)]
  else [c]

def quoted (s : String) : List Char := '"' :: (s.toList.flatMap escape ++ ['"'])

def Number.chars : Number → List Char
  | .int n => (toString n).toList
  | .real x => x.toText.toList

mutual

def chars : Json → List Char
  | .null => ['n', 'u', 'l', 'l']
  | .bool true => ['t', 'r', 'u', 'e']
  | .bool false => ['f', 'a', 'l', 's', 'e']
  | .number n => n.chars
  | .string s => quoted s
  | .array items => '[' :: itemChars true items
  | .object members => '{' :: memberChars true members
  | .unreadable => ['n', 'u', 'l', 'l']

def itemChars (first : Bool) : List Json → List Char
  | [] => [']']
  | x :: rest => (if first then [] else [',']) ++ chars x ++ itemChars false rest

def memberForm : String × Json → List Char
  | (key, value) => quoted key ++ ':' :: chars value

def memberChars (first : Bool) : List (String × Json) → List Char
  | [] => ['}']
  | m :: rest => (if first then [] else [',']) ++ memberForm m ++ memberChars false rest

end

def compact (j : Json) : String := String.ofList j.chars

/-- A new line at a level of indentation, two blanks a level. -/
def newLine (level : Nat) : List Char := '\n' :: List.replicate (2 * level) ' '

mutual

def indentedChars (level : Nat) : Json → List Char
  | .array [] => ['[', ']']
  | .array items => '[' :: indentedItems (level + 1) true items ++ newLine level ++ [']']
  | .object [] => ['{', '}']
  | .object members => '{' :: indentedMembers (level + 1) true members ++ newLine level ++ ['}']
  | .null => chars .null
  | .bool b => chars (.bool b)
  | .number n => n.chars
  | .string s => quoted s
  | .unreadable => chars .unreadable

def indentedItems (level : Nat) (first : Bool) : List Json → List Char
  | [] => []
  | x :: rest =>
    (if first then [] else [',']) ++ newLine level ++ indentedChars level x
      ++ indentedItems level false rest

def indentedMember (level : Nat) : String × Json → List Char
  | (key, value) => newLine level ++ quoted key ++ ':' :: ' ' :: indentedChars level value

/-- The members that follow in an object, each on a line of its own. -/
def indentedMembers (level : Nat) (first : Bool) : List (String × Json) → List Char
  | [] => []
  | m :: rest =>
    (if first then [] else [',']) ++ indentedMember level m ++ indentedMembers level false rest

end

def indented (j : Json) : String := String.ofList (j.indentedChars 0)

end Json
end PasswordVault
