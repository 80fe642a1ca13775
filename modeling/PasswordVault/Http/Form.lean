import PasswordVault.Bytes.Hex

/-!
# Form bodies

Names and values as the text of a form. A space is written as a plus sign; letters, digits and the marks
`*`, `-`, `.` and `_` stand for themselves, and every other byte is written in hexadecimal.
-/

namespace PasswordVault
namespace Http

def formType : String := "application/x-www-form-urlencoded"

def isPlain (b : UInt8) : Bool :=
  let c := Char.ofNat b.toNat
  b < 128 && (c.isAlphanum || c = '*' || c = '-' || c = '.' || c = '_')

def formByte (b : UInt8) : List Char :=
  if b = 32 then ['+']
  else if isPlain b then [Char.ofNat b.toNat]
  else '%' :: (Bytes.hexChars [b]).map Char.toUpper

def formText (s : String) : String := String.ofList ((Bytes.ofText s).flatMap formByte)

def formBody (fields : List (String × String)) : String :=
  String.intercalate "&" (fields.map fun (name, value) => formText name ++ "=" ++ formText value)

end Http
end PasswordVault
