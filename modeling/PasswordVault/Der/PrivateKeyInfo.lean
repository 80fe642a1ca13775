import PasswordVault.Der

/-!
# Private key documents

The envelope that names the algorithm of a private key: a version, an algorithm identifier, the key
as an octet string, and for version 1 the public key. Attributes and extension fields are skipped.
-/

namespace PasswordVault
namespace Der

/-- An algorithm identifier: the bytes of its object identifier, and its parameters. -/
structure Algorithm where
  oid : Bytes
  parameters : Option Element
deriving DecidableEq

/-- The algorithm identifier that comes first, and what follows. -/
def algorithm? (b : Bytes) : Option (Algorithm × Bytes) := do
  let (content, rest) ← expect? sequenceTag b
  let (oid, more) ← expect? oidTag content
  if more = [] then return (⟨oid, none⟩, rest)
  let (parameters, end_) ← read? more
  if end_ = [] then return (⟨oid, some parameters⟩, rest) else none

def Algorithm.encode (a : Algorithm) : Bytes :=
  sequence [element oidTag a.oid, match a.parameters with | some e => e.encode | none => []]

/-- The content of a bit string without unused bits. -/
def wholeBits? : Bytes → Option Bytes
  | 0 :: rest => some rest
  | _ => none

structure PrivateKeyInfo where
  algorithm : Algorithm
  key : Bytes
  publicKey : Option Bytes

namespace PrivateKeyInfo

def publicKeyTag : Tag := 0x81

/-- Whether an element is a field of attributes, which stands before the public key. -/
def isAttributes (e : Element) : Bool := isContextTag e.tag && e.tag &&& 0x1f = 0

/-- Whether an element is an extension field, which holds one element. -/
def isExtension (e : Element) : Bool :=
  isContextTag e.tag && e.tag &&& 0x20 ≠ 0
    && match read? e.content with
      | some (inner, []) => isKnownTag inner.tag
      | _ => false

/-- The public key among the fields after the private key; all other fields must be attributes before
it or extensions after it. -/
def publicKeyOf? (fields : List Element) : Option (Option Bytes) :=
  match fields.dropWhile isAttributes with
  | [] => some none
  | e :: rest =>
    if isContextTag e.tag ∧ e.tag &&& 0x1f = 1 then
      if e.tag = publicKeyTag ∧ rest.all isExtension then (wholeBits? e.content).map some else none
    else if (e :: rest).all isExtension then some none
    else none

def decode? (b : Bytes) : Option PrivateKeyInfo := do
  let content ← only? sequenceTag b
  let (version, rest) ← expect? integerTag content
  let (algorithm, rest) ← algorithm? rest
  let (key, rest) ← expect? octetStringTag rest
  let publicKey ← publicKeyOf? (← elements? rest)
  if version = [0] ∧ publicKey = none ∨ version = [1] ∧ publicKey.isSome then
    some ⟨algorithm, key, publicKey⟩
  else none

/-- The document as bytes: version 1 with a public key, else version 0. -/
def encode (i : PrivateKeyInfo) : Bytes :=
  sequence
    [natural (if i.publicKey.isSome then 1 else 0), i.algorithm.encode, element octetStringTag i.key,
      match i.publicKey with
      | some key => element publicKeyTag (0 :: key)
      | none => []]

end PrivateKeyInfo

def publicKeyInfo? (b : Bytes) : Option (Algorithm × Bytes) := do
  let content ← only? sequenceTag b
  let (algorithm, rest) ← algorithm? content
  let bits ← only? bitStringTag rest
  let key ← wholeBits? bits
  return (algorithm, key)

end Der
end PasswordVault
