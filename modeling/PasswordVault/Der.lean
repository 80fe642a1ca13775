import PasswordVault.Bytes

/-!
# DER

Elements of the distinguished encoding: a tag, a length in its shortest form, and the content. The
reader takes one element off the front of a byte string; the writer puts one together.
-/

namespace PasswordVault
namespace Der

abbrev Tag := UInt8

def integerTag : Tag := 0x02
def bitStringTag : Tag := 0x03
def octetStringTag : Tag := 0x04
def nullTag : Tag := 0x05
def oidTag : Tag := 0x06
def sequenceTag : Tag := 0x30

def maxLength : Nat := 0xfffffff

structure Element where
  tag : Tag
  content : Bytes
deriving DecidableEq

/-! ## Writing -/

/-- A length: one byte below 128, else the number of its bytes and the bytes. -/
def lengthBytes (n : Nat) : Bytes :=
  if n < 128 then [UInt8.ofNat n]
  else UInt8.ofNat (128 + Bytes.widthOf n) :: Bytes.minimal n

def Element.encode (e : Element) : Bytes := e.tag :: (lengthBytes e.content.length ++ e.content)

def element (tag : Tag) (content : Bytes) : Bytes := Element.encode ⟨tag, content⟩

def sequence (parts : List Bytes) : Bytes := element sequenceTag parts.flatten

/-- The content of a natural number: its shortest form, with a zero byte in front of a set top bit. -/
def naturalContent (n : Nat) : Bytes :=
  match Bytes.minimal n with
  | [] => [0]
  | b :: rest => if 0x80 ≤ b then 0 :: b :: rest else b :: rest

def natural (n : Nat) : Bytes := element integerTag (naturalContent n)

def null : Bytes := element nullTag []

/-! ## Reading -/

/-- A length in its shortest form of at most four bytes, and what follows. -/
def readLength? : Bytes → Option (Nat × Bytes)
  | [] => none
  | b :: rest =>
    if b < 0x80 then some (b.toNat, rest)
    else
      let width := b.toNat - 128
      if width = 0 ∨ 4 < width ∨ rest.length < width then none
      else
        let n := Bytes.toNat (rest.take width)
        -- Writing the length again shows whether it was in its shortest form.
        if lengthBytes n = b :: rest.take width then some (n, rest.drop width) else none

/-- The first element of a byte string, and what follows. -/
def read? : Bytes → Option (Element × Bytes)
  | [] => none
  | tag :: rest => do
    let (n, after) ← readLength? rest
    if after.length < n then none else some (⟨tag, after.take n⟩, after.drop n)

/-- The content of the first element, which must have the given tag, and what follows. -/
def expect? (tag : Tag) (b : Bytes) : Option (Bytes × Bytes) := do
  let (e, rest) ← read? b
  if e.tag = tag then some (e.content, rest) else none

/-- The content of the only element of a byte string, which must have the given tag. The byte string must
not be longer than a document can be. -/
def only? (tag : Tag) (b : Bytes) : Option Bytes := do
  if maxLength < b.length then none
  let (content, rest) ← expect? tag b
  if rest = [] then some content else none

/-- The natural number that comes first, and what follows. -/
def natural? (b : Bytes) : Option (Nat × Bytes) := do
  let (content, rest) ← expect? integerTag b
  let n := Bytes.toNat content
  if content = naturalContent n then some (n, rest) else none

/-- The natural numbers that a byte string consists of, `count` of them. -/
def naturals? : (count : Nat) → Bytes → Option (List Nat)
  | 0, b => if b = [] then some [] else none
  | count + 1, b => do
    let (n, rest) ← natural? b
    let more ← naturals? count rest
    return n :: more

/-! ## Elements in a row -/

/-- A length takes at least a byte, which is why the readers of elements end. -/
theorem length_lt_of_readLength? {b rest : Bytes} {n : Nat} (h : readLength? b = some (n, rest)) :
    rest.length < b.length := by
  unfold readLength? at h
  split at h
  · simp at h
  · split at h
    · simp at h; simp [h.2]
    · simp only at h
      split at h
      · simp at h
      · split at h
        · simp at h
          simp only [← h.2, List.length_drop, List.length_cons]
          omega
        · simp at h

/-- An element takes at least a byte. -/
theorem length_lt_of_read? {b rest : Bytes} {e : Element} (h : read? b = some (e, rest)) :
    rest.length < b.length := by
  unfold read? at h
  split at h
  · simp at h
  · simp only [Option.bind_eq_bind, Option.bind_eq_some_iff] at h
    obtain ⟨⟨n, after⟩, hlength, h⟩ := h
    have := length_lt_of_readLength? hlength
    split at h
    · simp at h
    · simp at h
      simp only [← h.2, List.length_drop, List.length_cons]
      omega

def elements? (b : Bytes) : Option (List Element) :=
  match b with
  | [] => some []
  | x :: xs => match h : read? (x :: xs) with
    | none => none
    | some (e, rest) =>
      have := length_lt_of_read? h
      (elements? rest).map (e :: ·)
termination_by b.length
decreasing_by simp only [List.length_cons] at *; omega

def isContextTag (tag : Tag) : Bool := 0x80 ≤ tag ∧ tag < 0xc0 ∧ tag &&& 0x1f ≠ 0x1f

def isKnownTag (tag : Tag) : Bool :=
  tag ∈ [0x01, 0x02, 0x03, 0x04, 0x05, 0x06, 0x09, 0x0a, 0x0c, 0x12, 0x13, 0x14, 0x15, 0x16, 0x17,
    0x18, 0x1a, 0x1e, 0x30, 0x31]
  || (0x40 ≤ tag && tag &&& 0x1f ≠ 0x1f)

end Der
end PasswordVault
