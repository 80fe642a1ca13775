import PasswordVault.Der.PrivateKeyInfo
import PasswordVault.Proofs.Bytes

/-!
# DER — reading what was written

Whatever follows it, an element that was written is read back, unless it is longer than a document can
be: a length of more than four bytes is not read. A part of a document is no longer than the document,
so the length of the whole is all that the parts need.

- `Der.read?_encode`: elements are read back;
- `Der.naturals?_flatten`: natural numbers in a row are read back;
- `Der.PrivateKeyInfo.decode?_encode`: so are private key documents, of either version.
-/

namespace PasswordVault
namespace Der

/-! ## Lengths -/

/-- A length that a document can have takes at most four bytes. -/
theorem widthOf_le_four {n : Nat} (h : n ≤ maxLength) : Bytes.widthOf n ≤ 4 := by
  by_contra hwide
  have hn : n ≠ 0 := by
    rintro rfl
    exact hwide (by decide)
  have hleast : 256 ^ 4 ≤ n :=
    Nat.le_trans (Nat.pow_le_pow_right (by decide) (by omega)) (Bytes.pow_widthOf_le hn)
  simp only [maxLength] at h
  omega

theorem widthOf_pos {n : Nat} (h : n ≠ 0) : 0 < Bytes.widthOf n := by
  rw [Bytes.widthOf, if_neg h]
  exact Nat.succ_pos _

/-- A length up to the greatest one is read as it is written, whatever follows. -/
theorem readLength?_lengthBytes {n : Nat} (h : n ≤ maxLength) (rest : Bytes) :
    readLength? (lengthBytes n ++ rest) = some (n, rest) := by
  -- A short length is its own byte; a long one follows the number of its bytes, at most four.
  by_cases hshort : n < 128
  · have hvalue : (UInt8.ofNat n).toNat = n := by
      rw [UInt8.toNat_ofNat']
      omega
    have hbelow : UInt8.ofNat n < 0x80 := UInt8.lt_iff_toNat_lt.2 (by rw [hvalue]; exact hshort)
    rw [lengthBytes, if_pos hshort, List.singleton_append, readLength?, if_pos hbelow, hvalue]
  · have hfour := widthOf_le_four h
    have hpos : 0 < Bytes.widthOf n := widthOf_pos (by omega)
    have hvalue : (UInt8.ofNat (128 + Bytes.widthOf n)).toNat = 128 + Bytes.widthOf n := by
      rw [UInt8.toNat_ofNat']
      omega
    have hwidth : (UInt8.ofNat (128 + Bytes.widthOf n)).toNat - 128 = (Bytes.minimal n).length := by
      rw [hvalue, Bytes.length_minimal, Nat.add_sub_cancel_left]
    have habove : ¬ UInt8.ofNat (128 + Bytes.widthOf n) < 0x80 := by
      rw [UInt8.lt_iff_toNat_lt, hvalue]
      exact Nat.not_lt.2 (Nat.le_add_right 128 _)
    have hlength : lengthBytes n = UInt8.ofNat (128 + Bytes.widthOf n) :: Bytes.minimal n := by
      rw [lengthBytes, if_neg hshort]
    have hfits : ¬ ((Bytes.minimal n).length = 0 ∨ 4 < (Bytes.minimal n).length ∨
        (Bytes.minimal n ++ rest).length < (Bytes.minimal n).length) := by
      rw [List.length_append, Bytes.length_minimal]
      omega
    rw [hlength, List.cons_append, readLength?, if_neg habove]
    simp only [hwidth, if_neg hfits, List.take_left, List.drop_left, Bytes.toNat_minimal, hlength, if_true]

/-! ## Elements -/

theorem length_encode (e : Element) :
    e.encode.length = 1 + (lengthBytes e.content.length).length + e.content.length := by
  rw [Element.encode, List.length_cons, List.length_append]
  omega

theorem length_content_le (e : Element) : e.content.length ≤ e.encode.length := by
  rw [length_encode]
  omega

theorem le_length_element (tag : Tag) (content : Bytes) :
    content.length ≤ (element tag content).length :=
  length_content_le ⟨tag, content⟩

theorem length_element_of_lt {tag : Tag} {content : Bytes} (h : content.length < 128) :
    (element tag content).length = content.length + 2 := by
  rw [element, length_encode]
  simp only [lengthBytes, if_pos h, List.length_singleton]
  omega

/-- An element is read back, whatever follows it. -/
theorem read?_encode {e : Element} (h : e.encode.length ≤ maxLength) (rest : Bytes) :
    read? (e.encode ++ rest) = some (e, rest) := by
  have hlength := Nat.le_trans (length_content_le e) h
  have hcontent : ¬ (e.content ++ rest).length < e.content.length := by
    rw [List.length_append]
    omega
  rw [Element.encode, List.cons_append, List.append_assoc, read?, Option.bind_eq_bind,
    readLength?_lengthBytes hlength, Option.bind_some]
  simp only [if_neg hcontent, List.take_left, List.drop_left]

theorem expect?_element {tag : Tag} {content : Bytes} (h : (element tag content).length ≤ maxLength)
    (rest : Bytes) : expect? tag (element tag content ++ rest) = some (content, rest) := by
  rw [element] at h ⊢
  rw [expect?, read?_encode h, Option.bind_eq_bind, Option.bind_some]
  exact if_pos rfl

theorem expect?_element_end {tag : Tag} {content : Bytes}
    (h : (element tag content).length ≤ maxLength) :
    expect? tag (element tag content) = some (content, []) := by
  have hread := expect?_element h []
  rwa [List.append_nil] at hread

theorem only?_element {tag : Tag} {content : Bytes} (h : (element tag content).length ≤ maxLength) :
    only? tag (element tag content) = some content := by
  simp [only?, expect?_element_end h, Nat.not_lt.2 h]

/-- Elements in a row are read back. -/
theorem elements?_flatten {es : List Element}
    (h : (es.map Element.encode).flatten.length ≤ maxLength) :
    elements? (es.map Element.encode).flatten = some es := by
  induction es with
  | nil => rw [List.map_nil, List.flatten_nil, elements?]
  | cons e rest ih =>
      rw [List.map_cons, List.flatten_cons, List.length_append] at h
      have hread := read?_encode (Nat.le_of_add_right_le h) (rest.map Element.encode).flatten
      have hrest := ih (by omega)
      rw [List.map_cons, List.flatten_cons]
      -- The reader asks for a first byte before it reads, which is the tag.
      rw [Element.encode, List.cons_append] at hread ⊢
      rw [elements?]
      split
      case h_1 hnone => rw [hread] at hnone; cases hnone
      case h_2 e' rest' hsome =>
          rw [hread] at hsome
          cases hsome
          rw [hrest, Option.map_some]

/-! ## Natural numbers -/

/-- The zero byte in front of a number does not change it. -/
theorem toNat_naturalContent (n : Nat) : Bytes.toNat (naturalContent n) = n := by
  have hminimal := Bytes.toNat_minimal n
  rw [naturalContent]
  split
  case h_1 hempty =>
      rw [hempty] at hminimal
      rw [← hminimal]
      rfl
  case h_2 b rest hbytes =>
      rw [hbytes] at hminimal
      split
      case isTrue => rw [← hminimal]; simp [Bytes.toNat]
      case isFalse => exact hminimal

theorem natural?_natural {n : Nat} (h : (natural n).length ≤ maxLength) (rest : Bytes) :
    natural? (natural n ++ rest) = some (n, rest) := by
  rw [natural] at h ⊢
  rw [natural?, expect?_element h, Option.bind_eq_bind, Option.bind_some]
  simp only [toNat_naturalContent, if_true]

/-- Natural numbers in a row are read back. -/
theorem naturals?_flatten {ns : List Nat} (h : (ns.map natural).flatten.length ≤ maxLength) :
    naturals? ns.length (ns.map natural).flatten = some ns := by
  induction ns with
  | nil => rfl
  | cons n rest ih =>
      rw [List.map_cons, List.flatten_cons, List.length_append] at h
      have hfirst := natural?_natural (Nat.le_of_add_right_le h) (rest.map natural).flatten
      have hrest := ih (by omega)
      rw [List.map_cons, List.flatten_cons, List.length_cons, naturals?, hfirst]
      simp [hrest]

/-! ## Sequences -/

theorem length_flatten_le (parts : List Bytes) : parts.flatten.length ≤ (sequence parts).length :=
  le_length_element sequenceTag parts.flatten

theorem only?_sequence {parts : List Bytes} (h : (sequence parts).length ≤ maxLength) :
    only? sequenceTag (sequence parts) = some parts.flatten :=
  only?_element h

/-! ## Private key documents -/

/-- An algorithm identifier is read back, with parameters or without. -/
theorem algorithm?_encode {a : Algorithm} (h : a.encode.length ≤ maxLength) (rest : Bytes) :
    algorithm? (a.encode ++ rest) = some (a, rest) := by
  obtain ⟨oid, parameters⟩ := a
  have hparts := Nat.le_trans (length_flatten_le _) h
  rw [Algorithm.encode, sequence] at h ⊢
  rw [algorithm?, expect?_element h]
  cases parameters with
  | none =>
      simp only [List.flatten_cons, List.flatten_nil, List.append_nil] at hparts
      simp [expect?_element_end hparts]
  | some e =>
      simp only [List.flatten_cons, List.flatten_nil, List.append_nil, List.length_append] at hparts
      have hoid := expect?_element (Nat.le_of_add_right_le hparts) e.encode
      have hread := read?_encode (e := e) (by omega) []
      rw [List.append_nil] at hread
      have hne : e.encode ≠ [] := List.cons_ne_nil _ _
      simp [hoid, hread, hne]

namespace PrivateKeyInfo

def fields (i : PrivateKeyInfo) : List Element :=
  (i.publicKey.map fun key => ⟨publicKeyTag, 0 :: key⟩).toList

/-- A document is one sequence of its version, its algorithm, its key and the fields after it. -/
theorem encode_eq (i : PrivateKeyInfo) :
    i.encode = element sequenceTag (element integerTag [if i.publicKey.isSome then 1 else 0] ++
      (i.algorithm.encode ++
        (element octetStringTag i.key ++ (i.fields.map Element.encode).flatten))) := by
  obtain ⟨algorithm, key, publicKey⟩ := i
  cases publicKey with
  | none => simp [encode, fields, sequence, natural]; rfl
  | some found => simp [encode, fields, sequence, natural, element]; rfl

theorem length_key_le (i : PrivateKeyInfo) : i.key.length ≤ i.encode.length := by
  have hkey := le_length_element octetStringTag i.key
  rw [encode_eq]
  refine Nat.le_trans ?_ (le_length_element _ _)
  simp only [List.length_append]
  omega

theorem publicKeyOf?_fields (i : PrivateKeyInfo) : publicKeyOf? i.fields = some i.publicKey := by
  obtain ⟨algorithm, key, publicKey⟩ := i
  cases publicKey with
  | none => rfl
  | some found =>
      have htag : isContextTag publicKeyTag ∧ publicKeyTag &&& 0x1f = 1 := by decide
      simp [publicKeyOf?, fields, isAttributes, htag, wholeBits?]

/-- A private key document is read back, whether or not it has a public key. -/
theorem decode?_encode {i : PrivateKeyInfo} (h : i.encode.length ≤ maxLength) :
    decode? i.encode = some i := by
  rw [encode_eq] at h ⊢
  -- Every field is within the length of the whole, which is all that its reader needs.
  have hparts := Nat.le_trans (le_length_element _ _) h
  simp only [List.length_append] at hparts
  rw [decode?, only?_element h]
  simp only [Option.bind_eq_bind, Option.bind_some]
  rw [expect?_element (by omega), Option.bind_some, algorithm?_encode (by omega), Option.bind_some,
    expect?_element (by omega), Option.bind_some, elements?_flatten (by omega), Option.bind_some,
    publicKeyOf?_fields, Option.bind_some]
  obtain ⟨algorithm, key, publicKey⟩ := i
  cases publicKey with
  | none => rfl
  | some found => rfl

end PrivateKeyInfo
end Der
end PasswordVault
