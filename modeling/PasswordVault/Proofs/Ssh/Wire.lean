import PasswordVault.Proofs.Bytes
import PasswordVault.Ssh.Wire

/-!
# The SSH wire format — strings and numbers are read in one way

A string is read off the data exactly if its length stands in front of it and all of it is there, so
nothing is read that lies outside the data, and strings in a row are read as the ones that were written.
The content of a natural number is the only byte string that spells the number without a sign and without
a byte that could be left out.

- `Ssh.readString?_eq_some_iff`: when a string is read;
- `Ssh.readsAs_iff`: when the rest of the data is read as given strings;
- `Ssh.IsNatural.eq`: a byte string that is the content of a number is the one that is written for it.
-/

namespace PasswordVault
namespace Ssh

/-! ## Strings -/

theorem length_string (content : Bytes) : (string content).length = 4 + content.length := by
  rw [string, List.length_append, Bytes.length_ofNat]

/-- A string on the wire is read wherever it stands, if its length has four bytes. -/
theorem readString?_append {content : Bytes} (h : content.length < 2 ^ 32) (front rest : Bytes) :
    readString? (front ++ (string content ++ rest)) front.length =
      some (content, front.length + 4 + content.length) := by
  have hprefix : (Bytes.ofNat 4 content.length).length = 4 := Bytes.length_ofNat _ _
  have hlong : ¬ (string content ++ rest).length < 4 := by
    rw [List.length_append, length_string]
    omega
  have hlength : Bytes.toNat ((string content ++ rest).take 4) = content.length := by
    rw [string, List.append_assoc, List.take_left' hprefix]
    exact Bytes.toNat_ofNat h
  have hcontent : (((string content ++ rest).drop 4).take content.length) = content := by
    rw [string, List.append_assoc, List.drop_left' hprefix, List.take_left]
  simp only [readString?, List.drop_left, if_neg hlong, hlength, hcontent, if_true]

/-- Four bytes are the length that they spell. -/
theorem ofNat_toNat_take {rest : Bytes} (h : 4 ≤ rest.length) :
    Bytes.toNat (rest.take 4) < 2 ^ 32 ∧
      Bytes.ofNat 4 (Bytes.toNat (rest.take 4)) = rest.take 4 := by
  have hfour : (rest.take 4).length = 4 := by
    rw [List.length_take]
    omega
  have hspelled := Bytes.ofNat_toNat (rest.take 4)
  have hshort := Bytes.toNat_lt (rest.take 4)
  rw [hfour] at hspelled hshort
  exact ⟨hshort, hspelled⟩

/-- What is read is the string that stands at the offset. -/
theorem eq_string_of_readString? {data content : Bytes} {offset next : Nat}
    (h : readString? data offset = some (content, next)) :
    content.length < 2 ^ 32 ∧ next = offset + 4 + content.length ∧
      data.drop offset = string content ++ data.drop next := by
  simp only [readString?] at h
  split at h
  case isTrue => cases h
  case isFalse hlong =>
    split at h
    case isFalse => cases h
    case isTrue hlength =>
      cases h
      obtain ⟨hshort, hspelled⟩ := ofNat_toNat_take (Nat.le_of_not_lt hlong)
      have hrest : data.drop (offset + 4 + Bytes.toNat ((data.drop offset).take 4)) =
          ((data.drop offset).drop 4).drop (Bytes.toNat ((data.drop offset).take 4)) := by
        rw [List.drop_drop, List.drop_drop, Nat.add_assoc]
      rw [string, hlength]
      refine ⟨hshort, rfl, ?_⟩
      rw [hspelled, hrest, List.append_assoc, List.take_append_drop, List.take_append_drop]

/-- A string is read exactly where it stands. -/
theorem readString?_eq_some_iff {data content : Bytes} {offset next : Nat} :
    readString? data offset = some (content, next) ↔
      content.length < 2 ^ 32 ∧ next = offset + 4 + content.length ∧
        data.drop offset = string content ++ data.drop next := by
  constructor
  · exact eq_string_of_readString?
  · rintro ⟨hshort, rfl, hdrop⟩
    have hoffset : (data.take offset).length = offset := by
      have hlength := congrArg List.length hdrop
      rw [List.length_append, length_string, List.length_drop] at hlength
      rw [List.length_take]
      omega
    have hread := readString?_append hshort (data.take offset) (data.drop (offset + 4 + content.length))
    rwa [hoffset, ← hdrop, List.take_append_drop] at hread

/-- What is read lies within the data, behind the four bytes of its length. -/
theorem readString?_within {data content : Bytes} {offset next : Nat}
    (h : readString? data offset = some (content, next)) :
    offset + 4 ≤ next ∧ next ≤ data.length ∧ content = (data.take next).drop (offset + 4) := by
  obtain ⟨-, rfl, hdrop⟩ := eq_string_of_readString? h
  have hlength := congrArg List.length hdrop
  rw [List.length_append, length_string, List.length_drop, List.length_drop] at hlength
  refine ⟨Nat.le_add_right _ _, ?_, ?_⟩
  · omega
  · have hcontent : data.drop (offset + 4) = content ++ data.drop (offset + 4 + content.length) := by
      rw [← List.drop_drop, hdrop, string, List.append_assoc,
        List.drop_left' (Bytes.length_ofNat 4 content.length)]
    rw [List.drop_take, hcontent, Nat.add_sub_cancel_left, List.take_left]

/-! ## Strings in a row -/

/-- Whether the strings that are read one after another from an offset are the given ones, and end with
the data. -/
def ReadsAs (data : Bytes) : (offset : Nat) → List Bytes → Prop
  | offset, [] => offset = data.length
  | offset, content :: rest =>
    ∃ next, readString? data offset = some (content, next) ∧ ReadsAs data next rest

/-- The data are read as given strings exactly if they are these strings. -/
theorem readsAs_iff {data : Bytes} {offset : Nat} (h : offset ≤ data.length) (contents : List Bytes) :
    ReadsAs data offset contents ↔
      (∀ content ∈ contents, content.length < 2 ^ 32) ∧ data.drop offset = contents.flatMap string := by
  induction contents generalizing offset with
  | nil =>
      rw [ReadsAs, List.flatMap_nil, List.drop_eq_nil_iff]
      simp
      omega
  | cons content rest ih =>
      rw [ReadsAs, List.forall_mem_cons, List.flatMap_cons]
      constructor
      · rintro ⟨next, hread, hrest⟩
        obtain ⟨hshort, -, hdrop⟩ := eq_string_of_readString? hread
        obtain ⟨hshorts, hmore⟩ := (ih (readString?_within hread).2.1).1 hrest
        exact ⟨⟨hshort, hshorts⟩, by rw [hdrop, hmore]⟩
      · rintro ⟨⟨hshort, hshorts⟩, hdrop⟩
        -- The rest begins behind the length and the bytes of the first string.
        have hmore : data.drop (offset + 4 + content.length) = rest.flatMap string := by
          rw [Nat.add_assoc, ← length_string, ← List.drop_drop, hdrop, List.drop_left]
        have hread : readString? data offset = some (content, offset + 4 + content.length) :=
          readString?_eq_some_iff.2 ⟨hshort, rfl, by rw [hdrop, hmore]⟩
        exact ⟨_, hread, (ih (readString?_within hread).2.1).2 ⟨hshorts, hmore⟩⟩

/-- The data are read in one way. -/
theorem ReadsAs.unique {data : Bytes} {offset : Nat} {contents contents' : List Bytes}
    (h : ReadsAs data offset contents) (h' : ReadsAs data offset contents') : contents = contents' := by
  -- At the end of the data there is no room for the length of another string.
  have hend : ∀ {content : Bytes} {next : Nat},
      readString? data data.length ≠ some (content, next) := by
    intro content next hread
    obtain ⟨hnext, hdata, -⟩ := readString?_within hread
    omega
  induction contents generalizing offset contents' with
  | nil =>
      cases contents' with
      | nil => rfl
      | cons content' rest' =>
          obtain rfl : offset = data.length := h
          obtain ⟨next, hread, -⟩ := h'
          exact absurd hread hend
  | cons content rest ih =>
      obtain ⟨next, hread, hrest⟩ := h
      cases contents' with
      | nil =>
          obtain rfl : offset = data.length := h'
          exact absurd hread hend
      | cons content' rest' =>
          obtain ⟨next', hread', hrest'⟩ := h'
          rw [hread] at hread'
          cases hread'
          rw [ih hrest hrest']

/-! ## Natural numbers -/

/-- Whether a byte string is the content of a natural number: it spells the number, its top bit is clear,
and it starts with a zero byte only to keep it so. -/
structure IsNatural (content : Bytes) (n : Nat) : Prop where
  value : Bytes.toNat content = n
  positive : ∀ b ∈ content.head?, b < 0x80
  shortest : ∀ rest, content = 0 :: rest → ∃ b ∈ rest.head?, 0x80 ≤ b

theorem naturalContent_of_minimal {n : Nat} {b : UInt8} {rest : Bytes}
    (h : Bytes.minimal n = b :: rest) :
    naturalContent n = if 0x80 ≤ b then 0 :: b :: rest else b :: rest := by
  rw [naturalContent, h]

/-- What is written for a number is its content. -/
theorem isNatural_naturalContent (n : Nat) : IsNatural (naturalContent n) n := by
  have hvalue := Bytes.toNat_minimal n
  cases hminimal : Bytes.minimal n with
  | nil =>
      rw [hminimal] at hvalue
      rw [naturalContent, hminimal]
      exact ⟨hvalue, nofun, nofun⟩
  | cons b rest =>
      have hne := Bytes.ne_zero_of_minimal hminimal
      rw [hminimal] at hvalue
      rw [naturalContent_of_minimal hminimal]
      -- A zero is put in front exactly if the first byte has its high bit.
      split
      case isTrue hhigh =>
        refine ⟨by rw [Bytes.toNat_cons]; simpa using hvalue, ?_, ?_⟩
        · rintro _ ⟨⟩
          decide
        · rintro _ ⟨⟩
          exact ⟨b, rfl, hhigh⟩
      case isFalse hlow =>
        refine ⟨hvalue, ?_, ?_⟩
        · rintro _ ⟨⟩
          exact UInt8.not_le.1 hlow
        · rintro _ ⟨⟩
          exact absurd rfl hne

/-- A number has one content. -/
theorem IsNatural.eq {content : Bytes} {n : Nat} (h : IsNatural content n) : content = naturalContent n := by
  obtain ⟨rfl, hpositive, hshortest⟩ := h
  cases content with
  | nil => rfl
  | cons b rest =>
      have hclear : b < 0x80 := hpositive b rfl
      by_cases hb : b = 0
      · subst hb
        -- The zero byte keeps the top bit of the next byte apart, which is then the first of the number.
        obtain ⟨c, hc, hhigh⟩ := hshortest rest rfl
        obtain ⟨more, rfl⟩ := List.head?_eq_some_iff.1 hc
        have hne : c ≠ 0 := by
          rintro rfl
          exact absurd hhigh (by decide)
        have hvalue : Bytes.toNat (0 :: c :: more) = Bytes.toNat (c :: more) := by
          rw [Bytes.toNat_cons]
          simp
        rw [hvalue, naturalContent_of_minimal (Bytes.minimal_toNat_cons hne more), if_pos hhigh]
      · rw [naturalContent_of_minimal (Bytes.minimal_toNat_cons hb rest),
          if_neg (UInt8.not_le.2 hclear)]

/-- A content is longer than the shortest form of its number by one byte at most. -/
theorem length_naturalContent_le (n : Nat) : (naturalContent n).length ≤ Bytes.widthOf n + 1 := by
  have hlength := Bytes.length_minimal n
  cases hminimal : Bytes.minimal n with
  | nil => simp [naturalContent, hminimal]
  | cons b rest =>
      rw [hminimal] at hlength
      rw [naturalContent_of_minimal hminimal, ← hlength]
      split
      · exact Nat.le_refl _
      · exact Nat.le_succ _

example : naturalContent 0 = [] ∧ naturalContent 0x80 = [0, 0x80] ∧ naturalContent 65537 = [1, 0, 1] := by
  decide

end Ssh
end PasswordVault
