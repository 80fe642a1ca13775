import PasswordVault.Der
import PasswordVault.Proofs.Bytes

/-!
# DER — no more is read than there is

The content of an element and what follows it are parts of the byte string that they were read from, so a
number that is read has a shortest form within the length of its document.

- `Der.length_of_read?`: the parts of an element;
- `Der.widthOf_of_naturals?`: natural numbers in a row.
-/

namespace PasswordVault

/-- A byte string spells no number that needs more bytes. -/
theorem Bytes.widthOf_toNat_le (b : Bytes) : widthOf (toNat b) ≤ b.length := by
  by_cases hzero : toNat b = 0
  · rw [hzero]
    exact Nat.zero_le _
  · have hless : 256 ^ (widthOf (toNat b) - 1) < 256 ^ b.length :=
      Nat.lt_of_le_of_lt (pow_widthOf_le hzero) (toNat_lt b)
    have hwidth := (Nat.pow_lt_pow_iff_right (by decide)).1 hless
    omega

namespace Der

variable {b content rest : Bytes} {tag : Tag}

/-- An element takes more bytes than its content, for its tag and its length. -/
theorem length_of_read? {e : Element} (h : read? b = some (e, rest)) :
    e.content.length + rest.length < b.length := by
  cases b with
  | nil => cases h
  | cons tag more =>
      simp only [read?, Option.bind_eq_bind, Option.bind_eq_some_iff, Prod.exists] at h
      obtain ⟨n, after, hlength, h⟩ := h
      have hafter := length_lt_of_readLength? hlength
      split at h
      case isTrue => cases h
      case isFalse =>
        cases h
        rw [List.length_take, List.length_drop, List.length_cons]
        omega

theorem length_of_expect? (h : expect? tag b = some (content, rest)) :
    content.length + rest.length < b.length := by
  simp only [expect?, Option.bind_eq_bind, Option.bind_eq_some_iff, Prod.exists] at h
  obtain ⟨e, after, hread, h⟩ := h
  split at h
  case isTrue =>
    cases h
    exact length_of_read? hread
  case isFalse => cases h

/-- A document has a greatest length, and its content is shorter. -/
theorem length_of_only? (h : only? tag b = some content) : content.length < maxLength := by
  simp only [only?, Option.bind_eq_bind] at h
  split at h
  case isTrue => cases h
  case isFalse hlength =>
    simp only [Option.bind_eq_some_iff, Prod.exists] at h
    obtain ⟨found, after, hread, h⟩ := h
    have hparts := length_of_expect? hread
    split at h
    case isTrue =>
      cases h
      omega
    case isFalse => cases h

/-- A number is not longer than the bytes it is read from. -/
theorem widthOf_of_natural? {n : Nat} (h : natural? b = some (n, rest)) :
    Bytes.widthOf n + rest.length < b.length := by
  simp only [natural?, Option.bind_eq_bind, Option.bind_eq_some_iff, Prod.exists] at h
  obtain ⟨content, after, hread, h⟩ := h
  have hparts := length_of_expect? hread
  have hwidth := Bytes.widthOf_toNat_le content
  split at h
  case isTrue =>
    cases h
    omega
  case isFalse => cases h

/-- Natural numbers in a row are each shorter than what they are read from. -/
theorem widthOf_of_naturals? {count : Nat} {ns : List Nat} (h : naturals? count b = some ns) :
    ∀ n ∈ ns, Bytes.widthOf n < b.length := by
  induction count generalizing b ns with
  | zero =>
      rw [naturals?] at h
      split at h
      case isTrue =>
        cases h
        exact nofun
      case isFalse => cases h
  | succ count ih =>
      simp only [naturals?, Option.bind_eq_bind, Option.bind_eq_some_iff, Prod.exists] at h
      obtain ⟨first, rest, hfirst, more, hmore, h⟩ := h
      cases h
      have hwidth := widthOf_of_natural? hfirst
      rintro n hn
      rcases List.mem_cons.1 hn with rfl | hn
      · omega
      · have hlater := ih hmore n hn
        omega

end Der
end PasswordVault
