import PasswordVault.Proofs.Text.Base64Grammar
import Mathlib.Data.String.Basic

/-!
# Texts — order of characters and order of bytes

Texts are compared character by character. A table that compares their UTF-8 bytes puts them into the
same order (`Bytes.ofText_lt_ofText_iff`), for the first byte in which two characters differ decides as
the characters do.
-/

namespace PasswordVault
namespace Bytes

/-- The first group of six bits in which two codes differ decides between them. -/
theorem sixes_lt {m n : Nat} (h : m < n) :
    m / 262144 < n / 262144 ∨ m / 262144 = n / 262144 ∧
      (m / 4096 % 64 < n / 4096 % 64 ∨ m / 4096 % 64 = n / 4096 % 64 ∧
        (m / 64 % 64 < n / 64 % 64 ∨ m / 64 % 64 = n / 64 % 64 ∧ m % 64 < n % 64)) := by
  have hplace : ∀ a b : Nat, a < b → a / 64 < b / 64 ∨ a / 64 = b / 64 ∧ a % 64 < b % 64 := by
    intro a b hab
    omega
  rcases hplace _ _ h with hhigh | hlow
  · rcases hplace _ _ hhigh with hhigh | hlow
    · rcases hplace _ _ hhigh with hhigh | hlow <;> omega
    · omega
  · omega

/-- Whatever follows, the bytes of the smaller character come first. -/
theorem utf8EncodeChar_append_lt {c d : Char} (h : c < d) (x y : Bytes) :
    String.utf8EncodeChar c ++ x < String.utf8EncodeChar d ++ y := by
  have hlt : c.val.toNat < d.val.toNat := UInt32.lt_iff_toNat_lt.1 h
  have hd : d.val.toNat < 1114112 := by
    rcases d.valid with hlow | ⟨-, hhigh⟩
    · exact Nat.lt_trans hlow (by decide)
    · exact hhigh
  have hbits := sixes_lt hlt
  have hbyte : ∀ n : Nat, n < 256 → (UInt8.ofNat n).toNat = n := fun n => toNat_ofNat_of_lt
  simp only [String.utf8EncodeChar]
  generalize c.val.toNat = m at *
  generalize d.val.toNat = n at *
  have hm8 : m / 262144 % 8 = m / 262144 := by omega
  have hn8 : n / 262144 % 8 = n / 262144 := by omega
  -- One case for each pair of lengths; the smaller character is not the longer one.
  split_ifs <;>
    simp (disch := omega) only [List.cons_append, List.nil_append, List.cons_lt_cons_iff,
      UInt8.lt_iff_toNat_lt, ← UInt8.toNat_inj, hbyte, hm8, hn8] <;>
    omega

/-- The order of characters is the order of their bytes. -/
theorem flatMap_utf8EncodeChar_lt {cs ds : List Char} (h : cs < ds) :
    cs.flatMap String.utf8EncodeChar < ds.flatMap String.utf8EncodeChar := by
  induction h with
  | @nil d ds =>
      rw [List.flatMap_nil, List.flatMap_cons]
      cases hd : String.utf8EncodeChar d with
      | nil => exact absurd hd String.utf8EncodeChar_ne_nil
      | cons => exact .nil
  | cons _ ih =>
      rw [List.flatMap_cons, List.flatMap_cons]
      exact List.append_left_lt ih
  | rel hcd =>
      rw [List.flatMap_cons, List.flatMap_cons]
      exact utf8EncodeChar_append_lt hcd _ _

/-- Bytes are in the order of the characters that they spell. -/
theorem ofText_lt_ofText_iff {s t : String} : ofText s < ofText t ↔ s < t := by
  -- Both orders are linear, so one direction is enough.
  have hmono : ∀ s t : String, s < t → ofText s < ofText t := by
    intro s t hst
    have hchars : ∀ s : String, ofText s = s.toList.flatMap String.utf8EncodeChar := by
      intro s
      rw [← ofText_ofList, String.ofList_toList]
    rw [hchars, hchars]
    exact flatMap_utf8EncodeChar_lt (String.lt_iff_toList_lt.1 hst)
  constructor
  · intro h
    rcases lt_trichotomy s t with hst | rfl | hts
    · exact hst
    · exact absurd h (List.lt_irrefl _)
    · exact absurd (hmono t s hts) (List.lt_asymm h)
  · exact hmono s t

end Bytes
end PasswordVault
