import PasswordVault.Bytes
import Mathlib.Algebra.Group.Nat.Defs
import Mathlib.Data.List.Induction

/-!
# Byte strings — numbers and text

A byte string of a given length and the number that it spells determine each other
(`Bytes.ofNat_toNat`, `Bytes.toNat_ofNat`), and the width of a number is the least that holds it
(`Bytes.lt_pow_widthOf`, `Bytes.pow_widthOf_le`). The shortest form of a number is the byte string that
spells it without a zero byte in front (`Bytes.minimal_toNat_cons`). A text is read back from its own bytes
(`Bytes.text?_ofText`).
-/

namespace PasswordVault
namespace Bytes

/-! ## Numbers -/

theorem toNat_concat (b : Bytes) (x : UInt8) : toNat (b ++ [x]) = toNat b * 256 + x.toNat := by
  simp [toNat, List.foldl_append]

/-- The first byte counts for the most. -/
theorem toNat_cons (b : UInt8) (rest : Bytes) :
    toNat (b :: rest) = b.toNat * 256 ^ rest.length + toNat rest := by
  induction rest using List.reverseRecOn with
  | nil => simp [toNat]
  | append_singleton front x ih =>
      rw [← List.cons_append, toNat_concat, ih, toNat_concat, List.length_append, List.length_singleton,
        Nat.pow_succ, Nat.add_mul, Nat.mul_assoc, Nat.add_assoc]

theorem toNat_lt (b : Bytes) : toNat b < 256 ^ b.length := by
  induction b using List.reverseRecOn with
  | nil => simp [toNat]
  | append_singleton rest x ih =>
      have hx : x.toNat < 256 := x.toNat_lt
      rw [toNat_concat, List.length_append, List.length_singleton, Nat.pow_succ]
      omega

/-- The bytes of a number of the right width are the ones that spell it. -/
theorem ofNat_toNat (b : Bytes) : ofNat b.length (toNat b) = b := by
  induction b using List.reverseRecOn with
  | nil => rfl
  | append_singleton rest x ih =>
      have hx : x.toNat < 256 := x.toNat_lt
      have hrest : (toNat rest * 256 + x.toNat) / 256 = toNat rest := by omega
      have hlast : UInt8.ofNat (toNat rest * 256 + x.toNat) = x := by
        apply UInt8.toNat_inj.1
        rw [UInt8.toNat_ofNat']
        omega
      rw [toNat_concat, List.length_append, List.length_singleton, ofNat, hrest, ih, hlast]

/-- A number that fits in the width is spelled without loss. -/
theorem toNat_ofNat {width n : Nat} (h : n < 256 ^ width) : toNat (ofNat width n) = n := by
  induction width generalizing n with
  | zero =>
      have hzero : n = 0 := by simpa using h
      simp [ofNat, toNat, hzero]
  | succ width ih =>
      have hhigh : n / 256 < 256 ^ width := by
        rw [Nat.pow_succ] at h
        omega
      have hlow : (UInt8.ofNat n).toNat = n % 256 := by simp
      rw [ofNat, toNat_concat, ih hhigh, hlow]
      omega

/-! ## Widths -/

/-- A number fits in as many bytes as it is said to need. -/
theorem lt_pow_widthOf (n : Nat) : n < 256 ^ widthOf n := by
  by_cases hn : n = 0
  · simp [widthOf, hn]
  · have hlog : n < 2 ^ (n.log2 + 1) := Nat.lt_log2_self
    have hpow : (256 : Nat) ^ widthOf n = 2 ^ (8 * (n.log2 / 8 + 1)) := by
      rw [widthOf, if_neg hn, Nat.pow_mul]
    calc
      n < 2 ^ (n.log2 + 1) := hlog
      _ ≤ 2 ^ (8 * (n.log2 / 8 + 1)) := Nat.pow_le_pow_right (by decide) (by omega)
      _ = 256 ^ widthOf n := hpow.symm

/-- No shorter byte string holds a number than one of its width. -/
theorem pow_widthOf_le {n : Nat} (hn : n ≠ 0) : 256 ^ (widthOf n - 1) ≤ n := by
  have hpow : (256 : Nat) ^ (widthOf n - 1) = 2 ^ (8 * (n.log2 / 8)) := by
    rw [widthOf, if_neg hn, Nat.add_sub_cancel, Nat.pow_mul]
  calc
    256 ^ (widthOf n - 1) = 2 ^ (8 * (n.log2 / 8)) := hpow
    _ ≤ 2 ^ n.log2 := Nat.pow_le_pow_right (by decide) (by omega)
    _ ≤ n := Nat.log2_self_le hn

/-! ## Shortest forms -/

theorem length_minimal (n : Nat) : (minimal n).length = widthOf n :=
  length_ofNat _ _

theorem toNat_minimal (n : Nat) : toNat (minimal n) = n :=
  toNat_ofNat (lt_pow_widthOf n)

/-- A number needs all bytes of a string that spells it, if no zero byte stands in front. -/
theorem widthOf_toNat_cons {b : UInt8} (hb : b ≠ 0) (rest : Bytes) :
    widthOf (toNat (b :: rest)) = rest.length + 1 := by
  have hpos : 0 < b.toNat := Nat.pos_of_ne_zero fun hzero => hb (UInt8.toNat_inj.1 hzero)
  have hleast : 256 ^ rest.length ≤ toNat (b :: rest) := by
    rw [toNat_cons]
    exact Nat.le_add_right_of_le (Nat.le_mul_of_pos_left _ hpos)
  have hne : toNat (b :: rest) ≠ 0 := by
    have hpow : 0 < 256 ^ rest.length := Nat.pow_pos (by decide)
    omega
  have hwide : rest.length < widthOf (toNat (b :: rest)) :=
    (Nat.pow_lt_pow_iff_right (by decide)).1 (Nat.lt_of_le_of_lt hleast (lt_pow_widthOf _))
  have hnarrow : widthOf (toNat (b :: rest)) - 1 < rest.length + 1 :=
    (Nat.pow_lt_pow_iff_right (by decide)).1 (Nat.lt_of_le_of_lt (pow_widthOf_le hne) (toNat_lt _))
  omega

/-- A byte string without a zero byte in front is the shortest form of the number that it spells. -/
theorem minimal_toNat_cons {b : UInt8} (hb : b ≠ 0) (rest : Bytes) :
    minimal (toNat (b :: rest)) = b :: rest := by
  rw [minimal, widthOf_toNat_cons hb, ← List.length_cons, ofNat_toNat]

/-- The shortest form of a number has no zero byte in front. -/
theorem ne_zero_of_minimal {n : Nat} {b : UInt8} {rest : Bytes} (h : minimal n = b :: rest) :
    b ≠ 0 := by
  rintro rfl
  have hwidth : rest.length = widthOf n - 1 := by
    rw [← length_minimal, h, List.length_cons, Nat.add_sub_cancel]
  have hn : n = toNat rest := by
    rw [← toNat_minimal n, h, toNat_cons]
    simp
  have hne : n ≠ 0 := by
    rintro rfl
    cases h
  have hleast := pow_widthOf_le hne
  have hless := toNat_lt rest
  rw [hwidth, ← hn] at hless
  omega

/-! ## Exclusive or -/

theorem length_xor {a b : Bytes} (h : a.length = b.length) : (xor a b).length = a.length := by
  simp [xor, h]

/-- Exclusive or stops at the shorter string, so the lengths have to agree. -/
theorem xor_xor_cancel {a b : Bytes} (h : a.length = b.length) : xor (xor a b) b = a := by
  induction a generalizing b with
  | nil => rfl
  | cons x rest ih =>
      cases b with
      | nil => cases h
      | cons y more =>
          have hhead : x ^^^ y ^^^ y = x := by
            rw [UInt8.xor_assoc, UInt8.xor_self, UInt8.xor_zero]
          have htail := ih (b := more) (by simpa using h)
          simp only [xor, List.zipWith_cons_cons] at htail ⊢
          rw [hhead, htail]

/-! ## Text -/

/-- The UTF-8 form of a text is read as that text. -/
theorem text?_ofText (s : String) : text? (ofText s) = some s := by
  have hbytes : (⟨(ofText s).toArray⟩ : ByteArray) = s.toUTF8 := by simp [ofText]
  rw [text?, hbytes]
  simp only [String.fromUTF8?, String.toUTF8_eq_toByteArray, dif_pos s.isValidUTF8]
  rfl

end Bytes

/-! ## Fixed lengths -/

namespace Block

variable {n : Nat}

theorem bytes_injective {x y : Block n} (h : x.bytes = y.bytes) : x = y := by
  obtain ⟨bytes, hlength⟩ := x
  cases h
  rfl

theorem bytes_ne_nil (x : Block (n + 1)) : x.bytes ≠ [] := by
  intro hnil
  have hlength := x.length_eq
  rw [hnil] at hlength
  cases hlength

theorem ofBytes?_eq_some_iff {b : Bytes} {x : Block n} : ofBytes? n b = some x ↔ x.bytes = b := by
  constructor
  · intro h
    unfold ofBytes? at h
    split at h
    · cases h
      rfl
    · cases h
  · rintro rfl
    exact ofBytes?_bytes x

theorem fit_append (b : Block n) (rest : Bytes) : fit n (b.bytes ++ rest) = b := by
  apply bytes_injective
  simp only [fit, List.append_assoc, List.take_left' b.length_eq]

end Block
end PasswordVault
