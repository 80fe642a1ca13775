import Mathlib.Data.List.Basic
import PasswordVault.Json.Token

/-!
# Decimal digits — numbers in texts

Digits that a writer puts down are read back as the number they were made from.

* `Json.ofDigits_digitValues`: the digits of a number spell the number, zeros in front or not.
* `Json.spanDigits_append`: a run of digits is read to its end and no further.
-/

namespace PasswordVault

namespace Json

def digitValues (cs : List Char) : List Nat := cs.map fun c => c.toNat - 48

theorem length_digitValues (cs : List Char) : (digitValues cs).length = cs.length :=
  List.length_map _

/-- Digits spell the number that the library reads from them. -/
theorem ofDigits_digitValues (cs : List Char) : ofDigits (digitValues cs) = Nat.ofDigitChars 10 cs 0 := by
  rw [ofDigits, digitValues, List.foldl_map, Nat.ofDigitChars]
  congr 1
  funext n c
  rw [Nat.mul_comm]
  rfl

theorem ofDigits_toDigits (n : Nat) : ofDigits (digitValues (Nat.toDigits 10 n)) = n := by
  rw [ofDigits_digitValues, Nat.ofDigitChars_toDigits (by decide) (by decide)]

theorem isDigit_toDigits (n : Nat) : ∀ c ∈ Nat.toDigits 10 n, c.isDigit = true := by
  intro c hc
  exact Nat.isDigit_of_mem_toDigits (by decide) (by decide) hc

theorem toNat_of_isDigit {c : Char} (hc : c.isDigit = true) : 48 ≤ c.toNat ∧ c.toNat ≤ 57 := by
  simp only [Char.isDigit, Bool.and_eq_true, decide_eq_true_eq] at hc
  exact ⟨UInt32.le_iff_toNat_le.1 hc.1, UInt32.le_iff_toNat_le.1 hc.2⟩

/-- A number is written without zeros in front. -/
theorem head?_toDigits {n : Nat} (hn : n ≠ 0) : (Nat.toDigits 10 n).head? ≠ some '0' := by
  induction n using Nat.strongRecOn with
  | ind n ih =>
      have hdigit : ∀ d < 10, d ≠ 0 → Nat.digitChar d ≠ '0' := by decide
      rw [Nat.toDigits_eq_if (by decide)]
      by_cases hsmall : n < 10
      · rw [if_pos hsmall]
        intro heq
        exact hdigit n hsmall hn (Option.some.inj heq)
      · rw [if_neg hsmall, List.head?_append_of_ne_nil _ Nat.toDigits_ne_nil]
        exact ih (n / 10) (by omega) (by omega)

/-- No number is written with a needless zero in front. -/
theorem digitValues_toDigits_ne (n d : Nat) (more : List Nat) :
    digitValues (Nat.toDigits 10 n) ≠ 0 :: d :: more := by
  intro heq
  rcases eq_or_ne n 0 with rfl | hn
  · rw [Nat.toDigits_zero] at heq
    cases heq
  · obtain ⟨c, rest, hdigits, hzero, -⟩ := List.map_eq_cons_iff.1 heq
    have hdigit := isDigit_toDigits n c (hdigits ▸ List.mem_cons_self)
    have hc : c = '0' := by
      have hcode : c.toNat = 48 := by
        have hrange := toNat_of_isDigit hdigit
        omega
      rw [← Char.ofNat_toNat c, hcode]
    exact head?_toDigits hn (by rw [hdigits, hc]; rfl)

/-- Digits are read up to the first character that is none. -/
theorem spanDigits_append {digits rest : List Char} (hdigits : ∀ c ∈ digits, c.isDigit = true)
    (hends : ∀ c ∈ rest.head?, c.isDigit = false) :
    spanDigits (digits ++ rest) = (digitValues digits, rest) := by
  induction digits with
  | nil =>
      cases rest with
      | nil => rfl
      | cons c after => simp [spanDigits, hends c rfl, digitValues]
  | cons c digits ih =>
      have hspan := ih fun d hd => hdigits d (List.mem_cons_of_mem c hd)
      simp [spanDigits, hdigits c List.mem_cons_self, hspan, digitValues]

end Json
end PasswordVault
