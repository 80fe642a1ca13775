import PasswordVault.Arithmetic.Modular
import Mathlib.Data.Int.ModEq
import Mathlib.Data.Nat.ModEq

/-!
# Arithmetic modulo a number

Repeated squaring computes powers (`Modular.pow_eq`), and what the extended Euclidean algorithm finds
is an inverse (`Modular.inverse?_modEq`), if there is one (`Modular.exists_inverse?_iff`).
-/

namespace PasswordVault
namespace Modular

/-! ## Powers -/

/-- One squaring halves the exponent. -/
theorem pow_modEq (b e n : Nat) : pow b e n ≡ b ^ e [MOD n] := by
  induction e using Nat.strong_induction_on generalizing b with
  | h e ih =>
      rw [pow]
      split
      next hzero =>
        rw [hzero, Nat.pow_zero]
        exact Nat.mod_modEq 1 n
      next hpos =>
        -- The square to half the exponent, which lacks one factor if the exponent is odd.
        have hroot : pow (b * b % n) (e / 2) n ≡ (b * b) ^ (e / 2) [MOD n] :=
          (ih (e / 2) (by omega) _).trans ((Nat.mod_modEq _ _).pow _)
        have hsquare : (b * b) ^ (e / 2) = b ^ (2 * (e / 2)) := by
          rw [Nat.pow_mul, Nat.pow_two]
        split
        next hodd =>
          have hexp : b * b ^ (2 * (e / 2)) = b ^ e := by
            rw [← Nat.pow_succ', Nat.succ_eq_add_one]
            congr 1
            omega
          calc
            b * pow (b * b % n) (e / 2) n % n ≡ b * pow (b * b % n) (e / 2) n [MOD n] :=
              Nat.mod_modEq _ _
            _ ≡ b * (b * b) ^ (e / 2) [MOD n] := hroot.mul_left b
            _ = b ^ e := by rw [hsquare, hexp]
        next heven =>
          have hexp : 2 * (e / 2) = e := by omega
          rw [hsquare, hexp] at hroot
          exact hroot

/-- A power is a remainder already. -/
theorem pow_mod_self (b e n : Nat) : pow b e n % n = pow b e n := by
  induction e using Nat.strong_induction_on generalizing b with
  | h e ih =>
      rw [pow]
      split
      next => exact Nat.mod_mod _ _
      next hpos =>
        split
        next => exact Nat.mod_mod _ _
        next => exact ih (e / 2) (by omega) _

/-- Repeated squaring computes the power. -/
theorem pow_eq (b e n : Nat) : pow b e n = b ^ e % n := by
  rw [← pow_mod_self]
  exact pow_modEq b e n

theorem pow_lt (b e : Nat) {n : Nat} (hn : 0 < n) : pow b e n < n := by
  rw [pow_eq]
  exact Nat.mod_lt _ hn

/-! ## Inverses -/

/-- The two remainders of a step stay multiples of the starting number, with the coefficients that go
along with them. -/
theorem euclid_modEq {x n : Int} (a b : Nat) (u v : Int) (ha : (a : Int) ≡ u * x [ZMOD n])
    (hb : (b : Int) ≡ v * x [ZMOD n]) :
    ((euclid a b u v).1 : Int) ≡ (euclid a b u v).2 * x [ZMOD n] := by
  induction b using Nat.strong_induction_on generalizing a u v with
  | h b ih =>
      rw [euclid]
      split
      next => exact ha
      next hpos =>
        refine ih (a % b) (Nat.mod_lt _ (by omega)) b v _ hb ?_
        have hsplit : ((a % b : Nat) : Int) = a - (a / b : Nat) * b := by
          have hdivision := Nat.mod_add_div a b
          have hcast : ((a % b : Nat) : Int) + b * (a / b : Nat) = a := by exact_mod_cast hdivision
          rw [← hcast, Int.mul_comm (a / b : Nat) b]
          omega
        rw [hsplit, Int.sub_mul, Int.mul_assoc]
        exact ha.sub (hb.mul_left _)

/-- The first outcome is the greatest common divisor, whatever the coefficients start with. -/
theorem euclid_fst (a b : Nat) (u v : Int) : (euclid a b u v).1 = Nat.gcd a b := by
  induction b using Nat.strong_induction_on generalizing a u v with
  | h b ih =>
      rw [euclid]
      split
      next hzero => rw [hzero, Nat.gcd_zero_right]
      next hpos =>
        rw [ih (a % b) (Nat.mod_lt _ (by omega)), Nat.gcd_comm a, Nat.gcd_rec b a, Nat.gcd_comm]

/-- A number has an inverse exactly if it is prime to the modulus. -/
theorem exists_inverse?_iff {a n : Nat} : (∃ u, inverse? a n = some u) ↔ Nat.Coprime a n := by
  have hgcd : (euclid (a % n) n 1 0).1 = Nat.gcd a n := by
    rw [euclid_fst, Nat.gcd_comm a, Nat.gcd_rec n a]
  simp only [inverse?, hgcd, Nat.Coprime]
  split
  next hone => simp [hone]
  next hone => simp [hone]

/-- An inverse times the number is one. -/
theorem inverse?_modEq {a n u : Nat} (h : inverse? a n = some u) (hn : n ≠ 0) : u * a ≡ 1 [MOD n] := by
  simp only [inverse?] at h
  split at h
  next hgcd =>
    cases h
    have hstart : ((a % n : Nat) : Int) ≡ 1 * a [ZMOD n] := by
      rw [Int.one_mul, Int.natCast_mod]
      exact Int.mod_modEq _ _
    have hmodulus : ((n : Nat) : Int) ≡ 0 * a [ZMOD n] := by
      rw [Int.zero_mul]
      exact Int.modEq_zero_iff_dvd.2 (dvd_refl _)
    -- Both remainders are multiples of the number, with the coefficients that are kept beside them.
    have hone := euclid_modEq (a % n) n 1 0 hstart hmodulus
    rw [hgcd] at hone
    have hnonneg : 0 ≤ (euclid (a % n) n 1 0).2.emod n := Int.emod_nonneg _ (by omega)
    apply (Int.natCast_modEq_iff).1
    rw [Nat.cast_mul, Int.toNat_of_nonneg hnonneg]
    exact ((Int.mod_modEq _ _).mul_right _).trans hone.symm
  next => cases h

end Modular
end PasswordVault
