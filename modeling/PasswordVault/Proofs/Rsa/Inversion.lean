import PasswordVault.Rsa
import PasswordVault.Proofs.Arithmetic.Modular
import Mathlib.FieldTheory.Finite.Basic
import Mathlib.NumberTheory.LucasLehmer

/-!
# RSA keys whose private operation undoes the public one

A private key is accepted without a test that its factors are prime, so there are keys under which a
residue is not found again. `PrivateKey.Inverts` says of a key that it has no such residue.

Main statement: `PrivateKey.inverts_of_prime`. Two different prime factors suffice. Modulo each of them
the two exponents cancel (`root_modEq`), and the two roots are put together with the coefficient
(`recombine_eq`), or taken modulo the product at once where that is missing.
-/

namespace PasswordVault
namespace Rsa

/-! ## Exponents that cancel -/

/-- A power is the base again if the exponent is one modulo the order of the group. -/
theorem pow_modEq_self {p a : Nat} (hp : p.Prime) (ha : a % (p - 1) = 1) (m : Nat) :
    m ^ a ≡ m [MOD p] := by
  have hsplit : (p - 1) * (a / (p - 1)) + 1 = a := by
    have hdivision := Nat.div_add_mod a (p - 1)
    rwa [ha] at hdivision
  -- Fermat's theorem needs a base that the prime does not divide; otherwise both sides are zero.
  by_cases hdvd : p ∣ m
  · have hbase : m ≡ 0 [MOD p] := (Nat.modEq_zero_iff_dvd).2 hdvd
    have hpower : m ^ a ≡ 0 [MOD p] := by
      refine (Nat.modEq_zero_iff_dvd).2 (hdvd.trans (dvd_pow_self m ?_))
      omega
    exact hpower.trans hbase.symm
  · have hcoprime : Nat.Coprime m p := ((Nat.Prime.coprime_iff_not_dvd hp).2 hdvd).symm
    have hone : m ^ (p - 1) ≡ 1 [MOD p] := by
      have htotient := Nat.ModEq.pow_totient hcoprime
      rwa [Nat.totient_prime hp] at htotient
    calc
      m ^ a = (m ^ (p - 1)) ^ (a / (p - 1)) * m := by
        rw [← pow_mul, ← pow_succ, hsplit]
      _ ≡ 1 ^ (a / (p - 1)) * m [MOD p] := (hone.pow _).mul_right m
      _ = m := by rw [one_pow, one_mul]

/-- The public exponent and the private one cancel, also if the private one is reduced. -/
theorem root_modEq {p e d c m : Nat} (hp : p.Prime) (hed : e * d % (p - 1) = 1)
    (hc : c ≡ m ^ e [MOD p]) : c ^ d ≡ m [MOD p] ∧ c ^ (d % (p - 1)) ≡ m [MOD p] := by
  have hcancel : ∀ d', e * d' % (p - 1) = 1 → c ^ d' ≡ m [MOD p] := by
    intro d' hed'
    calc
      c ^ d' ≡ (m ^ e) ^ d' [MOD p] := hc.pow d'
      _ = m ^ (e * d') := (pow_mul m e d').symm
      _ ≡ m [MOD p] := pow_modEq_self hp hed' m
  have hreduced : e * (d % (p - 1)) % (p - 1) = e * d % (p - 1) := Nat.mul_mod_mod _ _ _
  exact ⟨hcancel d hed, hcancel _ (hreduced.trans hed)⟩

/-! ## Two roots put together -/

/-- The number below a product that has a given remainder for either factor, from the difference of
the two and an inverse of one factor modulo the other. -/
theorem recombine_eq {p q inverse m r s : Nat} (hcoprime : Nat.Coprime p q) (hm : m < p * q)
    (hinverse : inverse * q ≡ 1 [MOD p]) (hr : r ≡ m [MOD p]) (hs : s ≡ m [MOD q]) (hsq : s < q) :
    (r + (p - s % p)) * inverse % p * q + s = m := by
  have hppos : 0 < p := Nat.pos_of_ne_zero fun hzero => by simp [hzero] at hm
  have hfirst : (r + (p - s % p)) * inverse % p * q + s ≡ m [MOD p] := by
    -- The difference is kept positive by a multiple of the first factor.
    have hround : p - s % p + s ≡ 0 [MOD p] := by
      have hmod : s % p < p := Nat.mod_lt _ hppos
      have hdivision := Nat.mod_add_div s p
      refine (Nat.modEq_zero_iff_dvd).2 ⟨1 + s / p, ?_⟩
      rw [Nat.mul_add]
      omega
    calc
      (r + (p - s % p)) * inverse % p * q + s
          ≡ (r + (p - s % p)) * inverse * q + s [MOD p] :=
        ((Nat.mod_modEq _ _).mul_right q).add_right s
      _ = (r + (p - s % p)) * (inverse * q) + s := by rw [Nat.mul_assoc]
      _ ≡ (r + (p - s % p)) * 1 + s [MOD p] := (hinverse.mul_left _).add_right s
      _ = r + (p - s % p + s) := by rw [Nat.mul_one, Nat.add_assoc]
      _ ≡ m + 0 [MOD p] := hr.add hround
  have hsecond : (r + (p - s % p)) * inverse % p * q + s ≡ m [MOD q] := by
    have hmultiple : (r + (p - s % p)) * inverse % p * q ≡ 0 [MOD q] :=
      (Nat.modEq_zero_iff_dvd).2 (dvd_mul_left q _)
    simpa using hmultiple.add hs
  have hbound : (r + (p - s % p)) * inverse % p * q + s < p * q := by
    have hlt : (r + (p - s % p)) * inverse % p < p := Nat.mod_lt _ hppos
    calc
      (r + (p - s % p)) * inverse % p * q + s
          < (r + (p - s % p)) * inverse % p * q + q := Nat.add_lt_add_left hsq _
      _ = ((r + (p - s % p)) * inverse % p + 1) * q := (Nat.succ_mul _ q).symm
      _ ≤ p * q := Nat.mul_le_mul_right q hlt
  -- Equal modulo both factors and below their product, the two are the same.
  exact Nat.ModEq.eq_of_lt_of_lt
    ((Nat.modEq_and_modEq_iff_modEq_mul hcoprime).1 ⟨hfirst, hsecond⟩) hbound hm

namespace PrivateKey

/-! ## Keys -/

/-- Whether the private operation of a key undoes its public one on all residues. -/
def Inverts (k : PrivateKey) : Prop := ∀ m < k.n, k.invert? (k.toPublicKey.apply m) = some m

theorem isValid_iff (k : PrivateKey) :
    k.isValid = true ↔ k.toPublicKey.isValid = true ∧ 1 < k.p ∧ 1 < k.q ∧ k.p * k.q = k.n ∧
      k.e * k.d % (k.p - 1) = 1 % (k.p - 1) ∧ k.e * k.d % (k.q - 1) = 1 % (k.q - 1) := by
  simp [isValid, and_assoc]

/-- A factor of an odd modulus leaves room for more than one exponent. -/
theorem one_mod_of_dvd {n p : Nat} (hodd : n % 2 = 1) (hp : 1 < p) (hdvd : p ∣ n) :
    1 % (p - 1) = 1 := by
  have hne : p ≠ 2 := by
    rintro rfl
    omega
  exact Nat.mod_eq_of_lt (by omega)

/-- A key with two different prime factors finds every residue again. -/
theorem inverts_of_prime {k : PrivateKey} (hvalid : k.isValid = true) (hp : k.p.Prime)
    (hq : k.q.Prime) (hne : k.p ≠ k.q) : k.Inverts := by
  rcases (isValid_iff k).1 hvalid with ⟨hpublic, hp1, hq1, hn, hedp, hedq⟩
  have hodd : k.n % 2 = 1 := by
    simp only [PublicKey.isValid, Bool.and_eq_true, decide_eq_true_eq] at hpublic
    exact hpublic.1.1.1.2
  have hpdvd : k.p ∣ k.n := hn ▸ dvd_mul_right k.p k.q
  have hqdvd : k.q ∣ k.n := hn ▸ dvd_mul_left k.q k.p
  rw [one_mod_of_dvd hodd hp1 hpdvd] at hedp
  rw [one_mod_of_dvd hodd hq1 hqdvd] at hedq
  have hcoprime : Nat.Coprime k.p k.q := (Nat.coprime_primes hp hq).2 hne
  intro m hm
  obtain ⟨c, hc⟩ : ∃ c, k.toPublicKey.apply m = c := ⟨_, rfl⟩
  have hcn : c ≡ m ^ k.e [MOD k.n] := hc ▸ Modular.pow_modEq m k.e k.n
  have hrootp := root_modEq hp hedp (hcn.of_dvd hpdvd)
  have hrootq := root_modEq hq hedq (hcn.of_dvd hqdvd)
  rw [hc, invert?]
  -- Whichever way the root is computed, it is the residue, and the closing check accepts it.
  cases hcoefficient : k.coefficient? with
  | some inverse =>
      have hinverse : inverse * k.q ≡ 1 [MOD k.p] := Modular.inverse?_modEq hcoefficient hp.ne_zero
      have hroot := recombine_eq (r := Modular.pow c (k.d % (k.p - 1)) k.p)
        (s := Modular.pow c (k.d % (k.q - 1)) k.q) hcoprime (hn.symm ▸ hm) hinverse
        ((Modular.pow_modEq _ _ _).trans hrootp.2) ((Modular.pow_modEq _ _ _).trans hrootq.2)
        (Modular.pow_lt _ _ hq.pos)
      simp only [hroot, hc, if_true]
  | none =>
      have hroot : Modular.pow c k.d k.n = m := by
        have hboth : c ^ k.d ≡ m [MOD k.n] :=
          hn ▸ (Nat.modEq_and_modEq_iff_modEq_mul hcoprime).1 ⟨hrootp.1, hrootq.1⟩
        exact Nat.ModEq.eq_of_lt_of_lt ((Modular.pow_modEq _ _ _).trans hboth)
          (Modular.pow_lt _ _ (Nat.zero_lt_of_lt hm)) hm
      simp only [hroot, hc, if_true]

end PrivateKey

/-- A key whose factors are two Mersenne primes. -/
def mersenneKey : PrivateKey :=
  let p := mersenne 127
  let q := mersenne 521
  let e := PrivateKey.newExponent
  ⟨⟨p * q, e⟩, (Modular.inverse? e ((p - 1) * (q - 1))).getD 0, p, q⟩

theorem inverts_mersenneKey : mersenneKey.Inverts := by
  have hp : mersenneKey.p.Prime := lucas_lehmer_sufficiency 127 (by norm_num) (by norm_num)
  have hq : mersenneKey.q.Prime := lucas_lehmer_sufficiency 521 (by norm_num) (by norm_num)
  exact PrivateKey.inverts_of_prime (by decide +kernel) hp hq (by decide +kernel)

end Rsa
end PasswordVault
