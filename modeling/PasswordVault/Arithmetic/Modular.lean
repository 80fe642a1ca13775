/-!
# Arithmetic modulo a number

Powers by repeated squaring and inverses by the extended Euclidean algorithm.
-/

namespace PasswordVault
namespace Modular

def pow (b e n : Nat) : Nat :=
  if e = 0 then 1 % n
  else
    let root := pow (b * b % n) (e / 2) n
    if e % 2 = 1 then b * root % n else root
termination_by e

/-- The greatest common divisor of `a` and `b` with the coefficient of `a` in it, given that `a` and
`b` stand for multiples `u` and `v` of a starting number. -/
def euclid (a b : Nat) (u v : Int) : Nat × Int :=
  if b = 0 then (a, u) else euclid b (a % b) v (u - (a / b : Nat) * v)
termination_by b
decreasing_by exact Nat.mod_lt _ (by omega)

/-- The inverse of `a` modulo `n`, if `a` is prime to `n`. -/
def inverse? (a n : Nat) : Option Nat :=
  let (g, u) := euclid (a % n) n 1 0
  if g = 1 then some (u.emod n).toNat else none

end Modular
end PasswordVault
