import PasswordVault.Arithmetic.Modular

/-!
# Probable primes

The Miller-Rabin test, and the search for a probable prime above a starting point.
-/

namespace PasswordVault
namespace Prime

def small : List Nat :=
  (List.range 998).filterMap fun i =>
    let n := i + 2
    if (List.range 30).all fun k => k + 2 ≥ n ∨ n % (k + 2) ≠ 0 then some n else none

def smallProduct : Nat := (small.drop 1).foldl (· * ·) 1

/-- `n` without its factors of two, and how many there are. -/
def oddPart (n : Nat) : Nat × Nat :=
  if n = 0 ∨ n % 2 = 1 then (n, 0)
  else
    let (odd, twos) := oddPart (n / 2)
    (odd, twos + 1)
termination_by n

/-- Whether one of `x`, `x ^ 2`, … (`count` of them) is `n - 1` modulo `n`. -/
def reachesMinusOne (n : Nat) : (count x : Nat) → Bool
  | 0, _ => false
  | count + 1, x => x = n - 1 || reachesMinusOne n count (x * x % n)

/-- Whether `base` fails to show that the odd number `n` is composite. -/
def passes (n base : Nat) : Bool :=
  let (odd, twos) := oddPart (n - 1)
  let x := Modular.pow base odd n
  x = 1 || reachesMinusOne n twos x

def bases : List Nat := [2, 3, 5, 7, 11, 13, 17, 19]

/-- The first of the odd numbers from `start` on, `tries` of them, that is a probable prime with `n - 1`
prime to `e`. -/
def next? (e : Nat) : (tries start : Nat) → Option Nat
  | 0, _ => none
  | tries + 1, start =>
    -- One common divisor rules out all small factors at once.
    if Nat.gcd start smallProduct = 1 && Nat.gcd (start - 1) e = 1 && bases.all (passes start) then
      some start
    else next? e tries (start + 2)

end Prime
end PasswordVault
