/-!
# Finite doubles in exact arithmetic

A finite double is a sign, a whole mantissa and a power of two. Quotients of natural numbers are
rounded to the nearest double, ties to the even mantissa (`ofRatio`), and a double is written with
the fewest decimal digits that single it out (`shortest`). All arithmetic is on natural numbers, so
results do not depend on a machine.
-/

namespace PasswordVault

/-- The finite double `± mantissa · 2 ^ exponent`. -/
structure Double where
  negative : Bool
  mantissa : Nat
  exponent : Int
deriving DecidableEq, Repr

namespace Double

/-! ## Rounding -/

def minExponent : Int := -1074

def maxExponent : Int := 971

/-- `num / den` rounded to a whole number, ties to even. -/
def roundDiv (num den : Nat) : Nat :=
  let q := num / den
  let r := num % den
  if 2 * r < den then q
  else if den < 2 * r then q + 1
  else if q % 2 = 0 then q else q + 1

/-- `num / den / 2 ^ e` as a quotient of natural numbers. -/
def shifted (num den : Nat) (e : Int) : Nat × Nat :=
  if 0 ≤ e then (num, den * Nat.pow 2 e.toNat) else (num * Nat.pow 2 (-e).toNat, den)

/-- The double nearest to `num / den`, unless that lies beyond the greatest one. -/
def ofRatio (negative : Bool) (num den : Nat) : Option Double :=
  if num = 0 then some ⟨negative, 0, minExponent⟩
  else
    -- The logarithms leave the quotient within a factor of two, so the guess is right or one too great.
    let guess : Int := (num.log2 : Int) - den.log2 - 52
    let (a, b) := shifted num den guess
    let exponent := max minExponent (if a / b < 0x10000000000000 then guess - 1 else guess)
    let (c, d) := shifted num den exponent
    let m := roundDiv c d
    -- Rounding up may carry into a bit more than a mantissa has.
    let (mantissa, exponent) := if m = 0x20000000000000 then (0x10000000000000, exponent + 1) else (m, exponent)
    if exponent ≤ maxExponent then some ⟨negative, mantissa, exponent⟩ else none

/-- The magnitude of a double as a quotient of natural numbers. -/
def ratio (x : Double) : Nat × Nat :=
  if 0 ≤ x.exponent then (x.mantissa * Nat.pow 2 x.exponent.toNat, 1)
  else (x.mantissa, Nat.pow 2 (-x.exponent).toNat)

def powerOfTen (n : Nat) : Double := (ofRatio false (Nat.pow 10 n) 1).getD ⟨false, 0, minExponent⟩

def mul (x y : Double) : Option Double :=
  let (a, b) := x.ratio
  let (c, d) := y.ratio
  ofRatio x.negative (a * c) (b * d)

def div (x y : Double) : Option Double :=
  let (a, b) := x.ratio
  let (c, d) := y.ratio
  ofRatio x.negative (a * d) (b * c)

/-- A whole number scaled by a power of ten, one rounded operation after the other: the number is
rounded first, then multiplied or divided by the rounded power of ten, in steps of at most 308. -/
def scaled (negative : Bool) (significand : Nat) (exponent : Int) : Option Double := do
  let start ← ofRatio negative significand 1
  if start.mantissa = 0 then return start
  if 0 ≤ exponent then
    if 308 < exponent then none else start.mul (powerOfTen exponent.toNat)
  else
    divideSteps (-exponent).toNat start
where
  /-- Division by ten to the power `n`; nothing is left of a number after a few steps. -/
  divideSteps (n : Nat) (x : Double) : Option Double :=
    if n ≤ 308 then x.div (powerOfTen n)
    else do
      let y ← x.div (powerOfTen 308)
      if y.mantissa = 0 then return y
      divideSteps (n - 308) y
  termination_by n

/-! ## Shortest digits -/

/-- Whether `d · 10 ^ k` rounds to the positive double `m · 2 ^ q`: it lies between the midpoints to
both neighbours, which belong to the double when its mantissa is even. -/
def readsBack (m : Nat) (q : Int) (d : Nat) (k : Int) : Bool :=
  let (num, den) := if 0 ≤ k then (d * Nat.pow 10 k.toNat, 1) else (d, Nat.pow 10 (-k).toNat)
  let (a, b) := shifted num den (q - 2)
  -- Below a power of two the neighbours lie half as far apart.
  let low := if m = 0x10000000000000 ∧ minExponent < q then 4 * m - 1 else 4 * m - 2
  let high := 4 * m + 2
  if m % 2 = 0 then low * b ≤ a ∧ a ≤ high * b else low * b < a ∧ a < high * b

/-- The digits of `num / den` on the grid of tens to the power `k`, and whether the upper neighbour is
nearer. -/
def onGrid (num den : Nat) (k : Int) : Nat × Bool :=
  let (a, b) := if 0 ≤ k then (num, den * Nat.pow 10 k.toNat) else (num * Nat.pow 10 (-k).toNat, den)
  (a / b, b < 2 * (a % b))

/-- The least `k` with `num / den < 10 ^ k`, for a positive quotient. -/
def decimalWidth (num den : Nat) : Int :=
  let guess : Int := ((num.log2 : Int) - den.log2) * 30103 / 100000 - 1
  let below (k : Int) : Bool :=
    if 0 ≤ k then num < den * Nat.pow 10 k.toNat else num * Nat.pow 10 (-k).toNat < den
  if below guess then guess
  else if below (guess + 1) then guess + 1
  else if below (guess + 2) then guess + 2
  else guess + 3

/-- The fewest digits `d` and the exponent `k` such that `d · 10 ^ k` singles out a positive double;
of two candidates the nearer. -/
def shortest (x : Double) : Nat × Int :=
  let (num, den) := x.ratio
  let width := decimalWidth num den
  let candidate (n : Nat) : Option (Nat × Int) :=
    let k := width - n
    let (d, up) := onGrid num den k
    let lower := readsBack x.mantissa x.exponent d k
    let upper := readsBack x.mantissa x.exponent (d + 1) k
    if upper ∧ (up ∨ ¬ lower) then some (d + 1, k)
    else if lower then some (d, k) else none
  -- Seventeen digits always single out a double.
  let (d, k) := ((List.range 17).findSome? fun n => candidate (n + 1)).getD (onGrid num den (width - 17) |>.1, width - 17)
  strip 18 d k
where
  /-- Trailing zeros move into the exponent. -/
  strip : Nat → Nat → Int → Nat × Int
    | 0, d, k => (d, k)
    | steps + 1, d, k => if d ≠ 0 ∧ d % 10 = 0 then strip steps (d / 10) (k + 1) else (d, k)

/-- A double written with its shortest digits: positionally while the point stands at most five
places left of the digits or sixteen right of the first, else with an exponent. -/
def toText (x : Double) : String :=
  let sign := if x.negative then "-" else ""
  if x.mantissa = 0 then sign ++ "0.0"
  else
    let (d, k) := x.shortest
    let digits := (toString d).toList
    let n : Int := digits.length
    let point := n + k
    let zeros (count : Int) : List Char := List.replicate count.toNat '0'
    let body : List Char :=
      if 0 ≤ k ∧ point ≤ 16 then digits ++ zeros k ++ ['.', '0']
      else if 0 < point ∧ point ≤ 16 then digits.take point.toNat ++ '.' :: digits.drop point.toNat
      else if -5 < point ∧ point ≤ 0 then '0' :: '.' :: (zeros (-point) ++ digits)
      else
        let mantissa := if digits.length = 1 then digits else digits.take 1 ++ '.' :: digits.drop 1
        mantissa ++ 'e' :: (toString (point - 1)).toList
    sign ++ String.ofList body

end Double
end PasswordVault
