import PasswordVault.Bytes.Hex
import PasswordVault.Instant
import PasswordVault.Text.Split

/-!
# Numbers and dates of TOML

Values that are written without quotes. Integers have 64 bits; of the other numbers and of dates and
times only the form is checked, since nothing takes its value from them.
-/

namespace PasswordVault
namespace Toml

inductive Scalar where
  | integer (n : Int)
  | boolean (b : Bool)
  | float
  | moment
deriving DecidableEq, Repr

/-! ## Integers -/

/-- The digits of a number, between which single underscores may stand. -/
def digits? (isDigit : Char → Bool) (cs : List Char) : Option (List Char) :=
  if (Text.splitAt '_' cs).all fun piece => piece ≠ [] ∧ piece.all isDigit then some (cs.filter (· ≠ '_'))
  else none

/-- Whether a decimal number has no needless zero in front. -/
def isShort : List Char → Bool
  | '0' :: _ :: _ => false
  | _ => true

def sign : List Char → Bool × List Char
  | '-' :: rest => (true, rest)
  | '+' :: rest => (false, rest)
  | rest => (false, rest)

def ofBase (base : Nat) (ds : List Char) : Option Nat := do
  return (← ds.mapM Bytes.hexValue?).foldl (fun n d => base * n + d) 0

def isDigitOf (base : Nat) (c : Char) : Bool := (Bytes.hexValue? c).any (· < base)

def inRange (n : Int) : Option Int :=
  if -0x8000000000000000 ≤ n ∧ n ≤ 0x7fffffffffffffff then some n else none

/-- An integer, in decimal with a sign or in another base without one. -/
def integer? (cs : List Char) : Option Int :=
  let inBase (base : Nat) (ds : List Char) : Option Int := do
    inRange ((← ofBase base (← digits? (isDigitOf base) ds)) : Int)
  match cs with
  | '0' :: 'x' :: ds => inBase 16 ds
  | '0' :: 'o' :: ds => inBase 8 ds
  | '0' :: 'b' :: ds => inBase 2 ds
  | _ => do
    let (isNegative, ds) := sign cs
    let ds ← digits? Char.isDigit ds
    if ! isShort ds then none
    let n : Int := (← ofBase 10 ds : Nat)
    inRange (if isNegative then -n else n)

/-! ## Other numbers -/

def isExponent (cs : List Char) : Bool := (digits? Char.isDigit (sign cs).2).isSome

/-- Whether a text spells a number with a fraction or an exponent, or one of the values that are no
numbers. -/
def isFloat (cs : List Char) : Bool :=
  let cs := (sign cs).2
  let mantissa := cs.takeWhile fun c => c ≠ 'e' ∧ c ≠ 'E'
  let exponent := cs.drop mantissa.length
  let (whole, fraction) := match Text.cutAt? '.' mantissa with
    | some (whole, fraction) => (whole, some fraction)
    | none => (mantissa, none)
  cs = "inf".toList || cs = "nan".toList ||
    ((digits? Char.isDigit whole).any isShort
      && fraction.all (fun ds => (digits? Char.isDigit ds).isSome)
      && (exponent = [] || isExponent (exponent.drop 1))
      && (fraction.isSome || exponent ≠ []))

/-! ## Dates and times -/

/-- Numbers of given widths with marks between them. -/
def fields? : (shape : List (Nat × Option Char)) → List Char → Option (List Nat × List Char)
  | [], cs => some ([], cs)
  | (width, mark) :: shape, cs => do
    let ds := cs.take width
    if ds.length < width || ! ds.all Char.isDigit then none
    let rest ← match mark, cs.drop width with
      | none, rest => some rest
      | some m, c :: rest => if c = m then some rest else none
      | some _, [] => none
    let (ns, rest) ← fields? shape rest
    return (Json.ofDigits (ds.map fun d => d.toNat - 48) :: ns, rest)

def date? (cs : List Char) : Option (List Char) := do
  match ← fields? [(4, some '-'), (2, some '-'), (2, none)] cs with
  | ([year, month, day], rest) =>
    if (⟨year, month, day, 0, 0, 0, 0⟩ : Civil).isValid then some rest else none
  | _ => none

/-- What follows a time of day. -/
def time? (cs : List Char) : Option (List Char) := do
  match ← fields? [(2, some ':'), (2, some ':'), (2, none)] cs with
  | ([hour, minute, second], rest) =>
    if 23 < hour ∨ 59 < minute ∨ 60 < second then none
    else match rest with
      | '.' :: d :: rest => if d.isDigit then some (rest.dropWhile Char.isDigit) else none
      | rest => some rest
  | _ => none

/-- Whether a text is an offset from universal time, or nothing. -/
def isOffset (cs : List Char) : Bool :=
  match cs with
  | [] | ['Z'] | ['z'] => true
  | s :: rest =>
    (s = '+' || s = '-') && (match fields? [(2, some ':'), (2, none)] rest with
      | some ([hours, minutes], []) => hours < 24 && minutes < 60
      | _ => false)

/-- Whether a text is a date, a time, or both with a mark between them. -/
def isMoment (cs : List Char) : Bool :=
  match date? cs with
  | some [] => true
  | some (mark :: rest) =>
    (mark = 'T' || mark = 't' || mark = ' ') && (time? rest).any isOffset
  | none => time? cs = some []

/-! ## Reading -/

def isScalarChar (c : Char) : Bool := c.isAlphanum || c = '+' || c = '-' || c = '_' || c = '.' || c = ':'

def Scalar.ofChars? (cs : List Char) : Option Scalar :=
  if cs = "true".toList then some (.boolean true)
  else if cs = "false".toList then some (.boolean false)
  else match integer? cs with
    | some n => some (.integer n)
    | none => if isFloat cs then some .float else if isMoment cs then some .moment else none

/-- A value without quotes, and what follows it. A blank between a date and a time belongs to it. -/
def scalar (cs : List Char) : Option (Scalar × List Char) := do
  let first := cs.takeWhile isScalarChar
  let rest := cs.drop first.length
  match date? first, rest with
  | some [], ' ' :: d :: more =>
    if d.isDigit then do
      let second := (d :: more).takeWhile isScalarChar
      return (← Scalar.ofChars? (first ++ ' ' :: second), (d :: more).drop second.length)
    else return (.moment, rest)
  | _, _ => return (← Scalar.ofChars? first, rest)

end Toml
end PasswordVault
