import PasswordVault.Json.Basic
import PasswordVault.Bytes.Hex

/-!
# JSON tokens

The words of a JSON text: punctuation, strings, and scalars. `token?` reads the first word of a text
and leaves a shorter rest (`length_lt_of_token?`), so `tokens?` ends.
-/

namespace PasswordVault
namespace Json

/-- A word of a JSON text. A string that spells no Unicode text is kept as none. -/
inductive Token where
  | openBrace
  | closeBrace
  | openBracket
  | closeBracket
  | comma
  | colon
  | text (s : Option String)
  | scalar (j : Json)
deriving DecidableEq, Repr

/-! ## Strings -/

def escaped? : Char → Option Char
  | '"' => some '"'
  | '\\' => some '\\'
  | '/' => some '/'
  | 'b' => some (Char.ofNat 8)
  | 'f' => some (Char.ofNat 12)
  | 'n' => some '\n'
  | 'r' => some '\r'
  | 't' => some '\t'
  | _ => none

def hex4? (a b c d : Char) : Option Nat := do
  let w ← Bytes.hexValue? a
  let x ← Bytes.hexValue? b
  let y ← Bytes.hexValue? c
  let z ← Bytes.hexValue? d
  return ((w * 16 + x) * 16 + y) * 16 + z

/-- The codes of a string up to its closing quote, and what follows. Escapes may give codes of
surrogates. -/
def readCodes : List Char → Option (List Nat × List Char)
  | [] => none
  | '"' :: rest => some ([], rest)
  | '\\' :: 'u' :: a :: b :: c :: d :: rest => do
    let code ← hex4? a b c d
    let (codes, after) ← readCodes rest
    return (code :: codes, after)
  | '\\' :: e :: rest => do
    let c ← escaped? e
    let (codes, after) ← readCodes rest
    return (c.toNat :: codes, after)
  | c :: rest =>
    if c = '\\' ∨ c.toNat < 0x20 then none
    else do
      let (codes, after) ← readCodes rest
      return (c.toNat :: codes, after)

/-- The characters of a list of codes, pairs of surrogates joined; none if a surrogate stands
alone. -/
def joinSurrogates? : List Nat → Option (List Char)
  | [] => some []
  | hi :: lo :: rest =>
    if 0xD800 ≤ hi ∧ hi < 0xDC00 then
      if 0xDC00 ≤ lo ∧ lo < 0xE000 then
        (joinSurrogates? rest).map (Char.ofNat (0x10000 + (hi - 0xD800) * 0x400 + (lo - 0xDC00)) :: ·)
      else none
    else if 0xDC00 ≤ hi ∧ hi < 0xE000 then none
    else (joinSurrogates? (lo :: rest)).map (Char.ofNat hi :: ·)
  | [code] => if 0xD800 ≤ code ∧ code < 0xE000 then none else some [Char.ofNat code]

/-! ## Numbers -/

/-- The digits at the start of a text, as numbers, and what follows. -/
def spanDigits : List Char → List Nat × List Char
  | [] => ([], [])
  | c :: rest =>
    if c.isDigit then
      let (digits, after) := spanDigits rest
      ((c.toNat - 48) :: digits, after)
    else ([], c :: rest)

def ofDigits (digits : List Nat) : Nat := digits.foldl (fun n d => n * 10 + d) 0

/-- The greatest significand that is kept; further digits are dropped. -/
def maxSignificand : Nat := 0xffffffffffffffff

/-- Digits appended to a significand while it fits, and how many were dropped. -/
def takeDigits (significand : Nat) : List Nat → Nat × Nat
  | [] => (significand, 0)
  | d :: rest =>
    if maxSignificand < significand * 10 + d then (significand, rest.length + 1)
    else takeDigits (significand * 10 + d) rest

/-- A decimal number with at most 64 bits of digits, as a double. -/
def realOf? (negative : Bool) (whole fraction : List Nat) (expNegative : Bool) (exp : Nat) :
    Option Double :=
  let (start, dropped) := takeDigits 0 whole
  let (significand, cut) := takeDigits start fraction
  let scale : Int := (dropped : Int) - ((fraction.length : Int) - cut)
  if 0x7fffffff < exp then
    if significand ≠ 0 ∧ ¬ expNegative then none else some ⟨negative, 0, Double.minExponent⟩
  else Double.scaled negative significand (if expNegative then scale - exp else scale + exp)

/-- A whole number: kept exactly if it has at most 64 bits, else a double. Minus zero is a double. -/
def wholeOf? (negative : Bool) (digits : List Nat) : Option Number :=
  let n := ofDigits digits
  if negative then
    if 0 < n ∧ n ≤ 0x8000000000000000 then some (.int (-(n : Int)))
    else (realOf? true digits [] false 0).map .real
  else if n ≤ 0xffffffffffffffff then some (.int n)
  else (realOf? false digits [] false 0).map .real

def exponentSign : List Char → Bool × List Char
  | '-' :: rest => (true, rest)
  | '+' :: rest => (false, rest)
  | rest => (false, rest)

/-- The exponent of a number whose mark has been read, and what follows. -/
def readExponent (rest : List Char) : Option ((Bool × Nat) × List Char) :=
  let (negative, rest) := exponentSign rest
  match spanDigits rest with
  | ([], _) => none
  | (digits, after) => some ((negative, ofDigits digits), after)

/-- The part of a number after its whole digits. -/
def readTail (negative : Bool) (whole : List Nat) : List Char → Option (Json × List Char)
  | '.' :: rest =>
    match spanDigits rest with
    | ([], _) => none
    | (fraction, 'e' :: rest) | (fraction, 'E' :: rest) => do
      let ((expNegative, exp), after) ← readExponent rest
      return (ofNumber ((realOf? negative whole fraction expNegative exp).map .real), after)
    | (fraction, after) => some (ofNumber ((realOf? negative whole fraction false 0).map .real), after)
  | 'e' :: rest | 'E' :: rest => do
    let ((expNegative, exp), after) ← readExponent rest
    return (ofNumber ((realOf? negative whole [] expNegative exp).map .real), after)
  | after => some (ofNumber (wholeOf? negative whole), after)
where
  /-- A number, or the mark of one beyond all doubles. -/
  ofNumber : Option Number → Json
    | some n => .number n
    | none => .unreadable

/-- The digits of a number without its sign: no further digit follows a leading zero. -/
def readUnsigned (negative : Bool) (cs : List Char) : Option (Json × List Char) :=
  match spanDigits cs with
  | ([], _) => none
  | (0 :: _ :: _, _) => none
  | (whole, rest) => readTail negative whole rest

/-! ## Words -/

def isBlank (c : Char) : Bool := c = ' ' ∨ c = '\t' ∨ c = '\n' ∨ c = '\r'

/-- The first word of a text that starts with no blank, and what follows. -/
def token? : List Char → Option (Token × List Char)
  | '{' :: rest => some (.openBrace, rest)
  | '}' :: rest => some (.closeBrace, rest)
  | '[' :: rest => some (.openBracket, rest)
  | ']' :: rest => some (.closeBracket, rest)
  | ',' :: rest => some (.comma, rest)
  | ':' :: rest => some (.colon, rest)
  | '"' :: rest => do
    let (codes, after) ← readCodes rest
    return (.text ((joinSurrogates? codes).map String.ofList), after)
  | 'n' :: 'u' :: 'l' :: 'l' :: rest => some (.scalar .null, rest)
  | 't' :: 'r' :: 'u' :: 'e' :: rest => some (.scalar (.bool true), rest)
  | 'f' :: 'a' :: 'l' :: 's' :: 'e' :: rest => some (.scalar (.bool false), rest)
  | '-' :: rest => do
    let (j, after) ← readUnsigned true rest
    return (.scalar j, after)
  | cs => do
    let (j, after) ← readUnsigned false cs
    return (.scalar j, after)

/-! ## Every word is consumed -/

/-- Reading never gives back more than it was given. -/
theorem length_le_of_readCodes {cs after : List Char} {codes : List Nat}
    (h : readCodes cs = some (codes, after)) : after.length ≤ cs.length := by
  fun_induction readCodes cs generalizing codes after with
  | case1 => simp at h
  | case2 rest => simp at h; simp [h.2.symm]
  | case3 a b c d rest ih =>
    simp only [Option.bind_eq_bind, Option.bind_eq_some_iff] at h
    obtain ⟨_, _, ⟨codes', after'⟩, hr, h⟩ := h
    simp at h
    have := ih hr
    simp [← h.2]; omega
  | case4 e rest _ ih =>
    simp only [Option.bind_eq_bind, Option.bind_eq_some_iff] at h
    obtain ⟨_, _, ⟨codes', after'⟩, hr, h⟩ := h
    simp at h
    have := ih hr
    simp [← h.2]; omega
  | case5 => simp at h
  | case6 c rest _ _ _ _ ih =>
    simp only [Option.bind_eq_bind, Option.bind_eq_some_iff] at h
    obtain ⟨⟨codes', after'⟩, hr, h⟩ := h
    simp at h
    have := ih hr
    simp [← h.2]; omega

theorem length_spanDigits (cs : List Char) :
    (spanDigits cs).1.length + (spanDigits cs).2.length = cs.length := by
  fun_induction spanDigits cs with
  | case1 => rfl
  | case2 => simp_all; omega
  | case3 => simp

theorem length_le_of_readExponent {cs after : List Char} {e : Bool × Nat}
    (h : readExponent cs = some (e, after)) : after.length ≤ cs.length := by
  have hsign : (exponentSign cs).2.length ≤ cs.length := by
    fun_cases exponentSign cs <;> simp
  have hspan := length_spanDigits (exponentSign cs).2
  simp only [readExponent] at h
  split at h
  · simp at h
  · next digits after' _ hs =>
    simp only [Option.some.injEq, Prod.mk.injEq] at h
    simp only [hs] at hspan
    simp only [← h.2]
    omega

theorem length_le_of_readTail {negative : Bool} {whole : List Nat} {cs after : List Char} {j : Json}
    (h : readTail negative whole cs = some (j, after)) : after.length ≤ cs.length := by
  unfold readTail at h
  split at h
  · next rest =>
    -- Digits of a fraction, and then perhaps an exponent.
    have hspan := length_spanDigits rest
    split at h
    · simp at h
    all_goals
      next hs =>
      rw [hs] at hspan
      first
        | (simp only [Option.bind_eq_bind, Option.bind_eq_some_iff] at h
           obtain ⟨⟨_, after'⟩, hr, h⟩ := h
           have := length_le_of_readExponent hr
           simp at h
           simp only [← h.2, List.length_cons] at *
           omega)
        | (simp at h
           simp only [← h.2, List.length_cons] at *
           omega)
  all_goals
    first
      | (simp only [Option.bind_eq_bind, Option.bind_eq_some_iff] at h
         obtain ⟨⟨_, after'⟩, hr, h⟩ := h
         have := length_le_of_readExponent hr
         simp at h
         simp only [← h.2, List.length_cons] at *
         omega)
      | (simp at h; simp [h.2])

/-- A number has at least one digit. -/
theorem length_lt_of_readUnsigned {negative : Bool} {cs after : List Char} {j : Json}
    (h : readUnsigned negative cs = some (j, after)) : after.length < cs.length := by
  have hspan := length_spanDigits cs
  simp only [readUnsigned] at h
  split at h
  · simp at h
  · simp at h
  · next whole rest hne _ hs =>
    simp only [hs] at hspan
    have := length_le_of_readTail h
    cases whole with
    | nil => exact (hne rfl).elim
    | cons d ds => simp only [List.length_cons] at hspan; omega

/-- Every word has at least one character, so a text has only so many words. -/
theorem length_lt_of_token? {cs after : List Char} {t : Token}
    (h : token? cs = some (t, after)) : after.length < cs.length := by
  unfold token? at h
  split at h
  -- A text and a number are as long as their readers take; every other word has a fixed length.
  case h_7 rest =>
    simp only [Option.bind_eq_bind, Option.bind_eq_some_iff] at h
    obtain ⟨⟨_, after'⟩, hr, h⟩ := h
    have := length_le_of_readCodes hr
    simp at h
    simp [← h.2]; omega
  case h_11 rest =>
    simp only [Option.bind_eq_bind, Option.bind_eq_some_iff] at h
    obtain ⟨⟨_, after'⟩, hr, h⟩ := h
    have := length_lt_of_readUnsigned hr
    simp at h
    simp [← h.2]; omega
  case h_12 =>
    simp only [Option.bind_eq_bind, Option.bind_eq_some_iff] at h
    obtain ⟨⟨_, after'⟩, hr, h⟩ := h
    have := length_lt_of_readUnsigned hr
    simp at h
    simp [← h.2]; omega
  all_goals
    simp only [Option.some.injEq, Prod.mk.injEq] at h
    simp only [← h.2, List.length_cons]
    omega

/-- The words of a text. -/
def tokens? (cs : List Char) : Option (List Token) :=
  match cs with
  | [] => some []
  | c :: rest =>
    if isBlank c then tokens? rest
    else match h : token? (c :: rest) with
      | none => none
      | some (t, after) =>
        have := length_lt_of_token? h
        (tokens? after).map (t :: ·)
termination_by cs.length
decreasing_by all_goals simp only [List.length_cons] at *; omega

end Json
end PasswordVault
