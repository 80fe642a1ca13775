import PasswordVault.Json.Record
import PasswordVault.Text.Case

/-!
# Instants

Points in time as the fields of a calendar in universal time, down to nanoseconds. The second 60 is a
leap second. Texts are read with any offset and written in universal time (`read?`, `toText`); reading
what is written gives the instant back, since no arithmetic is needed where the offset is zero.
-/

namespace PasswordVault

/-! ## Calendar -/

structure Civil where
  year : Int
  month : Nat
  day : Nat
  hour : Nat
  minute : Nat
  second : Nat
  nanos : Nat
deriving DecidableEq, Repr

namespace Civil

def isLeapYear (year : Int) : Bool := year % 4 = 0 ∧ (year % 100 ≠ 0 ∨ year % 400 = 0)

/-- The number of days in a month. -/
def daysIn (year : Int) : Nat → Nat
  | 2 => if isLeapYear year then 29 else 28
  | 4 | 6 | 9 | 11 => 30
  | _ => 31

def minYear : Int := -262143
def maxYear : Int := 262142

def nanosPerSecond : Nat := 1000000000

/-- Whether the fields name a date and a time of day. -/
def isValid (c : Civil) : Bool :=
  minYear ≤ c.year ∧ c.year ≤ maxYear ∧ 1 ≤ c.month ∧ c.month ≤ 12 ∧ 1 ≤ c.day
    ∧ c.day ≤ daysIn c.year c.month ∧ c.hour ≤ 23 ∧ c.minute ≤ 59 ∧ c.second ≤ 60 ∧ c.nanos < nanosPerSecond

/-- The same time on the day before. -/
def dayBefore (c : Civil) : Civil :=
  if 1 < c.day then { c with day := c.day - 1 }
  else if 1 < c.month then { c with month := c.month - 1, day := daysIn c.year (c.month - 1) }
  else { c with year := c.year - 1, month := 12, day := 31 }

def dayAfter (c : Civil) : Civil :=
  if c.day < daysIn c.year c.month then { c with day := c.day + 1 }
  else if c.month < 12 then { c with month := c.month + 1, day := 1 }
  else { c with year := c.year + 1, month := 1, day := 1 }

/-- The fields in universal time of a local time with an offset of less than a day, in minutes. -/
def toUniversal (c : Civil) (offset : Int) : Civil :=
  let minutes : Int := (c.hour * 60 + c.minute : Nat) - offset
  let date := if minutes < 0 then c.dayBefore else if 1440 ≤ minutes then c.dayAfter else c
  let inDay := (minutes % 1440).toNat
  { date with hour := inDay / 60, minute := inDay % 60 }

/-- The number of days from the start of the year 1970. -/
def dayNumber (c : Civil) : Int :=
  -- Years are counted from March, so that a leap day comes last.
  let y := if c.month ≤ 2 then c.year - 1 else c.year
  let m : Int := (c.month + 9) % 12
  y * 365 + y / 4 - y / 100 + y / 400 + (m * 153 + 2) / 5 + c.day - 719469

/-- The date of a number of days from the start of the year 1970, at midnight. -/
def ofDayNumber (days : Int) : Civil :=
  let z := days + 719468
  -- The calendar repeats after 400 years, which have 146097 days.
  let era := z / 146097
  let d := z % 146097
  let y := (d - d / 1460 + d / 36524 - d / 146096) / 365
  let inYear := d - (365 * y + y / 4 - y / 100)
  let m := (5 * inYear + 2) / 153
  let month := if m < 10 then m + 3 else m - 9
  ⟨y + era * 400 + (if month ≤ 2 then 1 else 0), month.toNat, (inYear - (153 * m + 2) / 5 + 1).toNat, 0, 0, 0, 0⟩

/-- The number of seconds from the start of the year 1970; a leap second counts as the one before. -/
def seconds (c : Civil) : Int :=
  c.dayNumber * 86400 + ((c.hour * 60 + c.minute) * 60 + min c.second 59 : Nat)

/-- The fields of a number of seconds from the start of the year 1970. -/
def ofSeconds (seconds : Int) (nanos : Nat) : Civil :=
  let inDay := (seconds % 86400).toNat
  { ofDayNumber (seconds / 86400) with
    hour := inDay / 3600, minute := inDay / 60 % 60, second := inDay % 60, nanos := nanos }

end Civil

/-- A point in time. -/
structure Instant where
  civil : Civil
  valid : civil.isValid = true
deriving DecidableEq

namespace Instant

def ofCivil? (c : Civil) : Option Instant := if h : c.isValid then some ⟨c, h⟩ else none

def epoch : Instant := ⟨⟨1970, 1, 1, 0, 0, 0, 0⟩, by decide⟩

def earliest : Instant := ⟨⟨Civil.minYear, 1, 1, 0, 0, 0, 0⟩, by decide⟩

/-- The number of seconds from the start of the year 1970. -/
def seconds (t : Instant) : Int := t.civil.seconds

/-- The nanoseconds within the second; those of a leap second follow the ones of the second before. -/
def fraction (t : Instant) : Nat := t.civil.nanos + (if t.civil.second = 60 then Civil.nanosPerSecond else 0)

/-- The instant a number of seconds later, if there is one. A leap second counts as the one before. -/
def addSeconds? (t : Instant) (count : Int) : Option Instant :=
  ofCivil? (Civil.ofSeconds (t.seconds + count) t.civil.nanos)

/-- Whether an instant lies no more than a number of seconds after another, which is what a clock shows. Clocks
show no leap seconds; from one, the nanoseconds beyond its start are counted on top. -/
def isWithin (t : Instant) (count : Int) (now : Instant) : Bool :=
  let limit := now.seconds + count
  t.seconds < limit ∨ t.seconds = limit ∧ t.fraction ≤ now.fraction

/-! ## Writing -/

def padded (width n : Nat) : List Char :=
  let digits := Nat.toDigits 10 n
  List.replicate (width - digits.length) '0' ++ digits

/-- A year: four digits, and a sign outside of them. -/
def yearChars (year : Int) : List Char :=
  if 0 ≤ year ∧ year ≤ 9999 then padded 4 year.toNat
  else (if year < 0 then '-' else '+') :: padded 4 year.natAbs

/-- A fraction of a second: none, or as many digits, in groups of three, as lose nothing. -/
def fractionChars (nanos : Nat) : List Char :=
  if nanos = 0 then []
  else if nanos % 1000000 = 0 then '.' :: padded 3 (nanos / 1000000)
  else if nanos % 1000 = 0 then '.' :: padded 6 (nanos / 1000)
  else '.' :: padded 9 nanos

def chars (t : Instant) : List Char :=
  let c := t.civil
  yearChars c.year ++ '-' :: padded 2 c.month ++ '-' :: padded 2 c.day ++ 'T' :: padded 2 c.hour
    ++ ':' :: padded 2 c.minute ++ ':' :: padded 2 c.second ++ fractionChars c.nanos ++ ['Z']

def toText (t : Instant) : String := String.ofList t.chars

/-! ## Reading -/

def skipBlanks (cs : List Char) : List Char := cs.dropWhile Text.isBlank

/-- At most `most` digits at the start of a text, and what follows. -/
def takeDigits : (most : Nat) → List Char → List Nat × List Char
  | most + 1, c :: rest =>
    if c.isDigit then
      let (digits, after) := takeDigits most rest
      ((c.toNat - 48) :: digits, after)
    else ([], c :: rest)
  | _, cs => ([], cs)

/-- A number of at least one and at most `most` digits after blanks, and what follows. -/
def number? (most : Nat) (cs : List Char) : Option (Nat × List Char) :=
  match takeDigits most (skipBlanks cs) with
  | ([], _) => none
  | (digits, after) => some (Json.ofDigits digits, after)

/-- A year: up to four digits, or a sign and any number of them. -/
def year? (cs : List Char) : Option (Int × List Char) :=
  match skipBlanks cs with
  | '-' :: rest => signed rest fun n => -n
  | '+' :: rest => signed rest id
  | rest => (number? 4 rest).map fun (n, after) => ((n : Int), after)
where
  /-- The digits right after a sign. -/
  signed (rest : List Char) (f : Int → Int) : Option (Int × List Char) :=
    match takeDigits rest.length rest with
    | ([], _) => none
    | (digits, after) => some (f (Json.ofDigits digits), after)

/-- What follows a mark after blanks. -/
def mark? (c : Char) (cs : List Char) : Option (List Char) :=
  match skipBlanks cs with
  | d :: rest => if c = d then some rest else none
  | [] => none

/-- A fraction of a second in nanoseconds, cut after nine digits, and what follows. -/
def fraction? : List Char → Option (Nat × List Char)
  | '.' :: rest =>
    match takeDigits 9 rest with
    | ([], _) => none
    | (digits, after) =>
      some (Json.ofDigits digits * Nat.pow 10 (9 - digits.length), after.dropWhile Char.isDigit)
  | rest => some (0, rest)

def twoDigits? : List Char → Option (Nat × List Char)
  | a :: b :: rest =>
    if a.isDigit ∧ b.isDigit then some ((a.toNat - 48) * 10 + (b.toNat - 48), rest) else none
  | _ => none

/-- An offset from universal time in minutes, and what follows. -/
def offset? (cs : List Char) : Option (Int × List Char) :=
  match cs with
  | 'Z' :: rest | 'z' :: rest => some (0, rest)
  | u :: t :: c :: rest =>
    if [u.toUpper, t.toUpper, c.toUpper] = ['U', 'T', 'C'] then some (0, rest) else signed cs
  | _ => signed cs
where
  /-- A sign, hours, colons or blanks, and minutes. -/
  signed : List Char → Option (Int × List Char)
    | [] => none
    | sign :: rest => do
      if sign ≠ '+' ∧ sign ≠ '-' ∧ sign ≠ '−' then none
      let (hours, rest) ← twoDigits? rest
      let (minutes, rest) ← twoDigits? (rest.dropWhile fun c => c = ':' || Text.isBlank c)
      if 23 < hours ∨ 59 < minutes then none
      let total : Int := (hours * 60 + minutes : Nat)
      return (if sign = '+' then total else -total, rest)

def timeMark? : List Char → Option (List Char)
  | 'T' :: rest | 't' :: rest | ' ' :: rest => some rest
  | _ => none

/-- The instant that a text spells. -/
def readChars? (cs : List Char) : Option Instant := do
  let (year, cs) ← year? cs
  let (month, cs) ← number? 2 (← mark? '-' cs)
  let (day, cs) ← number? 2 (← mark? '-' cs)
  let (hour, cs) ← number? 2 (← timeMark? cs)
  let (minute, cs) ← number? 2 (← mark? ':' cs)
  let (second, cs) ← number? 2 (← mark? ':' cs)
  let (nanos, cs) ← fraction? cs
  let (offset, cs) ← offset? (skipBlanks cs)
  let localTime ← ofCivil? ⟨year, month, day, hour, minute, second, nanos⟩
  if skipBlanks cs ≠ [] then none
  if offset = 0 then return localTime else ofCivil? (localTime.civil.toUniversal offset)

def read? (s : String) : Option Instant := readChars? s.toList

def reader : Json.Reader Instant
  | _, .string s => read? s
  | _, _ => none

def toJson (t : Instant) : Json := .string t.toText

end Instant
end PasswordVault
