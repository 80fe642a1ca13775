import PasswordVault.Instant
import PasswordVault.Proofs.Json.Records
import PasswordVault.Proofs.Text.Digits

/-!
# Dates — instants in texts

The text of an instant is read as that instant: leap seconds, fractions of a second and years before the
first or after the 9999th are written in full.

* `Instant.number?_padded`: a number padded to a width is read back by a reader of that width.
* `Instant.read?_toText`: the text of an instant spells the instant.
-/

namespace PasswordVault

open Json (digitValues ofDigits)

namespace Instant

/-! ## Numbers of fixed width -/

theorem isDigit_padded (width n : Nat) : ∀ c ∈ padded width n, c.isDigit = true := by
  intro c hc
  rcases List.mem_append.1 hc with hzero | hdigit
  · rw [List.eq_of_mem_replicate hzero]
    rfl
  · exact Json.isDigit_toDigits n c hdigit

theorem length_padded {width n : Nat} (hwidth : 0 < width) (hn : n < 10 ^ width) :
    (padded width n).length = width := by
  have hfits := (Nat.length_toDigits_le_iff (by decide) hwidth).2 hn
  rw [padded, List.length_append, List.length_replicate]
  omega

theorem padded_ne_nil (width n : Nat) : padded width n ≠ [] := by
  rw [padded]
  exact List.append_ne_nil_of_right_ne_nil _ Nat.toDigits_ne_nil

theorem digitValues_padded_ne_nil (width n : Nat) : digitValues (padded width n) ≠ [] := by
  rw [digitValues, Ne, List.map_eq_nil_iff]
  exact padded_ne_nil width n

/-- Zeros in front do not change a number. -/
theorem ofDigits_padded (width n : Nat) : ofDigits (digitValues (padded width n)) = n := by
  have hzeros : ∀ count, (List.replicate count 0).foldl (fun n d => n * 10 + d) 0 = 0 := by
    intro count
    induction count with
    | zero => rfl
    | succ count ih => rw [List.replicate_succ, List.foldl_cons, ih]
  have hsplit : digitValues (padded width n) =
      List.replicate (width - (Nat.toDigits 10 n).length) 0 ++ digitValues (Nat.toDigits 10 n) := by
    rw [padded, digitValues, List.map_append, List.map_replicate]
    rfl
  rw [hsplit, ofDigits, List.foldl_append, hzeros]
  exact Json.ofDigits_toDigits n

/-- Digits are taken to the end of their run, or up to the number that is asked for. -/
theorem takeDigits_append {most : Nat} {digits rest : List Char} (hdigits : ∀ c ∈ digits, c.isDigit = true)
    (hmost : digits.length ≤ most)
    (hends : digits.length = most ∨ ∀ c ∈ rest.head?, c.isDigit = false) :
    takeDigits most (digits ++ rest) = (digitValues digits, rest) := by
  -- Digits end where as many were taken as may be, or where something else follows.
  induction digits generalizing most with
  | nil =>
      cases most with
      | zero => rfl
      | succ most =>
          cases rest with
          | nil => rfl
          | cons c after =>
              rcases hends with hempty | hc
              · cases hempty
              · simp [takeDigits, hc c rfl, digitValues]
  | cons c digits ih =>
      cases most with
      | zero => cases hmost
      | succ most =>
          have htake := @ih most (fun d hd => hdigits d (List.mem_cons_of_mem c hd))
            (Nat.le_of_succ_le_succ hmost) (hends.imp_left Nat.succ.inj)
          simp [takeDigits, hdigits c List.mem_cons_self, htake, digitValues]

/-- Digits and the marks of a date are no blanks. -/
theorem skipBlanks_of_not_isBlank {c : Char} (hc : Text.isBlank c = false) (cs : List Char) :
    skipBlanks (c :: cs) = c :: cs := by
  rw [skipBlanks, List.dropWhile_cons_of_neg (by rw [hc]; decide)]

theorem isBlank_of_isDigit {c : Char} (hc : c.isDigit = true) : Text.isBlank c = false := by
  have hdigits : ∀ d < 10, Text.isBlank (Char.ofNat (48 + d)) = false := by decide
  obtain ⟨hleast, hgreatest⟩ := Json.toNat_of_isDigit hc
  have hcode : 48 + (c.toNat - 48) = c.toNat := by omega
  rw [← Char.ofNat_toNat c, ← hcode]
  exact hdigits _ (by omega)

theorem skipBlanks_padded (width n : Nat) (rest : List Char) :
    skipBlanks (padded width n ++ rest) = padded width n ++ rest := by
  cases hpadded : padded width n with
  | nil => exact absurd hpadded (padded_ne_nil width n)
  | cons c cs =>
      have hc := isDigit_padded width n c (hpadded ▸ List.mem_cons_self)
      exact skipBlanks_of_not_isBlank (isBlank_of_isDigit hc) (cs ++ rest)

/-- A number in its width is read up to the width, whatever follows. -/
theorem number?_padded {width n : Nat} (hwidth : 0 < width) (hn : n < 10 ^ width) (rest : List Char) :
    number? width (padded width n ++ rest) = some (n, rest) := by
  have hlength := length_padded hwidth hn
  have htake : takeDigits width (padded width n ++ rest) = (digitValues (padded width n), rest) :=
    takeDigits_append (isDigit_padded width n) (Nat.le_of_eq hlength) (.inl hlength)
  rw [number?, skipBlanks_padded, htake]
  split
  · next heq =>
    exact absurd (congrArg Prod.fst heq) (digitValues_padded_ne_nil width n)
  · next digits after _ heq =>
    cases heq
    rw [ofDigits_padded]

/-! ## Parts of an instant -/

theorem mark?_of_not_isBlank {c : Char} (hc : Text.isBlank c = false) (cs : List Char) :
    mark? c (c :: cs) = some cs := by
  rw [mark?, skipBlanks_of_not_isBlank hc]
  exact if_pos rfl

/-- The digits of a year outside of four digits, up to the mark that follows. -/
theorem signed_padded (n : Nat) (f : Int → Int) (rest : List Char) :
    year?.signed (padded 4 n ++ '-' :: rest) f = some (f n, '-' :: rest) := by
  have htake : takeDigits (padded 4 n ++ '-' :: rest).length (padded 4 n ++ '-' :: rest) =
      (digitValues (padded 4 n), '-' :: rest) := by
    refine takeDigits_append (isDigit_padded 4 n) (by simp) (.inr ?_)
    rintro _ ⟨⟩
    rfl
  rw [year?.signed, htake]
  split
  · next heq =>
    exact absurd (congrArg Prod.fst heq) (digitValues_padded_ne_nil 4 n)
  · next digits after _ heq =>
    cases heq
    rw [ofDigits_padded]

/-- A year is read with its sign, if it has one, up to the mark behind it. -/
theorem year?_yearChars (year : Int) (rest : List Char) :
    year? (yearChars year ++ '-' :: rest) = some (year, '-' :: rest) := by
  rw [yearChars]
  split_ifs with hfour hnegative
  · have hnumber := number?_padded (by decide : 0 < 4) (n := year.toNat) (by omega) ('-' :: rest)
    have hdigits := skipBlanks_padded 4 year.toNat ('-' :: rest)
    have hyear : ((year.toNat : Nat) : Int) = year := by omega
    cases hpadded : padded 4 year.toNat with
    | nil => exact absurd hpadded (padded_ne_nil 4 year.toNat)
    | cons c cs =>
        have hc := isDigit_padded 4 year.toNat c (hpadded ▸ List.mem_cons_self)
        rw [hpadded, List.cons_append] at hnumber hdigits
        rw [List.cons_append, year?, hdigits]
        -- A digit is no sign.
        split
        · next heq =>
          rw [(List.cons.inj heq).1] at hc
          cases hc
        · next heq =>
          rw [(List.cons.inj heq).1] at hc
          cases hc
        · rw [hnumber, Option.map_some]
          simp only [hyear]
  · have hyear : -((year.natAbs : Nat) : Int) = year := by omega
    rw [List.cons_append, year?, skipBlanks_of_not_isBlank (by decide)]
    simp only [signed_padded, hyear]
  · have hyear : ((year.natAbs : Nat) : Int) = year := by omega
    rw [List.cons_append, year?, skipBlanks_of_not_isBlank (by decide)]
    simp only [signed_padded, hyear, id]

/-- A fraction in fewer digits counts in nanoseconds. -/
theorem fraction?_padded {width n : Nat} (hwidth : 0 < width) (hmost : width ≤ 9) (hn : n < 10 ^ width) :
    fraction? ('.' :: padded width n ++ ['Z']) = some (n * 10 ^ (9 - width), ['Z']) := by
  have hlength := length_padded hwidth hn
  have htake : takeDigits 9 (padded width n ++ ['Z']) = (digitValues (padded width n), ['Z']) := by
    refine takeDigits_append (isDigit_padded width n) (by omega) (.inr ?_)
    rintro _ ⟨⟩
    rfl
  rw [List.cons_append, fraction?, htake]
  split
  · next heq =>
    exact absurd (congrArg Prod.fst heq) (digitValues_padded_ne_nil width n)
  · next digits after _ heq =>
    cases heq
    rw [ofDigits_padded, Json.length_digitValues, hlength]
    rfl

/-- The shortest fraction that loses nothing is read as the nanoseconds that it was written for. -/
theorem fraction?_fractionChars {nanos : Nat} (hnanos : nanos < Civil.nanosPerSecond) :
    fraction? (fractionChars nanos ++ ['Z']) = some (nanos, ['Z']) := by
  rw [Civil.nanosPerSecond] at hnanos
  rw [fractionChars]
  -- No fraction, or three, six or nine digits of it.
  split_ifs with hzero hmillis hmicros
  · rw [hzero]
    rfl
  · rw [fraction?_padded (by decide) (by decide) (by omega)]
    have hvalue : nanos / 1000000 * 10 ^ (9 - 3) = nanos := by omega
    rw [hvalue]
  · rw [fraction?_padded (by decide) (by decide) (by omega)]
    have hvalue : nanos / 1000 * 10 ^ (9 - 6) = nanos := by omega
    rw [hvalue]
  · rw [fraction?_padded (by decide) (by decide) (by omega)]
    rw [Nat.sub_self, Nat.pow_zero, Nat.mul_one]

/-! ## Instants -/

/-- The text of an instant spells the instant. -/
theorem read?_toText (t : Instant) : read? t.toText = some t := by
  obtain ⟨c, hvalid⟩ := t
  have hfields := hvalid
  simp only [Civil.isValid, decide_eq_true_eq] at hfields
  obtain ⟨-, -, -, hmonth, -, hday, hhour, hminute, hsecond, hnanos⟩ := hfields
  have hdays : Civil.daysIn c.year c.month ≤ 31 := by
    unfold Civil.daysIn
    split
    · split <;> decide
    all_goals decide
  have htwo : ∀ n < 10 ^ 2, ∀ rest, number? 2 (padded 2 n ++ rest) = some (n, rest) :=
    fun n hn rest => number?_padded (by decide) hn rest
  have hminus : ∀ rest, mark? '-' ('-' :: rest) = some rest := mark?_of_not_isBlank (by decide)
  have hcolon : ∀ rest, mark? ':' (':' :: rest) = some rest := mark?_of_not_isBlank (by decide)
  have htime : ∀ rest, timeMark? ('T' :: rest) = some rest := fun _ => rfl
  have hzone : offset? (skipBlanks ['Z']) = some (0, []) := by
    rw [skipBlanks_of_not_isBlank (by decide)]
    rfl
  have hcivil : ofCivil? c = some ⟨c, hvalid⟩ := dif_pos hvalid
  rw [read?, toText, String.toList_ofList, readChars?, chars]
  simp only [List.append_assoc, List.cons_append]
  dsimp only [Option.bind_eq_bind]
  -- The steps of the reader, each on what the writer wrote for it.
  rw [year?_yearChars, Option.bind_some]
  rw [hminus, Option.bind_some, htwo c.month (by omega), Option.bind_some]
  rw [hminus, Option.bind_some, htwo c.day (by omega), Option.bind_some]
  rw [htime, Option.bind_some, htwo c.hour (by omega), Option.bind_some]
  rw [hcolon, Option.bind_some, htwo c.minute (by omega), Option.bind_some]
  rw [hcolon, Option.bind_some, htwo c.second (by omega), Option.bind_some]
  rw [fraction?_fractionChars hnanos, Option.bind_some, hzone, Option.bind_some, hcivil]
  rfl

theorem finds_toJson (t : Instant) : Json.Reader.Finds reader t.toJson t := by
  refine ⟨.string _, ?_⟩
  intro depth hdepth b
  have hread : reader depth t.toJson = some t := read?_toText t
  rw [hread, toJson]
  simp [Json.nesting, hdepth]

theorem finds_optInstant (t : Option Instant) :
    Json.Reader.Finds (Json.Reader.orNull reader) (Json.optInstant t) t := by
  cases t with
  | none => exact Json.Reader.finds_null reader
  | some t => exact Json.Reader.finds_some (finds_toJson t) nofun

end Instant
end PasswordVault
