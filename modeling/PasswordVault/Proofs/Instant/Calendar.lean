import PasswordVault.Instant

/-!
# The calendar — dates and numbers of days

Seconds are counted through all days from the first year to the last. Each number of days has one date, and
a number of seconds is an instant exactly between the first and the last, so adding seconds fails nowhere
else.

* `Civil.ofDayNumber_spec`: the date of a number of days exists and has that number.
* `Instant.InCalendar`: the numbers of seconds that are instants.
* `Instant.exists_addSeconds?_iff`: adding seconds ends in an instant exactly if the sum is one of them.
-/

namespace PasswordVault

namespace Civil

/-! ## Dates of day numbers -/

/-- Whether the month of a date exists and has its day. -/
structure IsDate (c : Civil) : Prop where
  month_pos : 1 ≤ c.month
  month_le : c.month ≤ 12
  day_pos : 1 ≤ c.day
  day_le : c.day ≤ daysIn c.year c.month

/-- The year of a day within 400 years, both counted from a first of March. -/
def yearOfEra (d : Int) : Int := (d - d / 1460 + d / 36524 - d / 146096) / 365

/-- The number of days in the years before, counted from a first of March. -/
def daysBefore (y : Int) : Int := 365 * y + y / 4 - y / 100

/-- The month of a day in a year that starts with March. -/
def monthOfYear (r : Int) : Int := (5 * r + 2) / 153

theorem ofDayNumber_eq (days : Int) :
    ofDayNumber days =
      let era := (days + 719468) / 146097
      let y := yearOfEra ((days + 719468) % 146097)
      let r := (days + 719468) % 146097 - daysBefore y
      let month := if monthOfYear r < 10 then monthOfYear r + 3 else monthOfYear r - 9
      ⟨y + era * 400 + (if month ≤ 2 then 1 else 0), month.toNat,
        (r - (153 * monthOfYear r + 2) / 5 + 1).toNat, 0, 0, 0, 0⟩ :=
  rfl

/-- A day lies in its year, which has 365 days, or 366 if it ends in a leap year. -/
theorem yearOfEra_spec {d : Int} (hd : 0 ≤ d ∧ d < 146097) :
    (0 ≤ yearOfEra d ∧ yearOfEra d ≤ 399) ∧
      (daysBefore (yearOfEra d) ≤ d ∧ d ≤ daysBefore (yearOfEra d) + 365) ∧
      (d = daysBefore (yearOfEra d) + 365 →
        (yearOfEra d + 1) % 4 = 0 ∧ ((yearOfEra d + 1) % 100 ≠ 0 ∨ (yearOfEra d + 1) % 400 = 0)) := by
  by_cases hlast : d = 146096
  · subst hlast
    decide
  · unfold daysBefore
    have hy : yearOfEra d = (d - d / 1460 + d / 36524 - d / 146096) / 365 := rfl
    generalize yearOfEra d = y at *
    have hera : d / 146096 = 0 := by omega
    have hcentury : d / 36524 = 0 ∨ d / 36524 = 1 ∨ d / 36524 = 2 ∨ d / 36524 = 3 := by omega
    have hhundreds : y / 100 = 0 ∨ y / 100 = 1 ∨ y / 100 = 2 ∨ y / 100 = 3 := by omega
    have hfour : y % 4 = 0 ∨ y % 4 = 1 ∨ y % 4 = 2 ∨ y % 4 = 3 := by omega
    rw [hera] at hy
    -- With the centuries of the day and of its year fixed, what is left is linear.
    refine ⟨by omega, ?_, ?_⟩
    · rcases hcentury with hc | hc | hc | hc <;> rcases hhundreds with hh | hh | hh | hh <;>
        rw [hc] at hy <;> rw [hh] <;> omega
    · intro hd
      rcases hcentury with hc | hc | hc | hc <;> rcases hhundreds with hh | hh | hh | hh <;>
        rw [hc] at hy <;> rw [hh] at hd <;> rcases hfour with hf | hf | hf | hf <;> omega

/-- The last month of such a year, February, stands apart: its length differs. -/
theorem monthOfYear_cases {r : Int} (hr : 0 ≤ r ∧ r ≤ 365) :
    monthOfYear r = 11 ∨ monthOfYear r = 0 ∨ monthOfYear r = 1 ∨ monthOfYear r = 2 ∨ monthOfYear r = 3 ∨
      monthOfYear r = 4 ∨ monthOfYear r = 5 ∨ monthOfYear r = 6 ∨ monthOfYear r = 7 ∨ monthOfYear r = 8 ∨
      monthOfYear r = 9 ∨ monthOfYear r = 10 := by
  unfold monthOfYear
  omega

/-- The date computed for a number exists and has this number. -/
theorem ofDayNumber_spec (days : Int) :
    (ofDayNumber days).IsDate ∧ (ofDayNumber days).dayNumber = days := by
  rw [ofDayNumber_eq]
  have hd : 0 ≤ (days + 719468) % 146097 ∧ (days + 719468) % 146097 < 146097 := by omega
  have hdays : days = (days + 719468) / 146097 * 146097 + (days + 719468) % 146097 - 719468 := by omega
  generalize (days + 719468) / 146097 = era at *
  generalize (days + 719468) % 146097 = d at *
  -- The era and the year within it are fixed; what is left is a day in a year from March on.
  obtain ⟨hyear, hday, hleap⟩ := yearOfEra_spec hd
  generalize yearOfEra d = y at *
  obtain ⟨r, hr⟩ : ∃ r, r = d - daysBefore y := ⟨_, rfl⟩
  have hmonth : monthOfYear r = (5 * r + 2) / 153 := rfl
  have hbefore : daysBefore y = 365 * y + y / 4 - y / 100 := rfl
  have hfour : (y + era * 400) / 4 = y / 4 + era * 100 := by omega
  have hcentury : (y + era * 400) / 100 = y / 100 + era * 4 := by omega
  have hera : (y + era * 400) / 400 = era := by omega
  simp only [← hr]
  rcases monthOfYear_cases (r := r) (by omega) with h | h
  · rw [h] at hmonth ⊢
    -- The last month of such a year is February, which alone depends on the kind of the year.
    cases hkind : isLeapYear (y + era * 400 + 1) with
    | true => refine ⟨⟨?_, ?_, ?_, ?_⟩, ?_⟩ <;> simp [dayNumber, daysIn, hkind] <;> omega
    | false =>
        have hcommon : r ≠ 365 := by
          intro hlast
          have hlong := hleap (by omega)
          simp only [isLeapYear, decide_eq_false_iff_not] at hkind
          omega
        refine ⟨⟨?_, ?_, ?_, ?_⟩, ?_⟩ <;> simp [dayNumber, daysIn, hkind] <;> omega
  · rcases h with h | h | h | h | h | h | h | h | h | h | h <;>
      rw [h] at hmonth ⊢ <;> refine ⟨⟨?_, ?_, ?_, ?_⟩, ?_⟩ <;>
      simp [dayNumber, daysIn] <;> omega

/-! ## The first and the last year -/

theorem daysIn_le (year : Int) (month : Nat) : daysIn year month ≤ 31 := by
  unfold daysIn
  split
  · split <;> decide
  all_goals decide

/-- The numbers of the first day of the first year and of the last day of the last year. -/
def firstDay : Int := -96465292
def lastDay : Int := 95026236

theorem minYear_le_iff {c : Civil} (h : c.IsDate) : minYear ≤ c.year ↔ firstDay ≤ c.dayNumber := by
  obtain ⟨hmonth, hmonth', hday, hday'⟩ := h
  have hmost := daysIn_le c.year c.month
  have hcases : c.year < -262144 ∨ c.year = -262144 ∨ c.year = -262143 ∨ -262143 < c.year := by omega
  simp only [minYear, firstDay, dayNumber]
  rcases hcases with hy | hy | hy | hy <;> split <;> omega

theorem le_maxYear_iff {c : Civil} (h : c.IsDate) : c.year ≤ maxYear ↔ c.dayNumber ≤ lastDay := by
  obtain ⟨hmonth, hmonth', hday, hday'⟩ := h
  have hmost := daysIn_le c.year c.month
  have hcases : c.year < 262142 ∨ c.year = 262142 ∨ c.year = 262143 ∨ 262143 < c.year := by omega
  simp only [maxYear, lastDay, dayNumber]
  rcases hcases with hy | hy | hy | hy <;> split <;> omega

/-! ## Times of day -/

/-- Whether a time of day exists. -/
structure IsTime (c : Civil) : Prop where
  hour_le : c.hour ≤ 23
  minute_le : c.minute ≤ 59
  second_le : c.second ≤ 60
  nanos_lt : c.nanos < nanosPerSecond

theorem isValid_iff (c : Civil) : c.isValid = true ↔ minYear ≤ c.year ∧ c.year ≤ maxYear ∧ c.IsDate ∧ c.IsTime := by
  simp only [isValid, decide_eq_true_eq]
  constructor
  · rintro ⟨hfirst, hlast, hmonth, hmonth', hday, hday', hhour, hminute, hsecond, hnanos⟩
    exact ⟨hfirst, hlast, ⟨hmonth, hmonth', hday, hday'⟩, hhour, hminute, hsecond, hnanos⟩
  · rintro ⟨hfirst, hlast, ⟨hmonth, hmonth', hday, hday'⟩, hhour, hminute, hsecond, hnanos⟩
    exact ⟨hfirst, hlast, hmonth, hmonth', hday, hday', hhour, hminute, hsecond, hnanos⟩

theorem isTime_ofSeconds (s : Int) {nanos : Nat} (h : nanos < nanosPerSecond) : (ofSeconds s nanos).IsTime := by
  refine ⟨?_, ?_, ?_, h⟩ <;> simp only [ofSeconds] <;> omega

theorem isDate_ofSeconds (s : Int) (nanos : Nat) : (ofSeconds s nanos).IsDate := by
  obtain ⟨⟨hmonth, hmonth', hday, hday'⟩, -⟩ := ofDayNumber_spec (s / 86400)
  exact ⟨hmonth, hmonth', hday, hday'⟩

theorem dayNumber_ofSeconds (s : Int) (nanos : Nat) : (ofSeconds s nanos).dayNumber = s / 86400 :=
  (ofDayNumber_spec (s / 86400)).2

/-- The fields of a number of seconds are that many seconds from the start. -/
theorem seconds_ofSeconds (s : Int) (nanos : Nat) : (ofSeconds s nanos).seconds = s := by
  rw [seconds, dayNumber_ofSeconds]
  simp only [ofSeconds]
  omega

end Civil

namespace Instant

def latest : Instant := ⟨⟨Civil.maxYear, 12, 31, 23, 59, 59, 999999999⟩, by decide⟩

/-- Whether a number of seconds from the start of the year 1970 is one of an instant. -/
def InCalendar (s : Int) : Prop := earliest.seconds ≤ s ∧ s ≤ latest.seconds

theorem inCalendar_iff_day (s : Int) : InCalendar s ↔ Civil.firstDay ≤ s / 86400 ∧ s / 86400 ≤ Civil.lastDay := by
  have hfirst : earliest.seconds = Civil.firstDay * 86400 := by decide
  have hlast : latest.seconds = Civil.lastDay * 86400 + 86399 := by decide
  rw [InCalendar, hfirst, hlast]
  omega

theorem isValid_ofSeconds_iff (s : Int) {nanos : Nat} (h : nanos < Civil.nanosPerSecond) :
    (Civil.ofSeconds s nanos).isValid = true ↔ InCalendar s := by
  have hdate := Civil.isDate_ofSeconds s nanos
  rw [Civil.isValid_iff, Civil.minYear_le_iff hdate, Civil.le_maxYear_iff hdate, Civil.dayNumber_ofSeconds,
    inCalendar_iff_day]
  exact ⟨fun hvalid => ⟨hvalid.1, hvalid.2.1⟩, fun hdays => ⟨hdays.1, hdays.2, hdate, Civil.isTime_ofSeconds s h⟩⟩

theorem inCalendar_seconds (t : Instant) : InCalendar t.seconds := by
  obtain ⟨hfirst, hlast, hdate, htime⟩ := (Civil.isValid_iff t.civil).1 t.valid
  rw [Civil.minYear_le_iff hdate] at hfirst
  rw [Civil.le_maxYear_iff hdate] at hlast
  obtain ⟨hhour, hminute, -, -⟩ := htime
  rw [inCalendar_iff_day, seconds, Civil.seconds]
  omega

/-! ## Seconds later -/

theorem ofCivil?_eq_some_iff {c : Civil} {t : Instant} : ofCivil? c = some t ↔ t.civil = c := by
  rw [ofCivil?]
  constructor
  · intro h
    split at h
    · exact (congrArg civil (Option.some.inj h)).symm
    · cases h
  · rintro rfl
    exact dif_pos t.valid

/-- Adding seconds ends in an instant exactly if the sum is in the calendar. -/
theorem exists_addSeconds?_iff (t : Instant) (count : Int) :
    (∃ t', t.addSeconds? count = some t') ↔ InCalendar (t.seconds + count) := by
  obtain ⟨-, -, -, htime⟩ := (Civil.isValid_iff t.civil).1 t.valid
  rw [← isValid_ofSeconds_iff (t.seconds + count) htime.nanos_lt]
  simp only [addSeconds?, ofCivil?_eq_some_iff]
  constructor
  · rintro ⟨t', ht'⟩
    exact ht' ▸ t'.valid
  · intro hvalid
    exact ⟨⟨_, hvalid⟩, rfl⟩

/-- The instant is as many seconds later. -/
theorem seconds_of_addSeconds? {t t' : Instant} {count : Int} (h : t.addSeconds? count = some t') :
    t'.seconds = t.seconds + count := by
  rw [addSeconds?, ofCivil?_eq_some_iff] at h
  rw [seconds, h, Civil.seconds_ofSeconds]

/-- The instant is as far into its second, unless it is counted from a leap second. -/
theorem fraction_of_addSeconds? {t t' : Instant} {count : Int} (hclock : t.civil.second ≠ 60)
    (h : t.addSeconds? count = some t') : t'.fraction = t.fraction := by
  rw [addSeconds?, ofCivil?_eq_some_iff] at h
  have hsecond : t'.civil.second ≠ 60 := by
    rw [h, Civil.ofSeconds]
    dsimp only
    omega
  rw [fraction, fraction, if_neg hsecond, if_neg hclock, h]
  rfl

/-- A clock that shows no leap second: what lies within a number of seconds is what is not after their end. -/
theorem isWithin_eq_of_addSeconds? {now limit : Instant} {count : Int} (hclock : now.civil.second ≠ 60)
    (h : now.addSeconds? count = some limit) (t : Instant) : t.isWithin count now = t.isWithin 0 limit := by
  simp only [isWithin, seconds_of_addSeconds? h, fraction_of_addSeconds? hclock h, Int.add_zero]

end Instant
end PasswordVault
