import DreamWeaver.Foundations.Decimal

/-! # Dates as text

A `Date` holds a time value in milliseconds, `toISOString` writes it in the extended ISO format of
the proleptic Gregorian calendar, and `parseIso` reads the texts of this form. What `Date.parse`
makes of any other text is up to the engine, so it is a parameter of `dateParse`. A time that is
written reads back as itself. -/

namespace DreamWeaver

/-! ## Fields of a fixed width -/

/-- The last `k` decimal digits of a number, with leading zeros. -/
def fixedDigits : ℕ → ℕ → Text
  | 0, _ => []
  | k + 1, n => fixedDigits k (n / 10) ++ [digitUnit (n % 10)]

/-- Take a field of `k` digits from the front of a text. -/
def readDigits (k : ℕ) (s : Text) : Option (ℕ × Text) :=
  if (s.take k).length = k ∧ (s.take k).all (isDigit 10) then
    some (digitsValue 10 (s.take k), s.drop k)
  else none

/-- Take a separator from the front of a text. -/
def readUnit (c : CodeUnit) : Text → Option Text
  | [] => none
  | d :: s => if d = c then some s else none

@[simp] theorem length_fixedDigits (k n : ℕ) : (fixedDigits k n).length = k := by
  induction k generalizing n with
  | zero => rfl
  | succ k ih => simp [fixedDigits, ih]

/-- A field of digits reads back as the number, up to its width. -/
theorem digitsValue_fixedDigits (k n : ℕ) : digitsValue 10 (fixedDigits k n) = n % 10 ^ k := by
  induction k generalizing n with
  | zero => simp [fixedDigits, Nat.mod_one]
  | succ k ih =>
    have hlast : digitsValue 10 [digitUnit (n % 10)] = n % 10 := by
      rw [digitsValue, List.map_singleton, List.reverse_singleton, Nat.ofDigits_singleton,
        digitValue_digitUnit (Nat.mod_lt n (by norm_num))]
    rw [fixedDigits, digitsValue_append, ih, hlast, List.length_singleton, pow_one, pow_succ',
      Nat.mod_mul, mul_comm, add_comm]

theorem all_isDigit_fixedDigits (k n : ℕ) : (fixedDigits k n).all (isDigit 10) = true := by
  induction k generalizing n with
  | zero => rfl
  | succ k ih =>
    have hlast : isDigit 10 (digitUnit (n % 10)) = true := by
      rw [isDigit, digitValue_digitUnit (Nat.mod_lt n (by norm_num)),
        decide_eq_true (Nat.mod_lt n (by norm_num))]
    rw [fixedDigits, List.all_append, ih, List.all_cons, hlast, List.all_nil]
    rfl

/-- A field of digits is read as the number that was written. -/
theorem readDigits_fixedDigits {k n : ℕ} (hn : n < 10 ^ k) (rest : Text) :
    readDigits k (fixedDigits k n ++ rest) = some (n, rest) := by
  have htake : (fixedDigits k n ++ rest).take k = fixedDigits k n := by
    rw [List.take_append_of_le_length (by simp), List.take_of_length_le (by simp)]
  have hdrop : (fixedDigits k n ++ rest).drop k = rest := by
    rw [List.drop_append_of_le_length (by simp), List.drop_eq_nil_of_le (by simp), List.nil_append]
  rw [readDigits, htake, hdrop, if_pos ⟨length_fixedDigits k n, all_isDigit_fixedDigits k n⟩,
    digitsValue_fixedDigits, Nat.mod_eq_of_lt hn]

@[simp] theorem readUnit_cons (c : CodeUnit) (s : Text) : readUnit c (c :: s) = some s := by
  rw [readUnit, if_pos rfl]

/-! ## The calendar -/

/-- The era of 400 years in which a day lies, counted from 1 March of the year 0. -/
def era (z : ℤ) : ℤ := (z + 719468) / 146097

/-- The day of the era. -/
def dayOfEra (z : ℤ) : ℕ := ((z + 719468) % 146097).toNat

/-- The year, from March, of a day of an era: the last century of an era and the last
year of every fourth year are a day longer. -/
def yearOfEra (d : ℕ) : ℕ :=
  let century := min (d / 36524) 3
  let dayOfCentury := d - 36524 * century
  100 * century + 4 * (dayOfCentury / 1461) + min (dayOfCentury % 1461 / 365) 3

/-- The days of an era before a year. -/
def daysBefore (year : ℕ) : ℕ := year * 365 + year / 4 - year / 100

/-- The days of a year, from March, before a month. -/
def daysBeforeMonth (month : ℕ) : ℕ := (153 * month + 2) / 5

/-- The month, from March, of a day of a year. -/
def monthFromMarch (dayOfYear : ℕ) : ℕ := (5 * dayOfYear + 2) / 153

/-- A year of an era as century, group of four years and year of the group. -/
theorem daysBefore_split {century group year : ℕ} (hgroup : group ≤ 24) (hyear : year ≤ 3) :
    daysBefore (100 * century + 4 * group + year) =
      36524 * century + 1461 * group + 365 * year := by
  unfold daysBefore
  omega

/-- A day is in its year, which lies in its era. -/
theorem daysBefore_yearOfEra {d : ℕ} (hd : d < 146097) :
    yearOfEra d < 400 ∧ daysBefore (yearOfEra d) ≤ d ∧ d - daysBefore (yearOfEra d) ≤ 365 := by
  have hcentury : d - 36524 * min (d / 36524) 3 < 36525 := by omega
  dsimp only [yearOfEra]
  rw [daysBefore_split (by omega) (by omega)]
  omega

/-- A day is in its month. -/
theorem daysBeforeMonth_monthFromMarch {d : ℕ} (hd : d ≤ 365) :
    monthFromMarch d ≤ 11 ∧ daysBeforeMonth (monthFromMarch d) ≤ d ∧
      d - daysBeforeMonth (monthFromMarch d) ≤ 30 := by
  unfold daysBeforeMonth monthFromMarch
  omega

/-- A day lies in its era. -/
theorem era_spec (z : ℤ) : dayOfEra z < 146097 ∧ era z * 146097 + dayOfEra z = z + 719468 := by
  unfold dayOfEra era
  omega

/-- The day of the year, from March. -/
def dayOfYear (z : ℤ) : ℕ := dayOfEra z - daysBefore (yearOfEra (dayOfEra z))

/-- The month of the year, from March. -/
def monthOf (z : ℤ) : ℕ := monthFromMarch (dayOfYear z)

/-- A day of the proleptic Gregorian calendar. -/
structure CalendarDay where
  year : ℤ
  month : ℕ
  day : ℕ
  deriving DecidableEq, Repr

/-- The day of the calendar that is `z` days after 1 January 1970. -/
def calendarDay (z : ℤ) : CalendarDay where
  year := era z * 400 + yearOfEra (dayOfEra z) + if monthOf z < 10 then 0 else 1
  month := if monthOf z < 10 then monthOf z + 3 else monthOf z - 9
  day := dayOfYear z - daysBeforeMonth (monthOf z) + 1

/-- The number of days from 1 January 1970 to a day of the calendar. -/
def CalendarDay.number (c : CalendarDay) : ℤ :=
  let year := c.year - if c.month ≤ 2 then 1 else 0
  let month := if c.month ≤ 2 then c.month + 9 else c.month - 3
  year / 400 * 146097 +
    (daysBefore (year % 400).toNat + (daysBeforeMonth month + (c.day - 1)) : ℕ) - 719468

/-- A day of the year is in its month. -/
theorem monthOf_spec (z : ℤ) : monthOf z ≤ 11 ∧ daysBeforeMonth (monthOf z) ≤ dayOfYear z ∧
    dayOfYear z - daysBeforeMonth (monthOf z) ≤ 30 :=
  daysBeforeMonth_monthFromMarch (daysBefore_yearOfEra (era_spec z).1).2.2

/-- The fields of a day are in their ranges. -/
theorem calendarDay_ranges (z : ℤ) :
    (calendarDay z).month ≤ 12 ∧ (calendarDay z).day ≤ 31 := by
  obtain ⟨hmonth, -, hday⟩ := monthOf_spec z
  refine ⟨?_, Nat.succ_le_succ hday⟩
  dsimp only [calendarDay]
  split <;> omega

/-- The years of an era are counted within it. -/
theorem era_year (era : ℤ) {year : ℕ} (hyear : year < 400) :
    (era * 400 + year) / 400 = era ∧ ((era * 400 + year) % 400).toNat = year := by
  omega

/-- **A day is the day of its number.** -/
theorem number_calendarDay (z : ℤ) : (calendarDay z).number = z := by
  obtain ⟨hera, hz⟩ := era_spec z
  obtain ⟨hyear, hday, -⟩ := daysBefore_yearOfEra hera
  obtain ⟨hmonth, hbefore, -⟩ := monthOf_spec z
  obtain ⟨hquot, hrem⟩ := era_year (era z) hyear
  have hyears : (calendarDay z).year - (if (calendarDay z).month ≤ 2 then 1 else 0) =
      era z * 400 + yearOfEra (dayOfEra z) := by
    dsimp only [calendarDay]
    split_ifs <;> omega
  have hmonths : (if (calendarDay z).month ≤ 2 then (calendarDay z).month + 9
      else (calendarDay z).month - 3) = monthOf z := by
    dsimp only [calendarDay]
    split_ifs <;> omega
  have hdays : (calendarDay z).day - 1 = dayOfYear z - daysBeforeMonth (monthOf z) := rfl
  have htotal : daysBefore (yearOfEra (dayOfEra z)) + (daysBeforeMonth (monthOf z) +
      (dayOfYear z - daysBeforeMonth (monthOf z))) = dayOfEra z := by
    rw [Nat.add_sub_cancel' hbefore, dayOfYear, Nat.add_sub_cancel' hday]
  rw [CalendarDay.number, hyears, hmonths, hdays, hquot, hrem, htotal]
  omega

/-- The days within the range of time values lie in years of at most six digits. -/
theorem natAbs_year_lt {z : ℤ} (hz : |z| ≤ 100000001) : (calendarDay z).year.natAbs < 10 ^ 6 := by
  obtain ⟨hera, hday⟩ := era_spec z
  obtain ⟨hyear, -⟩ := daysBefore_yearOfEra hera
  obtain ⟨hlow, hhigh⟩ := abs_le.mp hz
  have hbounds : -1000 ≤ era z ∧ era z ≤ 1000 := by omega
  dsimp only [calendarDay]
  split_ifs <;> omega

/-! ## Time values -/

/-- The time value of a valid date: milliseconds since 1970, at most 100 million days away. -/
@[ext] structure Time where
  ms : ℤ
  inRange : |ms| ≤ 8640000000000000

/-! The first milliseconds are in range. -/

theorem Time.inRange_zero : |(0 : ℤ)| ≤ 8640000000000000 := by decide

theorem Time.inRange_one : |(1 : ℤ)| ≤ 8640000000000000 := by decide

theorem Time.inRange_two : |(2 : ℤ)| ≤ 8640000000000000 := by decide

theorem Time.inRange_three : |(3 : ℤ)| ≤ 8640000000000000 := by decide

instance : DecidableEq Time := fun t u => decidable_of_iff (t.ms = u.ms) Time.ext_iff.symm

/-- The text of a year: four digits, or a sign and six digits. -/
def yearText (year : ℤ) : Text :=
  if 0 ≤ year ∧ year ≤ 9999 then fixedDigits 4 year.toNat
  else (if year < 0 then 45 else 43) :: fixedDigits 6 year.natAbs

/-- Read a year. -/
def readYear : Text → Option (ℤ × Text)
  | [] => none
  | c :: s =>
    if c = 45 then (readDigits 6 s).map fun p => (-(p.1 : ℤ), p.2)
    else if c = 43 then (readDigits 6 s).map fun p => ((p.1 : ℤ), p.2)
    else (readDigits 4 (c :: s)).map fun p => ((p.1 : ℤ), p.2)

/-- `date.toISOString()` -/
def toISOString (t : Time) : Text :=
  let day := calendarDay (t.ms / 86400000)
  let msOfDay := (t.ms % 86400000).toNat
  yearText day.year ++ 45 :: (fixedDigits 2 day.month ++ 45 :: (fixedDigits 2 day.day ++
    84 :: (fixedDigits 2 (msOfDay / 3600000) ++ 58 :: (fixedDigits 2 (msOfDay / 60000 % 60) ++
      58 :: (fixedDigits 2 (msOfDay / 1000 % 60) ++ 46 :: (fixedDigits 3 (msOfDay % 1000) ++
        [90]))))))

/-- Take a separator and a field of `k` digits from the front of a text. -/
def readField (separator : CodeUnit) (k : ℕ) (s : Text) : Option (ℕ × Text) :=
  (readUnit separator s).bind (readDigits k)

/-- The time value that the fields of a date text denote, whether or not they are in range. -/
def readTime (s : Text) : Option ℤ :=
  (readYear s).bind fun (year, s) =>
  (readField 45 2 s).bind fun (month, s) =>
  (readField 45 2 s).bind fun (day, s) =>
  (readField 84 2 s).bind fun (hour, s) =>
  (readField 58 2 s).bind fun (minute, s) =>
  (readField 58 2 s).bind fun (second, s) =>
  (readField 46 3 s).bind fun (ms, s) =>
  (readUnit 90 s).map fun _ => CalendarDay.number ⟨year, month, day⟩ * 86400000 +
    (hour * 3600000 + minute * 60000 + second * 1000 + ms : ℕ)

/-- The date that a text in the format of `toISOString` denotes. -/
def parseIso (s : Text) : Option Time :=
  match readTime s with
  | none => none
  | some ms =>
    if h : |ms| ≤ 8640000000000000 then
      if toISOString ⟨ms, h⟩ = s then some ⟨ms, h⟩ else none
    else none

/-- A year within the range of time values is read as it was written. -/
theorem readYear_yearText {year : ℤ} (hyear : year.natAbs < 10 ^ 6) (rest : Text) :
    readYear (yearText year ++ rest) = some (year, rest) := by
  unfold yearText
  split
  · rename_i hshort
    have hlt : year.toNat < 10 ^ 4 := by omega
    have hcast : ((year.toNat : ℕ) : ℤ) = year := Int.toNat_of_nonneg hshort.1
    obtain ⟨c, s, hcons, hdigit⟩ : ∃ c s, fixedDigits 4 year.toNat = c :: s ∧
        isDigit 10 c = true := by
      have hall := all_isDigit_fixedDigits 4 year.toNat
      have hlength := length_fixedDigits 4 year.toNat
      cases hfield : fixedDigits 4 year.toNat with
      | nil => simp [hfield] at hlength
      | cons c s =>
        rw [hfield, List.all_cons, Bool.and_eq_true] at hall
        exact ⟨c, s, rfl, hall.1⟩
    have hread := readDigits_fixedDigits hlt rest
    have hrange := isDigit_ten_iff.mp hdigit
    rw [hcons, List.cons_append] at hread ⊢
    rw [readYear, if_neg, if_neg, hread, Option.map_some, hcast]
    · rintro rfl
      exact absurd hrange.1 (by decide)
    · rintro rfl
      exact absurd hrange.1 (by decide)
  · by_cases hneg : year < 0
    · have hcast : -((year.natAbs : ℕ) : ℤ) = year := by omega
      rw [if_pos hneg, List.cons_append, readYear, if_pos rfl, readDigits_fixedDigits hyear,
        Option.map_some, hcast]
    · have hcast : ((year.natAbs : ℕ) : ℤ) = year := by omega
      rw [if_neg hneg, List.cons_append, readYear, if_neg (by decide), if_pos rfl,
        readDigits_fixedDigits hyear, Option.map_some, hcast]

/-- A field is read as the number that was written. -/
theorem readField_cons (separator : CodeUnit) {k n : ℕ} (hn : n < 10 ^ k) (rest : Text) :
    readField separator k (separator :: (fixedDigits k n ++ rest)) = some (n, rest) := by
  rw [readField, readUnit_cons, Option.bind_some, readDigits_fixedDigits hn]

/-- The text of a time denotes its time value. -/
theorem readTime_toISOString (t : Time) : readTime (toISOString t) = some t.ms := by
  have hday := calendarDay_ranges (t.ms / 86400000)
  have hnumber := number_calendarDay (t.ms / 86400000)
  have hms : (t.ms % 86400000).toNat < 86400000 := by omega
  have hyear : (calendarDay (t.ms / 86400000)).year.natAbs < 10 ^ 6 := by
    have hrange := abs_le.mp t.inRange
    exact natAbs_year_lt (abs_le.mpr (by omega))
  have hsplit : (t.ms : ℤ) = t.ms / 86400000 * 86400000 + ((t.ms % 86400000).toNat : ℤ) := by omega
  unfold toISOString
  generalize calendarDay (t.ms / 86400000) = c at *
  generalize (t.ms % 86400000).toNat = ms at *
  have hfields : ms / 3600000 * 3600000 + ms / 60000 % 60 * 60000 + ms / 1000 % 60 * 1000 +
      ms % 1000 = ms := by omega
  rw [readTime, readYear_yearText hyear, Option.bind_some]
  dsimp only
  rw [readField_cons 45 (show c.month < 10 ^ 2 by omega), Option.bind_some]
  dsimp only
  rw [readField_cons 45 (show c.day < 10 ^ 2 by omega), Option.bind_some]
  dsimp only
  rw [readField_cons 84 (show ms / 3600000 < 10 ^ 2 by omega), Option.bind_some]
  dsimp only
  rw [readField_cons 58 (show ms / 60000 % 60 < 10 ^ 2 by omega), Option.bind_some]
  dsimp only
  rw [readField_cons 58 (show ms / 1000 % 60 < 10 ^ 2 by omega), Option.bind_some]
  dsimp only
  rw [readField_cons 46 (show ms % 1000 < 10 ^ 3 by omega), Option.bind_some]
  dsimp only
  rw [readUnit_cons, Option.map_some, hfields]
  rw [hsplit, ← hnumber]

/-- **A time that is written reads back as itself.** -/
theorem parseIso_toISOString (t : Time) : parseIso (toISOString t) = some t := by
  rw [parseIso, readTime_toISOString]
  dsimp only
  rw [dif_pos t.inRange, if_pos rfl]

/-- `Date.parse`: what it makes of a text in another format depends on the engine. -/
def dateParse (otherFormats : Text → Option Time) (s : Text) : Option Time :=
  match parseIso s with
  | some t => some t
  | none => otherFormats s

end DreamWeaver
