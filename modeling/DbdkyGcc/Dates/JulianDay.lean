import DbdkyGcc.Foundations.Calendar
import DbdkyGcc.Foundations.MachineInt

/-!
# Julian day numbers

`getJulianDayNumber` and `getYearMonthDay` are two closed formulas over `int`.
They are read here with every operation checked for overflow and compared with
the calendar: the first is the number of days since 1970 shifted by a constant,
the second the date of a day, as far as the calendar is needed.
-/

namespace DbdkyGcc.Dates

open Foundations

/-- `Date::YearMonthDay`. -/
abbrev YearMonthDay := Foundations.Date

def getJulianDayNumber (year month day : Checked 32) : Checked 32 :=
  let a := (14 - month) / 12
  let y := year + 4800 - a
  let m := month + 12 * a - 3
  day + (153 * m + 2) / 5 + y * 365 + y / 4 - y / 100 + y / 400 - 32045

def getYearMonthDay (julianDayNumber : Checked 32) : Option YearMonthDay := do
  let a := julianDayNumber + 32044
  let b := (4 * a + 3) / 146097
  let c := a - (b * 146097) / 4
  let d := (4 * c + 3) / 1461
  let e := c - (1461 * d) / 4
  let m := (5 * e + 2) / 153
  let day ← (e - (153 * m + 2) / 5 + 1).value
  let month ← (m + 3 - 12 * (m / 10)).value
  let year ← (b * 100 + d - 4800 + m / 10).value
  return { year, month, day }

/-- The formula over the integers counts the days of the calendar. -/
theorem julianDay_eq_toDays {year month day : Int} (hm : 1 ≤ month ∧ month ≤ 12) :
    day + (153 * (month + 12 * ((14 - month) / 12) - 3) + 2) / 5 +
        (year + 4800 - (14 - month) / 12) * 365 + (year + 4800 - (14 - month) / 12) / 4 -
        (year + 4800 - (14 - month) / 12) / 100 + (year + 4800 - (14 - month) / 12) / 400 - 32045 =
      Date.toDays ⟨year, month, day⟩ + 2440588 := by
  unfold Date.toDays
  -- January and February belong to the year that began in the March before.
  by_cases h : month ≤ 2
  · have ha : (14 - month) / 12 = 1 := by omega
    simp only [ha, if_pos h]
    have hmonth : month + 12 * 1 - 3 = month + 9 := by omega
    rw [hmonth]
    omega
  · have ha : (14 - month) / 12 = 0 := by omega
    simp only [ha, if_neg h]
    have hmonth : month + 12 * 0 - 3 = month - 3 := by omega
    rw [hmonth]
    omega

theorem getJulianDayNumber_eq {year month day : Int} (hy : -4799 ≤ year ∧ year ≤ 1400001)
    (hm : 1 ≤ month ∧ month ≤ 12) (hd : 1 ≤ day ∧ day ≤ 31) :
    (getJulianDayNumber year month day).value =
      some (Date.toDays ⟨year, month, day⟩ + 2440588) := by
  unfold getJulianDayNumber
  simp (disch := first | omega | (rw [fits_int]; omega)) only [Checked.ofNat_eq, Checked.cast_sub,
    Checked.cast_div, Checked.cast_add, Checked.cast_mul]
  rw [Checked.value_cast (by rw [fits_int]; omega), julianDay_eq_toDays hm]

section Parts

/-! The formula back counts from 1 March of the year -4800, which begins 400 years of the calendar.
Its local variables are the parts of the day in these. -/

variable {a : Int}

theorem centuries_eq : (4 * a + 3) / 146097 = 4 * (a / 146097) + Date.century (a % 146097) := by
  unfold Date.century
  omega

theorem dayOfCentury_eq :
    a - (4 * (a / 146097) + Date.century (a % 146097)) * 146097 / 4 =
      a % 146097 - 36524 * Date.century (a % 146097) := by
  have hc := Date.century_range (Int.emod_nonneg a (b := 146097) (by decide))
  omega

theorem years_eq {doe : Int} :
    (4 * (doe - 36524 * Date.century doe) + 3) / 1461 =
      4 * Date.fourYears doe + Date.yearOfFour doe := by
  unfold Date.fourYears Date.yearOfFour
  omega

theorem dayOfYear_eq {doe : Int} :
    doe - 36524 * Date.century doe - 1461 * (4 * Date.fourYears doe + Date.yearOfFour doe) / 4 =
      Date.dayOfYear doe := by
  have hy := Date.yearOfFour_range doe
  unfold Date.dayOfYear Date.fourYears
  omega

theorem month_eq {doy : Int} : (5 * doy + 2) / 153 = Date.monthOf doy := rfl

/-- The date of a day, with the month's overflow into the next year as the formula has it. -/
theorem ofDays_eq_parts {n doe : Int} (ha : a = n + 32044) (hdoe : doe = a % 146097) :
    Date.ofDays (n - 2440588) =
      { year := (4 * (a / 146097) + Date.century doe) * 100 +
          (4 * Date.fourYears doe + Date.yearOfFour doe) - 4800 +
          Date.monthOf (Date.dayOfYear doe) / 10
        month := Date.monthOf (Date.dayOfYear doe) + 3 -
          12 * (Date.monthOf (Date.dayOfYear doe) / 10)
        day := Date.dayOfYear doe - (153 * Date.monthOf (Date.dayOfYear doe) + 2) / 5 + 1 } := by
  have hrest : (n - 2440588 + 719468) % 146097 = doe := by omega
  have hera : (n - 2440588 + 719468) / 146097 = a / 146097 - 12 := by omega
  have hd := Date.dayOfYear_range doe
  have hm := Date.monthOf_range hd.1 hd.2
  unfold Date.ofDays
  simp only [hrest, hera]
  generalize Date.monthOf (Date.dayOfYear doe) = m at hm ⊢
  by_cases h : m < 10
  · have hnext : m / 10 = 0 := by omega
    simp only [if_pos h, hnext, Date.mk.injEq, and_true]
    omega
  · have hnext : m / 10 = 1 := by omega
    simp only [if_neg h, hnext, Date.mk.injEq, and_true]
    omega

end Parts

theorem getYearMonthDay_eq {n : Int} (h : -32044 ≤ n ∧ n ≤ 513060925) :
    getYearMonthDay n = some (Date.ofDays (n - 2440588)) := by
  rw [ofDays_eq_parts rfl rfl]
  unfold getYearMonthDay
  simp (disch := first | omega | (rw [fits_int]; omega)) only [Checked.ofNat_eq, Checked.cast_sub,
    Checked.cast_div, Checked.cast_add, Checked.cast_mul, Checked.one_eq]
  rw [centuries_eq, dayOfCentury_eq, years_eq, dayOfYear_eq, month_eq]
  have hera : 0 ≤ (n + 32044) / 146097 ∧ (n + 32044) / 146097 ≤ 3512 := by omega
  have hdoe₀ := Int.emod_nonneg (n + 32044) (b := 146097) (by decide)
  have hdoe₁ := Int.emod_lt_of_pos (n + 32044) (b := 146097) (by decide)
  generalize (n + 32044) % 146097 = doe at hdoe₀ hdoe₁ ⊢
  have hc := Date.century_range hdoe₀
  have hf := Date.fourYears_range hdoe₀ hdoe₁
  have hy := Date.yearOfFour_range doe
  have hd := Date.dayOfYear_range doe
  have hm := Date.monthOf_range hd.1 hd.2
  simp (disch := (rw [fits_int]; omega)) only [Checked.value_cast]
  rfl

/-- `class Date`: a day by its Julian day number. -/
structure Date where
  julianDayNumber : Int
  deriving DecidableEq, Repr

namespace Date

/-- `Date(year, month, day)`. -/
def ofYearMonthDay (year month day : Checked 32) : Option Date :=
  (getJulianDayNumber year month day).value.map Date.mk

def yearMonthDay (date : Date) : Option YearMonthDay := getYearMonthDay date.julianDayNumber

def kDaysPerWeek : Checked 32 := 7

def weekDay (date : Date) : Checked 32 := ((date.julianDayNumber : Checked 32) + 1) % kDaysPerWeek

/-- `operator<`. -/
def lt (x y : Date) : Bool := x.julianDayNumber < y.julianDayNumber

/-- `operator==`. -/
def eq (x y : Date) : Bool := x.julianDayNumber == y.julianDayNumber

end Date

theorem Date.value_weekDay {n : Int} (h₀ : 0 ≤ n) (h₁ : n < 2147483647) :
    (Date.mk n).weekDay.value = some ((n + 1) % 7) := by
  have hseven : Date.kDaysPerWeek = ((7 : Int) : Checked 32) := rfl
  have hdiv : (n + 1).tdiv 7 = (n + 1) / 7 := Int.tdiv_eq_ediv_of_nonneg (by omega)
  have hmod : (n + 1).tmod 7 = (n + 1) % 7 := Int.tmod_eq_emod_of_nonneg (by omega)
  show (((n : Checked 32) + 1) % Date.kDaysPerWeek).value = some ((n + 1) % 7)
  rw [hseven, Checked.one_eq, Checked.cast_add (by rw [fits_int]; omega) (by decide),
    Checked.cast_tmod (by rw [fits_int]; omega) (by decide) (by decide)
      (by rw [hdiv, fits_int]; omega), hmod, Checked.value_cast (by rw [fits_int]; omega)]

def kJulianDayOf1970_01_01 : Checked 32 := getJulianDayNumber 1970 1 1

section Calendar

variable {d e : YearMonthDay}

/-- The years over which the two formulas are compared. -/
def InYears (d : YearMonthDay) : Prop := -4799 ≤ d.year ∧ d.year ≤ 1400000

theorem julianDay_of_date (hd : d.Valid) (hy : -4799 ≤ d.year ∧ d.year ≤ 1400001) :
    (getJulianDayNumber d.year d.month d.day).value = some (d.toDays + 2440588) := by
  have hlen := Date.daysInMonth_range d.year d.month
  exact getJulianDayNumber_eq hy hd.month ⟨hd.day.1, hd.day.2.trans hlen.2⟩

/-- The numbers of these days are those from the first of them to the last. -/
theorem inYears_iff (hd : d.Valid) :
    InYears d ↔ -31738 ≤ d.toDays + 2440588 ∧ d.toDays + 2440588 ≤ 513060925 := by
  have hfirst : (⟨-4799, 1, 1⟩ : YearMonthDay).Valid := ⟨by decide, by decide⟩
  have hlast : (⟨1400000, 12, 31⟩ : YearMonthDay).Valid := ⟨by decide, by decide⟩
  have hlow := (Date.toDays_lt_iff hd hfirst).trans (Date.before_first_iff hd _)
  have hhigh := (Date.toDays_lt_iff hlast hd).trans (Date.last_before_iff hd _)
  have h₀ : (⟨-4799, 1, 1⟩ : YearMonthDay).toDays = -2472326 := by decide
  have h₁ : (⟨1400000, 12, 31⟩ : YearMonthDay).toDays = 510620337 := by decide
  rw [h₀] at hlow
  rw [h₁] at hhigh
  unfold InYears
  omega

/-- The constructor of `Date` takes every date of these years. -/
theorem ofYearMonthDay_eq (hd : d.Valid) (hy : InYears d) :
    Date.ofYearMonthDay d.year d.month d.day = some ⟨d.toDays + 2440588⟩ := by
  unfold Date.ofYearMonthDay
  rw [julianDay_of_date hd ⟨hy.1, by have := hy.2; omega⟩]
  rfl

/-- On the dates of these years and the days that they have the two formulas undo each other, the
day after has the number after, and the order and the equality of `Date` are those of the calendar.
No operation overflows. -/
theorem julianDay_calendar :
    (∀ d : YearMonthDay, d.Valid → InYears d →
      ∃ n : Int, (getJulianDayNumber d.year d.month d.day).value = some n ∧
        getYearMonthDay n = some d ∧
        (getJulianDayNumber d.next.year d.next.month d.next.day).value = some (n + 1)) ∧
    (∀ first last n : Int, (getJulianDayNumber (-4799 : Int) 1 1).value = some first →
      (getJulianDayNumber 1400000 12 31).value = some last → first ≤ n → n ≤ last →
      ∃ d : YearMonthDay, getYearMonthDay n = some d ∧ d.Valid ∧ InYears d ∧
        (getJulianDayNumber d.year d.month d.day).value = some n) ∧
    ∀ d e : YearMonthDay, d.Valid → InYears d → e.Valid → InYears e →
      ∃ x y : Date, Date.ofYearMonthDay d.year d.month d.day = some x ∧
        Date.ofYearMonthDay e.year e.month e.day = some y ∧
        (x.lt y ↔ d.Before e) ∧ (x.eq y ↔ d = e) := by
  refine ⟨?_, ?_, ?_⟩
  · intro d hd hy
    have hrange := (inYears_iff hd).mp hy
    refine ⟨d.toDays + 2440588, julianDay_of_date hd ⟨hy.1, by have := hy.2; omega⟩, ?_, ?_⟩
    · rw [getYearMonthDay_eq (by omega), Int.add_sub_cancel, Date.ofDays_toDays hd]
    · have hyear : d.year ≤ d.next.year ∧ d.next.year ≤ d.year + 1 := by
        unfold Date.next
        split_ifs <;> simp
      have hnext := Date.toDays_next hd
      rw [julianDay_of_date hd.next ⟨by have := hy.1; omega, by have := hy.2; omega⟩, hnext]
      congr 1
      omega
  · intro first last n hfirst hlast h₀ h₁
    obtain rfl : -31738 = first := Option.some.inj hfirst
    obtain rfl : 513060925 = last := Option.some.inj hlast
    have hd := Date.valid_ofDays (n - 2440588)
    have hn : (Date.ofDays (n - 2440588)).toDays + 2440588 = n := by
      rw [Date.toDays_ofDays]
      omega
    have hy : InYears (Date.ofDays (n - 2440588)) := by
      rw [inYears_iff hd, hn]
      exact ⟨h₀, h₁⟩
    refine ⟨_, getYearMonthDay_eq (by omega), hd, hy, ?_⟩
    rw [julianDay_of_date hd ⟨hy.1, by have := hy.2; omega⟩, hn]
  · intro d e hd hdy he hey
    refine ⟨_, _, ofYearMonthDay_eq hd hdy, ofYearMonthDay_eq he hey, ?_, ?_⟩
    · rw [← Date.toDays_lt_iff hd he]
      simp [Date.lt]
    · rw [← Date.toDays_eq_iff hd he]
      simp [Date.eq]

/-- The leap day of 2000 and the last day that the years have. -/
theorem julianDay_calendar_leap_day :
    (∃ n : Int, (getJulianDayNumber (2000 : Int) (2 : Int) (29 : Int)).value = some n ∧
      getYearMonthDay n = some ⟨2000, 2, 29⟩ ∧
      (getJulianDayNumber (2000 : Int) (3 : Int) (1 : Int)).value = some (n + 1)) ∧
    (∃ d : YearMonthDay, getYearMonthDay (513060925 : Int) = some d ∧ d.Valid ∧ InYears d ∧
      (getJulianDayNumber d.year d.month d.day).value = some 513060925) ∧
    ∃ x y : Date, Date.ofYearMonthDay (2000 : Int) (2 : Int) (29 : Int) = some x ∧
      Date.ofYearMonthDay (2000 : Int) (3 : Int) (1 : Int) = some y ∧ x.lt y := by
  have hd : (⟨2000, 2, 29⟩ : YearMonthDay).Valid := ⟨by decide, by decide⟩
  have he : (⟨2000, 3, 1⟩ : YearMonthDay).Valid := ⟨by decide, by decide⟩
  have hdy : InYears ⟨2000, 2, 29⟩ := ⟨by decide, by decide⟩
  have hey : InYears ⟨2000, 3, 1⟩ := ⟨by decide, by decide⟩
  have hnext : (⟨2000, 2, 29⟩ : YearMonthDay).next = ⟨2000, 3, 1⟩ := by decide
  obtain ⟨n, hn, hback, hn'⟩ := julianDay_calendar.1 _ hd hdy
  rw [hnext] at hn'
  obtain ⟨x, y, hx, hy, hlt, -⟩ := julianDay_calendar.2.2 _ _ hd hdy he hey
  have hlast := julianDay_calendar.2.1 (-31738) 513060925 513060925 (by decide) (by decide)
    (by decide) le_rfl
  exact ⟨⟨n, hn, hback, hn'⟩, hlast, x, y, hx, hy, hlt.mpr (.inr ⟨rfl, .inl (by decide)⟩)⟩

end Calendar

end DbdkyGcc.Dates
