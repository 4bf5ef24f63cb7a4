import DbdkyGcc.Dates.JulianDay
import DbdkyGcc.Zones.LocalTime

/-!
# Universal time

`toUtcTime` and `fromUtcTime` go through Julian day numbers, which are `int`. As long as
these are in range `toUtcTime` is `gmtime_r` by the Gregorian calendar, also before 1970, and
`fromUtcTime` is its inverse.
-/

namespace DbdkyGcc.Zones

open Foundations

def kSecondsPerDay : Checked 32 := 24 * 60 * 60

/-- The parameter is `unsigned`. -/
def fillHMS (seconds : ℕ) (utc : Tm) : Tm :=
  let minutes := seconds / 60
  { utc with
    sec := (seconds % 60 : ℕ)
    min := (minutes % 60 : ℕ)
    hour := (minutes / 60 : ℕ) }

namespace TimeZone

/-- The first lines of `toUtcTime`: the day of a time, and the second in it. A `time_t` has 64 bits;
its quotient is rounded towards zero, and corrected for a time before 1970. -/
def daysAndSeconds (secondsSinceEpoch : Int) : Option (Int × Int) := do
  let perDay := kSecondsPerDay.convert 64
  let seconds ← (((secondsSinceEpoch : Checked 64) % perDay).convert 32).value
  let days ← (((secondsSinceEpoch : Checked 64) / perDay).convert 32).value
  if seconds < 0 then
    let seconds ← ((seconds : Checked 32) + kSecondsPerDay).value
    let days ← ((days : Checked 32) - 1).value
    return (days, seconds)
  else return (days, seconds)

def toUtcTime (secondsSinceEpoch : Int) (yday : Bool) : Option Tm := do
  let split ← daysAndSeconds secondsSinceEpoch
  let utc := fillHMS (split.2 % 2 ^ 32).toNat { Tm.zero with zone := some [0x47, 0x4d, 0x54, 0] }
  let julianDayNumber ← ((split.1 : Checked 32) + Dates.kJulianDayOf1970_01_01).value
  let date := Dates.Date.mk julianDayNumber
  let ymd ← date.yearMonthDay
  let year ← ((ymd.year : Checked 32) - 1900).value
  let mon ← ((ymd.month : Checked 32) - 1).value
  let wday ← date.weekDay.value
  let utc := { utc with year := year, mon := mon, mday := ymd.day, wday := wday }
  if yday then
    let startOfYear ← Dates.Date.ofYearMonthDay ymd.year 1 1
    let yday ← ((date.julianDayNumber : Checked 32) - startOfYear.julianDayNumber).value
    return { utc with yday := yday }
  else return utc

/-- The overload that takes the fields of a date and a time of day. -/
def fromUtcFields (year month day hour minute seconds : Checked 32) : Option Int := do
  let date ← Dates.Date.ofYearMonthDay year month day
  let secondsInDay := hour * 3600 + minute * 60 + seconds
  let days := ((date.julianDayNumber : Checked 32) - Dates.kJulianDayOf1970_01_01).convert 64
  (days * kSecondsPerDay.convert 64 + secondsInDay.convert 64).value

def fromUtcTime (utc : Tm) : Option Int :=
  fromUtcFields ((utc.year : Checked 32) + 1900) ((utc.mon : Checked 32) + 1) utc.mday
    utc.hour utc.min utc.sec

theorem kSecondsPerDay_eq : kSecondsPerDay = ((86400 : Int) : Checked 32) := by decide

theorem kSecondsPerDay_long : kSecondsPerDay.convert 64 = ((86400 : Int) : Checked 64) := by decide

theorem kJulianDayOf1970_eq :
    Dates.kJulianDayOf1970_01_01 = ((2440588 : Int) : Checked 32) := by decide

/-- A date and a time of day in range are converted without overflow. -/
theorem fromUtcFields_eq {d : Dates.YearMonthDay} (hd : d.Valid) (hy : Dates.InYears d)
    {hour minute seconds : Int} (hhour : 0 ≤ hour ∧ hour ≤ 23)
    (hminute : 0 ≤ minute ∧ minute ≤ 59) (hseconds : 0 ≤ seconds ∧ seconds ≤ 59) :
    fromUtcFields d.year d.month d.day hour minute seconds =
      some (d.toDays * 86400 + (hour * 3600 + minute * 60 + seconds)) := by
  have hrange := (Dates.inYears_iff hd).mp hy
  have hdays : (((d.toDays + 2440588 : Int) : Checked 32) -
      Dates.kJulianDayOf1970_01_01).convert 64 = ((d.toDays : Int) : Checked 64) := by
    rw [kJulianDayOf1970_eq, Checked.cast_sub (by rw [fits_int]; omega) (by decide),
      Int.add_sub_cancel, Checked.convert_cast (by rw [fits_int]; omega) (by rw [fits_long]; omega)
        (by decide)]
  have hday : ((hour : Checked 32) * 3600 + (minute : Checked 32) * 60 + seconds).convert 64 =
      ((hour * 3600 + minute * 60 + seconds : Int) : Checked 64) := by
    simp (disch := (rw [fits_int]; omega)) only [Checked.ofNat_eq, Checked.cast_mul,
      Checked.cast_add]
    rw [Checked.convert_cast (by rw [fits_int]; omega) (by rw [fits_long]; omega) (by decide)]
  unfold fromUtcFields
  simp only [Dates.ofYearMonthDay_eq hd hy, hdays, hday, kSecondsPerDay_long, Option.bind_eq_bind,
    Option.bind_some]
  rw [Checked.cast_mul (by rw [fits_long]; omega) (by decide),
    Checked.value_add (by rw [fits_long]; omega) (by rw [fits_long]; omega)
      (by rw [fits_long]; omega)]

section Range

/-- The time is one of a day whose Julian day number is in the range. -/
def InRange (t : Int) : Prop := 0 ≤ t / 86400 + 2440588 ∧ t / 86400 + 2440588 ≤ 500000000

variable {t : Int} (h : InRange t)
include h

/-- The day and the second in it are those of the quotient rounded down. -/
theorem daysAndSeconds_eq : daysAndSeconds t = some (t / 86400, t % 86400) := by
  obtain ⟨h₀, h₁⟩ := h
  have hcases := tdiv_tmod_cases t (y := 86400) (by decide)
  have ht : Fits 64 t := by rw [fits_long]; omega
  have hmod : (((t : Checked 64) % kSecondsPerDay.convert 64).convert 32).value =
      some (t.tmod 86400) := by
    rw [kSecondsPerDay_long,
      Checked.cast_tmod ht (by decide) (by decide) (by rw [fits_long]; omega),
      Checked.convert_cast (by rw [fits_long]; omega) (by rw [fits_int]; omega) (by decide),
      Checked.value_cast (by rw [fits_int]; omega)]
  have hdiv : (((t : Checked 64) / kSecondsPerDay.convert 64).convert 32).value =
      some (t.tdiv 86400) := by
    rw [kSecondsPerDay_long, Checked.cast_tdiv ht (by decide) (by decide),
      Checked.convert_cast (by rw [fits_long]; omega) (by rw [fits_int]; omega) (by decide),
      Checked.value_cast (by rw [fits_int]; omega)]
  unfold daysAndSeconds
  simp only [hmod, hdiv, Option.bind_eq_bind, Option.bind_some]
  rcases hcases with ⟨hsign, hq, hr⟩ | ⟨hsign, hq, hr⟩
  · rw [if_neg (not_lt_of_ge hsign), hq, hr]
    rfl
  · rw [if_pos hsign, kSecondsPerDay_eq, Checked.one_eq, hq, hr,
      Checked.value_add (by rw [fits_int]; omega) (by decide) (by rw [fits_int]; omega),
      Checked.value_sub (by rw [fits_int]; omega) (by decide) (by rw [fits_int]; omega),
      Int.sub_add_cancel, Int.add_sub_cancel]
    rfl

theorem inYears_ofDays : Dates.InYears (Date.ofDays (t / 86400)) := by
  obtain ⟨h₀, h₁⟩ := h
  rw [Dates.inYears_iff (Date.valid_ofDays _), Date.toDays_ofDays]
  omega

theorem yearMonthDay_eq :
    (Dates.Date.mk (t / 86400 + 2440588)).yearMonthDay = some (Date.ofDays (t / 86400)) := by
  obtain ⟨h₀, h₁⟩ := h
  have hymd := Dates.getYearMonthDay_eq (n := t / 86400 + 2440588) (by omega)
  rwa [Int.add_sub_cancel] at hymd

theorem weekDay_eq :
    (Dates.Date.mk (t / 86400 + 2440588)).weekDay.value = some ((4 + t / 86400) % 7) := by
  obtain ⟨h₀, h₁⟩ := h
  rw [Dates.Date.value_weekDay (by omega) (by omega)]
  congr 1
  omega

/-- In the range the conversion is that of the calendar, and no operation overflows. -/
theorem toUtcTime_eq : toUtcTime t true = LibC.gregorian.gmtime_r t := by
  have hd := Date.valid_ofDays (t / 86400)
  have hfirst := Date.toDays_sub_first hd
  have hyears := inYears_ofDays h
  have hymd := yearMonthDay_eq h
  have hwday := weekDay_eq h
  rw [Date.toDays_ofDays] at hfirst
  show _ = some _
  unfold toUtcTime gmtime
  simp only [daysAndSeconds_eq h, kJulianDayOf1970_eq, Option.bind_eq_bind, Option.bind_some]
  obtain ⟨h₀, h₁⟩ := h
  rw [Checked.value_add (by rw [fits_int]; omega) (by decide) (by rw [fits_int]; omega),
    Option.bind_some, hymd, Option.bind_some]
  -- From here on only the range of the date counts.
  generalize Date.ofDays (t / 86400) = d at *
  have hmonth := hd.month
  obtain ⟨hyear₀, hyear₁⟩ := id hyears
  have hstart : Dates.Date.ofYearMonthDay (d.year : Int) 1 1 =
      some ⟨Date.toDays ⟨d.year, 1, 1⟩ + 2440588⟩ :=
    Dates.ofYearMonthDay_eq (d := ⟨d.year, 1, 1⟩) (Date.valid_first _) hyears
  have hyear : ((d.year : Checked 32) - 1900).value = some (d.year - 1900) :=
    Checked.value_sub (y := 1900) (by rw [fits_int]; omega) (by decide) (by rw [fits_int]; omega)
  have hmon : ((d.month : Checked 32) - 1).value = some (d.month - 1) :=
    Checked.value_sub (y := 1) (by rw [fits_int]; omega) (by decide) (by rw [fits_int]; omega)
  have hyday : (((t / 86400 + 2440588 : Int) : Checked 32) -
      ((Date.toDays ⟨d.year, 1, 1⟩ + 2440588 : Int) : Checked 32)).value =
      some (t / 86400 - Date.toDays ⟨d.year, 1, 1⟩) := by
    rw [Checked.value_sub (by rw [fits_int]; omega) (by rw [fits_int]; omega)
      (by rw [fits_int]; omega), Int.add_sub_add_right]
  have hseconds : t % 86400 % 2 ^ 32 = t % 86400 := by omega
  simp only [hyear, hmon, hwday, hstart, hyday, hseconds, fillHMS, Nat.div_div_eq_div_mul,
    Option.bind_some, if_true]
  rfl

/-- The fields of a time in range lead back to it. -/
theorem fromUtcTime_gmtime_r {utc : Tm} (hutc : LibC.gregorian.gmtime_r t = some utc) :
    fromUtcTime utc = some t := by
  have hd := Date.valid_ofDays (t / 86400)
  have hdays := Date.toDays_ofDays (t / 86400)
  have hyears := inYears_ofDays h
  have hhour : 0 ≤ ((gmtime t).hour : Int) ∧ ((gmtime t).hour : Int) ≤ 23 := by
    have := hour_gmtime t
    omega
  have hmin : 0 ≤ ((gmtime t).min : Int) ∧ ((gmtime t).min : Int) ≤ 59 := by
    have := min_gmtime t
    omega
  have hsec : 0 ≤ ((gmtime t).sec : Int) ∧ ((gmtime t).sec : Int) ≤ 59 := by
    have := sec_gmtime t
    omega
  have hfields := fromUtcFields_eq hd hyears hhour hmin hsec
  have hmonth := hd.month
  obtain ⟨hyear₀, hyear₁⟩ := hyears
  have hyear : (((Date.ofDays (t / 86400)).year - 1900 : Int) : Checked 32) + 1900 =
      ((Date.ofDays (t / 86400)).year : Checked 32) := by
    rw [Checked.ofNat_eq, Checked.cast_add (by rw [fits_int]; omega) (by decide),
      Int.sub_add_cancel]
  have hmon : (((Date.ofDays (t / 86400)).month - 1 : Int) : Checked 32) + 1 =
      ((Date.ofDays (t / 86400)).month : Checked 32) := by
    rw [Checked.one_eq, Checked.cast_add (by rw [fits_int]; omega) (by decide),
      Int.sub_add_cancel]
  rw [← hyear, ← hmon] at hfields
  obtain rfl := Option.some.inj hutc
  refine hfields.trans (congrArg some ?_)
  simp only [hdays, gmtime]
  omega

end Range

/-- For every time of a day in range, also before 1970, `toUtcTime` gives the time of day, the date
so many days from 1 January 1970, its day of the week and its day of the year, and `fromUtcTime`
leads back. No operation overflows. -/
theorem utc_conversion {t : Int} (h : InRange t) :
    ∃ utc : Tm, toUtcTime t true = some utc ∧
      (0 ≤ utc.hour ∧ utc.hour ≤ 23) ∧ (0 ≤ utc.min ∧ utc.min ≤ 59) ∧
      (0 ≤ utc.sec ∧ utc.sec ≤ 59) ∧
      (∃ d : Date, d.Valid ∧ utc.year = d.year - 1900 ∧ utc.mon = d.month - 1 ∧
        utc.mday = d.day ∧
        Date.next^[(t / 86400).toNat] ⟨1970, 1, 1⟩ = Date.next^[(-(t / 86400)).toNat] d ∧
        0 ≤ utc.yday ∧ Date.next^[utc.yday.toNat] ⟨d.year, 1, 1⟩ = d) ∧
      utc.wday = (4 + t / 86400) % 7 ∧ fromUtcTime utc = some t := by
  have hd := Date.valid_ofDays (t / 86400)
  have hdays := Date.toDays_ofDays (t / 86400)
  have hhour := hour_gmtime t
  have hmin := min_gmtime t
  have hsec := sec_gmtime t
  have hfirst := Date.toDays_sub_first hd
  rw [hdays] at hfirst
  refine ⟨_, toUtcTime_eq h, ⟨Int.natCast_nonneg _, ?_⟩, ⟨Int.natCast_nonneg _, ?_⟩,
    ⟨Int.natCast_nonneg _, ?_⟩, ⟨Date.ofDays (t / 86400), hd, rfl, rfl, rfl, ?_, hfirst.1, ?_⟩, rfl,
    fromUtcTime_gmtime_r h rfl⟩
  · show ((gmtime t).hour : Int) ≤ 23
    omega
  · show ((gmtime t).min : Int) ≤ 59
    omega
  · show ((gmtime t).sec : Int) ≤ 59
    omega
  · rw [← Date.ofDays_zero]
    have hmeet := Date.next_iterate_meet 0 (t / 86400)
    rwa [Int.sub_zero, Int.zero_sub] at hmeet
  · have hyday := Date.next_iterate_first hd
    rwa [hdays] at hyday

/-- The last second of 1969, and 29 February 2000. -/
theorem utc_conversion_before_epoch :
    (∃ utc : Tm, toUtcTime (-1) true = some utc ∧ utc.wday = (4 + -1 / 86400) % 7 ∧
      fromUtcTime utc = some (-1)) ∧
    ∃ utc : Tm, toUtcTime 951868799 true = some utc ∧ (0 ≤ utc.hour ∧ utc.hour ≤ 23) ∧
      fromUtcTime utc = some 951868799 := by
  obtain ⟨utc, hutc, -, -, -, -, hwday, hback⟩ := utc_conversion (t := -1) ⟨by decide, by decide⟩
  obtain ⟨utc', hutc', hhour', -, -, -, -, hback'⟩ :=
    utc_conversion (t := 951868799) ⟨by decide, by decide⟩
  exact ⟨⟨utc, hutc, hwday, hback⟩, utc', hutc', hhour', hback'⟩

end TimeZone

end DbdkyGcc.Zones
