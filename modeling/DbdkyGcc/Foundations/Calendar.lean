import Mathlib

/-!
# The Gregorian calendar

The date of a day, counted from 1 January 1970, and the way back. Years are
taken to begin in March, so that the leap day is the last day of its year: 400
years are 146097 days, the first three of their centuries have 36524 days, four
years have 1461 days, and the first three of them 365.

`ofDays` never leaves out or repeats a day: `toDays` is its inverse on the dates
that the calendar has, and the day after has the date after. Together with the
time of day this makes the broken-down time of `gmtime` determine the second.
-/

namespace DbdkyGcc.Foundations

/-- A date of the proleptic Gregorian calendar. -/
@[ext] structure Date where
  year : Int
  month : Int
  day : Int
  deriving DecidableEq, Repr

namespace Date

/-- The century of a day in its 400 years, the four years in the century, and the year in these.
The last of each is the one that may be a day longer or shorter. -/
def century (doe : Int) : Int := min 3 (doe / 36524)

def fourYears (doe : Int) : Int := (doe - 36524 * century doe) / 1461

def yearOfFour (doe : Int) : Int := min 3 ((doe - 36524 * century doe) % 1461 / 365)

/-- The number of a day in its year, from 1 March. -/
def dayOfYear (doe : Int) : Int := (doe - 36524 * century doe) % 1461 - 365 * yearOfFour doe

/-- The number of a day's month in its year, from March. -/
def monthOf (doy : Int) : Int := (5 * doy + 2) / 153

/-- The date of the day that many days after 1 January 1970. -/
def ofDays (n : Int) : Date :=
  let era := (n + 719468) / 146097
  let doe := (n + 719468) % 146097
  let doy := dayOfYear doe
  let m := monthOf doy
  let y := 400 * era + 100 * century doe + 4 * fourYears doe + yearOfFour doe
  { year := if m < 10 then y else y + 1
    month := if m < 10 then m + 3 else m - 9
    day := doy - (153 * m + 2) / 5 + 1 }

/-- How many days a date is after 1 January 1970. -/
def toDays (d : Date) : Int :=
  let y := if d.month ≤ 2 then d.year - 1 else d.year
  let m := if d.month ≤ 2 then d.month + 9 else d.month - 3
  let doy := (153 * m + 2) / 5 + d.day - 1
  146097 * (y / 400) + 365 * (y % 400) + y % 400 / 4 - y % 400 / 100 + doy - 719468

/-- The leap years of the Gregorian calendar. -/
def isLeap (year : Int) : Bool := year % 4 = 0 && (year % 100 ≠ 0 || year % 400 = 0)

def daysInMonth (year month : Int) : Int :=
  if month = 2 then if isLeap year then 29 else 28
  else if month = 4 ∨ month = 6 ∨ month = 9 ∨ month = 11 then 30
  else 31

/-- A date that the calendar has. -/
structure Valid (d : Date) : Prop where
  month : 1 ≤ d.month ∧ d.month ≤ 12
  day : 1 ≤ d.day ∧ d.day ≤ daysInMonth d.year d.month

/-- The day after. -/
def next (d : Date) : Date :=
  if d.day < daysInMonth d.year d.month then { d with day := d.day + 1 }
  else if d.month < 12 then ⟨d.year, d.month + 1, 1⟩
  else ⟨d.year + 1, 1, 1⟩

/-- One date is earlier than another. -/
def Before (d e : Date) : Prop :=
  d.year < e.year ∨ d.year = e.year ∧ (d.month < e.month ∨ d.month = e.month ∧ d.day < e.day)

theorem century_range {doe : Int} (h₀ : 0 ≤ doe) : 0 ≤ century doe ∧ century doe ≤ 3 := by
  unfold century
  omega

theorem fourYears_range {doe : Int} (h₀ : 0 ≤ doe) (h₁ : doe < 146097) :
    0 ≤ fourYears doe ∧ fourYears doe ≤ 24 := by
  unfold fourYears century
  omega

theorem yearOfFour_range (doe : Int) : 0 ≤ yearOfFour doe ∧ yearOfFour doe ≤ 3 := by
  unfold yearOfFour
  omega

theorem dayOfYear_range (doe : Int) : 0 ≤ dayOfYear doe ∧ dayOfYear doe ≤ 365 := by
  unfold dayOfYear yearOfFour
  omega

/-- The parts of a day make up the day. -/
theorem eq_parts (doe : Int) : doe = 36524 * century doe + 1461 * fourYears doe +
    365 * yearOfFour doe + dayOfYear doe := by
  unfold dayOfYear fourYears
  omega

theorem monthOf_range {doy : Int} (h₀ : 0 ≤ doy) (h₁ : doy ≤ 365) :
    0 ≤ monthOf doy ∧ monthOf doy ≤ 11 := by
  unfold monthOf
  omega

theorem month_ofDays (n : Int) : 1 ≤ (ofDays n).month ∧ (ofDays n).month ≤ 12 := by
  obtain ⟨h₀, h₁⟩ := dayOfYear_range ((n + 719468) % 146097)
  obtain ⟨hm₀, hm₁⟩ := monthOf_range h₀ h₁
  simp only [ofDays]
  split <;> omega

theorem day_ofDays (n : Int) : 1 ≤ (ofDays n).day ∧ (ofDays n).day ≤ 31 := by
  obtain ⟨h₀, h₁⟩ := dayOfYear_range ((n + 719468) % 146097)
  simp only [ofDays, monthOf]
  omega

theorem toDays_ofDays (n : Int) : toDays (ofDays n) = n := by
  have hdoe₀ : 0 ≤ (n + 719468) % 146097 := by omega
  have hdoe₁ : (n + 719468) % 146097 < 146097 := by omega
  have hera := Int.mul_ediv_add_emod (n + 719468) 146097
  simp only [ofDays]
  generalize (n + 719468) % 146097 = doe at *
  generalize (n + 719468) / 146097 = era at *
  obtain ⟨hc₀, hc₁⟩ := century_range hdoe₀
  obtain ⟨hf₀, hf₁⟩ := fourYears_range hdoe₀ hdoe₁
  obtain ⟨hy₀, hy₁⟩ := yearOfFour_range doe
  obtain ⟨hd₀, hd₁⟩ := dayOfYear_range doe
  obtain ⟨hm₀, hm₁⟩ := monthOf_range hd₀ hd₁
  have hparts := eq_parts doe
  generalize century doe = c at *
  generalize fourYears doe = f at *
  generalize yearOfFour doe = y at *
  generalize dayOfYear doe = doy at *
  generalize monthOf doy = m at *
  have hyear : (400 * era + 100 * c + 4 * f + y) / 400 = era := by omega
  have hyoe : (400 * era + 100 * c + 4 * f + y) % 400 = 100 * c + 4 * f + y := by omega
  have hfours : (100 * c + 4 * f + y) / 4 = 25 * c + f := by omega
  have hcenturies : (100 * c + 4 * f + y) / 100 = c := by omega
  by_cases hm : m < 10
  · have h2 : ¬ m + 3 ≤ 2 := by omega
    simp only [toDays, if_pos hm, if_neg h2, hyear, hyoe, hfours, hcenturies]
    omega
  · have h2 : m - 9 ≤ 2 := by omega
    simp only [toDays, if_neg hm, if_pos h2, add_sub_cancel_right, hyear, hyoe, hfours, hcenturies]
    omega

theorem ofDays_injective : Function.Injective ofDays :=
  Function.LeftInverse.injective toDays_ofDays

theorem isLeap_iff (year : Int) :
    isLeap year = true ↔ year % 4 = 0 ∧ (year % 100 ≠ 0 ∨ year % 400 = 0) := by
  simp [isLeap]

theorem daysInMonth_range (year month : Int) :
    28 ≤ daysInMonth year month ∧ daysInMonth year month ≤ 31 := by
  unfold daysInMonth
  split_ifs <;> omega

/-- A day of a year that begins in March, by the century, the four years and the year in which it
lies. Only a year before a leap year has the last day. -/
theorem parts_eq {c f k doy : Int} (hc : 0 ≤ c ∧ c ≤ 3) (hf : 0 ≤ f ∧ f ≤ 24) (hk : 0 ≤ k ∧ k ≤ 3)
    (hdoy : 0 ≤ doy ∧ doy ≤ 365) (hlast : doy = 365 → k = 3 ∧ (f < 24 ∨ c = 3)) :
    century (36524 * c + 1461 * f + 365 * k + doy) = c ∧
      fourYears (36524 * c + 1461 * f + 365 * k + doy) = f ∧
      yearOfFour (36524 * c + 1461 * f + 365 * k + doy) = k ∧
      dayOfYear (36524 * c + 1461 * f + 365 * k + doy) = doy := by
  have hcentury : century (36524 * c + 1461 * f + 365 * k + doy) = c := by
    unfold century
    omega
  have hrest : (36524 * c + 1461 * f + 365 * k + doy - 36524 * c) % 1461 = 365 * k + doy := by
    omega
  have hyear : yearOfFour (36524 * c + 1461 * f + 365 * k + doy) = k := by
    unfold yearOfFour
    rw [hcentury, hrest]
    omega
  refine ⟨hcentury, ?_, hyear, ?_⟩
  · unfold fourYears
    rw [hcentury]
    omega
  · unfold dayOfYear
    rw [hcentury, hrest, hyear]
    omega

/-- The month of a day by its number in a year that begins in March. -/
theorem monthOf_eq {m doy : Int} (h₀ : (153 * m + 2) / 5 ≤ doy)
    (h₁ : doy < (153 * (m + 1) + 2) / 5) : monthOf doy = m := by
  unfold monthOf
  omega

/-- The length of the months from March to January. -/
theorem daysInMonth_eq {m : Int} (year : Int) (h₀ : 0 ≤ m) (h₁ : m ≤ 10) :
    daysInMonth year (if m < 10 then m + 3 else m - 9) =
      (153 * (m + 1) + 2) / 5 - (153 * m + 2) / 5 := by
  interval_cases m <;> rfl

/-- A date, with its year taken to begin in March. -/
theorem Valid.march {d : Date} (h : d.Valid) : ∃ y m doy, 0 ≤ m ∧ m ≤ 11 ∧
    d = ⟨if m < 10 then y else y + 1, if m < 10 then m + 3 else m - 9,
      doy - (153 * m + 2) / 5 + 1⟩ ∧
    (153 * m + 2) / 5 ≤ doy ∧ doy < (153 * (m + 1) + 2) / 5 ∧ doy ≤ 365 ∧
    (doy = 365 → isLeap (y + 1) = true) := by
  obtain ⟨year, month, day⟩ := d
  obtain ⟨⟨hm₁, hm₂⟩, hd₁, hd₂⟩ := h
  dsimp only at hm₁ hm₂ hd₁ hd₂
  obtain ⟨y, m, hm₀, hm, rfl, rfl⟩ : ∃ y m : Int, 0 ≤ m ∧ m ≤ 11 ∧
      (if m < 10 then y else y + 1) = year ∧ (if m < 10 then m + 3 else m - 9) = month := by
    by_cases hmonth : month ≤ 2
    · exact ⟨year - 1, month + 9, by omega, by omega, by rw [if_neg (by omega)]; omega,
        by rw [if_neg (by omega)]; omega⟩
    · exact ⟨year, month - 3, by omega, by omega, by rw [if_pos (by omega)],
        by rw [if_pos (by omega)]; omega⟩
  refine ⟨y, m, (153 * m + 2) / 5 + day - 1, hm₀, hm, ?_, by omega, ?_⟩
  · rw [Date.mk.injEq]
    exact ⟨rfl, rfl, by omega⟩
  · by_cases hlast : m = 11
    · subst hlast
      replace hd₂ : day ≤ if isLeap (y + 1) = true then 29 else 28 := hd₂
      split_ifs at hd₂ with hleap
      · exact ⟨by omega, by omega, fun _ => hleap⟩
      · exact ⟨by omega, by omega, fun h => absurd h (by omega)⟩
    · rw [daysInMonth_eq _ hm₀ (by omega)] at hd₂
      exact ⟨by omega, by omega, fun h => absurd h (by omega)⟩

theorem toDays_march {y m : Int} (h₀ : 0 ≤ m) (h₁ : m ≤ 11) (day : Int) :
    toDays ⟨if m < 10 then y else y + 1, if m < 10 then m + 3 else m - 9, day⟩ =
      146097 * (y / 400) + 365 * (y % 400) + y % 400 / 4 - y % 400 / 100 +
        ((153 * m + 2) / 5 + day - 1) - 719468 := by
  by_cases hm : m < 10
  · have hmonth : ¬m + 3 ≤ 2 := by omega
    simp only [toDays, if_pos hm, if_neg hmonth, add_sub_cancel_right]
  · have hmonth : m - 9 ≤ 2 := by omega
    simp only [toDays, if_neg hm, if_pos hmonth, add_sub_cancel_right, sub_add_cancel]

/-- A date is the date of its day. -/
theorem ofDays_toDays {d : Date} (h : d.Valid) : ofDays (toDays d) = d := by
  obtain ⟨y, m, doy, hm₀, hm₁, rfl, hdoy₀, hdoy₁, hdoy₂, hlast⟩ := h.march
  rw [toDays_march hm₀ hm₁]
  rw [isLeap_iff] at hlast
  -- the year of the 400 years, by its century, its four years and its place in these
  obtain ⟨c, f, k, hc, hf, hk, hyoe⟩ : ∃ c f k, (0 ≤ c ∧ c ≤ 3) ∧ (0 ≤ f ∧ f ≤ 24) ∧
      (0 ≤ k ∧ k ≤ 3) ∧ y % 400 = 100 * c + 4 * f + k :=
    ⟨y % 400 / 100, y % 100 / 4, y % 4, by omega, by omega, by omega, by omega⟩
  obtain ⟨hcentury, hfour, hyear, hday⟩ := parts_eq hc hf hk ⟨by omega, hdoy₂⟩
    (fun h365 => by have := hlast h365; omega)
  have hdays : 146097 * (y / 400) + 365 * (y % 400) + y % 400 / 4 - y % 400 / 100 +
      ((153 * m + 2) / 5 + (doy - (153 * m + 2) / 5 + 1) - 1) - 719468 + 719468 =
      (36524 * c + 1461 * f + 365 * k + doy) + 146097 * (y / 400) := by omega
  have hera : ((36524 * c + 1461 * f + 365 * k + doy) + 146097 * (y / 400)) / 146097 = y / 400 := by
    omega
  have hdoe : ((36524 * c + 1461 * f + 365 * k + doy) + 146097 * (y / 400)) % 146097 =
      36524 * c + 1461 * f + 365 * k + doy := by omega
  simp only [ofDays, hdays, hera, hdoe, hcentury, hfour, hyear, hday, monthOf_eq hdoy₀ hdoy₁]
  rw [Date.mk.injEq]
  have hy : 400 * (y / 400) + 100 * c + 4 * f + k = y := by omega
  rw [hy]
  exact ⟨rfl, rfl, rfl⟩

/-- Only a year before a leap year has a last day. -/
theorem leap_of_dayOfYear {doe : Int} (h₀ : 0 ≤ doe) (hday : dayOfYear doe = 365) :
    yearOfFour doe = 3 ∧ (fourYears doe < 24 ∨ century doe = 3) := by
  unfold dayOfYear yearOfFour at hday
  unfold yearOfFour fourYears
  have hc := century_range h₀
  have hdef : century doe = min 3 (doe / 36524) := rfl
  omega

theorem valid_ofDays (n : Int) : (ofDays n).Valid := by
  have hdoe₀ : 0 ≤ (n + 719468) % 146097 := by omega
  have hdoe₁ : (n + 719468) % 146097 < 146097 := by omega
  refine ⟨month_ofDays n, (day_ofDays n).1, ?_⟩
  simp only [ofDays]
  generalize (n + 719468) % 146097 = doe at *
  generalize (n + 719468) / 146097 = era
  obtain ⟨hd₀, hd₁⟩ := dayOfYear_range doe
  obtain ⟨hm₀, hm₁⟩ := monthOf_range hd₀ hd₁
  have hlast := leap_of_dayOfYear hdoe₀
  have hc := century_range hdoe₀
  have hf := fourYears_range hdoe₀ hdoe₁
  have hmonth : monthOf (dayOfYear doe) = (5 * dayOfYear doe + 2) / 153 := rfl
  generalize century doe = c at *
  generalize fourYears doe = f at *
  generalize yearOfFour doe = k at *
  generalize dayOfYear doe = doy at *
  generalize monthOf doy = m at *
  by_cases hfeb : m = 11
  · subst hfeb
    show doy - 337 + 1 ≤ if isLeap (400 * era + 100 * c + 4 * f + k + 1) = true then 29 else 28
    split_ifs with hleap
    · omega
    · rw [isLeap_iff] at hleap
      omega
  · rw [daysInMonth_eq _ hm₀ (by omega)]
    omega

variable {d e : Date}

theorem Valid.next (h : d.Valid) : d.next.Valid := by
  obtain ⟨hmonth, hday⟩ := h
  unfold Date.next
  split_ifs with hlast hyear
  · exact ⟨hmonth, by dsimp only; omega⟩
  · have hlen := daysInMonth_range d.year (d.month + 1)
    exact ⟨by dsimp only; omega, by dsimp only; omega⟩
  · have hlen := daysInMonth_range (d.year + 1) 1
    exact ⟨by dsimp only; omega, by dsimp only; omega⟩

/-- The months follow each other. -/
theorem toDays_first_of_next {year month : Int} (h₁ : 1 ≤ month) (h₂ : month < 12) :
    toDays ⟨year, month + 1, 1⟩ = toDays ⟨year, month, daysInMonth year month⟩ + 1 := by
  by_cases hfeb : month = 2
  · subst hfeb
    show _ = toDays ⟨year, 2, if isLeap year = true then 29 else 28⟩ + 1
    split_ifs with hleap
    · rw [isLeap_iff] at hleap
      simp only [toDays]
      norm_num
      omega
    · rw [isLeap_iff] at hleap
      simp only [toDays]
      norm_num
      omega
  · by_cases hjan : month = 1
    · subst hjan
      show _ = toDays ⟨year, 1, 31⟩ + 1
      simp only [toDays]
      norm_num
      omega
    · have hlen := daysInMonth_eq year (m := month - 3) (by omega) (by omega)
      rw [if_pos (by omega), sub_add_cancel] at hlen
      have hafter : ¬month ≤ 2 := by omega
      have hafter' : ¬month + 1 ≤ 2 := by omega
      simp only [toDays, hlen, if_neg hafter, if_neg hafter']
      omega

theorem toDays_next (h : d.Valid) : toDays d.next = toDays d + 1 := by
  obtain ⟨⟨hm₁, hm₂⟩, hd₁, hd₂⟩ := h
  unfold Date.next
  split_ifs with hlast hyear
  · simp only [toDays]
    omega
  · have hday : d.day = daysInMonth d.year d.month := by omega
    rw [toDays_first_of_next hm₁ hyear, ← hday]
  · have hmonth : d.month = 12 := by omega
    have hday : d.day = 31 := by
      have hlen : daysInMonth d.year 12 = 31 := rfl
      rw [hmonth] at hd₂ hlast
      omega
    simp only [toDays, hmonth, hday]
    norm_num
    omega

/-- The day after the day of a date is the day of the date after. -/
theorem ofDays_succ (n : Int) : ofDays (n + 1) = (ofDays n).next := by
  have hvalid := valid_ofDays n
  rw [← ofDays_toDays hvalid.next, toDays_next hvalid, toDays_ofDays]

theorem ofDays_zero : ofDays 0 = ⟨1970, 1, 1⟩ := by decide

theorem next_iterate_ofDays (n : Int) (k : ℕ) : next^[k] (ofDays n) = ofDays (n + k) := by
  induction k with
  | zero => exact congrArg ofDays (Int.add_zero n).symm
  | succ k ih =>
    rw [Function.iterate_succ_apply', ih, ← ofDays_succ, Int.add_assoc]
    rfl

/-- Counting on from the earlier of two days leads to the later one. -/
theorem next_iterate_meet (m n : Int) :
    next^[(n - m).toNat] (ofDays m) = next^[(m - n).toNat] (ofDays n) := by
  rw [next_iterate_ofDays, next_iterate_ofDays]
  congr 1
  omega

theorem before_next (d : Date) : d.Before d.next := by
  unfold Date.next
  split_ifs
  · exact .inr ⟨rfl, .inr ⟨rfl, Int.lt_succ _⟩⟩
  · exact .inr ⟨rfl, .inl (Int.lt_succ _)⟩
  · exact .inl (Int.lt_succ _)

theorem Before.trans {d e f : Date} (hde : d.Before e) (hef : e.Before f) : d.Before f := by
  unfold Before at *
  omega

theorem Before.irrefl (d : Date) : ¬d.Before d := by
  unfold Before
  omega

/-- Later days have later dates. -/
theorem before_ofDays {m n : Int} (h : m < n) : (ofDays m).Before (ofDays n) := by
  induction n, h using Int.leInduction with
  | base =>
    rw [ofDays_succ]
    exact before_next _
  | succ n _ ih =>
    rw [ofDays_succ]
    exact ih.trans (before_next _)

/-- The days are in the order of the dates. -/
theorem toDays_lt_iff (hd : d.Valid) (he : e.Valid) : toDays d < toDays e ↔ d.Before e := by
  constructor
  · intro h
    rw [← ofDays_toDays hd, ← ofDays_toDays he]
    exact before_ofDays h
  · intro h
    by_contra hnot
    rcases (Int.not_lt.mp hnot).lt_or_eq with hlt | heq
    · have hback := before_ofDays hlt
      rw [ofDays_toDays hd, ofDays_toDays he] at hback
      exact Before.irrefl d (h.trans hback)
    · rw [← ofDays_toDays hd, ← ofDays_toDays he, heq] at h
      exact Before.irrefl _ h

theorem before_first_iff (hd : d.Valid) (year : Int) : d.Before ⟨year, 1, 1⟩ ↔ d.year < year := by
  have hmonth := hd.month
  have hday := hd.day
  simp only [Before]
  omega

theorem last_before_iff (hd : d.Valid) (year : Int) :
    Before ⟨year, 12, 31⟩ d ↔ year < d.year := by
  have hmonth := hd.month
  have hday := hd.day
  have hlen := daysInMonth_range d.year d.month
  simp only [Before]
  omega

/-- The days of a month are counted on from its first one. -/
theorem toDays_first_of_month (d : Date) : toDays ⟨d.year, d.month, 1⟩ + d.day - 1 = toDays d := by
  simp only [toDays]
  omega

theorem valid_first (year : Int) : (⟨year, 1, 1⟩ : Date).Valid := by
  have hlen : 1 ≤ daysInMonth year 1 := by
    have := daysInMonth_range year 1
    omega
  exact ⟨⟨le_rfl, (by decide : (1 : Int) ≤ 12)⟩, le_rfl, hlen⟩

/-- The days of a year from its first one on. -/
theorem toDays_sub_first (hd : d.Valid) :
    0 ≤ toDays d - toDays ⟨d.year, 1, 1⟩ ∧ toDays d - toDays ⟨d.year, 1, 1⟩ ≤ 365 := by
  have hfirst := (toDays_lt_iff hd (valid_first d.year)).trans (before_first_iff hd _)
  have hnext := (toDays_lt_iff hd (valid_first (d.year + 1))).trans (before_first_iff hd _)
  have hyear : toDays ⟨d.year + 1, 1, 1⟩ ≤ toDays ⟨d.year, 1, 1⟩ + 366 := by
    simp only [toDays]
    omega
  omega

theorem next_iterate_first (hd : d.Valid) :
    next^[(toDays d - toDays ⟨d.year, 1, 1⟩).toNat] ⟨d.year, 1, 1⟩ = d := by
  have hfirst := toDays_sub_first hd
  calc next^[(toDays d - toDays ⟨d.year, 1, 1⟩).toNat] ⟨d.year, 1, 1⟩
      = next^[(toDays d - toDays ⟨d.year, 1, 1⟩).toNat] (ofDays (toDays ⟨d.year, 1, 1⟩)) := by
        rw [ofDays_toDays (valid_first d.year)]
    _ = ofDays (toDays d) := by
        rw [next_iterate_ofDays]
        congr 1
        omega
    _ = d := ofDays_toDays hd

theorem toDays_eq_iff (hd : d.Valid) (he : e.Valid) : toDays d = toDays e ↔ d = e := by
  constructor
  · intro h
    rw [← ofDays_toDays hd, ← ofDays_toDays he, h]
  · exact congrArg toDays

end Date

/-- `struct tm`, as far as a time is concerned that is not local. The year and the month are those
of the calendar. -/
@[ext] structure Tm where
  date : Date
  hour : Nat
  min : Nat
  sec : Nat
  deriving DecidableEq, Repr

/-- `gmtime_r`. -/
def gmtime (t : Int) : Tm :=
  { date := .ofDays (t / 86400)
    hour := (t % 86400).toNat / 3600
    min := (t % 86400).toNat / 60 % 60
    sec := (t % 86400).toNat % 60 }

theorem gmtime_injective : Function.Injective gmtime := by
  intro t u h
  obtain ⟨hdate, hhour, hmin, hsec⟩ := Tm.ext_iff.mp h
  have hday : t / 86400 = u / 86400 := Date.ofDays_injective hdate
  simp only [gmtime] at hhour hmin hsec
  omega

example : gmtime 951868799 = ⟨⟨2000, 2, 29⟩, 23, 59, 59⟩ := by decide

theorem hour_gmtime (t : Int) : (gmtime t).hour < 24 := by
  simp only [gmtime]
  omega

theorem min_gmtime (t : Int) : (gmtime t).min < 60 := by
  simp only [gmtime]
  omega

theorem sec_gmtime (t : Int) : (gmtime t).sec < 60 := by
  simp only [gmtime]
  omega

end DbdkyGcc.Foundations
