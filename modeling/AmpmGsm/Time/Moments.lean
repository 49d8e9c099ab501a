import AmpmGsm.Time.Calendar

/-!
# Dates and days

The calendar itself: years and months are blocks on the line of days, and the first day of 1970 was
a Thursday.

* `Moment` — a valid date with the time of day.
* `Moment.seconds`, `Moment.weekday` — its seconds since 1970, and its day of the week.
* `exists_moment` — every number of seconds is that of a moment.
* `gmtimeR_seconds` — `gmtime_r` finds the moment.
* `mktime_moment` — `mktime` counts its seconds, as long as they fit.
-/

namespace Ampm

open Blocks

/-- A date from 1970 on, with the years, months and days counted from 0, and the time of day. -/
structure Moment where
  year : ℕ
  month : ℕ
  day : ℕ
  hour : ℕ
  min : ℕ
  sec : ℕ
  month_lt : month < 12
  day_lt : day < ytab (leapYear (1970 + year : ℕ)) month
  hour_lt : hour < 24
  min_lt : min < 60
  sec_lt : sec < 60

namespace Moment

/-- The first day of a year, counted from that of 1970. -/
def newYear (k : ℕ) : ℕ := before (fun j => yearSize (1970 + j)) k

variable (c : Moment)

/-- The day of the year. -/
def yearDay : ℕ := before (ytab (leapYear (1970 + c.year : ℕ))) c.month + c.day

/-- The days since the first of 1970. -/
def dayNumber : ℕ := newYear c.year + c.yearDay

/-- The seconds of the day. -/
def daySeconds : ℕ := (c.hour * 60 + c.min) * 60 + c.sec

/-- The seconds since the start of 1970. -/
def seconds : ℕ := c.dayNumber * 86400 + c.daySeconds

/-- The day of the week; 0 is a Sunday. -/
def weekday : ℕ := (c.dayNumber + 4) % 7

/-- The moment as `DATE_TIME`, with any value for the day of the week. -/
def toDateTime (wday : ℤ) : DateTime where
  year := (1970 + c.year : ℕ)
  month := c.month + 1
  mday := c.day + 1
  wday := wday
  hour := c.hour
  min := c.min
  sec := c.sec

lemma daySeconds_lt : c.daySeconds < 86400 := by
  have hhour := c.hour_lt
  have hmin := c.min_lt
  have hsec := c.sec_lt
  rw [daySeconds]
  omega

lemma seconds_div : c.seconds / 86400 = c.dayNumber := by
  have hlt := c.daySeconds_lt
  rw [seconds]
  omega

/-- Twelve months are a year. -/
lemma before_ytab_twelve (year : ℕ) : before (ytab (leapYear year)) 12 = yearSize year := by
  rw [yearSize]
  cases leapYear year <;> rfl

lemma yearDay_lt : c.yearDay < yearSize (1970 + c.year) := by
  have hmono : before (ytab (leapYear (1970 + c.year : ℕ))) (c.month + 1) ≤
      before (ytab (leapYear (1970 + c.year : ℕ))) 12 := before_mono (Nat.succ_le_of_lt c.month_lt)
  have hday := c.day_lt
  rw [before_ytab_twelve, before] at hmono
  rw [yearDay]
  omega

lemma le_yearSize (year : ℕ) : 365 ≤ yearSize year := by
  rw [yearSize]
  split <;> decide

/-- A year is at least 365 days. -/
lemma le_newYear (k : ℕ) : 365 * k ≤ newYear k := by
  induction k with
  | zero => exact Nat.zero_le _
  | succ k ih =>
      have hyear := le_yearSize (1970 + k)
      rw [newYear] at ih
      rw [newYear, before]
      omega

/-- Every number of seconds is that of a moment. -/
theorem exists_moment (n : ℕ) : ∃ c : Moment, c.seconds = n := by
  have hyears : n / 86400 < newYear (n / 86400 + 1) := by
    have hle := le_newYear (n / 86400 + 1)
    omega
  obtain ⟨year, -, r, hr, hn⟩ := exists_block_of_lt hyears
  rw [← before_ytab_twelve] at hr
  obtain ⟨month, hmonth, day, hday, hr'⟩ := exists_block_of_lt hr
  refine ⟨⟨year, month, day, n % 86400 / 3600, n % 3600 / 60, n % 60, hmonth, hday, by omega,
    by omega, by omega⟩, ?_⟩
  have hnumber : newYear year + (before (ytab (leapYear (1970 + year : ℕ))) month + day)
      = n / 86400 := by
    rw [hn, hr']
    rfl
  simp only [seconds, dayNumber, yearDay, daySeconds, hnumber]
  omega

end Moment

open Moment

/-- **`gmtime_r` finds the moment.** -/
theorem gmtimeR_seconds (c : Moment) :
    gmtimeR c.seconds =
      { sec := c.sec, min := c.min, hour := c.hour, mday := c.day + 1, mon := c.month
        year := (1970 + c.year : ℕ) - 1900, wday := c.weekday, yday := c.yearDay, isdst := 0 } := by
  have hlt := c.daySeconds_lt
  have hmin := c.min_lt
  have hsec := c.sec_lt
  have hdayno := c.seconds_div
  have hclock : c.seconds % 86400 = c.daySeconds := by
    rw [seconds]
    omega
  have hyears : countOff yearSize (c.dayNumber / 365) 1970 c.dayNumber
      = (1970 + c.year, c.yearDay) := by
    have hle := le_newYear c.year
    exact countOff_before yearSize 1970 c.yearDay_lt (by rw [dayNumber]; omega)
  have hmonths : countOff (ytab (leapYear (1970 + c.year : ℕ))) 12 0 c.yearDay
      = (c.month, c.day) := by
    have h := countOff_before (ytab (leapYear (1970 + c.year : ℕ))) (k := c.month) 0
      (by rw [Nat.zero_add]; exact c.day_lt) (Nat.le_of_lt c.month_lt)
    simp only [Nat.zero_add] at h
    exact h
  have hseconds : c.daySeconds % 60 = c.sec ∧ c.daySeconds % 3600 / 60 = c.min ∧
      c.daySeconds / 3600 = c.hour := by
    rw [daySeconds]
    omega
  simp only [gmtimeR, hdayno, hclock, hyears, hmonths, hseconds.1, hseconds.2.1, hseconds.2.2]
  rfl

/-! ## `mktime` -/

/-- A part that is in its range carries nothing over. -/
lemma carryOver_of_lt {size lo hi : ℤ} (hlo : 0 ≤ lo) (hlt : lo < size) :
    carryOver size lo hi = (lo, hi) := by
  rw [carryOver, Int.tdiv_eq_zero_of_lt hlo hlt, Int.tmod_eq_of_lt hlo hlt, Int.add_zero]
  exact if_neg (Int.not_lt.mpr hlo)

lemma backMonths_of_nonneg {d : DayMonYear} (h : 0 ≤ d.day) (fuel : ℕ) : backMonths fuel d = d := by
  cases fuel with
  | zero => rfl
  | succ fuel => exact if_neg (Int.not_lt.mpr h)

lemma forwardMonths_of_lt {d : DayMonYear} (h : d.day < d.monthSize) (fuel : ℕ) :
    forwardMonths fuel d = d := by
  cases fuel with
  | zero => rfl
  | succ fuel => exact if_neg (Int.not_le.mpr h)

/-- The closed formulas count the leap days of the years up to 2099. -/
lemma leapTerm_newYear : ∀ k : ℕ, k < 130 →
    (k : ℤ) * 365 + leapTerm 4 ((1970 + k : ℕ) : ℤ) - leapTerm 100 ((1970 + k : ℕ) : ℤ)
      + leapTerm 400 ((1970 + k : ℕ) : ℤ) = newYear k := by
  decide +kernel

/-- **`mktime` counts the seconds of a moment before 2100**, as long as they fit in 31 bits. -/
theorem mktime_moment (c : Moment) (hyear : c.year < 130) (wday : ℤ) :
    (mktime ⟨c.sec, c.min, c.hour, c.day + 1, c.month, (1970 + c.year : ℕ) - 1900, wday, 0, 0⟩).1
      = if c.seconds < 2 ^ 31 then (c.seconds : ℤ) else -1 := by
  have hleap := leapTerm_newYear c.year hyear
  have hsec := c.sec_lt
  have hmin := c.min_lt
  have hhour := c.hour_lt
  have hmonth := c.month_lt
  have hmonthSize : (⟨c.day, c.month, (1970 + c.year : ℕ) - 1900⟩ : DayMonYear).monthSize
      = ytab (leapYear (1970 + c.year : ℕ)) c.month := by
    have hyear : (1900 : ℤ) + ((1970 + c.year : ℕ) - 1900) = (1970 + c.year : ℕ) := by omega
    simp only [DayMonYear.monthSize, hyear, Int.toNat_natCast]
  have hback := backMonths_of_nonneg (d := ⟨c.day, c.month, (1970 + c.year : ℕ) - 1900⟩)
    (Int.natCast_nonneg c.day)
  have hforward := forwardMonths_of_lt (d := ⟨c.day, c.month, (1970 + c.year : ℕ) - 1900⟩)
    (hmonthSize ▸ Int.ofNat_lt.mpr c.day_lt)
  have hcarrySec : carryOver 60 c.sec c.min = (↑c.sec, ↑c.min) :=
    carryOver_of_lt (Int.natCast_nonneg _) (by omega)
  have hcarryMin : carryOver 60 c.min c.hour = (↑c.min, ↑c.hour) :=
    carryOver_of_lt (Int.natCast_nonneg _) (by omega)
  have hcarryHour : carryOver 24 c.hour 0 = (↑c.hour, 0) :=
    carryOver_of_lt (Int.natCast_nonneg _) (by omega)
  have hcarryMon : carryOver 12 c.month ((1970 + c.year : ℕ) - 1900)
      = ((c.month : ℤ), ((1970 + c.year : ℕ) : ℤ) - 1900) :=
    carryOver_of_lt (Int.natCast_nonneg _) (by omega)
  have hstart : ¬((1970 + c.year : ℕ) : ℤ) - 1900 < 70 := by omega
  have hyearNo : ((1970 + c.year : ℕ) : ℤ) - 1900 + 1900 = (1970 + c.year : ℕ) := by omega
  have hyears : ((1970 + c.year : ℕ) : ℤ) - 1970 = c.year := by omega
  have hmday : (c.day : ℤ) + 1 - 1 = c.day := by omega
  have hnumber : (newYear c.year : ℤ) + ((before (ytab (leapYear (1970 + c.year : ℕ))) c.month : ℕ)
      + c.day) = c.dayNumber := by
    rw [dayNumber, yearDay]
    omega
  have hclock : ((c.hour : ℤ) * 60 + c.min) * 60 + c.sec = c.daySeconds := by
    rw [daySeconds]
    omega
  have hzone : timezone = 0 := rfl
  have hquot : (timeMax - c.daySeconds).tdiv 86400 = (timeMax - c.daySeconds) / 86400 :=
    Int.tdiv_eq_ediv_of_nonneg (by have := c.daySeconds_lt; rw [timeMax]; omega)
  have hquot4 : (c.year : ℤ).tdiv 4 = c.year / 4 := Int.tdiv_eq_ediv_of_nonneg (by omega)
  simp only [mktime, hcarrySec, hcarryMin, hcarryHour, hcarryMon, hmday, Int.zero_add, hback, hforward,
    if_neg hstart, hyearNo, hyears, Int.toNat_natCast, hleap, hnumber, hclock, hzone, hquot,
    hquot4, ne_eq, not_true_eq_false, if_false, Int.add_zero, Int.sub_zero]
  have hmax : timeMax = 2147483647 := rfl
  have hmax365 : Int.tdiv 2147483647 365 = 5883516 := rfl
  have hseconds : (c.seconds : ℤ) = c.daySeconds + c.dayNumber * 86400 := by
    rw [seconds]
    omega
  have hlt := c.daySeconds_lt
  rw [apply_ite Prod.fst, hmax, hmax365, ← hseconds]
  by_cases hfit : c.seconds < 2 ^ 31
  · rw [if_pos hfit, if_neg (by omega)]
  · rw [if_neg hfit, if_pos (by omega)]

end Ampm
