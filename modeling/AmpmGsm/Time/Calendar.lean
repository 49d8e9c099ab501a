import AmpmGsm.Lib.Blocks
import Mathlib.Data.Int.Notation
import Mathlib.Algebra.Ring.Int.Defs

/-!
# Calendar time

`lib/m_time.c` and `lib/sys_time.c`: the conversions between the seconds since 1970 and the fields
of a date, with `long` and `time_t` of 32 bits.

* `gmtimeR`, `mktime` — the library functions that the firmware brings along.
* `timeGetSec`, `timeFromSec`, `timeAddSec` — the functions on `DATE_TIME`.
-/

namespace Ampm

open Blocks

/-! ## `m_time.c` -/

/-- `LEAPYEAR`. -/
def leapYear (year : ℤ) : Bool := year % 4 = 0 && (year % 100 ≠ 0 || year % 400 = 0)

/-- `YEARSIZE`. -/
def yearSize (year : ℕ) : ℕ := if leapYear year then 366 else 365

/-- A row of `_ytab`. -/
def ytab (leap : Bool) (mon : ℕ) : ℕ :=
  (if leap then [31, 29, 31, 30, 31, 30, 31, 31, 30, 31, 30, 31]
    else [31, 28, 31, 30, 31, 30, 31, 31, 30, 31, 30, 31]).getD mon 0

/-- `struct tm`. -/
structure Tm where
  sec : ℤ
  min : ℤ
  hour : ℤ
  mday : ℤ
  mon : ℤ
  year : ℤ
  wday : ℤ
  yday : ℤ
  isdst : ℤ
  deriving DecidableEq

/-- `gmtime_r`, with the time as an `unsigned long`.  A year takes at least 365 days off, and there
are twelve months in a year, so that neither loop runs out of fuel. -/
def gmtimeR (time : ℕ) : Tm :=
  let dayclock := time % 86400
  let dayno := time / 86400
  let years := countOff yearSize (dayno / 365) 1970 dayno
  let months := countOff (ytab (leapYear years.1)) 12 0 years.2
  { sec := (dayclock % 60 : ℕ)
    min := (dayclock % 3600 / 60 : ℕ)
    hour := (dayclock / 3600 : ℕ)
    wday := ((dayno + 4) % 7 : ℕ)
    year := (years.1 : ℤ) - 1900
    yday := (years.2 : ℕ)
    mon := (months.1 : ℕ)
    mday := (months.2 : ℕ) + 1
    isdst := 0 }

/-- `hi += lo / size; lo %= size;` and the step after them for a negative `lo`. -/
def carryOver (size lo hi : ℤ) : ℤ × ℤ :=
  let hi := hi + lo.tdiv size
  let lo := lo.tmod size
  if lo < 0 then (lo + size, hi - 1) else (lo, hi)

/-- A day, a month and a year while `mktime` normalises them. -/
structure DayMonYear where
  day : ℤ
  mon : ℤ
  year : ℤ

/-- The month's length, `_ytab[LEAPYEAR(YEAR0 + tm_year)][tm_mon]`. -/
def DayMonYear.monthSize (d : DayMonYear) : ℤ :=
  (ytab (leapYear (1900 + d.year)) d.mon.toNat : ℕ)

/-- `while (day < 0)`. -/
def backMonths : ℕ → DayMonYear → DayMonYear
  | 0, d => d
  | fuel + 1, d =>
      if d.day < 0 then
        let d : DayMonYear := { d with mon := d.mon - 1 }
        let d : DayMonYear := if d.mon < 0 then { d with year := d.year - 1, mon := 11 } else d
        backMonths fuel { d with day := d.day + d.monthSize }
      else d

/-- `while (day >= _ytab[..][tm_mon])`. -/
def forwardMonths : ℕ → DayMonYear → DayMonYear
  | 0, d => d
  | fuel + 1, d =>
      if d.day ≥ d.monthSize then
        let d : DayMonYear := { d with day := d.day - d.monthSize, mon := d.mon + 1 }
        let d : DayMonYear := if d.mon = 12 then { d with mon := 0, year := d.year + 1 } else d
        forwardMonths fuel d
      else d

/-- `TIME_MAX`. -/
def timeMax : ℤ := 2147483647

/-- The terms for the leap days: `(tm_year - year) / n`, and one more if the remainder is between. -/
def leapTerm (n tmYear : ℤ) : ℤ :=
  (tmYear - 1970).tdiv n + if tmYear.tmod n ≠ 0 ∧ tmYear.tmod n < Int.tmod 1970 n then 1 else 0

/-- `_timezone` and `_dstbias`, which nothing sets. -/
def timezone : ℤ := 0

def dstbias : ℤ := 0

/-- `mktime`: what it returns, and the normalised `tmbuf`.  Where a sum does not fit in 32 bits,
`overflow` has been counted, and the sum is not used. -/
def mktime (tmbuf : Tm) : ℤ × Tm :=
  let sec := carryOver 60 tmbuf.sec tmbuf.min
  let min := carryOver 60 sec.2 tmbuf.hour
  let hour := carryOver 24 min.2 0
  let mon := carryOver 12 tmbuf.mon tmbuf.year
  let day := hour.2 + (tmbuf.mday - 1)
  let d := backMonths (day.natAbs / 28 + 1) ⟨day, mon.1, mon.2⟩
  let d := forwardMonths (d.day.natAbs / 28 + 1) d
  let tmbuf := { tmbuf with
    sec := sec.1, min := min.1, hour := hour.1, mon := d.mon, year := d.year, mday := d.day + 1 }
  if tmbuf.year < 70 then (-1, tmbuf)
  else
    let tmYear := tmbuf.year + 1900
    let day := (tmYear - 1970) * 365
    let overflow := timeMax.tdiv 365 < tmYear - 1970 ∨ timeMax - day < (tmYear - 1970).tdiv 4 + 1
    let day := day + leapTerm 4 tmYear - leapTerm 100 tmYear + leapTerm 400 tmYear
    let yday := (before (ytab (leapYear tmYear)) tmbuf.mon.toNat : ℤ) + (tmbuf.mday - 1)
    let overflow := overflow ∨ day + yday < 0
    let day := day + yday
    let tmbuf := { tmbuf with yday := yday, wday := (day + 4).tmod 7 }
    let seconds := (tmbuf.hour * 60 + tmbuf.min) * 60 + tmbuf.sec
    let overflow := overflow ∨ (timeMax - seconds).tdiv 86400 < day
    let seconds := seconds + day * 86400
    let overflow := overflow ∨ timezone > 0 ∧ timeMax - timezone < seconds ∨
      timezone < 0 ∧ seconds < -timezone
    let seconds := seconds + timezone
    let dst := if tmbuf.isdst ≠ 0 then dstbias else 0
    let overflow := overflow ∨ dst > seconds
    let seconds := seconds - dst
    if overflow then (-1, tmbuf) else (seconds, tmbuf)

/-! ## `sys_time.c` -/

/-- `DATE_TIME`. -/
structure DateTime where
  year : ℤ
  month : ℤ
  mday : ℤ
  wday : ℤ
  hour : ℤ
  min : ℤ
  sec : ℤ
  deriving DecidableEq

/-- `TIME_GetSec`. -/
def timeGetSec (t : DateTime) : ℤ :=
  if t.month ≥ 1 ∧ t.month ≤ 12 then
    if t.year ≥ 2012 ∧ t.year ≤ 2099 then
      (mktime ⟨t.sec, t.min, t.hour, t.mday, t.month - 1, t.year - 1900, t.wday, 0, 0⟩).1
    else 0
  else 0

/-- `TIME_FromSec`: the 32 bits of `sec` are taken for an unsigned number. -/
def timeFromSec (sec : ℤ) : DateTime :=
  let tm := gmtimeR (sec % 2 ^ 32).toNat
  { sec := tm.sec
    min := tm.min
    hour := tm.hour
    mday := tm.mday
    wday := tm.wday + 1
    month := tm.mon + 1
    year := tm.year + 1900 }

/-- `TIME_AddSec`.  Only the lower 32 bits of the sum count. -/
def timeAddSec (t : DateTime) (sec : ℤ) : DateTime :=
  if sec = 0 then t else timeFromSec (timeGetSec t + sec)

end Ampm
