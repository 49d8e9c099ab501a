import AmpmGsm.Time.Moments

/-!
# Converting dates to seconds and back

The functions of `lib/sys_time.c` on valid dates.  `TIME_GetSec` accepts the years 2012 to 2099, and
the seconds of the later ones do not fit in 31 bits.

* `secondsRead` — what `TIME_GetSec` makes of the seconds of a date.
* `secondsRead_add` — what is read after an offset was added.
* `timeFromSec_of_seconds`, `timeGetSec_moment` — the two directions.
* `timeConversion_iff` — which dates survive the round trip, and which offsets can be added one
  after the other.
-/

namespace Ampm

open Blocks Moment

/-- What `TIME_GetSec` returns for the date with the given seconds: between 2012 and 2099 the
seconds, if they fit. -/
def secondsRead (n : ℕ) : ℤ :=
  if 1325376000 ≤ n ∧ n < 4102444800 then
    if n < 2 ^ 31 then (n : ℤ) else -1
  else 0

/-- The years that `TIME_GetSec` accepts, by their seconds. -/
lemma year_iff_seconds (c : Moment) :
    (42 ≤ c.year ∧ c.year ≤ 129) ↔ 1325376000 ≤ c.seconds ∧ c.seconds < 4102444800 := by
  have h2012 : newYear 42 = 15340 := by decide +kernel
  have h2100 : newYear 130 = 47482 := by decide +kernel
  have hlt := c.daySeconds_lt
  have hday := c.yearDay_lt
  have hnext : newYear (c.year + 1) = newYear c.year + yearSize (1970 + c.year) := rfl
  have hseconds : c.seconds = (newYear c.year + c.yearDay) * 86400 + c.daySeconds := rfl
  have hmono : ∀ {j k}, j ≤ k → newYear j ≤ newYear k := before_mono
  constructor
  · rintro ⟨h42, h129⟩
    have hlow := hmono h42
    have hhigh := hmono (show c.year + 1 ≤ 130 by omega)
    omega
  · rintro ⟨hlow, hhigh⟩
    constructor
    · by_contra h
      have hle := hmono (show c.year + 1 ≤ 42 by omega)
      omega
    · by_contra h
      have hle := hmono (show 130 ≤ c.year by omega)
      omega

/-- `TIME_GetSec` on a valid date. -/
theorem timeGetSec_moment (c : Moment) (wday : ℤ) :
    timeGetSec (c.toDateTime wday) = secondsRead c.seconds := by
  have hmonth : (c.toDateTime wday).month ≥ 1 ∧ (c.toDateTime wday).month ≤ 12 := by
    have hlt := c.month_lt
    show (c.month : ℤ) + 1 ≥ 1 ∧ (c.month : ℤ) + 1 ≤ 12
    omega
  have hyear : (c.toDateTime wday).year ≥ 2012 ∧ (c.toDateTime wday).year ≤ 2099 ↔
      1325376000 ≤ c.seconds ∧ c.seconds < 4102444800 := by
    rw [← year_iff_seconds]
    show ((1970 + c.year : ℕ) : ℤ) ≥ 2012 ∧ ((1970 + c.year : ℕ) : ℤ) ≤ 2099 ↔ _
    omega
  rw [timeGetSec, if_pos hmonth, secondsRead]
  by_cases hin : 1325376000 ≤ c.seconds ∧ c.seconds < 4102444800
  · have hlt := ((year_iff_seconds c).mpr hin).2
    rw [if_pos hin, if_pos (hyear.mpr hin), ← mktime_moment c (Nat.lt_succ_of_le hlt) wday]
    have hmon : (c.month : ℤ) + 1 - 1 = c.month := by omega
    show (mktime ⟨c.sec, c.min, c.hour, c.day + 1, c.month + 1 - 1, _, wday, 0, 0⟩).1 = _
    rw [hmon]
    rfl
  · rw [if_neg hin, if_neg (mt hyear.mp hin)]

/-- `TIME_FromSec` on the seconds of a moment. -/
theorem timeFromSec_of_seconds {c : Moment} {sec : ℤ} (h : sec % 2 ^ 32 = c.seconds) :
    timeFromSec sec = c.toDateTime (c.weekday + 1) := by
  rw [timeFromSec, h, Int.toNat_natCast, gmtimeR_seconds]
  have hyear : ((1970 + c.year : ℕ) : ℤ) - 1900 + 1900 = (1970 + c.year : ℕ) := by omega
  simp only [toDateTime, hyear]

/-- A date gives its moment away. -/
lemma seconds_eq_of_toDateTime {c d : Moment} {v w : ℤ} (h : c.toDateTime v = d.toDateTime w) :
    c.seconds = d.seconds ∧ v = w := by
  simp only [toDateTime, DateTime.mk.injEq] at h
  obtain ⟨hyear, hmonth, hday, hwday, hhour, hmin, hsec⟩ := h
  have hyear' : c.year = d.year := by omega
  have hmonth' : c.month = d.month := by omega
  have hday' : c.day = d.day := by omega
  refine ⟨?_, hwday⟩
  rw [seconds, seconds, dayNumber, dayNumber, yearDay, yearDay, daySeconds, daySeconds, hyear',
    hmonth', hday', Int.ofNat_inj.mp hhour, Int.ofNat_inj.mp hmin, Int.ofNat_inj.mp hsec]

/-- When `TIME_FromSec` makes the date of a moment. -/
lemma timeFromSec_eq_moment_iff (c : Moment) (sec w : ℤ) :
    timeFromSec sec = c.toDateTime w ↔ sec % 2 ^ 32 = c.seconds ∧ w = c.weekday + 1 := by
  constructor
  · intro h
    obtain ⟨d, hd⟩ := exists_moment (sec % 2 ^ 32).toNat
    have hsec : sec % 2 ^ 32 = d.seconds := by omega
    rw [timeFromSec_of_seconds hsec] at h
    obtain ⟨hseconds, hw⟩ := seconds_eq_of_toDateTime h
    have hday : d.dayNumber = c.dayNumber := by
      rw [← d.seconds_div, hseconds, c.seconds_div]
    refine ⟨hseconds ▸ hsec, ?_⟩
    rw [← hw, weekday, weekday, hday]
  · rintro ⟨hsec, rfl⟩
    exact timeFromSec_of_seconds hsec

/-- Two numbers of seconds make the same date if they have the same 32 bits. -/
lemma timeFromSec_eq_iff (x y : ℤ) : timeFromSec x = timeFromSec y ↔ x % 2 ^ 32 = y % 2 ^ 32 := by
  obtain ⟨d, hd⟩ := exists_moment (y % 2 ^ 32).toNat
  have hy : y % 2 ^ 32 = d.seconds := by omega
  rw [timeFromSec_of_seconds hy, timeFromSec_eq_moment_iff, hy]
  exact and_iff_left rfl

/-- Seconds made to a date and read again. -/
lemma timeGetSec_timeFromSec (x : ℤ) :
    timeGetSec (timeFromSec x) = secondsRead (x % 2 ^ 32).toNat := by
  obtain ⟨d, hd⟩ := exists_moment (x % 2 ^ 32).toNat
  rw [timeFromSec_of_seconds (c := d) (by omega), timeGetSec_moment, hd]

/-- **The round trip** of a date in the years that `TIME_GetSec` accepts. -/
lemma timeFromSec_timeGetSec_iff (c : Moment) (hyear : 42 ≤ c.year ∧ c.year ≤ 129) (wday : ℤ) :
    timeFromSec (timeGetSec (c.toDateTime wday)) = c.toDateTime (c.weekday + 1) ↔
      c.seconds < 2 ^ 31 := by
  have hrange := (year_iff_seconds c).mp hyear
  rw [timeGetSec_moment, secondsRead, if_pos hrange, timeFromSec_eq_moment_iff]
  by_cases hfit : c.seconds < 2 ^ 31
  · rw [if_pos hfit]
    exact iff_of_true ⟨by omega, rfl⟩ hfit
  · rw [if_neg hfit]
    exact iff_of_false (fun h => by omega) hfit

/-- What is read of the seconds after the first offset. -/
lemma secondsRead_add {n : ℕ} {a : ℤ} (hn : 1325376000 ≤ n ∧ n < 4102444800)
    (ha : -2 ^ 31 ≤ a ∧ a < 2 ^ 31) (hna : 1325376000 ≤ n + a ∧ n + a < 4102444800) :
    secondsRead ((secondsRead n + a) % 2 ^ 32).toNat =
      if n < 2 ^ 31 then
        if n + a < 2 ^ 31 then n + a else -1
      else if 1325376000 < a ∨ a = -2 ^ 31 then (a - 1) % 2 ^ 32
      else if 1 ≤ a ∨ 4102444800 ≤ (a - 1) % 2 ^ 32 then 0 else -1 := by
  by_cases hfit : n < 2 ^ 31
  · have hread : secondsRead n = n := by
      rw [secondsRead, if_pos hn, if_pos hfit]
    have hsum : ((n + a) % 2 ^ 32).toNat = (n + a).toNat := by omega
    rw [hread, hsum, if_pos hfit, secondsRead, if_pos (by omega)]
    by_cases hfit' : n + a < 2 ^ 31
    · rw [if_pos hfit', if_pos (by omega)]
      omega
    · rw [if_neg hfit', if_neg (by omega)]
  · have hread : secondsRead n = -1 := by
      rw [secondsRead, if_pos hn, if_neg hfit]
    rw [hread, if_neg hfit, secondsRead]
    split_ifs <;> omega

lemma secondsRead_twice_iff {n : ℕ} {a b : ℤ} (hn : 1325376000 ≤ n ∧ n < 4102444800)
    (ha : -2 ^ 31 ≤ a ∧ a < 2 ^ 31) (hna : 1325376000 ≤ n + a ∧ n + a < 4102444800) :
    (secondsRead ((secondsRead n + a) % 2 ^ 32).toNat + b) % 2 ^ 32
        = (secondsRead n + (a + b)) % 2 ^ 32 ↔
      n < 2 ^ 31 ∧ n + a < 2 ^ 31 ∨ 2 ^ 31 ≤ n ∧ (a = 1 ∨ 1325376000 < a ∨ a = -2 ^ 31) := by
  rw [secondsRead_add hn ha hna, secondsRead, if_pos hn]
  split_ifs <;> omega

lemma secondsRead_back_iff {n : ℕ} {a b : ℤ} (hn : 1325376000 ≤ n ∧ n < 4102444800)
    (ha : -2 ^ 31 ≤ a ∧ a < 2 ^ 31) (hna : 1325376000 ≤ n + a ∧ n + a < 4102444800)
    (hb : b = -a) :
    (secondsRead ((secondsRead n + a) % 2 ^ 32).toNat + b) % 2 ^ 32 = n ↔
      n < 2 ^ 31 ∧ n + a < 2 ^ 31 := by
  rw [secondsRead_add hn ha hna]
  split_ifs <;> omega

lemma timeAddSec_zero (t : DateTime) : timeAddSec t 0 = t := if_pos rfl

/-- **Two offsets**, one after the other and at once. -/
lemma timeAddSec_timeAddSec_iff (c : Moment) (wday a b : ℤ)
    (hT : 1325376000 ≤ c.seconds ∧ c.seconds < 4102444800)
    (ha : -2 ^ 31 ≤ a ∧ a < 2 ^ 31) (hb : -2 ^ 31 ≤ b ∧ b < 2 ^ 31)
    (hab : -2 ^ 31 ≤ a + b ∧ a + b < 2 ^ 31)
    (hTa : 1325376000 ≤ c.seconds + a ∧ c.seconds + a < 4102444800)
    (hTab : 1325376000 ≤ c.seconds + (a + b) ∧ c.seconds + (a + b) < 4102444800) :
    timeAddSec (timeAddSec (c.toDateTime wday) a) b = timeAddSec (c.toDateTime wday) (a + b) ↔
      a = 0 ∨ b = 0 ∨
      (c.seconds < 2 ^ 31 ∧ c.seconds + a < 2 ^ 31 ∧ (a + b ≠ 0 ∨ wday = c.weekday + 1)) ∨
      (2 ^ 31 ≤ c.seconds ∧ a + b ≠ 0 ∧ (a = 1 ∨ 1325376000 < a ∨ a = -2 ^ 31)) := by
  by_cases ha0 : a = 0
  · rw [ha0, Int.zero_add, timeAddSec_zero]
    exact iff_of_true rfl (Or.inl rfl)
  by_cases hb0 : b = 0
  · rw [hb0, Int.add_zero, timeAddSec_zero]
    exact iff_of_true rfl (Or.inr (Or.inl rfl))
  have hfirst : timeAddSec (timeAddSec (c.toDateTime wday) a) b
      = timeFromSec (secondsRead ((secondsRead c.seconds + a) % 2 ^ 32).toNat + b) := by
    rw [timeAddSec, if_neg hb0, timeAddSec, if_neg ha0, timeGetSec_moment, timeGetSec_timeFromSec]
  rw [hfirst]
  by_cases hsum : a + b = 0
  · have hsame : timeAddSec (c.toDateTime wday) (a + b) = c.toDateTime wday := if_pos hsum
    rw [hsame, timeFromSec_eq_moment_iff]
    have hback := (secondsRead_back_iff hT ha hTa (b := b) (by omega))
    rw [hback]
    constructor
    · rintro ⟨⟨hT31, hTa31⟩, hw⟩
      exact Or.inr (Or.inr (Or.inl ⟨hT31, hTa31, Or.inr hw⟩))
    · intro h
      omega
  · have hother : timeAddSec (c.toDateTime wday) (a + b)
        = timeFromSec (secondsRead c.seconds + (a + b)) := by
      rw [timeAddSec, if_neg hsum, timeGetSec_moment]
    rw [hother, timeFromSec_eq_iff, secondsRead_twice_iff hT ha hTa]
    omega

/-- **Calendar conversion.**  For every date from 2012 to 2099: `TIME_FromSec` makes the same date of
what `TIME_GetSec` returns, with the true day of the week, exactly if its seconds since 1970 fit in
31 bits.  For offsets whose sums stay in these years (from second 1325376000 to 4102444799): adding
one after the other is adding their sum exactly if one of them is 0; or the date and the one after
the first offset both fit in 31 bits, where offsets that cancel out leave a wrong day of the week
alone; or in a few cases where neither result is right. -/
theorem timeConversion_iff (c : Moment) (hyear : 42 ≤ c.year ∧ c.year ≤ 129) (wday : ℤ) :
    (timeFromSec (timeGetSec (c.toDateTime wday)) = c.toDateTime (c.weekday + 1) ↔
      c.seconds < 2 ^ 31) ∧
    ∀ a b : ℤ, (-2 ^ 31 ≤ a ∧ a < 2 ^ 31) → (-2 ^ 31 ≤ b ∧ b < 2 ^ 31) →
      (-2 ^ 31 ≤ a + b ∧ a + b < 2 ^ 31) →
      (1325376000 ≤ c.seconds + a ∧ c.seconds + a < 4102444800) →
      (1325376000 ≤ c.seconds + (a + b) ∧ c.seconds + (a + b) < 4102444800) →
      (timeAddSec (timeAddSec (c.toDateTime wday) a) b
          = timeAddSec (c.toDateTime wday) (a + b) ↔
        a = 0 ∨ b = 0 ∨
        (c.seconds < 2 ^ 31 ∧ c.seconds + a < 2 ^ 31 ∧ (a + b ≠ 0 ∨ wday = c.weekday + 1)) ∨
        (2 ^ 31 ≤ c.seconds ∧ a + b ≠ 0 ∧ (a = 1 ∨ 1325376000 < a ∨ a = -2 ^ 31))) := by
  have hrange := (year_iff_seconds c).mp hyear
  exact ⟨timeFromSec_timeGetSec_iff c hyear wday, fun a b ha hb hab hTa hTab =>
    timeAddSec_timeAddSec_iff c wday a b hrange ha hb hab hTa hTab⟩

/-- The last second of February 2024. -/
def leapDay : Moment where
  year := 54
  month := 1
  day := 28
  hour := 23
  min := 59
  sec := 59
  month_lt := by decide
  day_lt := by decide
  hour_lt := by decide
  min_lt := by decide
  sec_lt := by decide

/-- The hypothesis is met by the leap day of 2024, which survives the round trip. -/
theorem timeConversion_leapDay :
    timeFromSec (timeGetSec (leapDay.toDateTime 0)) = leapDay.toDateTime (leapDay.weekday + 1) :=
  (timeConversion_iff leapDay (by decide) 0).1.mpr (by decide +kernel)

/-- At 03:14:08 on January 19, 2038 the seconds no longer fit: the date comes back as one of 2106,
and two seconds added one by one to the date before lead to 1970. -/
theorem timeConversion_2038 :
    timeFromSec (timeGetSec ⟨2038, 1, 19, 3, 3, 14, 8⟩) = ⟨2106, 2, 7, 1, 6, 28, 15⟩ ∧
      timeAddSec (timeAddSec ⟨2038, 1, 19, 3, 3, 14, 7⟩ 1) 1 = ⟨1970, 1, 1, 5, 0, 0, 0⟩ ∧
      timeAddSec ⟨2038, 1, 19, 3, 3, 14, 7⟩ (1 + 1) = ⟨2038, 1, 19, 3, 3, 14, 9⟩ := by
  decide +kernel

end Ampm
