import AmpmGsm.Lib.CommonSuffix
import AmpmGsm.Lib.Matching
import Mathlib.Algebra.Group.Nat.Defs

/-!
# Comparing phone numbers

`ampm_gsm/ampm_gsm_call.c`: two spellings of a number are the same if they agree on their last
digits, on as many as the shorter one has without its prefix.  Strings are without their
terminator; lengths are kept in 8 bits.

* `ampmComparePhoneNumber1`, `ampmComparePhoneNumber` — the comparison with a threshold, and with
  the one of the firmware.
* `samePhoneDigits_eq` — the loop counts the common suffix.
* `ampmComparePhoneNumber_spec` — the comparison is symmetric, identifies the two spellings of a
  national number, and never identifies numbers that differ in the last six places.
-/

namespace Ampm

open CommonSuffix Matching

/-- `SAME_NUMBER` and `DIFFERENT_NUMBER`. -/
inductive PhoneVerdict where
  | sameNumber
  | differentNumber
  deriving DecidableEq, Repr

/-- `PHONE_DIGIT_THRESHOLD`. -/
def phoneDigitThreshold : ℕ := 6

/-- `l1` and `l2`: the length of a number without its prefix, from its length `i`. -/
def phoneLength (phone : List UInt8) (i : ℕ) : ℕ :=
  if phone.headD 0 = 0x2B then
    if i > 4 then i - 4 else i
  else if phone.headD 0 = 0x30 then
    if i > 1 then i - 1 else i
  else i

/-- The loop over the two numbers from their ends. -/
def samePhoneDigits (phone1 phone2 : List UInt8) : ℕ → ℕ → ℕ → ℕ
  | i + 1, j + 1, count =>
      if phone1.getD i 0 = phone2.getD j 0 then
        samePhoneDigits phone1 phone2 i j ((count + 1) % 2 ^ 8)
      else count
  | _, _, count => count

/-- `Ampm_ComparePhoneNumber_1`. -/
def ampmComparePhoneNumber1 (phone1 phone2 : List UInt8) (digitThreshold : ℕ) : PhoneVerdict :=
  let i := phone1.length % 2 ^ 8
  let j := phone2.length % 2 ^ 8
  let l1 := phoneLength phone1 i
  let l2 := phoneLength phone2 j
  let minL := if l2 < l1 then l2 else l1
  let count := samePhoneDigits phone1 phone2 i j 0
  if count ≥ digitThreshold ∧ count ≥ minL then .sameNumber else .differentNumber

/-- `Ampm_ComparePhoneNumber`. -/
def ampmComparePhoneNumber (phone1 phone2 : List UInt8) : PhoneVerdict :=
  let i := phone1.length % 2 ^ 8
  let j := phone2.length % 2 ^ 8
  let l1 := phoneLength phone1 i
  let l2 := phoneLength phone2 j
  let minL := if l2 < l1 then l2 else l1
  let count := samePhoneDigits phone1 phone2 i j 0
  if count ≥ phoneDigitThreshold ∧ count ≥ minL then .sameNumber else .differentNumber

/-! ## What the loop counts -/

lemma samePhoneDigits_take (phone1 phone2 : List UInt8) :
    ∀ i j count, i ≤ phone1.length → j ≤ phone2.length → count + i < 2 ^ 8 →
      samePhoneDigits phone1 phone2 i j count
        = count + commonSuffix (phone1.take i) (phone2.take j)
  | 0, j, count, _, _, _ => by simp [samePhoneDigits]
  | i + 1, 0, count, _, _, _ => by simp [samePhoneDigits]
  | i + 1, j + 1, count, hi, hj, hcount => by
      have ih := samePhoneDigits_take phone1 phone2 i j (count + 1) (by omega) (by omega) (by omega)
      rw [samePhoneDigits, take_succ_getD hi 0, take_succ_getD hj 0, commonSuffix_concat,
        Nat.mod_eq_of_lt (by omega), ih]
      split
      · omega
      · rfl

/-- **The loop counts the common suffix.** -/
lemma samePhoneDigits_eq {phone1 phone2 : List UInt8} (h1 : phone1.length < 2 ^ 8)
    (h2 : phone2.length < 2 ^ 8) :
    samePhoneDigits phone1 phone2 (phone1.length % 2 ^ 8) (phone2.length % 2 ^ 8) 0
      = commonSuffix phone1 phone2 := by
  rw [Nat.mod_eq_of_lt h1, Nat.mod_eq_of_lt h2,
    samePhoneDigits_take phone1 phone2 _ _ 0 (Nat.le_refl _) (Nat.le_refl _) (by omega),
    List.take_length, List.take_length, Nat.zero_add]

/-- When two numbers are the same. -/
lemma ampmComparePhoneNumber_iff {phone1 phone2 : List UInt8} (h1 : phone1.length < 2 ^ 8)
    (h2 : phone2.length < 2 ^ 8) :
    ampmComparePhoneNumber phone1 phone2 = .sameNumber ↔
      phoneDigitThreshold ≤ commonSuffix phone1 phone2 ∧
        min (phoneLength phone1 phone1.length) (phoneLength phone2 phone2.length)
          ≤ commonSuffix phone1 phone2 := by
  have hmin : ∀ l1 l2 : ℕ, (if l2 < l1 then l2 else l1) = min l1 l2 := by
    intro l1 l2
    split <;> omega
  have hcount := samePhoneDigits_eq h1 h2
  rw [Nat.mod_eq_of_lt h1, Nat.mod_eq_of_lt h2] at hcount
  simp only [ampmComparePhoneNumber, Nat.mod_eq_of_lt h1, Nat.mod_eq_of_lt h2, hcount, hmin]
  split
  case isTrue hsame => exact iff_of_true rfl hsame
  case isFalse hdiff => exact iff_of_false (by decide) hdiff

lemma ampmComparePhoneNumber_comm {phone1 phone2 : List UInt8} (h1 : phone1.length < 2 ^ 8)
    (h2 : phone2.length < 2 ^ 8) :
    ampmComparePhoneNumber phone1 phone2 = ampmComparePhoneNumber phone2 phone1 := by
  have hverdict : ∀ v w : PhoneVerdict, (v = .sameNumber ↔ w = .sameNumber) → v = w := by
    intro v w h
    cases v <;> cases w <;> simp at h ⊢
  apply hverdict
  rw [ampmComparePhoneNumber_iff h1 h2, ampmComparePhoneNumber_iff h2 h1, commonSuffix_comm,
    Nat.min_comm]

/-- Numbers that are the same have the same last six characters. -/
lemma ampmComparePhoneNumber_last {phone1 phone2 : List UInt8} (h1 : phone1.length < 2 ^ 8)
    (h2 : phone2.length < 2 ^ 8) (hsame : ampmComparePhoneNumber phone1 phone2 = .sameNumber) :
    6 ≤ phone1.length ∧ 6 ≤ phone2.length ∧
      phone1.drop (phone1.length - 6) = phone2.drop (phone2.length - 6) := by
  have hsix : 6 ≤ commonSuffix phone1 phone2 := ((ampmComparePhoneNumber_iff h1 h2).mp hsame).1
  have hle1 := commonSuffix_le phone1 phone2
  have hle2 := commonSuffix_le phone2 phone1
  rw [commonSuffix_comm] at hle2
  exact ⟨by omega, by omega, drop_eq_of_le_commonSuffix hsix⟩

/-! ## The two spellings of a national number -/

/-- What is taken off for `+` is no more than the sign and a country code of three digits. -/
lemma phoneLength_plus (digits : List UInt8) (h : 4 ≤ digits.length) :
    phoneLength (0x2B :: digits) (0x2B :: digits).length = digits.length - 3 := by
  rw [phoneLength, List.headD_cons, if_pos rfl, List.length_cons, if_pos (by omega)]
  omega

lemma ampmComparePhoneNumber_national {cc n : List UInt8} (hcc : cc.length ≤ 3)
    (hn : 6 ≤ n.length) (hlen : cc.length + n.length + 1 < 2 ^ 8) :
    ampmComparePhoneNumber (0x2B :: (cc ++ n)) (0x30 :: n) = .sameNumber := by
  have hdigits : (cc ++ n).length = cc.length + n.length := List.length_append
  have hcommon : n.length ≤ commonSuffix (0x2B :: (cc ++ n)) (0x30 :: n) :=
    le_commonSuffix_append (0x2B :: cc) [0x30] n
  have hplus := phoneLength_plus (cc ++ n) (by omega)
  rw [ampmComparePhoneNumber_iff, hplus]
  · refine ⟨Nat.le_trans hn hcommon, Nat.le_trans (Nat.min_le_left _ _) ?_⟩
    omega
  · rw [List.length_cons]
    omega
  · rw [List.length_cons]
    omega

/-- **Comparing phone numbers.**  For all strings below 256 characters the comparison is symmetric,
it is the one with threshold 6, and numbers that are the same have the same last six characters; a
number of at least six digits is the same with a country code of up to three digits behind a `+` and
with a `0` in front. -/
theorem ampmComparePhoneNumber_spec :
    (∀ phone1 phone2 : List UInt8, phone1.length < 256 → phone2.length < 256 →
      ampmComparePhoneNumber phone1 phone2 = ampmComparePhoneNumber phone2 phone1 ∧
      ampmComparePhoneNumber phone1 phone2 = ampmComparePhoneNumber1 phone1 phone2 6 ∧
      (ampmComparePhoneNumber phone1 phone2 = .sameNumber →
        6 ≤ phone1.length ∧ 6 ≤ phone2.length ∧
          phone1.drop (phone1.length - 6) = phone2.drop (phone2.length - 6))) ∧
    (∀ cc n : List UInt8, cc.length ≤ 3 → 6 ≤ n.length → cc.length + n.length + 1 < 256 →
      ampmComparePhoneNumber (0x2B :: (cc ++ n)) (0x30 :: n) = .sameNumber) :=
  ⟨fun _ _ h1 h2 =>
    ⟨ampmComparePhoneNumber_comm h1 h2, rfl, ampmComparePhoneNumber_last h1 h2⟩,
    fun _ _ => ampmComparePhoneNumber_national⟩

/-- The two spellings `+84912345678` and `0912345678`. -/
theorem ampmComparePhoneNumber_spellings :
    ampmComparePhoneNumber
        (0x2B :: ([0x38, 0x34] ++ [0x39, 0x31, 0x32, 0x33, 0x34, 0x35, 0x36, 0x37, 0x38]))
        [0x30, 0x39, 0x31, 0x32, 0x33, 0x34, 0x35, 0x36, 0x37, 0x38] = .sameNumber ∧
      ampmComparePhoneNumber [0x31, 0x32] [0x32] = ampmComparePhoneNumber [0x32] [0x31, 0x32] :=
  ⟨ampmComparePhoneNumber_spec.2 [0x38, 0x34]
      [0x39, 0x31, 0x32, 0x33, 0x34, 0x35, 0x36, 0x37, 0x38] (by decide) (by decide) (by decide),
    (ampmComparePhoneNumber_spec.1 [0x31, 0x32] [0x32] (by decide) (by decide)).1⟩

end Ampm
