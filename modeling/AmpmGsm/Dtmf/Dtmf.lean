import AmpmGsm.Lib.Voting
import AmpmGsm.Ring.Ringbuf
import Mathlib.Tactic.IntervalCases

/-!
# The tone detector

`lib/DTMF.c` and `dtmf/DTMF_app.c`: the timer interrupt puts the samples of the call into a circular
buffer; the task takes a window of them, levels it, measures the power of sixteen frequencies in
whole numbers, and decides on a digit.  `int` and `long` are 32 bits wide and wrap around.

* `Dtmf`, `goertzel`, `gainControl`, `dtmfDigit`, `dtmfDetect` — the detector.
* `DtmfApp`, `tim3IrqHandler`, `dtmfTask`, … — the interrupt and the task.
* `goertzel_lt`, `goertzel_silence` — the powers.
* `DigitTone`, **`dtmfDigit_iff`** — the digit that is decided on, and that it is the only one.
-/

namespace Ampm

/-! ## Data -/

/-- `DTMF`: `d` has four entries, and `AInput` has 256. -/
structure Dtmf where
  aiIndex : UInt32
  aiCheck : UInt32
  digit : UInt8
  early : UInt8
  new : Bool
  d : ℕ → UInt8
  dI : UInt32
  aInput : ℕ → UInt16

/-- The frequencies, as the factors that `Goertzel` takes. -/
def dtmf697Hz : Int32 := 27980

def dtmf770Hz : Int32 := 26956

def dtmf852Hz : Int32 := 25701

def dtmf941Hz : Int32 := 24219

def dtmf1209Hz : Int32 := 19073

def dtmf1336Hz : Int32 := 16325

def dtmf1477Hz : Int32 := 13085

def dtmf1633Hz : Int32 := 9315

def dtmf1394Hz : Int32 := 15014

def dtmf1540Hz : Int32 := 11583

def dtmf1704Hz : Int32 := 7549

def dtmf1882Hz : Int32 := 3032

def dtmf2418Hz : Int32 := -10565

def dtmf2672Hz : Int32 := -16503

def dtmf2954Hz : Int32 := -22318

def dtmf3266Hz : Int32 := -27472

/-! ## The power of a frequency -/

/-- A round of the loop of `Goertzel`, on `v1` and `v2`. -/
def goertzelStep (cosFact : Int32) (v : Int32 × Int32) (x : Int16) : Int32 × Int32 :=
  (((cosFact * v.1) >>> 14) - v.2 + x.toInt32, v.1)

/-- `Goertzel` on the window `DTMFin`. -/
def goertzel (dtmfIn : ℕ → Int16) (cosFact : Int32) : UInt32 :=
  let v := (List.range 128).foldl (fun v i => goertzelStep cosFact v (dtmfIn i)) (0, 0)
  let p1 := v.1 * v.1
  let p2 := v.2 * v.2
  let p01 := v.1 * v.2
  let pwr := p1 - (cosFact * (p01 >>> 14)) + p2
  if pwr < 0 then 0 else (pwr >>> 16).toUInt32

/-! ## The level -/

/-- The window as it is copied, and what is computed on the way. -/
structure GainWindow where
  min : UInt32
  max : UInt32
  avg : UInt32
  dtmfIn : ℕ → Int16

/-- A round of the first loop of `GainControl`. -/
def gainCopy (t : Dtmf) (w : GainWindow) (k : ℕ) : GainWindow :=
  let v := (t.aInput ((t.aiIndex - k.toUInt32) % 256).toNat).toUInt32
  { min := if v < w.min then v else w.min
    max := if v > w.max then v else w.max
    avg := w.avg + 512 * v
    dtmfIn := Function.update w.dtmfIn (127 - k) v.toUInt16.toInt16 }

/-- The first loop of `GainControl`. -/
def gainWindow (t : Dtmf) : GainWindow :=
  (List.range 128).foldl (gainCopy t) ⟨0xFFFF, 0, 512, fun _ => 0⟩

/-- `for (v = 0; v < 15 && (min & 0x8000)==0; v++)  min <<= 1;` with the number of rounds left. -/
def shiftLoop : ℕ → UInt32 → ℕ → ℕ
  | 0, _, v => v
  | rounds + 1, min, v =>
      if min &&& 0x8000 = 0 then shiftLoop rounds (min <<< 1) (v + 1) else v

/-- The last two loops of `GainControl`. -/
def gainLevel (avg : UInt32) (v : ℕ) (d : Int16) : Int16 :=
  let level := d.toInt32.toUInt32 - avg
  if v < 7 then (level.toUInt16.toInt16.toInt32 >>> Int32.ofNat (7 - v)).toInt16
  else (level.toInt32 <<< Int32.ofNat (v - 7)).toInt16

/-- `GainControl`: what it leaves in `DTMFin`. -/
def gainControl (t : Dtmf) : ℕ → Int16 :=
  let w := gainWindow t
  let avg := w.avg >>> 16
  let v := shiftLoop 15 (w.max - w.min) 0
  fun k => gainLevel avg v (w.dtmfIn k)

/-! ## The digit -/

/-- `chk_valid`. -/
def chkValid (p : ℕ → UInt32) (d : ℕ) (pref : UInt32) : Bool :=
  let pref := pref / 8
  d ≠ 0 && !(d ≠ 1 && p 0 > pref) && !(d ≠ 2 && p 1 > pref) && !(d ≠ 3 && p 2 > pref) &&
    !(d ≠ 4 && p 3 > pref)

/-- The row or the column with the largest power above a level: its number from 1 on, and the
power. -/
def largest (p : ℕ → UInt32) (level : UInt32) : ℕ × UInt32 :=
  (List.range 4).foldl (fun s i => if p i > s.2 then (i + 1, p i) else s) (0, level)

/-- The powers of the rows. -/
def rowPower (power : Int32 → UInt32) (i : ℕ) : UInt32 :=
  power ([dtmf697Hz, dtmf770Hz, dtmf852Hz, dtmf941Hz].getD i 0)

/-- The powers of the columns. -/
def colPower (power : Int32 → UInt32) (i : ℕ) : UInt32 :=
  power ([dtmf1209Hz, dtmf1336Hz, dtmf1477Hz, dtmf1633Hz].getD i 0)

/-- `switch (row)`: whether the second harmonic of the row is too strong. -/
def rowHarmonic (power : Int32 → UInt32) (row col : ℕ) (campl : UInt32) : Bool :=
  match row with
  | 1 => !(col = 2 || col = 3) && power dtmf1394Hz > campl / 8
  | 2 => !(col = 3 || col = 4) && power dtmf1540Hz > campl / 8
  | 3 => !(col = 4) && power dtmf1704Hz > campl / 8
  | 4 => power dtmf1882Hz > campl / 8
  | _ => false

/-- `switch (col)`: whether the second harmonic of the column is too strong. -/
def colHarmonic (power : Int32 → UInt32) (row col : ℕ) (rampl : UInt32) : Bool :=
  match col with
  | 1 => power dtmf2418Hz > rampl / 8
  | 2 => power dtmf2672Hz > rampl / 8
  | 3 => !(row = 4) && power dtmf2954Hz > rampl / 8
  | 4 => power dtmf3266Hz > rampl / 8
  | _ => false

/-- `DTMF_digit`, with the powers that `Goertzel` returns. -/
def dtmfDigit (power : Int32 → UInt32) : UInt8 :=
  let r := largest (rowPower power) 0x40
  if !chkValid (rowPower power) r.1 r.2 then 0
  else
    let c := largest (colPower power) 0x50
    if !chkValid (colPower power) c.1 c.2 then 0
    else if c.1 ≠ 0 ∧ r.1 ≠ 0 then
      if r.2 <<< 4 < c.2 then 0
      else if c.2 <<< 3 < r.2 then 0
      else if rowHarmonic power r.1 c.1 c.2 then 0
      else if colHarmonic power r.1 c.1 r.2 then 0
      else ((r.1 - 1) <<< 2).toUInt8 ||| (c.1 - 1).toUInt8 ||| 0x10
    else 0

/-- The powers are those of the digit in a row and a column: both are loud, the other rows and
columns are at most an eighth of them, the column is neither more than 16 times as loud as the row
nor less than an eighth, and the second harmonics are weak. -/
structure DigitTone (power : Int32 → UInt32) (row col : ℕ) : Prop where
  row_lt : row < 4
  col_lt : col < 4
  row_loud : 0x40 < rowPower power row
  col_loud : 0x50 < colPower power col
  rows : ∀ i < 4, i ≠ row → rowPower power i ≤ rowPower power row / 8
  cols : ∀ i < 4, i ≠ col → colPower power i ≤ colPower power col / 8
  col_le : (colPower power col).toNat ≤ 16 * (rowPower power row).toNat
  row_le : (rowPower power row).toNat ≤ 8 * (colPower power col).toNat
  row_harmonic : rowHarmonic power (row + 1) (col + 1) (colPower power col) = false
  col_harmonic : colHarmonic power (row + 1) (col + 1) (rowPower power row) = false

/-- The upper half of a number that is not negative. -/
lemma toNat_shiftRight_toUInt32_lt {pwr : Int32} (hpwr : ¬pwr < 0) :
    (pwr >>> 16).toUInt32.toNat < 2 ^ 15 := by
  have hmsb : pwr.toBitVec.msb = false := by
    rw [BitVec.msb_eq_toInt, decide_eq_false_iff_not]
    exact fun h => hpwr (Int32.lt_iff_toInt_lt.mpr h)
  have hlt : pwr.toBitVec.toNat < 2 ^ 31 := BitVec.toNat_lt_of_msb_false hmsb
  have hshift : (pwr >>> 16).toBitVec = pwr.toBitVec >>> 16 := by
    rw [Int32.toBitVec_shiftRight]
    exact BitVec.sshiftRight_eq_of_msb_false hmsb
  have hpower : (pwr >>> 16).toUInt32.toNat = pwr.toBitVec.toNat / 2 ^ 16 := by
    rw [← UInt32.toNat_toBitVec, Int32.toBitVec_toUInt32, hshift, BitVec.toNat_ushiftRight,
      Nat.shiftRight_eq_div_pow]
  rw [hpower]
  omega

/-- The powers fit into fifteen bits. -/
lemma goertzel_lt (dtmfIn : ℕ → Int16) (cosFact : Int32) :
    (goertzel dtmfIn cosFact).toNat < 2 ^ 15 := by
  rw [goertzel]
  split_ifs with hneg
  · simp
  · exact toNat_shiftRight_toUInt32_lt hneg

/-- A window without a sound has no power. -/
lemma goertzel_silence (cosFact : Int32) : goertzel (fun _ => 0) cosFact = 0 := by
  have hstill : ∀ n : ℕ, (List.range n).foldl
      (fun v i => goertzelStep cosFact v ((fun _ => 0 : ℕ → Int16) i)) (0, 0) = (0, 0) := by
    intro n
    induction n with
    | zero => rfl
    | succ n ih =>
        rw [List.range_succ, List.foldl_append, ih]
        simp [goertzelStep]
  rw [goertzel, hstill]
  simp
  rfl

/-- Only the window counts. -/
lemma goertzel_congr {f g : ℕ → Int16} (h : ∀ k < 128, f k = g k) : goertzel f = goertzel g := by
  funext cosFact
  have hfold : (List.range 128).foldl (fun v i => goertzelStep cosFact v (f i)) (0, 0) =
      (List.range 128).foldl (fun v i => goertzelStep cosFact v (g i)) (0, 0) :=
    List.foldl_ext _ _ _ fun v k hk => by rw [h k (List.mem_range.mp hk)]
  rw [goertzel, goertzel, hfold]

/-- What a part of the loop leaves. -/
lemma foldl_largest (p : ℕ → UInt32) (level : UInt32) (n : ℕ) :
    let s := (List.range n).foldl (fun s i => if p i > s.2 then (i + 1, p i) else s) (0, level)
    (∀ i < n, p i ≤ s.2) ∧
      (s = (0, level) ∨ ∃ i < n, s = (i + 1, p i) ∧ level < p i) := by
  induction n with
  | zero => exact ⟨by simp, Or.inl rfl⟩
  | succ n ih =>
      rw [List.range_succ, List.foldl_append]
      generalize (List.range n).foldl _ (0, level) = s at ih
      obtain ⟨hle, hs⟩ := ih
      have hlevel : level ≤ s.2 := by
        rcases hs with rfl | ⟨i, -, rfl, hi⟩
        · exact UInt32.le_refl _
        · exact UInt32.le_of_lt hi
      simp only [List.foldl_cons, List.foldl_nil]
      split_ifs with hp
      · refine ⟨fun i hi => ?_, Or.inr ⟨n, by omega, rfl, UInt32.lt_of_le_of_lt hlevel hp⟩⟩
        rcases Nat.lt_succ_iff_lt_or_eq.mp hi with hi | rfl
        · exact UInt32.le_trans (hle i hi) (UInt32.le_of_lt hp)
        · exact UInt32.le_refl _
      · refine ⟨fun i hi => ?_, hs.imp_right fun ⟨i, hi, h⟩ => ⟨i, by omega, h⟩⟩
        rcases Nat.lt_succ_iff_lt_or_eq.mp hi with hi | rfl
        · exact hle i hi
        · exact UInt32.not_lt.mp hp

lemma chkValid_iff {p : ℕ → UInt32} {d : ℕ} {pref : UInt32} :
    chkValid p d pref = true ↔ d ≠ 0 ∧ ∀ j < 4, d ≠ j + 1 → p j ≤ pref / 8 := by
  simp only [chkValid, Bool.and_eq_true, Bool.not_eq_true', Bool.and_eq_false_iff,
    decide_eq_false_iff_not, decide_eq_true_eq, ne_eq, not_not, gt_iff_lt, UInt32.not_lt,
    or_iff_not_imp_left]
  constructor
  · rintro ⟨⟨⟨⟨hd, h0⟩, h1⟩, h2⟩, h3⟩
    refine ⟨hd, fun j hj hdj => ?_⟩
    interval_cases j
    · exact h0 hdj
    · exact h1 hdj
    · exact h2 hdj
    · exact h3 hdj
  · rintro ⟨hd, h⟩
    exact ⟨⟨⟨⟨hd, h 0 (by simp)⟩, h 1 (by simp)⟩, h 2 (by simp)⟩, h 3 (by simp)⟩

/-- The row or column is valid if and only if its power is above the level, and the others are at
most an eighth of it. -/
lemma chkValid_largest_iff (p : ℕ → UInt32) (level : UInt32) (s : ℕ × UInt32) :
    largest p level = s ∧ chkValid p s.1 s.2 = true ↔
      ∃ i < 4, s = (i + 1, p i) ∧ level < p i ∧ ∀ j < 4, j ≠ i → p j ≤ p i / 8 := by
  obtain ⟨hle, hcases⟩ : (∀ i < 4, p i ≤ (largest p level).2) ∧ (largest p level = (0, level) ∨
      ∃ i < 4, largest p level = (i + 1, p i) ∧ level < p i) := foldl_largest p level 4
  constructor
  · rintro ⟨rfl, hvalid⟩
    rcases hcases with hnone | ⟨i, hi, heq, hloud⟩
    · rw [hnone] at hvalid
      simp [chkValid] at hvalid
    · refine ⟨i, hi, heq, hloud, ?_⟩
      rw [heq, chkValid_iff] at hvalid
      exact fun j hj hji => hvalid.2 j hj (by omega)
  · rintro ⟨i, hi, rfl, hloud, hothers⟩
    have hbelow : ∀ j < 4, j ≠ i → p j < p i := by
      intro j hj hji
      have hle := UInt32.le_iff_toNat_le.mp (hothers j hj hji)
      have hpos := UInt32.lt_iff_toNat_lt.mp hloud
      rw [UInt32.toNat_div] at hle
      exact UInt32.lt_iff_toNat_lt.mpr (by change _ ≤ _ / 8 at hle; omega)
    have hlargest : largest p level = (i + 1, p i) := by
      rcases hcases with hnone | ⟨j, hj, heq, -⟩
      · exact absurd hloud (UInt32.not_lt.mpr (by simpa [hnone] using hle i hi))
      · rcases eq_or_ne j i with rfl | hji
        · exact heq
        · exact absurd (hbelow j hj hji) (UInt32.not_lt.mpr (by simpa [heq] using hle i hi))
    exact ⟨hlargest, chkValid_iff.mpr ⟨by simp, fun j hj hji => hothers j hj (by omega)⟩⟩

/-- The code of a digit: its row, its column, and a bit that says that there is one. -/
lemma digitCode {row col : ℕ} (hrow : row < 4) (hcol : col < 4) :
    (row <<< 2).toUInt8 ||| col.toUInt8 ||| 0x10 = (16 + 4 * row + col).toUInt8 := by
  interval_cases row <;> interval_cases col <;> rfl

lemma digitCode_ne_zero {row col : ℕ} (hrow : row < 4) (hcol : col < 4) :
    (16 + 4 * row + col).toUInt8 ≠ 0 := by
  interval_cases row <;> interval_cases col <;> simp

lemma toNat_shiftLeft_power {x : UInt32} (hx : x.toNat < 2 ^ 15) :
    (x <<< 4).toNat = 16 * x.toNat ∧ (x <<< 3).toNat = 8 * x.toNat := by
  simp only [UInt32.toNat_shiftLeft, Nat.shiftLeft_eq, UInt32.reduceToNat]
  norm_num
  omega

/-- **The digit that is decided on**: the powers are those of the digit in a row and a column. -/
theorem dtmfDigit_iff (dtmfIn : ℕ → Int16) (d : UInt8) :
    dtmfDigit (goertzel dtmfIn) = d ∧ d ≠ 0 ↔
      ∃ row col, DigitTone (goertzel dtmfIn) row col ∧ d = (16 + 4 * row + col).toUInt8 := by
  have hrowShift : ∀ i, (rowPower (goertzel dtmfIn) i <<< 4).toNat =
      16 * (rowPower (goertzel dtmfIn) i).toNat :=
    fun i => (toNat_shiftLeft_power (goertzel_lt dtmfIn _)).1
  have hcolShift : ∀ i, (colPower (goertzel dtmfIn) i <<< 3).toNat =
      8 * (colPower (goertzel dtmfIn) i).toNat :=
    fun i => (toNat_shiftLeft_power (goertzel_lt dtmfIn _)).2
  generalize goertzel dtmfIn = power at *
  constructor
  · rintro ⟨rfl, hd⟩
    simp only [dtmfDigit] at hd
    split_ifs at hd with hrow hcol hboth hcolLe hrowLe hrowHarmonic hcolHarmonic
    all_goals try exact absurd rfl hd
    rw [dtmfDigit, if_neg hrow, if_neg hcol, if_pos hboth, if_neg hcolLe, if_neg hrowLe,
      if_neg hrowHarmonic, if_neg hcolHarmonic]
    obtain ⟨row, hlt, heq, hloud, hrows⟩ :=
      (chkValid_largest_iff _ _ _).mp ⟨rfl, by simpa using hrow⟩
    obtain ⟨col, hcollt, hcoleq, hcolloud, hcols⟩ :=
      (chkValid_largest_iff _ _ _).mp ⟨rfl, by simpa using hcol⟩
    simp only [heq, hcoleq, UInt32.not_lt, UInt32.le_iff_toNat_le, hrowShift, hcolShift]
      at hcolLe hrowLe hrowHarmonic hcolHarmonic ⊢
    exact ⟨row, col, ⟨hlt, hcollt, hloud, hcolloud, hrows, hcols, hcolLe, hrowLe,
      by simpa using hrowHarmonic, by simpa using hcolHarmonic⟩, digitCode hlt hcollt⟩
  · rintro ⟨row, col, tone, rfl⟩
    obtain ⟨hrow, hrowValid⟩ := (chkValid_largest_iff (rowPower power) 0x40 (row + 1, _)).mpr
      ⟨row, tone.row_lt, rfl, tone.row_loud, tone.rows⟩
    obtain ⟨hcol, hcolValid⟩ := (chkValid_largest_iff (colPower power) 0x50 (col + 1, _)).mpr
      ⟨col, tone.col_lt, rfl, tone.col_loud, tone.cols⟩
    have hcolLe : ¬rowPower power row <<< 4 < colPower power col := by
      rw [UInt32.not_lt, UInt32.le_iff_toNat_le, hrowShift]
      exact tone.col_le
    have hrowLe : ¬colPower power col <<< 3 < rowPower power row := by
      rw [UInt32.not_lt, UInt32.le_iff_toNat_le, hcolShift]
      exact tone.row_le
    refine ⟨?_, digitCode_ne_zero tone.row_lt tone.col_lt⟩
    simp only [dtmfDigit, hrow, hcol, hrowValid, hcolValid, hcolLe, hrowLe, tone.row_harmonic,
      tone.col_harmonic, ← digitCode tone.row_lt tone.col_lt]
    simp

/-! ## Detection -/

/-- `cnt`: how many of the last four digits are `d`. -/
def earlier (t : Dtmf) (d : UInt8) : ℕ :=
  (if t.d 0 = d then 1 else 0) + (if t.d 1 = d then 1 else 0) + (if t.d 2 = d then 1 else 0) +
    (if t.d 3 = d then 1 else 0)

/-- `DTMF_Detect` once the digit of the window is known. -/
def dtmfVote (t : Dtmf) (d : UInt8) : Dtmf :=
  let cnt := earlier t d
  let t := { t with
    early := d
    d := Function.update t.d (t.dI % 4).toNat d
    dI := t.dI + 1 }
  if cnt ≥ 2 then
    if t.digit ≠ d then { t with digit := d, new := if d ≠ 0 then true else t.new } else t
  else t

/-- `DTMF_Detect`, when the window is due. -/
def dtmfWindow (t : Dtmf) : Dtmf :=
  let dtmfIn := gainControl t
  let index := t.aiIndex % 256
  dtmfVote { t with aiIndex := index, aiCheck := index + (128 * 2) / 3 } (dtmfDigit (goertzel dtmfIn))

/-- `DTMF_Detect`. -/
def dtmfDetect (t : Dtmf) : Dtmf := if t.aiIndex ≥ t.aiCheck then dtmfWindow t else t

/-! ## The task -/

/-- The variables of `dtmf/DTMF_app.c`; `enable` also says whether the timer runs. -/
structure DtmfApp where
  dail1 : Dtmf
  enable : Bool
  ringBuff : Ringbuf

/-- `DTMFchar`: `123A`, `456B`, `789C`, `*0#D`. -/
def dtmfChar (k : ℕ) : UInt8 :=
  [49, 50, 51, 65, 52, 53, 54, 66, 55, 56, 57, 67, 42, 48, 35, 68].getD k 0

/-- `TIM3_IRQHandler`. -/
def tim3IrqHandler (s : DtmfApp) (sample : UInt16) : DtmfApp :=
  { s with dail1 := { s.dail1 with
      aInput := Function.update s.dail1.aInput (s.dail1.aiIndex % 256).toNat sample
      aiIndex := s.dail1.aiIndex + 1 } }

/-- `DTMF_Init`. -/
def dtmfInit (s : DtmfApp) (buf : ℕ → UInt8) : DtmfApp :=
  { s with ringBuff := (ringbufInit s.ringBuff (some buf) 32).2, enable := true }

/-- `DTMF_DeInit`. -/
def dtmfDeInit (s : DtmfApp) : DtmfApp := { s with enable := false }

/-- `DTMF_Task`: the character, 0 if there is none. -/
def dtmfTask (s : DtmfApp) : UInt8 × DtmfApp :=
  if s.enable then
    let t := if s.dail1.aiIndex ≥ s.dail1.aiCheck then dtmfDetect s.dail1 else s.dail1
    if t.new then
      let c := dtmfChar (t.digit &&& 0x0F).toNat
      (c, { s with ringBuff := (ringbufPut s.ringBuff c).2, dail1 := { t with new := false } })
    else (0, { s with dail1 := t })
  else (0, s)

end Ampm
