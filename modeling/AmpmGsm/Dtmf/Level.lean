import AmpmGsm.Dtmf.Dtmf
import Mathlib.Algebra.Order.BigOperators.Group.Finset
import Mathlib.Data.Nat.Log
import Mathlib.Data.Finset.Lattice.Prod
import Mathlib.Algebra.BigOperators.Intervals
import Mathlib.Algebra.BigOperators.Ring.Finset
import Mathlib.Algebra.GroupWithZero.Action.Defs
import Mathlib.Data.Nat.Bitwise
import Mathlib.Order.Lattice.Nat
import Mathlib.Tactic.IntervalCases
import Mathlib.Tactic.Linarith
import Mathlib.Tactic.Ring

/-!
# The level of a window

What `GainControl` computes, as numbers without a width: a window less its mean, stretched so that
the largest difference in it becomes nine bits long.

* `meanOf`, `spanOf`, `levelled` — the mean, the largest difference, and the window that results.
* **`gainControl_eq`** — `GainControl` computes it.
* `levelled_mem`, `levelled_add` — nine bits and a sign; a constant offset changes nothing.
-/

namespace Ampm

open Finset

/-! ## The level, as numbers -/

/-- The mean of a window. -/
def meanOf (x : ℕ → ℕ) : ℕ := (1 + ∑ i ∈ range 128, x i) / 128

/-- The largest difference between two of the first samples. -/
def spanOn (n : ℕ) (x : ℕ → ℕ) : ℕ := (range n ×ˢ range n).sup fun p => x p.1 - x p.2

/-- The largest difference in a window. -/
def spanOf (x : ℕ → ℕ) : ℕ := spanOn 128 x

/-- The window less its mean, the largest difference stretched to nine bits. -/
def levelled (x : ℕ → ℕ) (k : ℕ) : ℤ :=
  ((x k : ℤ) - meanOf x) * 2 ^ (15 - Nat.log 2 (spanOf x)) / 2 ^ 7

variable {x y : ℕ → ℕ}

lemma sub_le_spanOn {n i j : ℕ} (hi : i < n) (hj : j < n) : x i - x j ≤ spanOn n x := by
  have hmem : (i, j) ∈ range n ×ˢ range n := by
    rw [mem_product, mem_range, mem_range]
    exact ⟨hi, hj⟩
  exact le_sup (f := fun p : ℕ × ℕ => x p.1 - x p.2) hmem

lemma spanOn_le {n m : ℕ} (h : ∀ i < n, ∀ j < n, x i - x j ≤ m) : spanOn n x ≤ m := by
  refine Finset.sup_le fun p hp => ?_
  rw [mem_product, mem_range, mem_range] at hp
  exact h p.1 hp.1 p.2 hp.2

lemma sum_range_le_mul {n m : ℕ} (h : ∀ i < n, x i ≤ m) : ∑ i ∈ range n, x i ≤ n * m := by
  have hsum := sum_le_card_nsmul (range n) x m fun i hi => h i (mem_range.mp hi)
  rwa [card_range, smul_eq_mul] at hsum

lemma mul_le_sum_range {n m : ℕ} (h : ∀ i < n, m ≤ x i) : n * m ≤ ∑ i ∈ range n, x i := by
  have hsum := card_nsmul_le_sum (range n) x m fun i hi => h i (mem_range.mp hi)
  rwa [card_range, smul_eq_mul] at hsum

/-- A bound for every sample is one for the mean. -/
lemma meanOf_lt {m : ℕ} (h : ∀ i < 128, x i < m) : meanOf x < m := by
  have hsum : ∑ i ∈ range 128, x i ≤ 128 * (m - 1) :=
    sum_range_le_mul fun i hi => Nat.le_sub_one_of_lt (h i hi)
  have hm := h 0 (by norm_num)
  rw [meanOf]
  omega

/-- No sample is further from the mean than the largest difference. -/
lemma sub_meanOf_le {k : ℕ} (hk : k < 128) :
    x k ≤ meanOf x + spanOf x ∧ meanOf x ≤ x k + spanOf x := by
  have hbelow : ∑ i ∈ range 128, x i ≤ 128 * (x k + spanOf x) :=
    sum_range_le_mul fun i hi => by
      have hspan : x i - x k ≤ spanOf x := sub_le_spanOn hi hk
      omega
  have habove : 128 * (x k - spanOf x) ≤ ∑ i ∈ range 128, x i :=
    mul_le_sum_range fun i hi => by
      have hspan : x k - x i ≤ spanOf x := sub_le_spanOn hk hi
      omega
  rw [meanOf]
  omega

/-- **The level of a window fits into nine bits and a sign.** -/
theorem levelled_mem {k : ℕ} (hk : k < 128) (hspan : spanOf x < 2 ^ 16) :
    -512 ≤ levelled x k ∧ levelled x k < 512 := by
  have hstretch : spanOf x * 2 ^ (15 - Nat.log 2 (spanOf x)) < 2 ^ 16 := by
    have hlog : Nat.log 2 (spanOf x) < 16 := Nat.log_lt_of_lt_pow' (by norm_num) hspan
    calc spanOf x * 2 ^ (15 - Nat.log 2 (spanOf x))
        < 2 ^ (Nat.log 2 (spanOf x) + 1) * 2 ^ (15 - Nat.log 2 (spanOf x)) :=
          Nat.mul_lt_mul_of_pos_right (Nat.lt_pow_succ_log_self (by norm_num) _) (by positivity)
      _ = 2 ^ 16 := by
          rw [← Nat.pow_add, show Nat.log 2 (spanOf x) + 1 + (15 - Nat.log 2 (spanOf x)) = 16 by omega]
  obtain ⟨habove, hbelow⟩ : x k ≤ meanOf x + spanOf x ∧ meanOf x ≤ x k + spanOf x :=
    sub_meanOf_le hk
  rw [levelled]
  generalize 15 - Nat.log 2 (spanOf x) = v at *
  have hspanInt : (spanOf x : ℤ) * 2 ^ v < 2 ^ 16 := by exact_mod_cast hstretch
  have hpow : (0 : ℤ) ≤ 2 ^ v := by positivity
  have hle : ((x k : ℤ) - meanOf x) * 2 ^ v ≤ spanOf x * 2 ^ v :=
    mul_le_mul_of_nonneg_right (by omega) hpow
  have hge : -(spanOf x : ℤ) * 2 ^ v ≤ ((x k : ℤ) - meanOf x) * 2 ^ v :=
    mul_le_mul_of_nonneg_right (by omega) hpow
  rw [neg_mul] at hge
  omega

/-- **A constant offset changes nothing.** -/
theorem levelled_add (x : ℕ → ℕ) (c : ℕ) : levelled (fun k => x k + c) = levelled x := by
  have hmean : meanOf (fun k => x k + c) = meanOf x + c := by
    have hsum : ∑ i ∈ range 128, (x i + c) = ∑ i ∈ range 128, x i + 128 * c := by
      rw [sum_add_distrib, sum_const, card_range, smul_eq_mul]
    rw [meanOf, meanOf, hsum]
    omega
  have hspan : spanOf (fun k => x k + c) = spanOf x := by
    simp only [spanOf, spanOn, Nat.add_sub_add_right]
  funext k
  rw [levelled, levelled, hmean, hspan]
  push_cast
  ring_nf

/-! ## What `GainControl` computes -/

/-- The sample that the loop reads in round `k`. -/
def gainSample (t : Dtmf) (k : ℕ) : UInt16 := t.aInput ((t.aiIndex - k.toUInt32) % 256).toNat

/-- What `n` rounds of the first loop leave. -/
structure Copied (t : Dtmf) (n : ℕ) (w : GainWindow) : Prop where
  min_le : ∀ k < n, w.min.toNat ≤ (gainSample t k).toNat
  le_max : ∀ k < n, (gainSample t k).toNat ≤ w.max.toNat
  min_mem : w.min = 0xFFFF ∨ ∃ k < n, w.min.toNat = (gainSample t k).toNat
  max_mem : w.max = 0 ∨ ∃ k < n, w.max.toNat = (gainSample t k).toNat
  avg : w.avg.toNat = 512 * (1 + ∑ k ∈ range n, (gainSample t k).toNat)
  dtmfIn : ∀ k < n, w.dtmfIn (127 - k) = (gainSample t k).toInt16

lemma gainCopy_min (t : Dtmf) (w : GainWindow) (k : ℕ) :
    (gainCopy t w k).min.toNat = min w.min.toNat (gainSample t k).toNat := by
  have hmin : (gainCopy t w k).min = if (gainSample t k).toUInt32 < w.min
      then (gainSample t k).toUInt32 else w.min := rfl
  rw [hmin, ← UInt16.toNat_toUInt32 (gainSample t k)]
  split_ifs with hlt
  · exact (min_eq_right (UInt32.lt_iff_toNat_lt.mp hlt).le).symm
  · exact (min_eq_left (UInt32.le_iff_toNat_le.mp (UInt32.not_lt.mp hlt))).symm

lemma gainCopy_max (t : Dtmf) (w : GainWindow) (k : ℕ) :
    (gainCopy t w k).max.toNat = max w.max.toNat (gainSample t k).toNat := by
  have hmax : (gainCopy t w k).max = if w.max < (gainSample t k).toUInt32
      then (gainSample t k).toUInt32 else w.max := rfl
  rw [hmax, ← UInt16.toNat_toUInt32 (gainSample t k)]
  split_ifs with hlt
  · exact (max_eq_right (UInt32.lt_iff_toNat_lt.mp hlt).le).symm
  · exact (max_eq_left (UInt32.le_iff_toNat_le.mp (UInt32.not_lt.mp hlt))).symm

/-- A round of the first loop. -/
lemma gainCopy_copied {t : Dtmf} {n : ℕ} {w : GainWindow} (hn : n < 128) (h : Copied t n w) :
    Copied t (n + 1) (gainCopy t w n) := by
  refine ⟨fun k hk => ?_, fun k hk => ?_, Or.inr ?_, Or.inr ?_, ?_, fun k hk => ?_⟩
  · rw [gainCopy_min]
    rcases Nat.lt_succ_iff_lt_or_eq.mp hk with hk | rfl
    · exact (min_le_left _ _).trans (h.min_le k hk)
    · exact min_le_right _ _
  · rw [gainCopy_max]
    rcases Nat.lt_succ_iff_lt_or_eq.mp hk with hk | rfl
    · exact (h.le_max k hk).trans (le_max_left _ _)
    · exact le_max_right _ _
  · rw [gainCopy_min]
    have hshort := (gainSample t n).toNat_lt
    rcases le_total w.min.toNat (gainSample t n).toNat with hle | hle
    · rcases h.min_mem with hfirst | ⟨k, hk, heq⟩
      · rw [hfirst, show (0xFFFF : UInt32).toNat = 2 ^ 16 - 1 from rfl] at hle ⊢
        exact ⟨n, Nat.lt_succ_self n, by omega⟩
      · exact ⟨k, Nat.lt_succ_of_lt hk, by rw [min_eq_left hle, heq]⟩
    · exact ⟨n, Nat.lt_succ_self n, min_eq_right hle⟩
  · rw [gainCopy_max]
    rcases le_total (gainSample t n).toNat w.max.toNat with hle | hle
    · rcases h.max_mem with hfirst | ⟨k, hk, heq⟩
      · rw [hfirst] at hle ⊢
        exact ⟨n, Nat.lt_succ_self n, max_eq_right (Nat.zero_le _)⟩
      · exact ⟨k, Nat.lt_succ_of_lt hk, by rw [max_eq_left hle, heq]⟩
    · exact ⟨n, Nat.lt_succ_self n, max_eq_right hle⟩
  · have hsum : ∑ k ∈ range n, (gainSample t k).toNat ≤ n * (2 ^ 16 - 1) :=
      sum_range_le_mul fun k _ => Nat.le_sub_one_of_lt (gainSample t k).toNat_lt
    have hshort := (gainSample t n).toNat_lt
    have havg : (gainCopy t w n).avg = w.avg + 512 * (gainSample t n).toUInt32 := rfl
    rw [havg, UInt32.toNat_add, UInt32.toNat_mul, UInt16.toNat_toUInt32, h.avg, sum_range_succ,
      show (512 : UInt32).toNat = 512 from rfl]
    omega
  · have hcopy : (gainCopy t w n).dtmfIn = Function.update w.dtmfIn (127 - n)
        (gainSample t n).toUInt32.toUInt16.toInt16 := rfl
    rw [hcopy]
    rcases Nat.lt_succ_iff_lt_or_eq.mp hk with hk | rfl
    · rw [Function.update_of_ne (by omega), h.dtmfIn k hk]
    · rw [Function.update_self, UInt16.toUInt16_toUInt32]

/-- The first loop. -/
lemma gainWindow_copied (t : Dtmf) : Copied t 128 (gainWindow t) := by
  have hrounds : ∀ n ≤ 128,
      Copied t n ((List.range n).foldl (gainCopy t) ⟨0xFFFF, 0, 512, fun _ => 0⟩) := by
    intro n
    induction n with
    | zero => exact fun _ => ⟨by simp, by simp, Or.inl rfl, Or.inl rfl, rfl, by simp⟩
    | succ n ih =>
        intro hn
        rw [List.range_succ, List.foldl_append]
        exact gainCopy_copied hn (ih (by omega))
  exact hrounds 128 le_rfl

lemma and_topBit_eq_zero_iff {m : UInt32} (hm : m.toNat < 2 ^ 16) :
    m &&& 0x8000 = 0 ↔ m.toNat < 2 ^ 15 := by
  rw [← UInt32.toNat_inj, UInt32.toNat_and, show (0x8000 : UInt32).toNat = 2 ^ 15 from rfl,
    Nat.and_two_pow, Nat.testBit_eq_decide_div_mod_eq]
  have hbit : m.toNat / 2 ^ 15 % 2 = 0 ↔ m.toNat < 2 ^ 15 := by omega
  rw [← hbit]
  simp

/-- The rounds of the second loop: how far the largest difference may be stretched. -/
lemma shiftLoop_eq (span : ℕ) (rounds v : ℕ) (m : UInt32) (hv : rounds + v = 15)
    (hm : m.toNat = span * 2 ^ v) (hlt : span * 2 ^ v < 2 ^ 16) :
    shiftLoop rounds m v = 15 - Nat.log 2 span := by
  induction rounds generalizing m v with
  | zero =>
      obtain rfl : v = 15 := by omega
      have hlog : Nat.log 2 span = 0 := Nat.log_of_lt (by omega)
      rw [shiftLoop, hlog]
  | succ rounds ih =>
      rw [shiftLoop]
      split_ifs with hbit
      · rw [and_topBit_eq_zero_iff (by omega)] at hbit
        have hdouble : span * 2 ^ (v + 1) = 2 * (span * 2 ^ v) := by ring
        refine ih (v + 1) (m <<< 1) (by omega) ?_ (by omega)
        rw [UInt32.toNat_shiftLeft, Nat.shiftLeft_eq, hdouble, ← hm]
        change m.toNat * 2 % 2 ^ 32 = 2 * m.toNat
        omega
      · rw [and_topBit_eq_zero_iff (by omega)] at hbit
        have hlog : Nat.log 2 span = 15 - v := by
          refine (Nat.log_eq_iff (Or.inr ⟨by norm_num, ?_⟩)).mpr ⟨?_, ?_⟩
          · rintro rfl
            omega
          · refine Nat.le_of_mul_le_mul_right ?_ (Nat.two_pow_pos v)
            rw [← Nat.pow_add, Nat.sub_add_cancel (by omega)]
            omega
          · refine Nat.lt_of_mul_lt_mul_right (a := 2 ^ v) ?_
            rw [← Nat.pow_add, show 15 - v + 1 + v = 16 by omega]
            exact hlt
        omega

lemma toInt_shiftRight_ofNat (a : Int32) {n : ℕ} (hn : n < 16) :
    (a >>> Int32.ofNat n).toInt = a.toInt / 2 ^ n := by
  have hshift : (a >>> Int32.ofNat n).toBitVec = a.toBitVec.sshiftRight n := by
    rw [Int32.toBitVec_shiftRight]
    interval_cases n <;> rfl
  rw [← Int32.toInt_toBitVec, hshift, BitVec.toInt_sshiftRight, Int.shiftRight_eq_div_pow,
    Int32.toInt_toBitVec]
  norm_cast

lemma ofInt_shiftLeft_ofNat (z : ℤ) {n : ℕ} (hn : n < 16) :
    Int32.ofInt z <<< Int32.ofNat n = Int32.ofInt (z * 2 ^ n) := by
  have hshift : (Int32.ofInt z <<< Int32.ofNat n).toBitVec = BitVec.ofInt 32 z <<< n := by
    rw [Int32.toBitVec_shiftLeft]
    interval_cases n <;> rfl
  rw [← Int32.toBitVec_inj, hshift, Int32.toBitVec_ofInt, BitVec.ofInt_mul,
    BitVec.shiftLeft_eq_mul_twoPow]
  congr 1
  interval_cases n <;> rfl
lemma gainLevel_eq {a mean v : ℕ} (ha : a < 2 ^ 15) (hmean : mean < 2 ^ 15) (hv : v ≤ 15) :
    gainLevel (UInt32.ofNat mean) v (Int16.ofNat a) =
      Int16.ofInt (((a : ℤ) - mean) * 2 ^ v / 2 ^ 7) := by
  have hint : (Int16.ofNat a).toInt32 = Int32.ofNat a :=
    Int16.toInt32_ofNat' (by rw [show Int16.maxValue.toInt = 2 ^ 15 - 1 from rfl]; omega)
  have hlevel : ((Int16.ofNat a).toInt32.toUInt32 - UInt32.ofNat mean).toInt32 =
      Int32.ofInt ((a : ℤ) - mean) := by
    rw [UInt32.toInt32_sub, Int32.toInt32_toUInt32, UInt32.toInt32_ofNat', hint, Int32.ofInt_sub,
      Int32.ofInt_eq_ofNat, Int32.ofInt_eq_ofNat]
  have hshort : ((Int16.ofNat a).toInt32.toUInt32 - UInt32.ofNat mean).toUInt16.toInt16 =
      Int16.ofInt ((a : ℤ) - mean) := by
    rw [← Int32.toInt16_ofInt, ← hlevel]
    generalize (Int16.ofNat a).toInt32.toUInt32 - UInt32.ofNat mean = u
    refine Int16.toBitVec_inj.mp ?_
    change u.toBitVec.setWidth 16 = u.toBitVec.signExtend 16
    rw [BitVec.signExtend_eq_setWidth_of_le _ (by norm_num)]
  rw [gainLevel]
  split_ifs with hlow
  · have hfloor : ((a : ℤ) - mean) * 2 ^ v / 2 ^ 7 = ((a : ℤ) - mean) / 2 ^ (7 - v) := by
      rw [show (2 : ℤ) ^ 7 = 2 ^ (7 - v) * 2 ^ v by rw [← pow_add, Nat.sub_add_cancel hlow.le],
        Int.mul_ediv_mul_of_pos_left _ _ (by positivity)]
    have htoInt : (Int16.ofInt ((a : ℤ) - mean)).toInt32.toInt = (a : ℤ) - mean := by
      rw [Int16.toInt_toInt32, Int16.toInt_ofInt_of_le (by omega) (by omega)]
    rw [hshort, hfloor, ← Int16.ofInt_int32ToInt, toInt_shiftRight_ofNat _ (by omega), htoInt]
  · have hexact : ((a : ℤ) - mean) * 2 ^ v / 2 ^ 7 = ((a : ℤ) - mean) * 2 ^ (v - 7) := by
      obtain ⟨k, rfl⟩ := Nat.exists_eq_add_of_le' (not_lt.mp hlow)
      rw [pow_add, ← mul_assoc, Int.mul_ediv_cancel _ (by positivity), Nat.add_sub_cancel]
    rw [hlevel, hexact, ofInt_shiftLeft_ofNat _ (by omega), Int32.toInt16_ofInt]

section

variable {t : Dtmf} (h : ∀ k < 128, (gainSample t (127 - k)).toNat = x k)

include h

lemma gainWindow_avg : (gainWindow t).avg >>> 16 = UInt32.ofNat (meanOf x) := by
  have hsum : ∑ k ∈ range 128, (gainSample t k).toNat = ∑ k ∈ range 128, x k := by
    rw [← sum_range_reflect]
    exact sum_congr rfl fun k hk => h k (mem_range.mp hk)
  have hlt : meanOf x < 2 ^ 16 := meanOf_lt fun k hk => h k hk ▸ UInt16.toNat_lt _
  rw [← UInt32.toNat_inj, UInt32.toNat_shiftRight, (gainWindow_copied t).avg, hsum,
    UInt32.toNat_ofNat_of_lt' (hlt.trans (by norm_num)), meanOf, Nat.shiftRight_eq_div_pow]
  change 512 * (1 + ∑ k ∈ range 128, x k) / 2 ^ 16 = _
  omega

lemma gainWindow_span : ((gainWindow t).max - (gainWindow t).min).toNat = spanOf x := by
  have hcopied := gainWindow_copied t
  have hsample : ∀ k < 128, (gainSample t k).toNat = x (127 - k) := by
    intro k hk
    rw [← h (127 - k) (by omega), show 127 - (127 - k) = k by omega]
  have hle : ∀ k < 128, (gainWindow t).min.toNat ≤ x k ∧ x k ≤ (gainWindow t).max.toNat := by
    intro k hk
    rw [← h k hk]
    exact ⟨hcopied.min_le _ (by omega), hcopied.le_max _ (by omega)⟩
  have hspan : spanOf x = (gainWindow t).max.toNat - (gainWindow t).min.toNat := by
    apply le_antisymm
    · refine spanOn_le fun i hi j hj => ?_
      have hmax := (hle i hi).2
      have hmin := (hle j hj).1
      omega
    · rcases hcopied.max_mem with hmax | ⟨i, hi, hmax⟩
      · simp [hmax]
      · rw [hmax, hsample i hi]
        rcases hcopied.min_mem with hmin | ⟨j, hj, hmin⟩
        · have hshort := (gainSample t i).toNat_lt
          rw [hmin, ← hsample i hi, show (0xFFFF : UInt32).toNat = 2 ^ 16 - 1 from rfl]
          omega
        · rw [hmin, hsample j hj]
          exact sub_le_spanOn (by omega) (by omega)
  have h0 := hle 0 (by norm_num)
  rw [UInt32.toNat_sub_of_le _ _ (UInt32.le_iff_toNat_le.mpr (h0.1.trans h0.2)), hspan]

/-- **`GainControl` levels the window.** -/
theorem gainControl_eq (hlt : ∀ k < 128, x k < 2 ^ 15) {k : ℕ} (hk : k < 128) :
    gainControl t k = Int16.ofInt (levelled x k) := by
  have hspan : spanOf x ≤ 2 ^ 15 - 1 := spanOn_le fun i hi j _ => by
    have hi := hlt i hi
    omega
  have hdtmfIn : (gainWindow t).dtmfIn k = Int16.ofNat (x k) := by
    have hcopy := (gainWindow_copied t).dtmfIn (127 - k) (by omega)
    rw [show 127 - (127 - k) = k by omega] at hcopy
    rw [hcopy, ← h k hk]
    exact (Int16.toBitVec_inj).mp (by simp)
  rw [gainControl]
  simp only
  rw [gainWindow_avg h, hdtmfIn, shiftLoop_eq (spanOf x) 15 0 _ rfl
    (by rw [gainWindow_span h, pow_zero, mul_one]) (by omega),
    gainLevel_eq (hlt k hk) (meanOf_lt hlt) (by omega), levelled]

end

lemma mod_256_lt (i : UInt32) : (i % 256).toNat < 256 := by
  rw [UInt32.toNat_mod]
  exact Nat.mod_lt _ (by decide)

/-- **A constant offset of the converter changes no decision**: when all samples of fifteen bits are
higher by the same amount, the levelled windows are the same, of nine bits and a sign. -/
theorem gainControl_offset (t t' : Dtmf) (c : ℕ) (hindex : t'.aiIndex = t.aiIndex)
    (hinput : ∀ i < 256, (t'.aInput i).toNat = (t.aInput i).toNat + c)
    (hlt : ∀ i < 256, (t'.aInput i).toNat < 2 ^ 15) :
    dtmfDigit (goertzel (gainControl t')) = dtmfDigit (goertzel (gainControl t)) ∧
      ∀ k < 128, gainControl t' k = gainControl t k ∧ -512 ≤ (gainControl t k).toInt ∧
        (gainControl t k).toInt < 512 := by
  have hcell : ∀ t : Dtmf, ∀ k, ∃ i < 256, gainSample t k = t.aInput i := fun t k =>
    ⟨_, mod_256_lt _, rfl⟩
  have hshort : ∀ k < 128, (gainSample t' (127 - k)).toNat < 2 ^ 15 := by
    intro k _
    obtain ⟨i, hi, heq⟩ := hcell t' (127 - k)
    rw [heq]
    exact hlt i hi
  have hoffset : ∀ k, (gainSample t' k).toNat = (gainSample t k).toNat + c := by
    intro k
    rw [gainSample, gainSample, hindex]
    exact hinput _ (mod_256_lt _)
  let x : ℕ → ℕ := fun k => (gainSample t (127 - k)).toNat
  have hx : ∀ k < 128, x k < 2 ^ 15 := fun k hk => by
    have hle := hshort k hk
    rw [hoffset] at hle
    exact Nat.lt_of_le_of_lt (Nat.le_add_right _ _) hle
  have hspan : spanOf x < 2 ^ 16 := by
    have hle : spanOf x ≤ 2 ^ 15 - 1 := spanOn_le fun i hi j _ => by
      have hi := hx i hi
      omega
    omega
  have heq : ∀ k < 128, gainControl t k = Int16.ofInt (levelled x k) := fun k hk =>
    gainControl_eq (fun _ _ => rfl) hx hk
  have hsame : ∀ k < 128, gainControl t' k = gainControl t k := by
    intro k hk
    rw [heq k hk, ← levelled_add x c]
    exact gainControl_eq (fun k _ => hoffset (127 - k)) (fun k hk => (hoffset (127 - k)) ▸ hshort k hk) hk
  refine ⟨by rw [goertzel_congr hsame], fun k hk => ⟨hsame k hk, ?_⟩⟩
  have hbounds := levelled_mem hk hspan
  rw [heq k hk, Int16.toInt_ofInt_of_le (by omega) (by omega)]
  exact hbounds

/-- A detector that has heard nothing but the offset of the converter. -/
def stillDtmf (v : UInt16) : Dtmf := ⟨0, 128, 0, 0, false, fun _ => 0, 0, fun _ => v⟩

/-- Silence at two offsets. -/
theorem gainControl_offset_still :
    dtmfDigit (goertzel (gainControl (stillDtmf 2048))) =
      dtmfDigit (goertzel (gainControl (stillDtmf 5))) := by
  have hinput : ∀ i < 256, ((stillDtmf 2048).aInput i).toNat = ((stillDtmf 5).aInput i).toNat + 2043 :=
    fun _ _ => rfl
  have hlt : ∀ i < 256, ((stillDtmf 2048).aInput i).toNat < 2 ^ 15 := by
    intro i _
    simp [stillDtmf]
  exact (gainControl_offset (stillDtmf 5) (stillDtmf 2048) 2043 rfl hinput hlt).1

end Ampm
