import Mathlib.Algebra.Group.Nat.Defs
import Mathlib.Algebra.GroupWithZero.Nat
import Mathlib.Data.Nat.Notation
import Mathlib.Logic.Basic

/-!
# Timeouts on the system tick

`lib/sys_tick.c`: the three words of a timeout, and the two functions the tasks use on them.

* `initTimeout`, `checkTimeout` — on the value that `SysTick_Get` returns at the call.
* `timerDelayms` — the busy wait, on the values that it samples.
* `checkTimeout_timerDelayms_iff` — when they measure the time that has passed.
-/

namespace Ampm

/-- `Timeout_Type`. -/
structure Timeout where
  startTime : UInt32
  timeout : UInt32
  crc : UInt32

/-- `InitTimeout` at the tick `now`. -/
def initTimeout (now timeout : UInt32) : Timeout :=
  { startTime := now, timeout := timeout, crc := now + timeout }

/-- `CheckTimeout` at the tick `now`: what is left, `0` standing for `SYSTICK_TIMEOUT`. -/
def checkTimeout (t : Timeout) (now : UInt32) : UInt32 × Timeout :=
  if t.startTime + t.timeout ≠ t.crc then (0, t)
  else
    let t := { t with crc := t.startTime + t.timeout }
    let passed :=
      if now ≥ t.startTime then now - t.startTime else (0xFFFFFFFF - t.startTime) + now
    if passed ≥ t.timeout then (0, t) else (t.timeout - passed, t)

/-- A timeout has passed when the tick counter has almost come round. -/
lemma checkTimeout_before (t ms : UInt32) (h : ms ≤ 0xFFFFFFFE) :
    (checkTimeout (initTimeout t ms) (t - 1)).1 = 0 := by
  have hwrap : t - 1 - t = 0xFFFFFFFF := by grind
  have hpassed : (0xFFFFFFFF - t) + (t - 1) = 0xFFFFFFFE := by grind
  simp only [checkTimeout, initTimeout, ne_eq, not_true_eq_false, if_false, hwrap, hpassed]
  by_cases hge : t - 1 ≥ t
  · have hlong : (0xFFFFFFFF : UInt32) ≥ ms := UInt32.le_trans h (by decide)
    rw [if_pos hge, if_pos hlong]
  · rw [if_neg hge, if_pos h]

/-! ## Across the wrap of the tick counter -/

/-- `TimerDelayms`: the first of the ticks sampled after `startTime` at which the loop breaks. -/
def timerDelayms (startTime time : UInt32) : List UInt32 → Option ℕ
  | [] => none
  | now :: later =>
      let stop :=
        if now ≥ startTime then now - startTime ≥ time
        else (0xFFFFFFFF - startTime) + now ≥ time
      if stop then some 0 else (timerDelayms startTime time later).map (· + 1)

/-- `CheckTimeout` at one tick after another. -/
def checksTimeout (t : Timeout) (nows : List UInt32) : Timeout :=
  nows.foldl (fun t now => (checkTimeout t now).2) t

/-- The control word of a timeout that was set up is right, and a check leaves it so. -/
lemma checkTimeout_initTimeout (s t now : UInt32) :
    checkTimeout (initTimeout s t) now =
      let passed := if now ≥ s then now - s else (0xFFFFFFFF - s) + now
      (if passed ≥ t then 0 else t - passed, initTimeout s t) := by
  have hcrc : ¬(initTimeout s t).startTime + (initTimeout s t).timeout ≠ (initTimeout s t).crc :=
    not_not_intro rfl
  rw [checkTimeout, if_neg hcrc]
  by_cases hpassed : (if now ≥ s then now - s else (0xFFFFFFFF - s) + now) ≥ t
  · exact (if_pos hpassed).trans (congrArg (·, initTimeout s t) (if_pos hpassed).symm)
  · exact (if_neg hpassed).trans (congrArg (·, initTimeout s t) (if_neg hpassed).symm)

/-- So do any number of checks. -/
lemma checksTimeout_initTimeout (s t : UInt32) (nows : List UInt32) :
    checksTimeout (initTimeout s t) nows = initTimeout s t := by
  induction nows with
  | nil => rfl
  | cons now nows ih =>
      rw [checksTimeout, List.foldl_cons, checkTimeout_initTimeout]
      exact ih

/-- The comparison of both functions, and what they take for the time that has passed: once the
counter has wrapped, one tick less than that. -/
lemma passed_eq (s e : UInt32) :
    (if s + e ≥ s then s + e - s else (0xFFFFFFFF - s) + (s + e))
      = if s.toNat + e.toNat < 2 ^ 32 then e else e - 1 := by
  have hs := s.toNat_lt
  have he := e.toNat_lt
  have hsum : (s + e).toNat = (s.toNat + e.toNat) % 2 ^ 32 := UInt32.toNat_add s e
  by_cases hwrap : s.toNat + e.toNat < 2 ^ 32
  · have hge : s + e ≥ s := by
      rw [ge_iff_le, UInt32.le_iff_toNat_le, hsum]
      omega
    rw [if_pos hge, if_pos hwrap]
    grind
  · have hlt : ¬s + e ≥ s := by
      rw [ge_iff_le, UInt32.le_iff_toNat_le, hsum]
      omega
    rw [if_neg hlt, if_neg hwrap]
    grind

/-- The time taken for `e` ticks reaches `t` when `e` does, but for the tick that is missing. -/
lemma passed_ge_iff (s t e : UInt32) :
    (if s.toNat + e.toNat < 2 ^ 32 then e else e - 1) ≥ t ↔
      e ≥ t ∧ (s.toNat + e.toNat < 2 ^ 32 ∨ e ≠ t) := by
  have hs := s.toNat_lt
  have hne : e ≠ t ↔ e.toNat ≠ t.toNat := not_congr UInt32.toNat_inj.symm
  rw [ge_iff_le, ge_iff_le, UInt32.le_iff_toNat_le, UInt32.le_iff_toNat_le, hne]
  by_cases hwrap : s.toNat + e.toNat < 2 ^ 32
  · rw [if_pos hwrap]
    omega
  · have hone : (1 : UInt32) ≤ e := by
      rw [UInt32.le_iff_toNat_le]
      show 1 ≤ e.toNat
      omega
    rw [if_neg hwrap, UInt32.toNat_sub_of_le e 1 hone]
    show t.toNat ≤ e.toNat - 1 ↔ _
    omega

/-- What `CheckTimeout` returns `e` ticks after the start. -/
lemma checkTimeout_add (s t e : UInt32) :
    (checkTimeout (initTimeout s t) (s + e)).1 =
      if e ≥ t ∧ (s.toNat + e.toNat < 2 ^ 32 ∨ e ≠ t) then 0
      else t - if s.toNat + e.toNat < 2 ^ 32 then e else e - 1 := by
  rw [checkTimeout_initTimeout]
  simp only [passed_eq]
  exact if_congr (passed_ge_iff s t e) rfl rfl

lemma checkTimeout_iff (s t e : UInt32) :
    (checkTimeout (initTimeout s t) (s + e)).1 = (if e < t then t - e else 0) ↔
      s.toNat + e.toNat < 2 ^ 32 ∨ t < e := by
  rw [checkTimeout_add]
  by_cases hwrap : s.toNat + e.toNat < 2 ^ 32
  · simp only [hwrap, true_or, and_true, if_true, iff_true]
    rw [← ite_not]
    exact if_congr UInt32.not_le rfl rfl
  · simp only [hwrap, false_or, if_false]
    rcases Nat.lt_trichotomy e.toNat t.toNat with hbefore | heq | hafter
    · have hlt : e < t := UInt32.lt_iff_toNat_lt.mpr hbefore
      have hreached : ¬(e ≥ t ∧ e ≠ t) := fun h => UInt32.not_le.mpr hlt h.1
      have hone : t - (e - 1) ≠ t - e := by grind
      rw [if_neg hreached, if_pos hlt]
      exact iff_of_false hone (UInt32.lt_asymm hlt)
    · obtain rfl : e = t := UInt32.toNat_inj.mp heq
      have hone : e - (e - 1) ≠ 0 := by grind
      simp only [ne_eq, not_true_eq_false, and_false, if_false, UInt32.lt_irrefl, iff_false]
      exact hone
    · have hlt : t < e := UInt32.lt_iff_toNat_lt.mpr hafter
      have hreached : e ≥ t ∧ e ≠ t := ⟨UInt32.le_of_lt hlt, (UInt32.ne_of_lt hlt).symm⟩
      rw [if_pos hreached, if_neg (UInt32.lt_asymm hlt)]
      exact iff_of_true rfl hlt

/-- What `TimerDelayms` waits for, in the ticks that have passed at its samples. -/
lemma timerDelayms_iff (s t : UInt32) (es : List UInt32) :
    timerDelayms s t (es.map (s + ·)) = es.findIdx? (t ≤ ·) ↔
      s.toNat + t.toNat < 2 ^ 32 ∨ es.find? (t ≤ ·) ≠ some t := by
  induction es with
  | nil => simp [timerDelayms]
  | cons e es ih =>
      have hstop : (if s + e ≥ s then s + e - s ≥ t else (0xFFFFFFFF - s) + (s + e) ≥ t) ↔
          t ≤ e ∧ (s.toNat + e.toNat < 2 ^ 32 ∨ e ≠ t) := by
        have hpassed := passed_ge_iff s t e
        rw [← passed_eq] at hpassed
        rw [← hpassed]
        split <;> rfl
      rw [List.map_cons, timerDelayms, List.findIdx?_cons, List.find?_cons]
      simp only [hstop]
      by_cases hreached : t ≤ e
      · by_cases heq : e = t
        · subst heq
          simp only [hreached, true_and, ne_eq, not_true_eq_false, or_false, decide_true, if_true]
          by_cases hwrap : s.toNat + e.toNat < 2 ^ 32
          · rw [if_pos hwrap]
            exact iff_of_true rfl hwrap
          · rw [if_neg hwrap]
            refine iff_of_false (fun hstopped => ?_) hwrap
            obtain ⟨n, -, hn⟩ := Option.map_eq_some_iff.mp hstopped
            exact Nat.succ_ne_zero n hn
        · simp [hreached, heq]
      · simp only [hreached, false_and, if_false, decide_false]
        rw [← ih]
        exact (Option.map_injective fun _ _ => Nat.succ.inj).eq_iff

/-- **Timeouts across the wrap of the counter.**  `CheckTimeout`, `e` ticks after the timeout was
set up and after any earlier checks, returns what is left exactly if the counter has not wrapped
since or the timeout has passed by more than a tick; `TimerDelayms` stops at the first sample at
which its time has passed exactly if the counter does not wrap before that time is over or this
sample does not hit the time exactly. -/
theorem checkTimeout_timerDelayms_iff (s t e : UInt32) (earlier samples : List UInt32) :
    ((checkTimeout (checksTimeout (initTimeout s t) earlier) (s + e)).1
        = (if e < t then t - e else 0) ↔
      s.toNat + e.toNat < 2 ^ 32 ∨ t < e) ∧
    (timerDelayms s t (samples.map (s + ·)) = samples.findIdx? (t ≤ ·) ↔
      s.toNat + t.toNat < 2 ^ 32 ∨ samples.find? (t ≤ ·) ≠ some t) := by
  rw [checksTimeout_initTimeout]
  exact ⟨checkTimeout_iff s t e, timerDelayms_iff s t samples⟩

/-- A timeout of one tick, set up on the last tick before the wrap: one tick later there is still
one left, and the busy wait goes on. -/
theorem checkTimeout_wrapped :
    (checkTimeout (checksTimeout (initTimeout 0xFFFFFFFF 1) []) (0xFFFFFFFF + 1)).1 ≠
        (if (1 : UInt32) < 1 then 1 - 1 else 0) ∧
      timerDelayms 0xFFFFFFFF 1 ([0, 1, 2].map (0xFFFFFFFF + ·)) ≠
        [(0 : UInt32), 1, 2].findIdx? (1 ≤ ·) := by
  decide

end Ampm
