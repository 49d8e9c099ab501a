import AmpmGsm.Lib.Matching
import AmpmGsm.Lib.SinglePass
import Mathlib.Algebra.Group.Nat.Defs

/-!
# Searching UCS-2 strings

`lib/encoding.c`: `uni_srtsrt` looks for one zero-terminated string of 16-bit units in another,
in a single pass.

* `uniSrtsrt` — the search, on the memory from `s1` on: it may look behind the terminator.
* `uniSrtsrtLoop_ends` — its loop is a single pass.
* `uniSrtsrt_iff` — when it returns the first occurrence.
-/

namespace Ampm

open CommonSuffix Matching SinglePass Relation

/-- The loop of `uni_srtsrt` over the memory from `s1` on, which is `i` units behind its start; `j`
is the offset of `u16pt0` in `s2`.  `none` stands for a read outside the memory. -/
def uniSrtsrtLoop (s2 : List UInt16) : List UInt16 → ℕ → ℕ → Option ℕ → Option (Option ℕ)
  | [], _, _, _ => none
  | c :: mem, i, j, res =>
      if c = s2.getD j 0 then
        let res := if res = none then some i else res
        if s2.getD (j + 1) 0 = 0 then some res
        else if mem.head? = some 0 then some res
        else uniSrtsrtLoop s2 mem (i + 1) (j + 1) res
      else if mem.head? = some 0 then some none
      else uniSrtsrtLoop s2 mem (i + 1) 0 none

/-- `uni_srtsrt`, with the memory from `s1` on and a string `s2` without its terminator: the offset
of the result in `s1`, `some none` for `NULL`. -/
def uniSrtsrt (mem s2 : List UInt16) : Option (Option ℕ) := uniSrtsrtLoop s2 mem 0 0 none

/-- The loop in the middle of an attempt at `p` that has matched `j` units.  The text stands `b`
units behind the start of the memory. -/
lemma uniSrtsrtLoop_ends {text s2 : List UInt16} (rest : List UInt16)
    (htext : (0 : UInt16) ∉ text) (hs2 : (0 : UInt16) ∉ s2) (b : ℕ) :
    ∀ (suf : List UInt16) {p j : ℕ}, suf ≠ [] → j < s2.length → Attempted text s2 p →
      text.drop p = s2.take j ++ suf →
      ∃ out, PassEnds text s2 out ∧
        uniSrtsrtLoop s2 (suf ++ 0 :: rest) (b + p + j) j (if j = 0 then none else some (b + p))
          = some (out.map (b + ·))
  | [], _, _, hsuf, _, _, _ => absurd rfl hsuf
  | c :: suf, p, j, _, hj, hp, hdrop => by
      have hmid : s2 = s2.take j ++ s2.getD j 0 :: s2.drop (j + 1) := by
        rw [List.getD_eq_getElem?_getD, List.getElem?_eq_getElem hj, Option.getD_some,
          List.getElem_cons_drop, List.take_append_drop]
      have hstarts : (if (if j = 0 then none else some (b + p)) = none then some (b + p + j)
          else if j = 0 then none else some (b + p)) = some (b + p) := by
        by_cases hzero : j = 0 <;> simp [hzero]
      have hlen := congrArg List.length hdrop
      rw [List.length_drop, List.length_append, List.length_take_of_le (Nat.le_of_lt hj),
        List.length_cons] at hlen
      have hmem : ∀ u ∈ c :: suf, u ∈ text := fun u hu =>
        List.mem_of_mem_drop (hdrop ▸ List.mem_append_right _ hu)
      have hhead : suf ≠ [] → (suf ++ 0 :: rest).head? ≠ some 0 := by
        intro hsuf hzero
        obtain ⟨u, us, rfl⟩ := List.exists_cons_of_ne_nil hsuf
        rw [List.cons_append, List.head?_cons, Option.some.injEq] at hzero
        exact htext (hzero ▸ hmem u (by simp))
      have htake : (s2.take j).length = j := List.length_take_of_le (Nat.le_of_lt hj)
      rw [List.cons_append, uniSrtsrtLoop]
      by_cases hc : c = s2.getD j 0
      · rw [if_pos hc, hstarts]
        have hmatched : text.drop p = s2.take (j + 1) ++ suf := by
          rw [hdrop, take_succ_getD hj 0, hc, List.append_assoc]
          rfl
        by_cases hend : s2.getD (j + 1) 0 = 0
        · have hwhole := List.take_of_length_le ((getD_eq_default_iff hs2 _).mp hend)
          rw [if_pos hend]
          refine ⟨some p, .found p hp ?_, rfl⟩
          rw [hmatched, hwhole]
          exact List.prefix_append s2 suf
        · have hlt : j + 1 < s2.length :=
            Nat.lt_of_not_le (mt (getD_eq_default_iff hs2 _).mpr hend)
          rw [if_neg hend]
          by_cases hsuf : suf = []
          · subst hsuf
            rw [List.append_nil] at hmatched
            rw [if_pos (by rfl)]
            refine ⟨some p, .cutOff p hp (by omega) ?_ fun hpre => ?_, rfl⟩
            · rw [hmatched]
              exact List.take_prefix _ _
            · have hle := hpre.length_le
              rw [hmatched, List.length_take_of_le (Nat.le_of_lt hlt)] at hle
              omega
          · rw [if_neg (hhead hsuf)]
            exact uniSrtsrtLoop_ends rest htext hs2 b suf hsuf hlt hp hmatched
      · rw [if_neg hc]
        have hnext := hp.tail (failsTo_of_ne hdrop hmid hc)
        rw [htake] at hnext
        by_cases hsuf : suf = []
        · subst hsuf
          rw [if_pos (by rfl)]
          have hlast : p + j + 1 = text.length := by
            rw [List.length_nil] at hlen
            omega
          exact ⟨none, .exhausted (hlast ▸ hnext), rfl⟩
        · have hrest : text.drop (p + j + 1) = s2.take 0 ++ suf := by
            rw [Nat.add_assoc, ← List.drop_drop, hdrop, List.drop_append, htake,
              Nat.add_sub_cancel_left, List.drop_eq_nil_of_le (Nat.le_succ_of_le htake.le)]
            rfl
          have hpos : 0 < s2.length := by omega
          have hplace : b + (p + j + 1) + 0 = b + p + j + 1 := by omega
          have ih := uniSrtsrtLoop_ends rest htext hs2 b suf hsuf hpos hnext hrest
          rw [hplace, if_pos rfl] at ih
          rw [if_neg (hhead hsuf)]
          exact ih

/-- The search in a string that is not empty. -/
lemma uniSrtsrt_ends {text s2 : List UInt16} (rest : List UInt16) (htext : (0 : UInt16) ∉ text)
    (hs2 : (0 : UInt16) ∉ s2) (hne : text ≠ []) (hne2 : s2 ≠ []) :
    ∃ out, PassEnds text s2 out ∧ uniSrtsrt (text ++ 0 :: rest) s2 = some out := by
  obtain ⟨out, hends, hloop⟩ := uniSrtsrtLoop_ends rest htext hs2 0 text hne
    (List.length_pos_iff.mpr hne2) .refl rfl
  refine ⟨out, hends, hloop.trans ?_⟩
  simp

/-! ## Behind the terminator of an empty string -/

/-- Without another zero in the memory the search does not come back with `NULL`. -/
lemma uniSrtsrtLoop_ne_null {s2 : List UInt16} :
    ∀ (mem : List UInt16) (i j : ℕ) (res : Option ℕ), (0 : UInt16) ∉ mem →
      uniSrtsrtLoop s2 mem i j res ≠ some none
  | [], _, _, _, _ => nofun
  | c :: mem, i, j, res, hmem => by
      have hrest : (0 : UInt16) ∉ mem := fun h => hmem (List.mem_cons_of_mem c h)
      have hhead : mem.head? ≠ some 0 := fun h => hrest (List.mem_of_head? h)
      simp only [uniSrtsrtLoop, hhead, if_false]
      by_cases hc : c = s2.getD j 0
      · rw [if_pos hc]
        by_cases hend : s2.getD (j + 1) 0 = 0
        · rw [if_pos hend]
          cases res <;> simp
        · rw [if_neg hend]
          exact uniSrtsrtLoop_ne_null mem _ _ _ hrest
      · rw [if_neg hc]
        exact uniSrtsrtLoop_ne_null mem _ _ _ hrest

/-- The first step in an empty string passes over its terminator. -/
lemma uniSrtsrt_zero_cons {s2 : List UInt16} (hs2 : (0 : UInt16) ∉ s2) (hne2 : s2 ≠ [])
    (rest : List UInt16) :
    uniSrtsrt (0 :: rest) s2 =
      if rest.head? = some 0 then some none else uniSrtsrtLoop s2 rest 1 0 none := by
  have hpos := List.length_pos_iff.mpr hne2
  have hfirst : ¬(0 : UInt16) = s2.getD 0 0 := fun h =>
    absurd ((getD_eq_default_iff hs2 0).mp h.symm) (Nat.not_le_of_lt hpos)
  rw [uniSrtsrt, uniSrtsrtLoop, if_neg hfirst]

/-- There it goes through what stands up to the next zero. -/
lemma uniSrtsrt_behind {text s2 : List UInt16} (rest : List UInt16) (htext : (0 : UInt16) ∉ text)
    (hs2 : (0 : UInt16) ∉ s2) (hne2 : s2 ≠ []) :
    uniSrtsrt (0 :: (text ++ 0 :: rest)) s2 = some none ↔ Attempted text s2 text.length := by
  rw [uniSrtsrt_zero_cons hs2 hne2]
  cases text with
  | nil => exact iff_of_true rfl .refl
  | cons u us =>
      have hhead : ¬(u :: us ++ 0 :: rest).head? = some 0 := fun h =>
        htext (Option.some.inj h ▸ List.mem_cons_self)
      obtain ⟨out, hends, hloop⟩ := uniSrtsrtLoop_ends rest htext hs2 1 (u :: us)
        (List.cons_ne_nil u us) (List.length_pos_iff.mpr hne2) .refl rfl
      rw [if_neg hhead, ← hends.eq_none_iff hne2]
      refine (Eq.congr_left hloop).trans ?_
      rw [Option.some.injEq, Option.map_eq_none_iff]

/-- The search in an empty string. -/
lemma uniSrtsrt_nil_iff {rest s2 : List UInt16} (hs2 : (0 : UInt16) ∉ s2) (hne2 : s2 ≠ []) :
    uniSrtsrt (0 :: rest) s2 = some none ↔
      ∃ text rest', rest = text ++ 0 :: rest' ∧ (0 : UInt16) ∉ text ∧
        Attempted text s2 text.length := by
  constructor
  · intro hnull
    by_cases hzero : (0 : UInt16) ∈ rest
    · obtain ⟨text, rest', rfl, htext⟩ := List.eq_append_cons_of_mem hzero
      exact ⟨text, rest', rfl, htext, (uniSrtsrt_behind rest' htext hs2 hne2).mp hnull⟩
    · have hhead : ¬rest.head? = some 0 := fun h => hzero (List.mem_of_head? h)
      rw [uniSrtsrt_zero_cons hs2 hne2, if_neg hhead] at hnull
      exact absurd hnull (uniSrtsrtLoop_ne_null rest 1 0 none hzero)
  · rintro ⟨text, rest', rfl, htext, hatt⟩
    exact (uniSrtsrt_behind rest' htext hs2 hne2).mpr hatt

/-- **Searching UCS-2 strings.**  For zero-terminated strings `s1` and `s2`, the second one not
empty, whatever stands in the memory behind `s1`: `uni_srtsrt` returns the first position at which
`s2` occurs, and `NULL` if there is none, exactly if an attempt of its single pass starts at that
position, or would start at the end of `s1`; where `s1` is empty, exactly if the pass over what
stands behind it up to the next zero comes to its end between two attempts. -/
theorem uniSrtsrt_iff (s1 rest s2 : List UInt16) (h1 : (0 : UInt16) ∉ s1) (h2 : (0 : UInt16) ∉ s2)
    (hne : s2 ≠ []) :
    uniSrtsrt (s1 ++ 0 :: rest) s2 = some (firstOccurrence s1 s2) ↔
      (s1 ≠ [] → Attempted s1 s2 ((firstOccurrence s1 s2).getD s1.length)) ∧
      (s1 = [] → ∃ text rest', rest = text ++ 0 :: rest' ∧ (0 : UInt16) ∉ text ∧
        Attempted text s2 text.length) := by
  by_cases hs1 : s1 = []
  · subst hs1
    simp only [ne_eq, not_true_eq_false, false_imp_iff, true_and, true_imp_iff]
    exact uniSrtsrt_nil_iff h2 hne
  · obtain ⟨out, hends, hsearch⟩ := uniSrtsrt_ends rest h1 h2 hs1 hne
    simp only [hsearch, Option.some.injEq, ne_eq, hs1, not_false_eq_true, true_imp_iff,
      false_imp_iff, and_true]
    exact hends.eq_firstOccurrence_iff hne

/-- The hypotheses are met by the search for `ab` in `xab`. -/
theorem uniSrtsrt_iff_xab :
    uniSrtsrt ([0x78, 0x61, 0x62] ++ 0 :: []) [0x61, 0x62]
        = some (firstOccurrence [0x78, 0x61, 0x62] [0x61, 0x62]) ↔
      ([(0x78 : UInt16), 0x61, 0x62] ≠ [] → Attempted [(0x78 : UInt16), 0x61, 0x62] [0x61, 0x62]
        ((firstOccurrence [0x78, 0x61, 0x62] [0x61, 0x62]).getD
          [(0x78 : UInt16), 0x61, 0x62].length)) ∧
      ([(0x78 : UInt16), 0x61, 0x62] = [] → ∃ text rest', [] = text ++ 0 :: rest' ∧
        (0 : UInt16) ∉ text ∧ Attempted text [0x61, 0x62] text.length) :=
  uniSrtsrt_iff [0x78, 0x61, 0x62] [] [0x61, 0x62] (by decide) (by decide) (by decide)

/-- `aab` holds `ab` from its second unit on, which made the first attempt fail; `xa` does not hold
`ab`, and ends in the middle of an attempt. -/
theorem uniSrtsrt_misses :
    uniSrtsrt ([0x61, 0x61, 0x62] ++ 0 :: []) [0x61, 0x62] = some none ∧
      firstOccurrence [(0x61 : UInt16), 0x61, 0x62] [0x61, 0x62] = some 1 ∧
      uniSrtsrt ([0x78, 0x61] ++ 0 :: []) [0x61, 0x62] = some (some 1) ∧
      firstOccurrence [(0x78 : UInt16), 0x61] [0x61, 0x62] = none := by
  decide

end Ampm
