import AmpmGsm.Gsm.DataCmp
import AmpmGsm.Lib.Matching
import AmpmGsm.Lib.Runs

/-!
# Where the response matcher finds its pattern

`lib/data_cmp.c`: on a byte that is not the next one of the pattern, `FindData` compares the last
byte that *was* one, and not the byte at hand, with the first of the pattern.  It finds what it
should as long as the two comparisons come to the same.

* `Search`, `searchStep`, `Exact` — a matcher fed byte by byte, and what is asked of it.
* `fallback`, `FallsBack` — what `FindData` goes back to, and when that is right.
* `Tracks` — the index of a matcher that has found nothing yet.
* `findData_exact_iff` — the streams on which the matcher is exact.
-/

namespace Ampm

open Matching

/-! ## The property -/

/-- A matcher, the bytes it was fed, newest first, and whether a call has returned 0. -/
structure Search where
  cmp : Compare
  fed : List UInt8
  found : Bool

/-- `InitFindData`. -/
def searchStart (p : List UInt8) : Search := ⟨initFindData p, [], false⟩

/-- `FindData`. -/
def searchStep (st : Search) (c : UInt8) : Search :=
  ⟨(findData st.cmp c).2, c :: st.fed, st.found || (findData st.cmp c).1 = 0⟩

/-- A call has returned 0 if and only if the pattern has occurred. -/
def Exact (p : List UInt8) (st : Search) : Prop := st.found = true ↔ p <:+: st.fed.reverse

/-! ## The condition -/

/-- The index to which `FindData` goes back from `k`: 1 if the last byte of the part found so far
is also the first of the pattern. -/
def fallback (p : List UInt8) (k : ℕ) : ℕ := if 1 ≤ k ∧ p[k - 1]? = p[0]? then 1 else 0

/-- If the pattern has not occurred, and `c` is not its next byte, then the part of it that is
there with `c` is the one that `FindData` goes back to. -/
def FallsBack (p : List UInt8) (st : Search) (c : UInt8) : Prop :=
  ¬ p <:+: st.fed.reverse → p[overlap literal p st.fed]? ≠ some c →
    overlap literal p (c :: st.fed) = fallback p (overlap literal p st.fed)

/-! ## The index -/

/-- A matcher for `p` that has found nothing and is at the index `k`. -/
structure Tracks (p : List UInt8) (k : ℕ) (st : Search) : Prop where
  buff_eq : st.cmp.buff = p
  len_eq : st.cmp.len.toNat = p.length
  found_eq : st.found = false
  index_eq : st.cmp.index.toNat = k
  lt_length : k < p.length
  last_eq : 1 ≤ k → p[k - 1]? = some st.cmp.c
  last_ne : k = 0 → p[0]? ≠ some st.cmp.c

lemma fallback_le (p : List UInt8) (k : ℕ) : fallback p k ≤ k := by
  unfold fallback
  split_ifs with h
  · exact h.1
  · exact Nat.zero_le k

section Step

variable {p : List UInt8} {k : ℕ} {st : Search} {c : UInt8}

lemma getD_eq_iff {k : ℕ} (hk : k < p.length) : p.getD k 0 = c ↔ p[k]? = some c := by
  rw [List.getD_eq_getElem?_getD, List.getElem?_eq_getElem hk, Option.getD_some, Option.some_inj]

/-- The next byte of the pattern. -/
lemma Tracks.next (h : Tracks p k st) (hlen : p.length ≤ 255) (hc : p[k]? = some c) :
    (k + 1 = p.length ∧ (searchStep st c).found = true) ∨ Tracks p (k + 1) (searchStep st c) := by
  have hget : st.cmp.buff.getD st.cmp.index.toNat 0 = c := by
    rw [h.buff_eq, h.index_eq, getD_eq_iff h.lt_length]
    exact hc
  have hlt := h.lt_length
  have hindex : (st.cmp.index + 1).toNat = k + 1 := by
    rw [UInt8.toNat_add, h.index_eq, Nat.mod_eq_of_lt]
    · rfl
    · show k + 1 < 256
      omega
  by_cases hend : k + 1 = p.length
  · refine Or.inl ⟨hend, ?_⟩
    have hge : st.cmp.index + 1 ≥ st.cmp.len := by
      rw [ge_iff_le, UInt8.le_iff_toNat_le, hindex, h.len_eq]
      exact hend.ge
    simp only [searchStep, findData, hget, if_true, hge, decide_true, Bool.or_true]
  · have hnot : ¬ st.cmp.index + 1 ≥ st.cmp.len := by
      rw [ge_iff_le, UInt8.le_iff_toNat_le, hindex, h.len_eq]
      omega
    have hcmp : findData st.cmp c = (0xff, { st.cmp with c := c, index := st.cmp.index + 1 }) := by
      simp only [findData, hget, if_true, hnot, if_false]
    refine Or.inr ⟨?_, ?_, ?_, ?_, by omega, fun _ => ?_, fun hk => absurd hk (Nat.succ_ne_zero k)⟩
    · simp only [searchStep, hcmp, h.buff_eq]
    · simp only [searchStep, hcmp, h.len_eq]
    · simp only [searchStep, hcmp, h.found_eq, Bool.false_or]
      decide
    · simp only [searchStep, hcmp, hindex]
    · simp only [searchStep, hcmp, Nat.add_sub_cancel, hc]

/-- Another byte. -/
lemma Tracks.other (h : Tracks p k st) (hc : p[k]? ≠ some c) :
    Tracks p (fallback p k) (searchStep st c) := by
  have hget : ¬ st.cmp.buff.getD st.cmp.index.toNat 0 = c := by
    rw [h.buff_eq, h.index_eq, getD_eq_iff h.lt_length]
    exact hc
  have hpos : 0 < p.length := Nat.zero_lt_of_lt h.lt_length
  have hfirst : (st.cmp.c = st.cmp.buff.getD 0 0) ↔ (1 ≤ k ∧ p[k - 1]? = p[0]?) := by
    rw [eq_comm, h.buff_eq, getD_eq_iff hpos]
    constructor
    · intro heq
      have hk : 1 ≤ k := Nat.one_le_iff_ne_zero.mpr fun hzero => h.last_ne hzero heq
      exact ⟨hk, (h.last_eq hk).trans heq.symm⟩
    · rintro ⟨hk, heq⟩
      exact heq.symm.trans (h.last_eq hk)
  have hcmp : findData st.cmp c =
      (0xff, { st.cmp with index := (fallback p k).toUInt8 }) := by
    have hlen := h.len_eq
    have hlt := h.lt_length
    unfold fallback
    by_cases hback : 1 ≤ k ∧ p[k - 1]? = p[0]?
    · have hnot : ¬ (1 : UInt8) ≥ st.cmp.len := by
        rw [ge_iff_le, UInt8.le_iff_toNat_le, hlen]
        exact Nat.not_le.mpr (Nat.lt_of_le_of_lt hback.1 hlt)
      simp only [findData, hget, if_false, hfirst.mpr hback, if_true, hback, hnot]
      rfl
    · have hnot : ¬ (0 : UInt8) ≥ st.cmp.len := by
        rw [ge_iff_le, UInt8.le_iff_toNat_le, hlen]
        exact Nat.not_le.mpr hpos
      simp only [findData, hget, if_false, hfirst, hback, hnot]
      rfl
  have hle := fallback_le p k
  refine ⟨?_, ?_, ?_, ?_, Nat.lt_of_le_of_lt hle h.lt_length, fun hk => ?_, fun hk => ?_⟩
  · simp only [searchStep, hcmp, h.buff_eq]
  · simp only [searchStep, hcmp, h.len_eq]
  · simp only [searchStep, hcmp, h.found_eq, Bool.false_or]
    decide
  · simp only [searchStep, hcmp]
    unfold fallback
    split_ifs <;> rfl
  · have hback : 1 ≤ k ∧ p[k - 1]? = p[0]? := by
      by_contra hnot
      rw [fallback, if_neg hnot] at hk
      exact absurd hk (Nat.not_succ_le_zero 0)
    rw [fallback, if_pos hback]
    simp only [searchStep, hcmp]
    exact hback.2.symm.trans (h.last_eq hback.1)
  · intro heq
    have hback : ¬ (1 ≤ k ∧ p[k - 1]? = p[0]?) := by
      intro hback
      rw [fallback, if_pos hback] at hk
      exact absurd hk Nat.one_ne_zero
    simp only [searchStep, hcmp] at heq
    rw [← getD_eq_iff hpos, ← h.buff_eq] at heq
    exact hback (hfirst.mp heq.symm)

end Step

/-! ## Streams -/

section Streams

open Runs

variable {p : List UInt8} {k : ℕ} {st : Search}

lemma run_fed (st : Search) (s : List UInt8) :
    (run searchStep st s).fed.reverse = st.fed.reverse ++ s := by
  induction s generalizing st with
  | nil => simp
  | cons c s ih => simp [ih, searchStep]

/-- The rest of the pattern is found. -/
lemma Tracks.found_of_drop (h : Tracks p k st) (hlen : p.length ≤ 255) :
    (run searchStep st (p.drop k)).found = true := by
  induction hrest : p.length - (k + 1) generalizing k st with
  | zero =>
      have hlt := h.lt_length
      rw [List.drop_eq_getElem_cons hlt, run_cons]
      rcases h.next hlen (List.getElem?_eq_getElem hlt) with ⟨hend, hfound⟩ | hnext
      · rw [List.drop_eq_nil_of_le hend.ge]
        exact hfound
      · have := hnext.lt_length
        omega
  | succ n ih =>
      have hlt := h.lt_length
      rw [List.drop_eq_getElem_cons hlt, run_cons]
      rcases h.next hlen (List.getElem?_eq_getElem hlt) with ⟨hend, -⟩ | hnext
      · omega
      · exact ih hnext (by omega)

/-- Nothing is found in a stream that is shorter than the rest of the pattern. -/
lemma Tracks.not_found_of_short {s : List UInt8} (h : Tracks p k st) (hlen : p.length ≤ 255)
    (hs : k + s.length < p.length) : (run searchStep st s).found = false := by
  induction s generalizing k st with
  | nil => exact h.found_eq
  | cons c s ih =>
      rw [List.length_cons] at hs
      rw [run_cons]
      by_cases hc : p[k]? = some c
      · rcases h.next hlen hc with ⟨hend, -⟩ | hnext
        · omega
        · exact ih hnext (by omega)
      · have hle := fallback_le p k
        exact ih (h.other hc) (by omega)

/-- What holds of a matcher that has only gone back to where it should. -/
def SearchInv (p : List UInt8) (st : Search) : Prop :=
  (st.found = true ∧ p <:+: st.fed.reverse) ∨
    (Tracks p (overlap literal p st.fed) st ∧ ¬ p <:+: st.fed.reverse)

lemma SearchInv.exact (h : SearchInv p st) : Exact p st := by
  rcases h with ⟨hfound, hoccurs⟩ | ⟨htracks, hnot⟩
  · exact iff_of_true hfound hoccurs
  · refine iff_of_false ?_ hnot
    rw [htracks.found_eq]
    exact Bool.false_ne_true

lemma occurs_cons_iff {p fed : List UInt8} (c : UInt8) :
    p <:+: (c :: fed).reverse ↔ overlap literal p (c :: fed) = p.length ∨ p <:+: fed.reverse := by
  rw [overlap_literal_iff, List.reverse_cons, List.infix_concat_iff]

lemma searchInv_start (hpos : 1 ≤ p.length) (hlen : p.length ≤ 255) (hnul : 0 ∉ p) :
    SearchInv p (searchStart p) := by
  refine Or.inr ⟨?_, ?_⟩
  · rw [show (searchStart p).fed = [] from rfl, overlap_nil]
    refine ⟨rfl, ?_, rfl, rfl, hpos, fun h => absurd h (Nat.not_succ_le_zero 0), fun _ heq => ?_⟩
    · show p.length.toUInt8.toNat = p.length
      rw [Nat.toUInt8, UInt8.toNat_ofNat']
      omega
    · exact hnul (List.mem_of_getElem? heq)
  · intro hoccurs
    have hnil := List.eq_nil_of_infix_nil hoccurs
    rw [hnil] at hpos
    exact absurd hpos (Nat.not_succ_le_zero 0)

theorem searchInv_step (hlen : p.length ≤ 255) (h : SearchInv p st) (c : UInt8)
    (hc : FallsBack p st c) : SearchInv p (searchStep st c) := by
  have hfed : (searchStep st c).fed = c :: st.fed := rfl
  rcases h with ⟨hfound, hoccurs⟩ | ⟨htracks, hnot⟩
  · refine Or.inl ⟨?_, ?_⟩
    · show (st.found || _) = true
      rw [hfound, Bool.true_or]
    · rw [hfed, occurs_cons_iff]
      exact Or.inr hoccurs
  · by_cases hnext : p[overlap literal p st.fed]? = some c
    · have hlonger : overlap literal p (c :: st.fed) = overlap literal p st.fed + 1 :=
        overlap_cons_of_match hnext (decide_eq_true rfl)
      rcases htracks.next hlen hnext with ⟨hend, hfound⟩ | htracks'
      · refine Or.inl ⟨hfound, ?_⟩
        rw [hfed, occurs_cons_iff]
        exact Or.inl (hlonger.trans hend)
      · refine Or.inr ⟨?_, ?_⟩
        · rwa [hfed, hlonger]
        · rw [hfed, occurs_cons_iff, hlonger]
          exact not_or.mpr ⟨htracks'.lt_length.ne, hnot⟩
    · have hback := hc hnot hnext
      have htracks' := htracks.other hnext
      refine Or.inr ⟨?_, ?_⟩
      · rwa [hfed, hback]
      · rw [hfed, occurs_cons_iff, hback]
        exact not_or.mpr ⟨htracks'.lt_length.ne, hnot⟩

/-- A matcher that has gone back too far, or not far enough, is wrong about some stream. -/
lemma not_exact_of_not_fallsBack (hlen : p.length ≤ 255) (h : SearchInv p st) (c : UInt8)
    (hc : ¬ FallsBack p st c) : ∃ t, ¬ Throughout searchStep (Exact p) st (c :: t) := by
  rw [FallsBack, Classical.not_imp, Classical.not_imp] at hc
  obtain ⟨hnot, hnext, hback⟩ := hc
  obtain ⟨hfound, hoccurs⟩ | ⟨htracks, -⟩ := h
  · exact absurd hoccurs hnot
  have htracks' := htracks.other hnext
  have hfed : (searchStep st c).fed = c :: st.fed := rfl
  generalize fallback p (overlap literal p st.fed) = j at hback htracks'
  rcases Nat.lt_or_gt_of_ne hback with hlt | hgt
  · -- the matcher believes in more of the pattern than is there
    refine ⟨p.drop j, fun hexact => ?_⟩
    have hstarts := (throughout_iff_starts _ _ _ _).mp hexact.2
    have hne : p.drop j ≠ [] := by
      rw [ne_eq, List.drop_eq_nil_iff]
      exact Nat.not_le.mpr htracks'.lt_length
    obtain ⟨t, b, ht⟩ : ∃ t b, p.drop j = t ++ [b] :=
      ⟨_, _, (List.dropLast_concat_getLast hne).symm⟩
    have hshort : j + t.length < p.length := by
      have hl := congrArg List.length ht
      rw [List.length_drop, List.length_append, List.length_singleton] at hl
      omega
    have hbefore : ¬ p <:+: (run searchStep (searchStep st c) t).fed.reverse := by
      have hexact' : Exact p _ := hstarts t (by rw [ht]; exact List.prefix_append t [b])
      rw [Exact, htracks'.not_found_of_short hlen hshort] at hexact'
      exact fun hoccurs => Bool.false_ne_true (hexact'.mpr hoccurs)
    have hend : p <:+: (run searchStep (searchStep st c) (p.drop j)).fed.reverse :=
      (hstarts _ (List.prefix_refl _)).mp (htracks'.found_of_drop hlen)
    have hsuffix : p <:+ (c :: st.fed).reverse ++ p.drop j := by
      rw [ht, run_append] at hend
      have hcases := (occurs_cons_iff b).mp hend
      have hwhole := hcases.resolve_right hbefore
      rwa [overlap_literal_iff, List.reverse_cons, run_fed, hfed, List.append_assoc, ← ht] at hwhole
    have hpart : p.take j <:+ (c :: st.fed).reverse := by
      obtain ⟨u, hu⟩ := hsuffix
      refine ⟨u, (List.append_left_inj (p.drop j)).mp ?_⟩
      rw [List.append_assoc, List.take_append_drop, hu]
    exact absurd (le_overlap htracks'.lt_length.le
      ((endsWith_literal_iff p j _ htracks'.lt_length.le).mpr hpart)) (Nat.not_le.mpr hlt)
  · -- the matcher has lost some of it
    refine ⟨p.drop (overlap literal p (c :: st.fed)), fun hexact => ?_⟩
    have hle := overlap_le (m := literal) p (c :: st.fed)
    have hpart : p.take (overlap literal p (c :: st.fed)) <:+ (c :: st.fed).reverse :=
      (endsWith_literal_iff p _ _ hle).mp (endsWith_overlap p _)
    have hoccurs : p <:+: (run searchStep (searchStep st c)
        (p.drop (overlap literal p (c :: st.fed)))).fed.reverse := by
      rw [run_fed, hfed]
      obtain ⟨u, hu⟩ := hpart
      refine List.IsSuffix.isInfix ⟨u, ?_⟩
      rw [← hu, List.append_assoc, List.take_append_drop]
    have hfound := hexact.2.last.mpr hoccurs
    rw [htracks'.not_found_of_short hlen] at hfound
    · exact Bool.false_ne_true hfound
    · rw [List.length_drop]
      omega

/-- **The streams on which the matcher is exact.**  For every pattern without a NUL and every
stream: if, at each byte that is not the next one of the pattern, what `FindData` goes back to is
the part of the pattern that is there, then the first call that returns 0 is the one that is fed
the last byte of the first occurrence.  On any other stream the matcher comes to a point from
which some stream proves it wrong. -/
theorem findData_exact_iff (p : List UInt8) (hpos : 1 ≤ p.length) (hlen : p.length ≤ 255)
    (hnul : 0 ∉ p) (s : List UInt8) :
    (StepsMeet searchStep (FallsBack p) (searchStart p) s →
      Throughout searchStep (Exact p) (searchStart p) s) ∧
    (¬ StepsMeet searchStep (FallsBack p) (searchStart p) s →
      ∃ u t, u <+: s ∧ ¬ Throughout searchStep (Exact p) (searchStart p) (u ++ t)) := by
  have hstart := searchInv_start hpos hlen hnul
  generalize searchStart p = st at hstart
  constructor
  · intro hmeet
    have hinv : Throughout searchStep (SearchInv p) st s :=
      throughout_of_stepsMeet (fun _ c h hc => searchInv_step hlen h c hc) hstart hmeet
    exact hinv.mono fun _ h => h.exact
  · induction s generalizing st with
    | nil => exact fun hnot => absurd trivial hnot
    | cons c s ih =>
        intro hnot
        by_cases hc : FallsBack p st c
        · have hrest : ¬ StepsMeet searchStep (FallsBack p) (searchStep st c) s :=
            fun h => hnot ⟨hc, h⟩
          obtain ⟨u, t, hu, hwrong⟩ := ih _ (searchInv_step hlen hstart c hc) hrest
          exact ⟨c :: u, t, List.cons_prefix_cons.mpr ⟨rfl, hu⟩, fun h => hwrong h.2⟩
        · obtain ⟨t, hwrong⟩ := not_exact_of_not_fallsBack hlen hstart c hc
          exact ⟨[c], t, List.cons_prefix_cons.mpr ⟨rfl, List.nil_prefix⟩, hwrong⟩

end Streams

/-! ### A byte between `O` and `K` -/

/-- The hypotheses are met by the pattern of most answers. -/
theorem findData_exact_iff_ok :
    (Runs.StepsMeet searchStep (FallsBack (bytesOf "OK")) (searchStart (bytesOf "OK"))
        (bytesOf "\r\nOK\r\n") →
      Runs.Throughout searchStep (Exact (bytesOf "OK")) (searchStart (bytesOf "OK"))
        (bytesOf "\r\nOK\r\n")) ∧
    (¬ Runs.StepsMeet searchStep (FallsBack (bytesOf "OK")) (searchStart (bytesOf "OK"))
        (bytesOf "\r\nOK\r\n") →
      ∃ u t, u <+: bytesOf "\r\nOK\r\n" ∧
        ¬ Runs.Throughout searchStep (Exact (bytesOf "OK")) (searchStart (bytesOf "OK")) (u ++ t)) :=
  findData_exact_iff (bytesOf "OK") (by decide) (by decide) (by decide) (bytesOf "\r\nOK\r\n")

/-- `OK` is found in `OXK`. -/
theorem findData_not_exact :
    ¬ ∀ p : List UInt8, 1 ≤ p.length → p.length ≤ 255 → 0 ∉ p → ∀ s : List UInt8,
      Runs.Throughout searchStep (Exact p) (searchStart p) s := by
  intro h
  have hlast := (h (bytesOf "OK") (by decide) (by decide) (by decide) (bytesOf "OXK")).last
  have hfound : (Runs.run searchStep (searchStart (bytesOf "OK")) (bytesOf "OXK")).found = true := by
    decide
  exact absurd (hlast.mp hfound) (by decide)

end Ampm
