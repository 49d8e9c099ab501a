import AmpmGsm.Gps.Parse
import Mathlib.Tactic.SplitIfs

/-!
# What `nmea_scanf` finds

`gps/ampm_gps.c`: a conversion without a width takes the bytes up to the next byte of the format,
wherever in the buffer that is.

* `nmeaScanf_field`, `nmeaScanf_compare` — one conversion, and one byte between two of them.
* `nmeaScanf_length` — there are no more conversions than the format has.
* `fillTargets_append`, `fillTargets_keeps` — what the conversions store.
-/

namespace Ampm

/-! ## Conversions -/

/-- A byte between two conversions. -/
lemma nmeaScanf_compare {f : UInt8} (hf : f ≠ 37) (format buff : List UInt8) :
    nmeaScanf (f :: format) none (f :: buff) = nmeaScanf format none buff := by
  rw [nmeaScanf, if_neg hf, if_pos rfl]

lemma scanTypes_not_digit {f : UInt8} (hf : f ∈ scanTypes) : isDigit f = false := by
  have hall : scanTypes.all (fun f => !isDigit f) = true := by decide
  simpa using List.all_eq_true.mp hall f hf

/-- A conversion without a width that is followed by another byte. -/
lemma nmeaScanf_field {f next : UInt8} (hf : f ∈ scanTypes) (hchar : ¬ (f = 99 ∨ f = 67))
    (hnext : next ≠ 0) (format : List UInt8) {buff : List UInt8} (hbuff : buff ≠ []) :
    nmeaScanf (37 :: f :: next :: format) none buff =
      (f, buff.takeWhile (· ≠ next)) ::
        nmeaScanf (next :: format) none (buff.dropWhile (· ≠ next)) := by
  obtain ⟨c, rest, rfl⟩ := List.exists_cons_of_ne_nil hbuff
  have hwidth : scanWidth f next [] (c :: rest) = 0 := by
    unfold scanWidth
    exact if_neg fun h => hchar h.2.1
  rw [nmeaScanf, if_pos rfl, nmeaScanf, if_neg (by simp [scanTypes_not_digit hf])]
  dsimp only [List.headD_cons]
  rw [hwidth, scanToken, if_neg (not_not.mpr rfl), if_neg hnext]
  dsimp only
  rw [if_neg fun h => h.2 hf]

lemma count_tail_le (f : UInt8) (format : List UInt8) (k : ℕ) :
    format.count 37 + k ≤ (f :: format).count 37 + k :=
  Nat.add_le_add_right ((List.sublist_cons_self f format).count_le 37) k

/-- No conversion is found twice. -/
lemma nmeaScanf_length (format : List UInt8) (digits : Option (List UInt8)) (buff : List UInt8) :
    (nmeaScanf format digits buff).length ≤ format.count 37 + if digits.isSome then 1 else 0 := by
  fun_induction nmeaScanf format digits buff with
  | case1 => exact Nat.zero_le _
  | case2 => exact Nat.zero_le _
  | case3 format c buff ih =>
      rw [List.count_cons_self]
      exact ih
  | case4 format c buff hne ih => exact Nat.le_trans ih (count_tail_le c format 0)
  | case5 => exact Nat.zero_le _
  | case6 f format digits c buff hf ih => exact Nat.le_trans ih (count_tail_le f format 1)
  | case7 => exact Nat.zero_le _
  | case8 => exact Nat.le_add_left 1 _
  | case9 f format digits c buff hf next token rest hstop hgoes ih =>
      exact Nat.succ_le_succ (Nat.le_trans ih (count_tail_le f format 0))

/-! ## What they store -/

section Targets

variable {P : Type} {targets targets' : List (List UInt8 → P → P)}
  {tokens tokens' : List (UInt8 × List UInt8)}

/-- The conversions of a part of the format. -/
lemma fillTargets_append (hlength : targets.length = tokens.length) (p : P) :
    fillTargets (targets ++ targets') (tokens ++ tokens') p =
      fillTargets targets' tokens' (fillTargets targets tokens p) := by
  unfold fillTargets
  rw [List.zip_append hlength.symm, List.foldl_append]

/-- What every argument keeps is kept. -/
lemma fillTargets_keeps {R : P → P → Prop} (hrefl : ∀ p, R p p)
    (htrans : ∀ p q r, R p q → R q r → R p r)
    (htargets : ∀ target ∈ targets, ∀ text p, R p (target text p))
    (tokens : List (UInt8 × List UInt8)) (p : P) : R p (fillTargets targets tokens p) := by
  induction targets generalizing tokens p with
  | nil =>
      rw [fillTargets, List.zip_nil_right]
      exact hrefl p
  | cons target targets ih =>
      cases tokens with
      | nil => exact hrefl p
      | cons token tokens =>
          have hrest := ih (fun t ht => htargets t (List.mem_cons_of_mem _ ht)) tokens
          show R p (fillTargets targets tokens (if token.2 = [] then p else target token.2 p))
          split_ifs
          · exact hrest p
          · exact htrans _ _ _ (htargets target List.mem_cons_self token.2 p) (hrest _)

end Targets

end Ampm
