import AmpmGsm.Lib.CommonSuffix
import Mathlib.Data.List.Infix
import Mathlib.Logic.Relation

/-!
# Searching a text in a single pass

A search that never goes back tries the pattern at one position after the other: where an attempt
fails, the item that made it fail is passed over and the next attempt starts behind it.

* `firstOccurrence` — where the pattern occurs first.
* `Ends` — an attempt that does not fail.
* `FailsTo`, `Attempted` — the positions at which the single pass tries the pattern.
* `Attempted.unique` — only the last attempt does not fail.
* `PassEnds` — how the pass comes to its end: the pattern is found, the text ends in the middle of
  an attempt, or it ends between two attempts.
* `PassEnds.eq_none_iff`, `PassEnds.eq_firstOccurrence_iff` — when it reports nothing, and
  when what it reports is the first occurrence.
-/

namespace SinglePass

open CommonSuffix Relation

variable {α : Type*}

/-- An attempt that does not fail. -/
def Ends (text pattern : List α) (p : ℕ) : Prop :=
  pattern <+: text.drop p ∨ text.drop p <+: pattern

lemma ends_length (text pattern : List α) : Ends text pattern text.length :=
  Or.inr (List.drop_length ▸ List.nil_prefix)

variable [DecidableEq α]

/-- The first position at which the whole pattern occurs. -/
def firstOccurrence (text pattern : List α) : Option ℕ :=
  (List.range text.length).find? fun p => pattern.isPrefixOf (text.drop p)

lemma firstOccurrence_eq_some {text pattern : List α} {r : ℕ}
    (h : firstOccurrence text pattern = some r) : pattern <+: text.drop r := by
  have hfound := List.find?_some h
  exact List.isPrefixOf_iff_prefix.mp hfound

lemma not_prefix_of_firstOccurrence_eq_none {text pattern : List α} (hne : pattern ≠ [])
    (h : firstOccurrence text pattern = none) (p : ℕ) : ¬pattern <+: text.drop p := by
  intro hpre
  rcases Nat.lt_or_ge p text.length with hp | hp
  · have hnot := List.find?_eq_none.mp h p (List.mem_range.mpr hp)
    exact hnot (List.isPrefixOf_iff_prefix.mpr hpre)
  · rw [List.drop_eq_nil_of_le hp] at hpre
    exact hne (List.prefix_nil.mp hpre)

/-! ## The attempts -/

/-- The attempt at `p` fails within the text, and the next one starts at `q`. -/
def FailsTo (text pattern : List α) (p q : ℕ) : Prop :=
  ¬pattern <+: text.drop p ∧ ¬text.drop p <+: pattern ∧
    q = p + commonPrefix (text.drop p) pattern + 1

/-- The pass tries the pattern at `p`. -/
def Attempted (text pattern : List α) : ℕ → Prop := ReflTransGen (FailsTo text pattern) 0

lemma failsTo_rightUnique (text pattern : List α) : Relator.RightUnique (FailsTo text pattern) :=
  fun _ _ _ h h' => h.2.2.trans h'.2.2.symm

lemma Ends.eq_of_reach {text pattern : List α} {p q : ℕ} (hp : Ends text pattern p)
    (h : ReflTransGen (FailsTo text pattern) p q) : p = q := by
  rcases h.cases_head with heq | ⟨_, hfail, -⟩
  · exact heq
  · exact absurd hp (not_or.mpr ⟨hfail.1, hfail.2.1⟩)

/-- Only one of the attempts does not fail. -/
lemma Attempted.unique {text pattern : List α} {p q : ℕ} (hp : Attempted text pattern p)
    (hq : Attempted text pattern q) (hp' : Ends text pattern p) (hq' : Ends text pattern q) :
    p = q := by
  rcases ReflTransGen.total_of_right_unique (failsTo_rightUnique text pattern) hp hq with h | h
  · exact hp'.eq_of_reach h
  · exact (hq'.eq_of_reach h).symm

/-- An attempt that meets another item than the pattern has there. -/
lemma failsTo_of_ne {text pattern pre : List α} {p : ℕ} {c d : α} {cs ds : List α}
    (htext : text.drop p = pre ++ c :: cs) (hpattern : pattern = pre ++ d :: ds) (hne : c ≠ d) :
    FailsTo text pattern p (p + pre.length + 1) := by
  have hcommon : ∀ as : List α, commonPrefix (as ++ c :: cs) (as ++ d :: ds) = as.length := by
    intro as
    induction as with
    | nil => exact if_neg hne
    | cons a as ih =>
        rw [List.cons_append, List.cons_append, commonPrefix, if_pos rfl, ih, List.length_cons]
  rw [FailsTo, htext, hpattern, hcommon, List.prefix_append_right_inj,
    List.prefix_append_right_inj, List.cons_prefix_cons, List.cons_prefix_cons]
  exact ⟨fun h => hne h.1.symm, fun h => hne h.1, rfl⟩

/-! ## The end of the pass -/

/-- How a pass ends, and what it reports: where the attempt started that found the pattern or that
the end of the text cut off, or nothing if the text ends between two attempts. -/
inductive PassEnds (text pattern : List α) : Option ℕ → Prop
  | found (p : ℕ) : Attempted text pattern p → pattern <+: text.drop p →
      PassEnds text pattern (some p)
  | cutOff (p : ℕ) : Attempted text pattern p → p < text.length → text.drop p <+: pattern →
      ¬pattern <+: text.drop p → PassEnds text pattern (some p)
  | exhausted : Attempted text pattern text.length → PassEnds text pattern none

/-- **When a single pass is right.**  It reports the first occurrence exactly if an attempt starts
there; where the pattern does not occur, it reports nothing exactly if an attempt would start at the
end of the text. -/
theorem PassEnds.eq_firstOccurrence_iff {text pattern : List α} (hne : pattern ≠ [])
    {out : Option ℕ} (h : PassEnds text pattern out) :
    out = firstOccurrence text pattern ↔
      Attempted text pattern ((firstOccurrence text pattern).getD text.length) := by
  cases hfirst : firstOccurrence text pattern with
  | none =>
      have hnever := not_prefix_of_firstOccurrence_eq_none hne hfirst
      cases h with
      | found p _ hpre => exact absurd hpre (hnever p)
      | cutOff p hp hlt hcut _ =>
          refine iff_of_false nofun fun hend => ?_
          exact absurd (hp.unique hend (Or.inr hcut) (ends_length text pattern)) (Nat.ne_of_lt hlt)
      | exhausted hend => exact iff_of_true rfl hend
  | some r =>
      have hr := firstOccurrence_eq_some hfirst
      cases h with
      | found p hp hpre =>
          refine ⟨fun heq => Option.some.inj heq ▸ hp, fun hatt => ?_⟩
          exact congrArg some (hp.unique hatt (Or.inl hpre) (Or.inl hr))
      | cutOff p hp _ hcut hnot =>
          refine iff_of_false (fun heq => ?_) fun hatt => ?_
          · exact hnot (Option.some.inj heq ▸ hr)
          · exact hnot (hp.unique hatt (Or.inr hcut) (Or.inl hr) ▸ hr)
      | exhausted hend =>
          refine iff_of_false nofun fun hatt => ?_
          have heq : r = text.length := hatt.unique hend (Or.inl hr) (ends_length text pattern)
          rw [heq, List.drop_length] at hr
          exact hne (List.prefix_nil.mp hr)

/-- A pass reports nothing exactly if an attempt would start at the end of the text. -/
theorem PassEnds.eq_none_iff {text pattern : List α} (hne : pattern ≠ []) {out : Option ℕ}
    (h : PassEnds text pattern out) : out = none ↔ Attempted text pattern text.length := by
  have hlast := ends_length text pattern
  cases h with
  | found p hp hpre =>
      refine iff_of_false nofun fun hend => ?_
      rw [hp.unique hend (Or.inl hpre) hlast, List.drop_length] at hpre
      exact hne (List.prefix_nil.mp hpre)
  | cutOff p hp hlt hcut _ =>
      exact iff_of_false nofun fun hend =>
        absurd (hp.unique hend (Or.inr hcut) hlast) (Nat.ne_of_lt hlt)
  | exhausted hend => exact iff_of_true rfl hend

end SinglePass
