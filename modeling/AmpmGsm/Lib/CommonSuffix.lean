import Mathlib.Data.List.Basic

/-!
# Common suffixes

How far two lists agree when they are read from their ends.

* `commonPrefix`, `commonSuffix` — the lengths.
* `commonSuffix_comm` — the order of the lists does not matter.
* `le_commonSuffix_append` — lists with a common end agree at least on that.
* `drop_eq_of_le_commonSuffix` — as far as they agree they have the same end.
-/

namespace CommonSuffix

variable {α : Type*} [DecidableEq α]

/-- How many items the lists have in common at the front. -/
def commonPrefix : List α → List α → ℕ
  | a :: as, b :: bs => if a = b then commonPrefix as bs + 1 else 0
  | _, _ => 0

lemma commonPrefix_comm : ∀ as bs : List α, commonPrefix as bs = commonPrefix bs as
  | [], [] => rfl
  | [], _ :: _ => rfl
  | _ :: _, [] => rfl
  | a :: as, b :: bs => by
      have ih := commonPrefix_comm as bs
      simp only [commonPrefix, eq_comm, ih]

lemma commonPrefix_le : ∀ as bs : List α, commonPrefix as bs ≤ as.length
  | [], _ => Nat.le_refl 0
  | _ :: _, [] => Nat.zero_le _
  | a :: as, b :: bs => by
      have ih := commonPrefix_le as bs
      rw [commonPrefix, List.length_cons]
      split
      · exact Nat.succ_le_succ ih
      · exact Nat.zero_le _

lemma le_commonPrefix_append (cs as bs : List α) :
    cs.length ≤ commonPrefix (cs ++ as) (cs ++ bs) := by
  induction cs with
  | nil => exact Nat.zero_le _
  | cons c cs ih =>
      rw [List.cons_append, List.cons_append, commonPrefix, if_pos rfl]
      exact Nat.succ_le_succ ih

lemma take_eq_of_le_commonPrefix : ∀ {k : ℕ} {as bs : List α}, k ≤ commonPrefix as bs →
    as.take k = bs.take k
  | 0, _, _, _ => rfl
  | k + 1, [], _, h => absurd h (Nat.not_succ_le_zero k)
  | k + 1, _ :: _, [], h => absurd h (Nat.not_succ_le_zero k)
  | k + 1, a :: as, b :: bs, h => by
      by_cases hab : a = b
      · rw [commonPrefix, if_pos hab] at h
        rw [List.take_succ_cons, List.take_succ_cons, hab,
          take_eq_of_le_commonPrefix (Nat.le_of_succ_le_succ h)]
      · rw [commonPrefix, if_neg hab] at h
        exact absurd h (Nat.not_succ_le_zero k)

/-- How many items the lists have in common at the end. -/
def commonSuffix (as bs : List α) : ℕ := commonPrefix as.reverse bs.reverse

lemma commonSuffix_comm (as bs : List α) : commonSuffix as bs = commonSuffix bs as :=
  commonPrefix_comm as.reverse bs.reverse

lemma commonSuffix_le (as bs : List α) : commonSuffix as bs ≤ as.length :=
  as.length_reverse ▸ commonPrefix_le as.reverse bs.reverse

@[simp] lemma commonSuffix_nil_left (bs : List α) : commonSuffix [] bs = 0 := by
  cases h : bs.reverse <;> simp [commonSuffix, commonPrefix]

@[simp] lemma commonSuffix_nil_right (as : List α) : commonSuffix as [] = 0 := by
  rw [commonSuffix_comm, commonSuffix_nil_left]

lemma commonSuffix_concat (as bs : List α) (a b : α) :
    commonSuffix (as ++ [a]) (bs ++ [b]) = if a = b then commonSuffix as bs + 1 else 0 := by
  simp only [commonSuffix, List.reverse_append, List.reverse_singleton, List.singleton_append,
    commonPrefix]

lemma le_commonSuffix_append (as bs cs : List α) :
    cs.length ≤ commonSuffix (as ++ cs) (bs ++ cs) := by
  have h := le_commonPrefix_append cs.reverse as.reverse bs.reverse
  rw [List.length_reverse] at h
  rw [commonSuffix, List.reverse_append, List.reverse_append]
  exact h

lemma drop_eq_of_le_commonSuffix {k : ℕ} {as bs : List α} (h : k ≤ commonSuffix as bs) :
    as.drop (as.length - k) = bs.drop (bs.length - k) := by
  have htake := congrArg List.reverse (take_eq_of_le_commonPrefix h)
  rw [List.take_reverse, List.take_reverse, List.reverse_reverse, List.reverse_reverse] at htake
  exact htake

end CommonSuffix
