import Mathlib.Data.List.Basic

/-!
# Votes over a sliding window

A detector gives one value after the other, some of them wrong.  A value is accepted when `k` of the
`w` values before it were the same; what was accepted last stands until then.  Values are lists,
newest first, and before the first one there was nothing but `rest`.

* `votes`, `accepted` — the votes for a value; the value that stands.
* `reports` — the values other than `rest`, each time another one is accepted.
* `votes_of_mem_reports` — what is reported had the votes.
* `hold` — too few votes for anything else change nothing.
* `reports_replicate` — a value that comes `k + 1` times in a row is reported once.
-/

namespace Voting

variable {α : Type*} [DecidableEq α]

/-- How many of the last `w` values are `x`. -/
def votes (w : ℕ) (rest : α) (xs : List α) (x : α) : ℕ :=
  ((xs ++ List.replicate w rest).take w).count x

/-- The value that stands. -/
def accepted (w k : ℕ) (rest : α) : List α → α
  | [] => rest
  | x :: xs => if k ≤ votes w rest xs x then x else accepted w k rest xs

/-- The values that were accepted in the place of another one, but for `rest`. -/
def reports (w k : ℕ) (rest : α) : List α → List α
  | [] => []
  | x :: xs =>
      if accepted w k rest (x :: xs) ≠ accepted w k rest xs ∧ x ≠ rest then
        x :: reports w k rest xs
      else reports w k rest xs

variable {w k : ℕ} {rest c x : α} {xs ds : List α}

/-- What is accepted in the place of another value has the votes. -/
lemma votes_of_accepted_ne (h : accepted w k rest (x :: xs) ≠ accepted w k rest xs) :
    accepted w k rest (x :: xs) = x ∧ k ≤ votes w rest xs x := by
  rw [accepted] at h ⊢
  split_ifs at h ⊢ with hvotes
  · exact ⟨rfl, hvotes⟩
  · exact absurd rfl h

/-- What is reported had the votes. -/
lemma votes_of_mem_reports (h : x ∈ reports w k rest xs) :
    ∃ as bs, xs = as ++ x :: bs ∧ x ≠ rest ∧ k ≤ votes w rest bs x := by
  induction xs with
  | nil => exact absurd h List.not_mem_nil
  | cons y ys ih =>
      rw [reports] at h
      split_ifs at h with hnew
      · rcases List.mem_cons.mp h with rfl | h
        · exact ⟨[], ys, rfl, hnew.2, (votes_of_accepted_ne hnew.1).2⟩
        · obtain ⟨as, bs, rfl, hx⟩ := ih h
          exact ⟨y :: as, bs, rfl, hx⟩
      · obtain ⟨as, bs, rfl, hx⟩ := ih h
        exact ⟨y :: as, bs, rfl, hx⟩

/-- As long as nothing else has the votes, the value stands, and nothing is reported. -/
lemma hold (es : List α) (h : ∀ as x bs, es = as ++ x :: bs → x ≠ accepted w k rest ds →
      votes w rest (bs ++ ds) x < k) :
    accepted w k rest (es ++ ds) = accepted w k rest ds ∧
      reports w k rest (es ++ ds) = reports w k rest ds := by
  induction es with
  | nil => exact ⟨rfl, rfl⟩
  | cons x es ih =>
      obtain ⟨haccepted, hreports⟩ := ih fun as y bs heq => h (x :: as) y bs (by rw [heq]; rfl)
      have hstands : accepted w k rest (x :: (es ++ ds)) = accepted w k rest ds := by
        by_cases hx : x = accepted w k rest ds
        · rw [accepted, haccepted, hx, ite_self]
        · rw [accepted, if_neg (Nat.not_le.mpr (h [] x es rfl hx)), haccepted]
      rw [List.cons_append]
      refine ⟨hstands, ?_⟩
      rw [reports, if_neg fun hnew => hnew.1 (hstands.trans haccepted.symm), hreports]

/-- The same value again and again, before and after it is accepted. -/
lemma replicate_cases (hc : c ≠ rest) (hds : accepted w k rest ds ≠ c) (n : ℕ) :
    (accepted w k rest (List.replicate n c ++ ds) = accepted w k rest ds ∧
        reports w k rest (List.replicate n c ++ ds) = reports w k rest ds) ∨
      (accepted w k rest (List.replicate n c ++ ds) = c ∧
        reports w k rest (List.replicate n c ++ ds) = c :: reports w k rest ds) := by
  induction n with
  | zero => exact Or.inl ⟨rfl, rfl⟩
  | succ n ih =>
      rw [List.replicate_succ, List.cons_append, accepted, reports, accepted]
      split_ifs with hvotes hnew hnew
      · rcases ih with ⟨-, hreports⟩ | ⟨haccepted, -⟩
        · exact Or.inr ⟨rfl, by rw [hreports]⟩
        · exact absurd haccepted.symm hnew.1
      · rcases ih with ⟨haccepted, -⟩ | ⟨-, hreports⟩
        · exact absurd ⟨fun heq => hds (haccepted.symm.trans heq.symm), hc⟩ hnew
        · exact Or.inr ⟨rfl, hreports⟩
      · exact absurd rfl hnew.1
      · exact ih

/-- Once a value was there `k` times in a row it has the votes. -/
lemma accepted_replicate (hk : k ≤ w) : accepted w k rest (List.replicate (k + 1) c ++ ds) = c := by
  have hvotes : k ≤ votes w rest (List.replicate k c ++ ds) c := by
    have hprefix : (List.replicate k c).Sublist
        ((List.replicate k c ++ ds ++ List.replicate w rest).take w) := by
      rw [List.append_assoc, List.take_append, List.take_of_length_le (by simpa using hk)]
      exact List.sublist_append_left ..
    simpa [votes] using hprefix.count_le c
  rw [List.replicate_succ, List.cons_append, accepted, if_pos hvotes]

/-- **A value that comes `k + 1` times in a row is reported once.** -/
lemma reports_replicate (hk : k ≤ w) (hc : c ≠ rest) (hds : accepted w k rest ds ≠ c) :
    reports w k rest (List.replicate (k + 1) c ++ ds) = c :: reports w k rest ds := by
  rcases replicate_cases hc hds (k + 1) with ⟨haccepted, -⟩ | ⟨-, hreports⟩
  · exact absurd (haccepted.symm.trans (accepted_replicate hk)) hds
  · exact hreports

end Voting
