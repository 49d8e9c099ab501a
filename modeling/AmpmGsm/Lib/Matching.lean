import Mathlib.Data.List.Infix
import Mathlib.Data.Nat.Find

/-!
# Matching a pattern in a stream

A pattern is a list of symbols, and `m` says which items of a stream a symbol matches.  A matcher
that sees the stream item by item has to remember how much of the pattern the stream ends with.
Streams are lists of items, newest first.

* `endsWith` — the stream ends with the first `k` symbols of a pattern.
* `overlap` — the largest such `k`.
* `overlap_cons_of_match` — an item that matches the next symbol lengthens the overlap by one.
* `endsWith_literal_iff` — where a symbol matches only itself, this is the suffix relation.
* `StartsOver`, `overlap_cons_restart` — the patterns for which a matcher may start over.
* `getD_eq_default_iff`, `take_succ_getD` — the symbols of a pattern that ends with a terminator.
-/

namespace Matching

variable {π α : Type*} (m : π → α → Bool)

/-! ## Ends of a stream -/

/-- The stream ends with items that match the first `k` symbols of the pattern. -/
def endsWith (p : List π) : ℕ → List α → Bool
  | 0, _ => true
  | _ + 1, [] => false
  | k + 1, b :: s =>
      match p[k]? with
      | some a => m a b && endsWith p k s
      | none => false

lemma endsWith_succ_cons (p : List π) (k : ℕ) (b : α) (s : List α) :
    endsWith m p (k + 1) (b :: s) = true ↔
      (∃ a, p[k]? = some a ∧ m a b = true) ∧ endsWith m p k s = true := by
  cases hp : p[k]? with
  | none => simp [endsWith, hp]
  | some a => simp [endsWith, hp]

/-- A shorter part of the pattern at the end of what came before. -/
lemma endsWith_of_cons {p : List π} {k : ℕ} {b : α} {s : List α}
    (h : endsWith m p (k + 1) (b :: s) = true) : endsWith m p k s = true :=
  ((endsWith_succ_cons m p k b s).mp h).2

/-- The longest part of the pattern that the stream ends with. -/
def overlap (p : List π) (s : List α) : ℕ :=
  Nat.findGreatest (fun k => endsWith m p k s = true) p.length

variable {m} {p : List π} {k : ℕ} {b : α} {s : List α}

lemma overlap_le (p : List π) (s : List α) : overlap m p s ≤ p.length := Nat.findGreatest_le _

lemma endsWith_overlap (p : List π) (s : List α) : endsWith m p (overlap m p s) s = true := by
  have hzero : endsWith m p 0 s = true := by
    cases s <;> rfl
  exact Nat.findGreatest_spec (P := fun k => endsWith m p k s = true) (Nat.zero_le _) hzero

lemma le_overlap (hk : k ≤ p.length) (h : endsWith m p k s = true) : k ≤ overlap m p s :=
  Nat.le_findGreatest hk h

@[simp] lemma overlap_nil (p : List π) : overlap m p ([] : List α) = 0 := by
  have h := endsWith_overlap (m := m) p ([] : List α)
  cases hk : overlap m p ([] : List α) with
  | zero => rfl
  | succ k =>
      rw [hk] at h
      exact absurd h Bool.false_ne_true

/-- The stream ends with the pattern if and only if nothing of the pattern is missing. -/
lemma overlap_eq_length_iff : overlap m p s = p.length ↔ endsWith m p p.length s = true := by
  constructor
  · intro h
    have hspec := endsWith_overlap (m := m) p s
    rwa [h] at hspec
  · intro h
    exact Nat.le_antisymm (overlap_le p s) (le_overlap le_rfl h)

lemma overlap_cons_le (p : List π) (b : α) (s : List α) :
    overlap m p (b :: s) ≤ overlap m p s + 1 := by
  have hspec := endsWith_overlap (m := m) p (b :: s)
  have hle := overlap_le (m := m) p (b :: s)
  cases hk : overlap m p (b :: s) with
  | zero => exact Nat.zero_le _
  | succ k =>
      rw [hk] at hspec hle
      exact Nat.succ_le_succ (le_overlap (Nat.le_of_succ_le hle) (endsWith_of_cons m hspec))

/-- The next symbol of the pattern comes. -/
lemma overlap_cons_of_match {a : π} (ha : p[overlap m p s]? = some a) (hb : m a b = true) :
    overlap m p (b :: s) = overlap m p s + 1 := by
  have hlt : overlap m p s < p.length := (List.getElem?_eq_some_iff.mp ha).1
  refine Nat.le_antisymm (overlap_cons_le p b s) (le_overlap hlt ?_)
  exact (endsWith_succ_cons m p _ b s).mpr ⟨⟨a, ha, hb⟩, endsWith_overlap p s⟩

/-- Another symbol comes: less of the pattern is there than before. -/
lemma overlap_cons_le_of_not_match
    (hb : ∀ a, p[overlap m p s]? = some a → m a b = false) :
    overlap m p (b :: s) ≤ overlap m p s := by
  refine Nat.le_of_lt_succ (lt_of_le_of_ne (overlap_cons_le p b s) fun heq => ?_)
  have hspec := endsWith_overlap (m := m) p (b :: s)
  rw [heq] at hspec
  obtain ⟨⟨a, ha, hmatch⟩, -⟩ := (endsWith_succ_cons m p _ b s).mp hspec
  rw [hb a ha] at hmatch
  exact Bool.false_ne_true hmatch

/-! ## Literal patterns -/

section Literal

variable [DecidableEq α]

/-- A symbol that matches only itself. -/
def literal (a b : α) : Bool := a = b

lemma endsWith_literal_iff (p : List α) :
    ∀ (k : ℕ) (s : List α), k ≤ p.length →
      (endsWith literal p k s = true ↔ p.take k <:+ s.reverse)
  | 0, s, _ => by
      cases s <;> simp [endsWith]
  | k + 1, [], hk => by
      have hne : p.take (k + 1) ≠ [] := by
        intro h
        have hlen := congrArg List.length h
        rw [List.length_take, List.length_nil] at hlen
        omega
      simp [endsWith, hne]
  | k + 1, b :: s, hk => by
      have hget : p[k]? = some p[k] := List.getElem?_eq_getElem hk
      rw [endsWith_succ_cons, endsWith_literal_iff p k s (Nat.le_of_succ_le hk),
        List.take_succ_eq_append_getElem hk, List.reverse_cons]
      constructor
      · rintro ⟨⟨a, ha, hab⟩, u, hu⟩
        refine ⟨u, ?_⟩
        have hb : p[k] = b :=
          (Option.some.inj (hget.symm.trans ha)).trans (of_decide_eq_true hab)
        rw [← List.append_assoc, hu, hb]
      · rintro ⟨u, hu⟩
        rw [← List.append_assoc] at hu
        obtain ⟨hfront, hlast⟩ := List.append_inj' hu rfl
        exact ⟨⟨_, hget, decide_eq_true (List.singleton_inj.mp hlast)⟩, u, hfront⟩

/-- The stream ends with the pattern. -/
lemma overlap_literal_iff (p s : List α) :
    overlap literal p s = p.length ↔ p <:+ s.reverse := by
  rw [overlap_eq_length_iff, endsWith_literal_iff p p.length s le_rfl, List.take_length]

/-- Where a proper part of the pattern ends another one, both go on with the same symbol. -/
def StartsOver (p : List α) : Prop :=
  ∀ k < p.length, ∀ j < k, 1 ≤ j → p.take j <:+ p.take k → p[j]? = p[k]?

instance (p : List α) : Decidable (StartsOver p) :=
  inferInstanceAs (Decidable (∀ k < p.length, ∀ j < k, 1 ≤ j → p.take j <:+ p.take k →
    p[j]? = p[k]?))

/-- **A matcher for such a pattern may start over** at a symbol that is not the next one. -/
theorem overlap_cons_restart {p s : List α} {b : α} (hp : StartsOver p)
    (hlt : overlap literal p s < p.length) (hne : p[overlap literal p s]? ≠ some b) :
    overlap literal p (b :: s) = if p[0]? = some b then 1 else 0 := by
  have hpos : 1 ≤ p.length := Nat.zero_lt_of_lt hlt
  have hzero : endsWith literal p 0 s = true := by
    cases s <;> rfl
  have hle : overlap literal p (b :: s) ≤ overlap literal p s := by
    refine overlap_cons_le_of_not_match fun a ha => decide_eq_false fun hab => hne ?_
    rw [ha, hab]
  have hspec := endsWith_overlap (m := literal) p (b :: s)
  cases hcount : overlap literal p (b :: s) with
  | zero =>
      rw [if_neg fun hfirst => ?_]
      have hone : 1 ≤ overlap literal p (b :: s) :=
        le_overlap hpos ((endsWith_succ_cons _ p 0 b s).mpr
          ⟨⟨b, hfirst, decide_eq_true rfl⟩, hzero⟩)
      omega
  | succ j =>
      rw [hcount] at hspec hle
      obtain ⟨⟨a, ha, hab⟩, hend⟩ := (endsWith_succ_cons _ p j b s).mp hspec
      obtain rfl : a = b := of_decide_eq_true hab
      cases j with
      | zero => rw [if_pos ha]
      | succ j =>
          have hlong := (endsWith_literal_iff p (overlap literal p s) s (Nat.le_of_lt hlt)).mp
            (endsWith_overlap p s)
          have hshort := (endsWith_literal_iff p (j + 1) s (by omega)).mp hend
          have hborder : p.take (j + 1) <:+ p.take (overlap literal p s) :=
            List.suffix_of_suffix_length_le hshort hlong (by
              rw [List.length_take, List.length_take]
              omega)
          have hsame := hp _ hlt (j + 1) (by omega) (by omega) hborder
          exact absurd (hsame.symm.trans ha) hne

end Literal

/-! ## Terminated patterns -/

section Terminated

variable {d : α} {p : List α}

/-- The terminator behind the pattern is its only one. -/
lemma getD_eq_default_iff (hd : d ∉ p) (k : ℕ) : p.getD k d = d ↔ p.length ≤ k := by
  rw [List.getD_eq_getElem?_getD]
  constructor
  · intro h
    by_contra hlt
    rw [List.getElem?_eq_getElem (Nat.not_le.mp hlt), Option.getD_some] at h
    exact hd (h ▸ List.getElem_mem _)
  · intro h
    rw [List.getElem?_eq_none h, Option.getD_none]

lemma take_succ_getD {k : ℕ} (hk : k < p.length) (d : α) :
    p.take (k + 1) = p.take k ++ [p.getD k d] := by
  rw [List.take_add_one, List.getD_eq_getElem?_getD, List.getElem?_eq_getElem hk]
  rfl

end Terminated

end Matching
