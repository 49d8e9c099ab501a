import Mathlib.Logic.Function.Basic
import Mathlib.Data.List.Basic
import Mathlib.Data.Nat.ModEq

/-!
# Windows of a cyclic array

A ring buffer stores a list in `k` consecutive cells of an array of `n`, wrapping from the last
cell to the first.  This file has the arithmetic of such windows, for an array seen as a map from
index to value.

* `next`, `distance` — stepping one cell round the cycle, and the number of steps between two cells.
* `window` — the cells read in order, with the lemmas for growing it at the end
  (`window_succ_last`), shrinking it at the front (`window_succ_first`) and writing the free cell
  just behind it (`window_update`).
-/

namespace CircularWindow

variable {α : Type*} {n start stop : ℕ}

/-! ## Steps and distances -/

/-- The cell after `i` in a cycle of `n`. -/
def next (n i : ℕ) : ℕ := if i + 1 < n then i + 1 else 0

/-- How many steps lead from `start` to `stop`. -/
def distance (n start stop : ℕ) : ℕ := if start ≤ stop then stop - start else n - start + stop

lemma next_lt (hn : 0 < n) : next n start < n := by
  unfold next
  split_ifs <;> omega

lemma next_eq_mod (h : start < n) : next n start = (start + 1) % n := by
  unfold next
  split_ifs with hlt
  · exact (Nat.mod_eq_of_lt hlt).symm
  · have hend : start + 1 = n := by omega
    rw [hend, Nat.mod_self]

lemma distance_lt (hs : start < n) (ht : stop < n) : distance n start stop < n := by
  unfold distance
  split_ifs <;> omega

lemma distance_eq_zero_iff (hs : start < n) : distance n start stop = 0 ↔ start = stop := by
  unfold distance
  split_ifs <;> omega

lemma add_distance_mod (hs : start < n) (ht : stop < n) :
    (start + distance n start stop) % n = stop := by
  unfold distance
  split_ifs with hle
  · rw [Nat.add_sub_cancel' hle, Nat.mod_eq_of_lt ht]
  · have hround : start + (n - start + stop) = stop + n := by omega
    rw [hround, Nat.add_mod_right, Nat.mod_eq_of_lt ht]

/-- Moving the far end one step on makes the distance one longer, unless it closes the cycle. -/
lemma distance_next_stop (hs : start < n) (ht : stop < n) (hne : next n stop ≠ start) :
    distance n start (next n stop) = distance n start stop + 1 := by
  unfold next at hne ⊢
  unfold distance
  split_ifs at hne ⊢ <;> omega

/-- Moving the near end one step on makes the distance one shorter. -/
lemma distance_next_start (hs : start < n) (ht : stop < n) (hne : start ≠ stop) :
    distance n start stop = distance n (next n start) stop + 1 := by
  unfold next distance
  split_ifs <;> omega

/-- The far end is one step behind the near end exactly when the distance is as long as it gets. -/
lemma next_eq_iff_distance (hs : start < n) (ht : stop < n) :
    next n stop = start ↔ distance n start stop = n - 1 := by
  unfold next distance
  split_ifs <;> omega

/-! ## Windows -/

/-- The `k` cells from `start` on, in order round the cycle. -/
def window (f : ℕ → α) (n start k : ℕ) : List α :=
  (List.range k).map fun i => f ((start + i) % n)

@[simp] lemma length_window (f : ℕ → α) (n start k : ℕ) : (window f n start k).length = k := by
  simp [window]

@[simp] lemma window_zero (f : ℕ → α) (n start : ℕ) : window f n start 0 = [] := rfl

lemma window_succ_last (f : ℕ → α) (n start k : ℕ) :
    window f n start (k + 1) = window f n start k ++ [f ((start + k) % n)] := by
  simp [window, List.range_succ]

lemma window_succ_first (f : ℕ → α) (k : ℕ) (h : start < n) :
    window f n start (k + 1) = f start :: window f n (next n start) k := by
  simp only [window, List.range_succ_eq_map, List.map_cons, List.map_map, Nat.add_zero,
    Nat.mod_eq_of_lt h]
  congr 1
  apply List.map_congr_left
  intro i _
  have hmod : (start + (i + 1)) % n = (next n start + i) % n := by
    rw [next_eq_mod h, Nat.mod_add_mod, Nat.add_right_comm, Nat.add_assoc]
  simp only [Function.comp, Nat.succ_eq_add_one, hmod]

/-- Two offsets below `n` name different cells. -/
lemma add_mod_ne {i k : ℕ} (hi : i < k) (hk : k < n) : (start + i) % n ≠ (start + k) % n := by
  intro heq
  have hmod : i % n = k % n := Nat.ModEq.add_left_cancel' start heq
  rw [Nat.mod_eq_of_lt (hi.trans hk), Nat.mod_eq_of_lt hk] at hmod
  exact absurd hmod hi.ne

/-- Writing the cell just behind a window leaves the window as it was. -/
lemma window_update (f : ℕ → α) {k : ℕ} (hk : k < n) (a : α) :
    window (Function.update f ((start + k) % n) a) n start k = window f n start k := by
  apply List.map_congr_left
  intro i hi
  exact Function.update_of_ne (add_mod_ne (List.mem_range.mp hi) hk) _ _

/-- Writing the cell just behind a window and taking it in appends the value. -/
lemma window_update_succ (f : ℕ → α) {k : ℕ} (hk : k < n) (a : α) :
    window (Function.update f ((start + k) % n) a) n start (k + 1)
      = window f n start k ++ [a] := by
  rw [window_succ_last, window_update f hk, Function.update_self]

end CircularWindow
