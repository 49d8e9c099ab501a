import Mathlib.Algebra.Group.Nat.Defs
import Mathlib.Data.Nat.Notation

/-!
# A line cut into blocks

Blocks of given sizes stand one behind the other, as years and months on the line of days.  A
position on the line is a block and an offset in it.

* `before` — where a block starts.
* `countOff` — the loop that takes one block after the other off a position.
* `countOff_before` — it finds the block and the offset.
* `exists_block_of_lt` — every position is in a block.
* `before_mono` — the starts of the blocks are in order.
-/

namespace Blocks

/-- The start of a block: the sizes of those before it. -/
def before (size : ℕ → ℕ) : ℕ → ℕ
  | 0 => 0
  | k + 1 => before size k + size k

/-- `while (n >= size) { n -= size; next block }`, from the block `k` on. -/
def countOff (size : ℕ → ℕ) : ℕ → ℕ → ℕ → ℕ × ℕ
  | 0, k, n => (k, n)
  | fuel + 1, k, n => if n ≥ size k then countOff size fuel (k + 1) (n - size k) else (k, n)

variable {size : ℕ → ℕ}

lemma before_mono {j k : ℕ} (h : j ≤ k) : before size j ≤ before size k := by
  induction k with
  | zero => exact Nat.le_zero.mp h ▸ Nat.le_refl _
  | succ k ih =>
      rcases Nat.lt_or_ge j (k + 1) with hlt | hge
      · exact Nat.le_trans (ih (Nat.le_of_lt_succ hlt)) (Nat.le_add_right _ _)
      · exact Nat.le_antisymm h hge ▸ Nat.le_refl _

/-- The first block comes before the others. -/
lemma before_succ (size : ℕ → ℕ) (i k : ℕ) :
    before (fun j => size (i + j)) (k + 1) = size i + before (fun j => size (i + 1 + j)) k := by
  induction k with
  | zero => exact Nat.zero_add (size i)
  | succ k ih =>
      rw [before, ih, before, Nat.add_assoc, Nat.add_right_comm i 1 k, Nat.add_assoc i k 1]

/-- **The loop finds the block and the offset.**  It starts with the block `i`. -/
lemma countOff_before (size : ℕ → ℕ) {n : ℕ} : ∀ {fuel k : ℕ} (i : ℕ), n < size (i + k) →
    k ≤ fuel → countOff size fuel i (before (fun j => size (i + j)) k + n) = (i + k, n)
  | 0, k, i, hn, hk => by
      obtain rfl := Nat.le_zero.mp hk
      rw [before, Nat.zero_add]
      rfl
  | fuel + 1, 0, i, hn, _ => by
      have hin : ¬n ≥ size i := Nat.not_le_of_lt hn
      rw [before, Nat.zero_add, countOff, if_neg hin]
      rfl
  | fuel + 1, k + 1, i, hn, hk => by
      have hplace : i + 1 + k = i + (k + 1) := by omega
      have hrest : size i + before (fun j => size (i + 1 + j)) k + n - size i
          = before (fun j => size (i + 1 + j)) k + n := by omega
      rw [before_succ, countOff, if_pos (by omega), hrest,
        countOff_before size (i + 1) (hplace ▸ hn) (Nat.le_of_succ_le_succ hk), hplace]

/-- A position before the start of a block is in a block before it. -/
lemma exists_block_of_lt {m : ℕ} : ∀ {k : ℕ}, m < before size k →
    ∃ j < k, ∃ n < size j, m = before size j + n
  | 0, h => absurd h (Nat.not_lt_zero m)
  | k + 1, h => by
      rcases Nat.lt_or_ge m (before size k) with hlt | hge
      · obtain ⟨j, hj, n, hn, hm⟩ := exists_block_of_lt hlt
        exact ⟨j, Nat.lt_succ_of_lt hj, n, hn, hm⟩
      · rw [before] at h
        exact ⟨k, Nat.lt_succ_self k, m - before size k, by omega, by omega⟩

end Blocks
