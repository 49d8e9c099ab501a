import Mathlib.Data.Nat.Bitwise
import Mathlib.Data.Nat.Digits.Defs

/-!
# Bit streams

Cells of `w` bits hold a stream of bits, lowest bit of a cell first.

* `bitAt` — a bit of the stream.
* **`testBit_window`** — the end of one cell and the beginning of the next, put together, are the
  bits of the stream from there on: this is how a stream moves to cells of another width.
* `testBit_ofDigits` — a list of cells as one number.
-/

namespace BitStream

/-- Bit `m` of the stream that cells of `w` bits hold. -/
def bitAt (w : ℕ) (cell : ℕ → ℕ) (m : ℕ) : Bool := (cell (m / w)).testBit (m % w)

variable {w : ℕ} {cell : ℕ → ℕ}

lemma bitAt_mul_add {i j : ℕ} (hj : j < w) : bitAt w cell (w * i + j) = (cell i).testBit j := by
  have hw : 0 < w := by omega
  simp [bitAt, Nat.mul_add_div hw, Nat.div_eq_of_lt hj, Nat.mod_eq_of_lt hj]

lemma bitAt_eq_false {m : ℕ} (h : cell (m / w) = 0) : bitAt w cell m = false := by
  simp [bitAt, h]

/-- **The bits from bit `r` of cell `i` on**, as long as they lie in that cell and the next. -/
theorem testBit_window (hcell : ∀ i, cell i < 2 ^ w) {i r j : ℕ} (hr : r < w) (hj : r + j < 2 * w) :
    (cell i >>> r ||| cell (i + 1) <<< (w - r)).testBit j = bitAt w cell (w * i + (r + j)) := by
  rw [Nat.testBit_or, Nat.testBit_shiftRight, Nat.testBit_shiftLeft]
  by_cases h : r + j < w
  · have hlow : ¬ w - r ≤ j := by omega
    rw [bitAt_mul_add h]
    simp [hlow]
  · have hhigh : w - r ≤ j := by omega
    have hpast : (cell i).testBit (r + j) = false :=
      Nat.testBit_lt_two_pow (lt_of_lt_of_le (hcell i) (Nat.pow_le_pow_right (by omega) (by omega)))
    have hpos : w * i + (r + j) = w * (i + 1) + (j - (w - r)) := by
      rw [Nat.mul_add, Nat.mul_one]
      omega
    rw [hpos, bitAt_mul_add (by omega)]
    simp [hpast, hhigh]

/-- Digits of `w` bits, lowest digit first, are the bits of the number. -/
lemma testBit_ofDigits {cells : List ℕ} (hcells : ∀ c ∈ cells, c < 2 ^ w) (k : ℕ) {j : ℕ} (hj : j < w) :
    (Nat.ofDigits (2 ^ w) cells).testBit (w * k + j) = (cells.getD k 0).testBit j := by
  induction cells generalizing k with
  | nil => simp
  | cons c cells ih =>
      rw [Nat.ofDigits_cons, Nat.add_comm,
        Nat.testBit_two_pow_mul_add _ (hcells c List.mem_cons_self)]
      cases k with
      | zero => simp [hj]
      | succ k =>
          have hrest := ih (fun d hd => hcells d (List.mem_cons_of_mem c hd)) k
          have hpos : w * (k + 1) + j - w = w * k + j := by
            rw [Nat.mul_succ]
            omega
          rw [if_neg (by rw [Nat.mul_succ]; omega), hpos, hrest, List.getD_cons_succ]

end BitStream
