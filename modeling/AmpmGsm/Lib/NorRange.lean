import AmpmGsm.Lib.NorFlash
import Mathlib.Algebra.Group.Nat.Defs
import Mathlib.Tactic.SplitIfs

/-!
# Writing a range of a NOR flash

A range of cells is written by erasing the blocks that begin in it, and programming.  What a block
holds before the range is kept, and so is whatever a block that was entered in its middle had there:
the bytes are stored only if those cells take them.

* `blankBlocks`, `writeRange` — the cells after the range was written.
* `writeRange_append` — the range may be written piece by piece.
* `writeRange_before`, `writeRange_outside` — what is left alone.
* `RangeTakes`, `rangeTakes_iff` — when the cells hold the bytes afterwards.
-/

namespace NorFlash

/-- The blocks that begin in the range are erased. -/
def blankBlocks (size addr count : ℕ) (mem : Memory) : Memory :=
  fun x => if addr ≤ x / size * size ∧ x / size * size < addr + count then 0xFF else mem x

/-- The blocks that begin in the range are erased, and the bytes are programmed. -/
def writeRange (size addr : ℕ) (bytes : List UInt8) (mem : Memory) : Memory :=
  program addr bytes (blankBlocks size addr bytes.length mem)

/-- The bytes are in the cells after the range was written. -/
def RangeTakes (size addr : ℕ) (bytes : List UInt8) (mem : Memory) : Prop :=
  read (writeRange size addr bytes mem) addr bytes.length = bytes

variable {size addr count x : ℕ} {bytes xs ys : List UInt8} {mem : Memory}

lemma blankBlocks_of_lt (h : x < addr) : blankBlocks size addr count mem x = mem x :=
  if_neg fun hblank =>
    Nat.not_le.mpr h (Nat.le_trans hblank.1 (Nat.div_mul_le_self x size))

lemma blankBlocks_zero : blankBlocks size addr 0 mem = mem :=
  funext fun _ => if_neg fun hblank => Nat.not_lt.mpr hblank.1 hblank.2

/-- A range inside a block erases that block if it begins there, and otherwise nothing. -/
lemma blankBlocks_within (hpos : 0 < count) (hfit : addr % size + count ≤ size) :
    blankBlocks size addr count mem = if addr % size = 0 then erase size addr mem else mem := by
  have hsize : 0 < size := by omega
  have hblock : addr / size * size + addr % size = addr := Nat.div_add_mod' addr size
  funext x
  have hstart : addr ≤ x / size * size ∧ x / size * size < addr + count ↔
      addr % size = 0 ∧ x / size = addr / size := by
    constructor
    · rintro ⟨hle, hlt⟩
      have hge : addr / size ≤ x / size :=
        Nat.le_of_mul_le_mul_right (Nat.le_trans (Nat.div_mul_le_self addr size) hle) hsize
      have hle' : x / size < addr / size + 1 := by
        refine Nat.lt_of_mul_lt_mul_right (a := size) ?_
        rw [Nat.succ_mul]
        omega
      have heq : x / size = addr / size := by omega
      rw [heq] at hle
      exact ⟨by omega, heq⟩
    · rintro ⟨hzero, heq⟩
      rw [heq]
      omega
  rw [blankBlocks, if_congr hstart rfl rfl]
  by_cases hzero : addr % size = 0
  · simp only [hzero, true_and, if_true]
    rfl
  · simp only [hzero, false_and, if_false]

lemma program_nil (addr : ℕ) (mem : Memory) : program addr [] mem = mem :=
  funext fun x => by
    rcases Nat.lt_or_ge x addr with hx | hx
    · exact program_of_lt hx
    · exact program_of_le hx

lemma writeRange_nil (size addr : ℕ) (mem : Memory) : writeRange size addr [] mem = mem := by
  rw [writeRange, program_nil]
  exact blankBlocks_zero

/-- A range inside a block. -/
lemma writeRange_within (hne : bytes ≠ []) (hfit : addr % size + bytes.length ≤ size) :
    writeRange size addr bytes mem =
      program addr bytes (if addr % size = 0 then erase size addr mem else mem) := by
  rw [writeRange, blankBlocks_within (List.length_pos_iff.mpr hne) hfit]

/-- **Before the range nothing changes.** -/
lemma writeRange_before (h : x < addr) : writeRange size addr bytes mem x = mem x := by
  rw [writeRange, program_of_lt h, blankBlocks_of_lt h]

/-- **Outside the blocks of the range nothing changes.** -/
lemma writeRange_outside (hsize : 0 < size)
    (h : ∀ i < bytes.length, x / size ≠ (addr + i) / size) :
    writeRange size addr bytes mem x = mem x := by
  have hle : x / size * size ≤ x := Nat.div_mul_le_self x size
  have hblank : blankBlocks size addr bytes.length mem x = mem x := by
    refine if_neg fun hstart => ?_
    obtain ⟨i, hi⟩ := Nat.exists_eq_add_of_le hstart.1
    refine h i (by omega) ?_
    rw [← hi, Nat.mul_div_cancel _ hsize]
  rcases Nat.lt_or_ge x addr with hx | hx
  · exact writeRange_before hx
  · rcases Nat.lt_or_ge x (addr + bytes.length) with hlt | hge
    · obtain ⟨i, rfl⟩ := Nat.exists_eq_add_of_le hx
      exact absurd rfl (h i (by omega))
    · rw [writeRange, program_of_le hge, hblank]

/-- A cell behind the first piece keeps what it had, or is erased. -/
private lemma writeRange_behind (h : addr + bytes.length ≤ x) :
    writeRange size addr bytes mem x = blankBlocks size addr bytes.length mem x :=
  program_of_le h

/-- **Piece by piece.**  A block that begins in the second piece does not reach back into the
first. -/
theorem writeRange_append (size addr : ℕ) (xs ys : List UInt8) (mem : Memory) :
    writeRange size (addr + xs.length) ys (writeRange size addr xs mem) =
      writeRange size addr (xs ++ ys) mem := by
  funext x
  have hle : x / size * size ≤ x := Nat.div_mul_le_self x size
  rcases Nat.lt_or_ge x addr with hx | hx
  · rw [writeRange_before (by omega), writeRange_before hx, writeRange_before hx]
  · obtain ⟨i, rfl⟩ := Nat.exists_eq_add_of_le hx
    rcases Nat.lt_or_ge i xs.length with hi | hi
    · rw [writeRange_before (by omega), writeRange, writeRange, program_at hi,
        program_at (by rw [List.length_append]; omega), List.getElem_append_left hi]
      congr 1
      refine if_congr ?_ rfl rfl
      rw [List.length_append]
      omega
    · obtain ⟨j, rfl⟩ := Nat.exists_eq_add_of_le hi
      -- behind the first piece: what the second finds there does not matter where it erases
      have hblank : blankBlocks size (addr + xs.length) ys.length (writeRange size addr xs mem)
          (addr + (xs.length + j)) =
          blankBlocks size addr (xs ++ ys).length mem (addr + (xs.length + j)) := by
        rw [blankBlocks, writeRange_behind (by omega)]
        unfold blankBlocks
        rw [List.length_append]
        split_ifs <;> first | rfl | omega
      rw [← Nat.add_assoc] at hblank ⊢
      rcases Nat.lt_or_ge j ys.length with hj | hj
      · rw [writeRange, program_at hj, hblank, Nat.add_assoc, writeRange,
          program_at (by rw [List.length_append]; omega), List.getElem_append_right (by omega)]
        simp only [Nat.add_sub_cancel_left]
      · rw [writeRange, program_of_le (by omega), hblank, writeRange,
          program_of_le (by rw [List.length_append]; omega)]

lemma rangeTakes_nil : RangeTakes size addr [] mem := rfl

/-- The second piece does not change what the first one has stored. -/
lemma rangeTakes_append : RangeTakes size addr (xs ++ ys) mem ↔
    RangeTakes size addr xs mem ∧
      RangeTakes size (addr + xs.length) ys (writeRange size addr xs mem) := by
  have hfirst : read (writeRange size (addr + xs.length) ys (writeRange size addr xs mem)) addr
      xs.length = read (writeRange size addr xs mem) addr xs.length :=
    read_congr fun i hi => writeRange_before (by omega)
  unfold RangeTakes
  rw [← writeRange_append, List.length_append, read_add, hfirst]
  constructor
  · intro h
    exact List.append_inj h (length_read _ _ _)
  · rintro ⟨hxs, hys⟩
    rw [hxs, hys]

/-- **The cells hold the bytes afterwards** if those in front of the first block that is erased have
a one wherever the byte has. -/
theorem rangeTakes_iff (hsize : 0 < size) : RangeTakes size addr bytes mem ↔
    ∀ i (hi : i < bytes.length), addr % size ≠ 0 → addr % size + i < size →
      mem (addr + i) &&& bytes[i] = bytes[i] := by
  have hblock : addr / size * size + addr % size = addr := Nat.div_add_mod' addr size
  have hmod : addr % size < size := Nat.mod_lt addr hsize
  rw [RangeTakes, read_eq_iff]
  refine forall₂_congr fun i hi => ?_
  rw [writeRange, program_at hi]
  have hbegin : addr ≤ (addr + i) / size * size ∧
      (addr + i) / size * size < addr + bytes.length ↔
        (addr % size ≠ 0 → size ≤ addr % size + i) := by
    have hle : (addr + i) / size * size ≤ addr + i := Nat.div_mul_le_self _ size
    constructor
    · rintro ⟨hstart, -⟩ hne
      by_contra hlt
      have hsame : (addr + i) / size = addr / size := by
        refine Nat.div_eq_of_lt_le (by omega) ?_
        rw [Nat.succ_mul]
        omega
      rw [hsame] at hstart
      omega
    · intro hnext
      refine ⟨?_, by omega⟩
      by_cases hzero : addr % size = 0
      · have hdiv : addr / size ≤ (addr + i) / size := Nat.div_le_div_right (Nat.le_add_right _ _)
        have := Nat.mul_le_mul_right size hdiv
        omega
      · have hdiv : addr / size + 1 ≤ (addr + i) / size := by
          rw [Nat.le_div_iff_mul_le hsize, Nat.succ_mul]
          have := hnext hzero
          omega
        have := Nat.mul_le_mul_right size hdiv
        rw [Nat.succ_mul] at this
        omega
  rw [blankBlocks, if_congr hbegin rfl rfl]
  by_cases hblank : addr % size ≠ 0 → size ≤ addr % size + i
  · rw [if_pos hblank]
    refine iff_of_true UInt8.neg_one_and fun hne hlt => ?_
    exact absurd (hblank hne) (Nat.not_le.mpr hlt)
  · rw [if_neg hblank]
    obtain ⟨hne, hlt⟩ := Classical.not_imp.mp hblank
    rw [imp_iff_right hne, imp_iff_right (Nat.not_le.mp hlt)]

end NorFlash
