import Mathlib.Data.List.Basic

/-!
# NOR flash

A memory of bytes that is erased in blocks, to ones, and programmed by clearing bits.

* `erase`, `program`, `read` — the three operations.
* `erase_of_ne`, `program_of_lt`, `program_of_le` — what they leave alone.
* `program_at`, `program_of_erased` — what programming leaves in the cells, and in erased ones.
* `read_eq_iff`, `read_congr` — what is read is what the cells hold.
-/

namespace NorFlash

/-- The byte in each cell. -/
abbrev Memory := ℕ → UInt8

/-- The block of `size` cells around the address is erased. -/
def erase (size addr : ℕ) (mem : Memory) : Memory :=
  fun x => if x / size = addr / size then 0xFF else mem x

/-- Bits are cleared where the bytes have zeros. -/
def program (addr : ℕ) (bytes : List UInt8) (mem : Memory) : Memory :=
  fun x => if addr ≤ x then mem x &&& bytes.getD (x - addr) 0xFF else mem x

/-- The bytes of `count` cells. -/
def read (mem : Memory) (addr count : ℕ) : List UInt8 :=
  (List.range count).map fun i => mem (addr + i)

variable {mem mem' : Memory} {size addr count x i : ℕ} {bytes : List UInt8}

lemma erase_of_eq (h : x / size = addr / size) : erase size addr mem x = 0xFF := if_pos h

lemma erase_of_ne (h : x / size ≠ addr / size) : erase size addr mem x = mem x := if_neg h

lemma program_of_lt (h : x < addr) : program addr bytes mem x = mem x :=
  if_neg (Nat.not_le.mpr h)

lemma program_of_le (h : addr + bytes.length ≤ x) : program addr bytes mem x = mem x := by
  have hout : bytes.getD (x - addr) 0xFF = 0xFF := by
    rw [List.getD_eq_getElem?_getD, List.getElem?_eq_none (by omega), Option.getD_none]
  rw [program, if_pos (by omega), hout]
  exact UInt8.and_neg_one

lemma program_at (hi : i < bytes.length) :
    program addr bytes mem (addr + i) = mem (addr + i) &&& bytes[i] := by
  rw [program, if_pos (Nat.le_add_right addr i), Nat.add_sub_cancel_left,
    List.getD_eq_getElem?_getD, List.getElem?_eq_getElem hi, Option.getD_some]

lemma program_of_erased (h : mem (addr + i) = 0xFF) (hi : i < bytes.length) :
    program addr bytes mem (addr + i) = bytes[i] := by
  rw [program_at hi, h]
  exact UInt8.neg_one_and

@[simp] lemma length_read (mem : Memory) (addr count : ℕ) : (read mem addr count).length = count := by
  simp [read]

lemma getElem?_read (h : i < count) : (read mem addr count)[i]? = some (mem (addr + i)) := by
  simp [read, h]

lemma getD_read (h : i < count) (d : UInt8) : (read mem addr count).getD i d = mem (addr + i) := by
  rw [List.getD_eq_getElem?_getD, getElem?_read h, Option.getD_some]

lemma read_add (mem : Memory) (addr m n : ℕ) :
    read mem addr (m + n) = read mem addr m ++ read mem (addr + m) n := by
  simp only [read, List.range_add, List.map_append, List.map_map, Function.comp_def, Nat.add_assoc]

lemma read_congr (h : ∀ i < count, mem (addr + i) = mem' (addr + i)) :
    read mem addr count = read mem' addr count :=
  List.map_congr_left fun i hi => h i (List.mem_range.mp hi)

lemma read_eq_iff : read mem addr bytes.length = bytes ↔
    ∀ i (hi : i < bytes.length), mem (addr + i) = bytes[i] := by
  constructor
  · intro h i hi
    have hcell : (read mem addr bytes.length)[i]? = some bytes[i] := by
      rw [h, List.getElem?_eq_getElem hi]
    rw [getElem?_read hi] at hcell
    exact Option.some.inj hcell
  · intro h
    refine List.ext_getElem? fun i => ?_
    rcases Nat.lt_or_ge i bytes.length with hi | hi
    · rw [getElem?_read hi, h i hi, List.getElem?_eq_getElem hi]
    · rw [List.getElem?_eq_none (by rwa [length_read]), List.getElem?_eq_none hi]

end NorFlash
