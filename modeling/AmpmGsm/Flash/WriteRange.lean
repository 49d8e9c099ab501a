import AmpmGsm.Flash.Sst25
import AmpmGsm.Lib.NorRange
import Mathlib.Logic.Basic

/-!
# Writing any number of bytes

`SST25_Write` and `SST25_Read` for a count that is not limited to a page: the pieces of 256 bytes,
the erase in front of each block, and the count that is cut to 16 bits.

* `sst25WriteBlocks_range` — a piece, whether or not it goes on into the next block.
* `sst25WriteLoop_range` — all pieces.
* `StoresRange`, `WriteKept` — what a write promises if it returns `SST25_OK`.
* `sst25Write_writeKept_iff` — when it keeps that promise.
-/

namespace Ampm

open NorFlash

section Pieces

variable {f : Flash} {addr : ℕ} {buf : List UInt8}

/-- **A piece.**  The first part goes up to the end of the block, the second into a block that was
erased for it. -/
lemma sst25WriteBlocks_range (hne : buf ≠ []) (hlen : buf.length ≤ 256)
    (hdev : addr + buf.length ≤ 2 ^ 24) :
    (sst25WriteBlocks f addr buf).mem = writeRange 4096 addr buf f.mem := by
  have hpos : 0 < buf.length := List.length_pos_iff.mpr hne
  have haddr : devAddr addr = addr := Nat.mod_eq_of_lt (by omega)
  have hfirst : (if addr % 4096 = 0 then sst25Erase f addr else f).mem =
      if addr % 4096 = 0 then erase 4096 addr f.mem else f.mem := by
    split_ifs
    · rw [sst25Erase, haddr]
    · rfl
  rcases Nat.lt_or_ge 4096 (addr % 4096 + buf.length) with hover | hfit
  · have hcount1 : (addr + buf.length) % 2 ^ 32 % 4096 ≠ 0 := by omega
    have hcount : buf.length - (addr + buf.length) % 2 ^ 32 % 4096 = 4096 - addr % 4096 := by omega
    have htake : (buf.take (4096 - addr % 4096)).length = 4096 - addr % 4096 := by
      rw [List.length_take]
      omega
    have hdrop : (buf.drop (4096 - addr % 4096)).length = buf.length - (4096 - addr % 4096) :=
      List.length_drop
    have hnext : (addr + (4096 - addr % 4096)) % 2 ^ 32 = addr + (4096 - addr % 4096) :=
      Nat.mod_eq_of_lt (by omega)
    have hdevNext : devAddr (addr + (4096 - addr % 4096)) = addr + (4096 - addr % 4096) :=
      Nat.mod_eq_of_lt (by omega)
    have hbegin : (addr + (4096 - addr % 4096)) % 4096 = 0 := by omega
    have hblocks : writeRange 4096 addr buf f.mem =
        writeRange 4096 (addr + (buf.take (4096 - addr % 4096)).length)
          (buf.drop (4096 - addr % 4096))
          (writeRange 4096 addr (buf.take (4096 - addr % 4096)) f.mem) := by
      rw [writeRange_append, List.take_append_drop]
    rw [hblocks, htake, writeRange_within (List.ne_nil_of_length_pos (by omega)) (by omega),
      writeRange_within (List.ne_nil_of_length_pos (by omega)) (by omega), if_pos hbegin, ← hfirst]
    simp only [sst25WriteBlocks, if_pos hover, if_pos hcount1, hcount, hnext, sst25Program,
      sst25Erase, hdevNext, haddr]
  · rw [writeRange_within hne hfit, ← hfirst]
    simp only [sst25WriteBlocks, if_neg (Nat.not_lt.mpr hfit), ne_eq, not_true, if_false,
      Nat.sub_zero, List.take_length, sst25Program, haddr]

lemma sst25WriteChecked_mem (hne : buf ≠ []) (hlen : buf.length ≤ 256)
    (hdev : addr + buf.length ≤ 2 ^ 24) :
    (sst25WriteChecked f addr buf).2.mem = writeRange 4096 addr buf f.mem :=
  sst25WriteBlocks_range hne hlen hdev

/-- The comparison after a piece. -/
lemma sst25WriteChecked_ok (hne : buf ≠ []) (hlen : buf.length ≤ 256)
    (hdev : addr + buf.length ≤ 2 ^ 24) :
    (sst25WriteChecked f addr buf).1 = true ↔ RangeTakes 4096 addr buf f.mem := by
  have hpos : 0 < buf.length := List.length_pos_iff.mpr hne
  have haddr : devAddr addr = addr := Nat.mod_eq_of_lt (by omega)
  rw [RangeTakes, ← sst25WriteBlocks_range (f := f) hne hlen hdev]
  simp only [sst25WriteChecked, sst25ReadBytes, haddr, decide_eq_true_eq]

lemma sst25WriteLoop_nil (fuel : ℕ) (f : Flash) (addr : ℕ) :
    sst25WriteLoop fuel f addr [] = (true, f) := by
  cases fuel <;> rfl

/-- **All pieces.**  By induction on the pieces: an erase for one of them does not reach back into
those before. -/
lemma sst25WriteLoop_range :
    ∀ (fuel : ℕ) (f : Flash) (addr : ℕ) (buf : List UInt8), buf.length ≤ fuel →
      addr + buf.length ≤ 2 ^ 24 →
      ((sst25WriteLoop fuel f addr buf).1 = true ↔ RangeTakes 4096 addr buf f.mem) ∧
        ((sst25WriteLoop fuel f addr buf).1 = true →
          (sst25WriteLoop fuel f addr buf).2.mem = writeRange 4096 addr buf f.mem)
  | 0, f, addr, buf, hfuel, _ => by
      obtain rfl : buf = [] := List.length_eq_zero_iff.mp (Nat.le_zero.mp hfuel)
      exact ⟨iff_of_true rfl rangeTakes_nil, fun _ => (writeRange_nil 4096 addr f.mem).symm⟩
  | fuel + 1, f, addr, buf, hfuel, hdev => by
      by_cases hne : buf = []
      · subst hne
        rw [sst25WriteLoop_nil]
        exact ⟨iff_of_true rfl rangeTakes_nil, fun _ => (writeRange_nil 4096 addr f.mem).symm⟩
      · have hpos : 0 < buf.length := List.length_pos_iff.mpr hne
        have hlen : (buf.take 256).length = min 256 buf.length := List.length_take
        have hpiece : buf.take 256 ≠ [] := List.ne_nil_of_length_pos (by omega)
        have hok := sst25WriteChecked_ok (f := f) hpiece (by omega)
          (show addr + (buf.take 256).length ≤ 2 ^ 24 by omega)
        have hmem := sst25WriteChecked_mem (f := f) hpiece (by omega)
          (show addr + (buf.take 256).length ≤ 2 ^ 24 by omega)
        have htakes : RangeTakes 4096 addr buf f.mem ↔ RangeTakes 4096 addr (buf.take 256) f.mem ∧
            RangeTakes 4096 (addr + (buf.take 256).length) (buf.drop 256)
              (writeRange 4096 addr (buf.take 256) f.mem) := by
          rw [← rangeTakes_append, List.take_append_drop]
        have hrange : writeRange 4096 addr buf f.mem =
            writeRange 4096 (addr + (buf.take 256).length) (buf.drop 256)
              (writeRange 4096 addr (buf.take 256) f.mem) := by
          rw [writeRange_append, List.take_append_drop]
        rw [sst25WriteLoop, if_neg hne, htakes, hrange, ← hmem, ← hok]
        by_cases hfirst : (sst25WriteChecked f addr (buf.take 256)).1 = true
        · simp only [hfirst, if_true, true_and]
          rcases Nat.lt_or_ge buf.length 256 with hlast | hmore
          · have hrest : buf.drop 256 = [] := List.drop_eq_nil_of_le (Nat.le_of_lt hlast)
            rw [hrest, sst25WriteLoop_nil, writeRange_nil]
            exact ⟨iff_of_true rfl rangeTakes_nil, fun _ => rfl⟩
          · have hnext : (addr + 256) % 2 ^ 32 = addr + (buf.take 256).length := by omega
            rw [hnext]
            refine sst25WriteLoop_range fuel _ _ _ ?_ ?_ <;> rw [List.length_drop] <;> omega
        · simp only [hfirst, if_false, false_and, Bool.false_eq_true]
          exact ⟨trivial, False.elim⟩

/-- The bytes that are left of the count when it is cut. -/
lemma sst25WriteInTime_range (f : Flash) {addr : ℕ} {buf : List UInt8}
    (hpos : 0 < buf.length % 2 ^ 16) (hdev : addr + buf.length ≤ 2 ^ 24) :
    ((sst25WriteInTime f addr buf).1 = true ↔
      RangeTakes 4096 addr (buf.take (buf.length % 2 ^ 16)) f.mem) ∧
      ((sst25WriteInTime f addr buf).1 = true → (sst25WriteInTime f addr buf).2.mem =
        writeRange 4096 addr (buf.take (buf.length % 2 ^ 16)) f.mem) := by
  have hle : buf.length % 2 ^ 16 ≤ buf.length := Nat.mod_le _ _
  have hlen : (buf.take (buf.length % 2 ^ 16)).length = buf.length % 2 ^ 16 := by
    rw [List.length_take, Nat.min_eq_left hle]
  rw [sst25WriteInTime]
  split_ifs with hpage
  · have hne : buf.take (buf.length % 2 ^ 16) ≠ [] := List.ne_nil_of_length_pos (by omega)
    exact ⟨sst25WriteChecked_ok hne (by omega) (by omega),
      fun _ => sst25WriteChecked_mem hne (by omega) (by omega)⟩
  · exact sst25WriteLoop_range _ f addr _ (Nat.le_of_eq hlen) (by omega)

/-- A count that is cut to zero erases the block that begins at the address. -/
lemma sst25WriteInTime_zero (f : Flash) (addr : ℕ) {buf : List UInt8}
    (hzero : buf.length % 2 ^ 16 = 0) :
    (sst25WriteInTime f addr buf).1 = true ∧ (sst25WriteInTime f addr buf).2.mem =
      if addr % 4096 = 0 then erase 4096 (devAddr addr) f.mem else f.mem := by
  have hfit : ¬ addr % 4096 + 0 > 4096 := by omega
  simp only [sst25WriteInTime, hzero, Nat.zero_le, if_true, List.take_zero, sst25WriteChecked,
    sst25ReadBytes, sst25WriteBlocks, List.length_nil, if_neg hfit, ne_eq, not_true, if_false,
    Nat.sub_zero, sst25Program, program_nil]
  refine ⟨rfl, ?_⟩
  split_ifs <;> rfl

end Pieces

/-! ## What is promised -/

/-- The cells of the range hold the bytes, the blocks that the range does not meet and what is in
front of it are as they were, and reading the range gives the bytes. -/
structure StoresRange (mem : Memory) (addr : ℕ) (buf : List UInt8) (f : Flash) : Prop where
  stored : ∀ i (hi : i < buf.length), f.mem (addr + i) = buf[i]
  outside : ∀ x, (∀ i < buf.length, x / 4096 ≠ (addr + i) / 4096) → f.mem x = mem x
  before : ∀ x < addr, x / 4096 = addr / 4096 → f.mem x = mem x
  readBack : (sst25Read f addr buf.length).1 = buf

/-- If `SST25_Write` returns `SST25_OK`, the range was written. -/
def WriteKept (f : Flash) (addr : ℕ) (buf : List UInt8) : Prop :=
  (sst25Write f addr buf).1 = true → StoresRange f.mem addr buf (sst25Write f addr buf).2

/-- The cells in front of the first block that is erased have a one wherever the byte for them
has. -/
def HeadTakes (mem : Memory) (addr : ℕ) (bytes : List UInt8) : Prop :=
  ∀ i (hi : i < bytes.length), addr % 4096 ≠ 0 → addr % 4096 + i < 4096 →
    mem (addr + i) &&& bytes[i] = bytes[i]

section Promise

variable {f : Flash} {addr : ℕ} {buf : List UInt8}

lemma sst25Write_of_fault {mem : Memory} (h : f.fault f.writes = some mem) :
    (sst25Write f addr buf).1 = false := by
  rw [sst25Write, h]

lemma sst25Write_of_noFault (h : f.fault f.writes = none) :
    sst25Write f addr buf = sst25WriteInTime { f with writes := f.writes + 1 } addr buf := by
  rw [sst25Write, h]

lemma length_sst25ReadLoop_le :
    ∀ (fuel : ℕ) (f : Flash) (addr cnt : ℕ), (sst25ReadLoop fuel f addr cnt).1.length ≤ cnt
  | 0, _, _, _ => Nat.zero_le _
  | fuel + 1, f, addr, cnt => by
      rw [sst25ReadLoop]
      split_ifs with hcnt
      · exact Nat.zero_le _
      · have hrest := length_sst25ReadLoop_le fuel (sst25ReadBytes f addr (min cnt 512)).2
          ((addr + 512) % 2 ^ 32) (cnt - 512)
        have hpiece : (sst25ReadBytes f addr (min cnt 512)).1.length = min cnt 512 :=
          length_read _ _ _
        rw [List.length_append, hpiece]
        omega

/-- No more is read than the count that is left of it. -/
lemma length_sst25Read_le (f : Flash) (addr count : ℕ) :
    (sst25Read f addr count).1.length ≤ count % 2 ^ 16 := by
  rw [sst25Read]
  split_ifs with hpage
  · exact Nat.le_of_eq (length_read _ _ _)
  · exact length_sst25ReadLoop_le _ _ _ _

/-- A count of more than 16 bits is not read back. -/
lemma not_storesRange_of_long {mem : Memory} (hlong : 2 ^ 16 ≤ buf.length) :
    ¬ StoresRange mem addr buf f := by
  intro h
  have hlen := length_sst25Read_le f addr buf.length
  rw [h.readBack] at hlen
  omega

/-- A range of fewer than 65536 bytes. -/
lemma writeKept_of_short (hpos : 0 < buf.length) (hshort : buf.length < 2 ^ 16)
    (hdev : addr + buf.length ≤ 2 ^ 24) : WriteKept f addr buf := by
  intro hok
  have hmod : buf.length % 2 ^ 16 = buf.length := Nat.mod_eq_of_lt hshort
  cases hfault : f.fault f.writes with
  | some mem =>
      rw [sst25Write_of_fault hfault] at hok
      exact absurd hok Bool.false_ne_true
  | none =>
      rw [sst25Write_of_noFault hfault] at hok ⊢
      obtain ⟨htakes, hmem⟩ := sst25WriteInTime_range { f with writes := f.writes + 1 }
        (show 0 < buf.length % 2 ^ 16 by omega) hdev
      rw [hmod, List.take_length] at htakes hmem
      have hstored : read (writeRange 4096 addr buf f.mem) addr buf.length = buf := htakes.mp hok
      constructor
      · rw [hmem hok]
        exact read_eq_iff.mp hstored
      · intro x hx
        rw [hmem hok]
        exact writeRange_outside (by decide) hx
      · intro x hx _
        rw [hmem hok]
        exact writeRange_before hx
      · rw [sst25Read_bytes _ hshort hdev (by omega), hmem hok]
        exact hstored

/-- An empty range. -/
lemma writeKept_nil (hfault : f.fault f.writes = none) :
    WriteKept f addr [] ↔ (addr % 4096 = 0 → ∀ x, x / 4096 = devAddr addr / 4096 →
      f.mem x = 0xFF) := by
  obtain ⟨hok, hmem⟩ := sst25WriteInTime_zero { f with writes := f.writes + 1 } addr
    (show ([] : List UInt8).length % 2 ^ 16 = 0 from rfl)
  rw [WriteKept, sst25Write_of_noFault hfault, imp_iff_right hok]
  constructor
  · intro h hbegin x hx
    have hkept := h.outside x fun i hi => absurd hi (Nat.not_lt_zero i)
    rw [hmem, if_pos hbegin, erase_of_eq hx] at hkept
    exact hkept.symm
  · intro h
    have hkept : (sst25WriteInTime { f with writes := f.writes + 1 } addr []).2.mem = f.mem := by
      rw [hmem]
      split_ifs with hbegin
      · funext x
        by_cases hx : x / 4096 = devAddr addr / 4096
        · rw [erase_of_eq hx, h hbegin x hx]
        · exact erase_of_ne hx
      · rfl
    constructor
    · exact fun i hi => absurd hi (Nat.not_lt_zero i)
    · intro x _
      rw [hkept]
    · intro x _ _
      rw [hkept]
    · rfl

/-- A count of more than 16 bits is cut, and what is left of it is written. -/
lemma writeKept_of_long (hfault : f.fault f.writes = none) (hlong : 2 ^ 16 ≤ buf.length)
    (hdev : addr + buf.length ≤ 2 ^ 24) :
    WriteKept f addr buf ↔ ¬ HeadTakes f.mem addr (buf.take (buf.length % 2 ^ 16)) := by
  have hok : (sst25WriteInTime { f with writes := f.writes + 1 } addr buf).1 = true ↔
      HeadTakes f.mem addr (buf.take (buf.length % 2 ^ 16)) := by
    rcases Nat.eq_zero_or_pos (buf.length % 2 ^ 16) with hzero | hpos
    · refine iff_of_true (sst25WriteInTime_zero _ addr hzero).1 ?_
      rw [hzero, List.take_zero]
      exact fun i hi => absurd hi (Nat.not_lt_zero i)
    · rw [(sst25WriteInTime_range _ hpos hdev).1]
      exact rangeTakes_iff (by decide)
  rw [WriteKept, sst25Write_of_noFault hfault, hok]
  exact ⟨fun h htakes => not_storesRange_of_long hlong (h htakes), fun h htakes => absurd htakes h⟩

end Promise

/-- **The promise of `SST25_Write`** for a range of the device.  It is kept for fewer than 65536
bytes; a longer count is cut to 16 bits, and a count of zero at the beginning of a block erases the
block. -/
theorem sst25Write_writeKept_iff (f : Flash) (addr : ℕ) (buf : List UInt8)
    (hdev : addr + buf.length ≤ 2 ^ 24) :
    WriteKept f addr buf ↔
      f.fault f.writes ≠ none ∨
      0 < buf.length ∧ buf.length < 2 ^ 16 ∨
      buf = [] ∧ (addr % 4096 = 0 → ∀ x, x / 4096 = devAddr addr / 4096 → f.mem x = 0xFF) ∨
      2 ^ 16 ≤ buf.length ∧ ¬ HeadTakes f.mem addr (buf.take (buf.length % 2 ^ 16)) := by
  cases hfault : f.fault f.writes with
  | some mem =>
      refine iff_of_true (fun hok => ?_) (Or.inl (Option.some_ne_none mem))
      rw [sst25Write_of_fault hfault] at hok
      exact absurd hok Bool.false_ne_true
  | none =>
      simp only [ne_eq, not_true, false_or]
      rcases Nat.lt_or_ge buf.length (2 ^ 16) with hshort | hlong
      · by_cases hne : buf = []
        · subst hne
          rw [writeKept_nil hfault]
          simp
        · have hpos : 0 < buf.length := List.length_pos_iff.mpr hne
          exact iff_of_true (writeKept_of_short hpos hshort hdev) (Or.inl ⟨hpos, hshort⟩)
      · rw [writeKept_of_long hfault hlong hdev]
        have hne : buf ≠ [] := List.ne_nil_of_length_pos (by omega)
        simp only [Nat.not_lt.mpr hlong, and_false, hne, false_and, false_or, hlong, true_and]

/-- Four bytes across the end of a block. -/
theorem sst25Write_writeKept_four :
    WriteKept ⟨fun _ => 0xFF, fun _ => none, 0, []⟩ 4094 [1, 2, 3, 4] :=
  (sst25Write_writeKept_iff _ 4094 [1, 2, 3, 4] (by decide)).mpr (Or.inr (Or.inl (by decide)))

/-- 65536 bytes into an erased device: none of them is written, and `SST25_OK` is returned. -/
theorem sst25Write_loses :
    ¬ WriteKept ⟨fun _ => 0xFF, fun _ => none, 0, []⟩ 0 (List.replicate (2 ^ 16) 0x55) := by
  have hlen : (List.replicate (2 ^ 16) (0x55 : UInt8)).length = 2 ^ 16 := List.length_replicate
  rw [writeKept_of_long rfl (Nat.le_of_eq hlen.symm) (by rw [hlen]; decide), not_not]
  exact fun i hi hne => absurd rfl hne

end Ampm
