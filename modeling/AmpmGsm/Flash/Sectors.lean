import AmpmGsm.Flash.Reads

/-!
# Writing into a sector

What one `ampm_flash_write` into a sector of the partition does to the cells of the flash.

* `SameSector` — a sector that was left alone, and what follows for what is read there.
* `WroteAt`, `StoredAt` — the cells around the written ones, and the written ones.
* `ampmFlashWrite_written` — what a write does, and what it returns.
* `StoredAt.holdsRecord`, `StoredAt.word_eq` — a record that was stored, and what is read of it.
-/

namespace Ampm

open NorFlash

/-! ## Addresses -/

/-- The address of a sector. -/
def sectorStart (sector : ℕ) : ℕ := 0x92000 + sector * 4096

/-- The sector behind the partition has an address, too. -/
lemma ffAddr_of_le {s off : ℕ} (hs : s ≤ diskSectorMax) (hoff : off < 4096) :
    ffAddr s off = sectorStart s + off := by
  have hmax : diskSectorMax = 110 := rfl
  rw [ffAddr, sectorStart]
  omega

lemma devAddr_ffAddr_of_le {s off : ℕ} (hs : s ≤ diskSectorMax) (hoff : off < 4096) :
    devAddr (ffAddr s off) = sectorStart s + off := by
  have hmax : diskSectorMax = 110 := rfl
  rw [ffAddr_of_le hs hoff, devAddr, sectorStart]
  omega

lemma ffAddr_of_lt {s off : ℕ} (hs : s < diskSectorMax) (hoff : off < 4096) :
    ffAddr s off = sectorStart s + off := ffAddr_of_le (Nat.le_of_lt hs) hoff

lemma devAddr_ffAddr {s off : ℕ} (hs : s < diskSectorMax) (hoff : off < 4096) :
    devAddr (ffAddr s off) = sectorStart s + off := devAddr_ffAddr_of_le (Nat.le_of_lt hs) hoff

lemma ffAddr_mod_of_le {s off : ℕ} (hs : s ≤ diskSectorMax) (hoff : off < 4096) :
    ffAddr s off % 4096 = off := by
  rw [ffAddr_of_le hs hoff, sectorStart]
  omega

/-! ## Sectors that are left alone -/

/-- The cells of the sector are the same. -/
def SameSector (s : ℕ) (mem mem' : Memory) : Prop :=
  ∀ x < 4096, mem' (sectorStart s + x) = mem (sectorStart s + x)

section SameSector

variable {s : ℕ} {mem mem' mem'' : Memory}

lemma SameSector.refl (s : ℕ) (mem : Memory) : SameSector s mem mem := fun _ _ => rfl

lemma SameSector.trans (h : SameSector s mem mem') (h' : SameSector s mem' mem'') :
    SameSector s mem mem'' := fun x hx => (h' x hx).trans (h x hx)

/-- A record is the same if its cells are. -/
lemma filAt_congr_of_le (hs : s ≤ diskSectorMax) {off : ℕ} (hoff : off + sizeofAmpmFil ≤ 4096)
    (h : ∀ k < sizeofAmpmFil, mem' (sectorStart s + (off + k)) = mem (sectorStart s + (off + k))) :
    filAt mem' s off = filAt mem s off := by
  have hlt : off < 4096 := Nat.lt_of_lt_of_le (Nat.lt_add_of_pos_right (by decide)) hoff
  have hcells : cells mem' s off sizeofAmpmFil = cells mem s off sizeofAmpmFil := by
    refine read_congr fun k hk => ?_
    rw [devAddr_ffAddr_of_le hs hlt, Nat.add_assoc]
    exact h k hk
  rw [filAt, filAt, hcells]

lemma filAt_congr (hs : s < diskSectorMax) {off : ℕ} (hoff : off + sizeofAmpmFil ≤ 4096)
    (h : ∀ k < sizeofAmpmFil, mem' (sectorStart s + (off + k)) = mem (sectorStart s + (off + k))) :
    filAt mem' s off = filAt mem s off := filAt_congr_of_le (Nat.le_of_lt hs) hoff h

lemma SameSector.filAt_eq (h : SameSector s mem mem') (hs : s < diskSectorMax) {off : ℕ}
    (hoff : off + sizeofAmpmFil ≤ 4096) : filAt mem' s off = filAt mem s off :=
  filAt_congr hs hoff fun k hk => h _ (by omega)

end SameSector

/-! ## The write -/

/-- What a write of `buf` at `off` of the sector `s` does to the cells that are not written, and to
those that are if they were erased. -/
structure WroteAt (s off : ℕ) (buf : List UInt8) (mem mem' : Memory) : Prop where
  other : ∀ t, t ≠ s → SameSector t mem mem'
  outside : off ≠ 0 → ∀ x < 4096, x < off ∨ off + buf.length ≤ x →
    mem' (sectorStart s + x) = mem (sectorStart s + x)
  erased : off = 0 → ∀ x < 4096, buf.length ≤ x → mem' (sectorStart s + x) = 0xFF
  blank : (∀ i < buf.length, mem (sectorStart s + (off + i)) = 0xFF) →
    ∀ i < buf.length, mem' (sectorStart s + (off + i)) = buf.getD i 0

/-- The bytes are in the sector. -/
def StoredAt (s off : ℕ) (buf : List UInt8) (mem : Memory) : Prop :=
  ∀ i < buf.length, mem (sectorStart s + (off + i)) = buf.getD i 0

lemma pageMem_wroteAt {s off : ℕ} {buf : List UInt8} (mem : Memory) (hs : s ≤ diskSectorMax)
    (hoff : off < 4096) (hfit : off + buf.length ≤ 4096) :
    WroteAt s off buf mem (pageMem mem (ffAddr s off) buf) := by
  have hdev := devAddr_ffAddr_of_le hs hoff
  have hmod := ffAddr_mod_of_le hs hoff
  unfold pageMem
  rw [hdev, hmod]
  refine ⟨fun t ht x hx => ?_, fun hpos x hx hout => ?_, fun hzero x hx hout => ?_,
    fun hblank i hi => ?_⟩
  · have hcell : (if off = 0 then erase 4096 (sectorStart s + off) mem else mem)
        (sectorStart t + x) = mem (sectorStart t + x) := by
      split_ifs with hzero
      · refine erase_of_ne ?_
        rw [sectorStart, sectorStart]
        omega
      · rfl
    rcases Nat.lt_or_gt_of_ne ht with hlt | hgt
    · rw [program_of_lt (by rw [sectorStart, sectorStart]; omega), hcell]
    · rw [program_of_le (by rw [sectorStart, sectorStart]; omega), hcell]
  · rw [if_neg hpos]
    rcases hout with hlt | hge
    · exact program_of_lt (by omega)
    · exact program_of_le (by omega)
  · rw [if_pos hzero, program_of_le (by omega)]
    refine erase_of_eq ?_
    rw [sectorStart]
    omega
  · have hcell : (if off = 0 then erase 4096 (sectorStart s + off) mem else mem)
        (sectorStart s + off + i) = 0xFF := by
      split_ifs with hzero
      · refine erase_of_eq ?_
        rw [sectorStart]
        omega
      · rw [Nat.add_assoc]
        exact hblank i hi
    rw [← Nat.add_assoc, program_of_erased hcell hi, List.getD_eq_getElem?_getD,
      List.getElem?_eq_getElem hi, Option.getD_some]

/-- What a write into a sector leaves, with what it returned. -/
structure FlashWritten (s off : ℕ) (buf : List UInt8) (ff : Ff) (r : AmpmFResult) (ff' : Ff) :
    Prop where
  wroteAt : WroteAt s off buf ff.flash.mem ff'.flash.mem
  stored : r = .frOk → StoredAt s off buf ff'.flash.mem
  faultless : ff'.flash.Faultless
  fileBuf : ff'.fileBuf = ff.fileBuf

/-- The list of found sectors is only extended by the search. -/
lemma ampmFlashWrite_found {ff ff' : Ff} {addr : ℕ} {buf : List UInt8} {r : AmpmFResult}
    (heq : ampmFlashWrite ff addr buf = (r, ff')) : ff'.found = ff.found := by
  obtain ⟨-, rfl⟩ := Prod.mk.inj heq
  rfl

/-- A write into a sector: what is returned tells whether the bytes are there. -/
theorem ampmFlashWrite_written {ff ff' : Ff} {s off : ℕ} {buf : List UInt8} {r : AmpmFResult}
    (heq : ampmFlashWrite ff (ffAddr s off) buf = (r, ff')) (hf : ff.flash.Faultless)
    (hs : s ≤ diskSectorMax) (hlen : buf.length ≤ 256) (hoff : off < 4096)
    (hfit : off + buf.length ≤ 4096) : FlashWritten s off buf ff r ff' := by
  have hin : ffAddr s off % 4096 + buf.length ≤ 4096 := by
    rwa [ffAddr_mod_of_le hs hoff]
  rw [ampmFlashWrite, sst25Write_page hf hlen hin, devAddr_ffAddr_of_le hs hoff] at heq
  obtain ⟨hr, rfl⟩ := Prod.mk.inj heq
  refine ⟨pageMem_wroteAt ff.flash.mem hs hoff hfit, fun hok => ?_, hf, rfl⟩
  have hread : read (pageMem ff.flash.mem (ffAddr s off) buf) (sectorStart s + off) buf.length =
      buf := by
    by_contra hne
    rw [decide_eq_false hne, hok] at hr
    exact AmpmFResult.noConfusion hr
  intro i hi
  rw [← Nat.add_assoc, List.getD_eq_getElem?_getD, List.getElem?_eq_getElem hi, Option.getD_some]
  exact read_eq_iff.mp hread i hi

/-! ## Records -/

lemma length_bytes (fil : AmpmFil) : fil.bytes.length = sizeofAmpmFil := by
  rw [AmpmFil.bytes, List.length_map, List.length_range]

lemma getD_bytes (fil : AmpmFil) {k : ℕ} (hk : k < sizeofAmpmFil) :
    fil.bytes.getD k 0 = fil.byte k := by
  rw [AmpmFil.bytes, List.getD_eq_getElem?_getD, List.getElem?_map, List.getElem?_range hk]
  rfl

lemma writeFil_written {ff ff' : Ff} {s off : ℕ} {fil : AmpmFil} {r : AmpmFResult}
    (heq : writeFil ff s off fil = (r, ff')) (hf : ff.flash.Faultless) (hs : s ≤ diskSectorMax)
    (hoff : off + sizeofAmpmFil ≤ 4096) : FlashWritten s off fil.bytes ff r ff' := by
  have hlt : off < 4096 := Nat.lt_of_lt_of_le (Nat.lt_add_of_pos_right (by decide)) hoff
  exact ampmFlashWrite_written heq hf hs (length_bytes fil ▸ by decide) hlt
    ((length_bytes fil).symm ▸ hoff)

/-- The bytes of a record that is stored are the bytes that are read. -/
lemma StoredAt.holdsRecord_of_le {s off : ℕ} {fil : AmpmFil} {mem : Memory}
    (h : StoredAt s off fil.bytes mem) (hs : s ≤ diskSectorMax) (hoff : off < 4096) :
    HoldsRecord (fun k => (cells mem s off sizeofAmpmFil).getD k 0) fil := by
  intro k hk
  show (read mem _ _).getD k 0 = _
  rw [getD_read hk, devAddr_ffAddr_of_le hs hoff, Nat.add_assoc,
    h k (by rwa [length_bytes]), getD_bytes fil hk]

lemma StoredAt.holdsRecord {s off : ℕ} {fil : AmpmFil} {mem : Memory}
    (h : StoredAt s off fil.bytes mem) (hs : s < diskSectorMax) (hoff : off < 4096) :
    HoldsRecord (fun k => (cells mem s off sizeofAmpmFil).getD k 0) fil :=
  h.holdsRecord_of_le (Nat.le_of_lt hs) hoff

/-- The words of a record that is stored are read. -/
lemma StoredAt.word_eq {s off : ℕ} {fil : AmpmFil} {mem : Memory}
    (h : StoredAt s off fil.bytes mem) (hs : s < diskSectorMax) (hoff : off < 4096) {j : ℕ}
    (hj : j < 9) (hlt : fil.word j < 2 ^ 32) : (filAt mem s off).word j = fil.word j :=
  (word_ofBytes _ hj).trans ((h.holdsRecord hs hoff).wordAt_eq_of_lt hj hlt)

/-- A well-formed record that is stored passes the check. -/
lemma StoredAt.formatCheck {s off : ℕ} {fil : AmpmFil} {mem : Memory}
    (h : StoredAt s off fil.bytes mem) (hs : s < diskSectorMax) (hoff : off < 4096)
    (hfil : WellFormed fil) : formatCheck (filAt mem s off) = true :=
  (formatCheck_iff _).mpr ((h.holdsRecord hs hoff).wellFormed hfil)

end Ampm
