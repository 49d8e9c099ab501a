import AmpmGsm.Flash.Commands
import AmpmGsm.Lib.Directory
import Mathlib.Data.List.TakeWhile

/-!
# What the headers say

The records at the heads of the sectors, as a directory: the first sector of the file, and its name.
The sector behind the partition is one of them, because the random search looks at it.

* `headersOf` — the directory; `sectorValid_iff` and `headerAt_eq` say that the functions look at it.
* `headersOf_program`, `headersOf_erase`, `headersOf_header` — what the commands do to it.
* `OtherFile` — a sector that belongs to another file than the one that begins at a given sector.
-/

namespace Ampm

open NorFlash Runs Directories

/-! ## The directory -/

/-- The header of each sector, if it passes the check. -/
def headersOf (mem : Memory) : Directory (List UInt8) := fun i =>
  if i ≤ diskSectorMax ∧ formatCheck (filAt mem i 0) = true then
    some ((filAt mem i 0).startSector, (filAt mem i 0).name)
  else none

section Directory

variable {mem mem' : Memory} {i s t : ℕ} {n : List UInt8}

lemma headersOf_eq_some : headersOf mem i = some (s, n) ↔
    i ≤ diskSectorMax ∧ formatCheck (filAt mem i 0) = true ∧ (filAt mem i 0).startSector = s ∧
      (filAt mem i 0).name = n := by
  rw [headersOf]
  split_ifs with h
  · simp [h.1, h.2]
  · refine iff_of_false (fun hnone => by cases hnone) fun hsome => h ⟨hsome.1, hsome.2.1⟩

lemma headersOf_lt (h : headersOf mem i = some (s, n)) : s < diskSectorMax := by
  obtain ⟨-, hcheck, rfl, -⟩ := headersOf_eq_some.mp h
  exact ((formatCheck_iff _).mp hcheck).start_lt

lemma headersOf_le (h : headersOf mem i = some (s, n)) : i ≤ diskSectorMax :=
  (headersOf_eq_some.mp h).1

/-- The entry depends on the record alone. -/
lemma headersOf_congr (h : filAt mem' i 0 = filAt mem i 0) : headersOf mem' i = headersOf mem i := by
  rw [headersOf, headersOf, h]

/-- A sector that is not free has an entry, and so has the sector that it names. -/
lemma sectorValid_iff (hi : i ≤ diskSectorMax) : sectorValid mem i = true ↔
    ∃ s n e, headersOf mem i = some (s, n) ∧ headersOf mem s = some e := by
  rw [sectorValid, Bool.and_eq_true]
  constructor
  · rintro ⟨hcheck, hfirst⟩
    have hlt := ((formatCheck_iff _).mp hcheck).start_lt
    exact ⟨_, _, (_, _), headersOf_eq_some.mpr ⟨hi, hcheck, rfl, rfl⟩,
      headersOf_eq_some.mpr ⟨Nat.le_of_lt hlt, hfirst, rfl, rfl⟩⟩
  · rintro ⟨s, n, ⟨s', n'⟩, h, h'⟩
    obtain ⟨-, hcheck, rfl, -⟩ := headersOf_eq_some.mp h
    exact ⟨hcheck, (headersOf_eq_some.mp h').2.1⟩

/-- What `ampm_f_file_format_check` leaves is the header of that sector. -/
lemma headerAt_eq (h : headersOf mem i = some (s, n)) : headerAt mem i = filAt mem s 0 := by
  obtain ⟨-, hcheck, rfl, -⟩ := headersOf_eq_some.mp h
  rw [headerAt, if_pos hcheck]

/-- In a rooted directory it is the header of a file. -/
lemma headerAt_begins (hroot : Rooted (headersOf mem)) (hi : i ≤ diskSectorMax)
    (hvalid : sectorValid mem i = true) :
    ∃ n, headersOf mem i = some ((headerAt mem i).startSector, n) ∧
      Begins (headersOf mem) (headerAt mem i).name (headerAt mem i).startSector := by
  obtain ⟨s, n, e, h, h'⟩ := (sectorValid_iff hi).mp hvalid
  have hbegins := hroot.begins h h'
  obtain ⟨-, -, hstart, hname⟩ := headersOf_eq_some.mp hbegins
  rw [headerAt_eq h, hstart, hname]
  exact ⟨n, h, hbegins⟩

end Directory

/-! ## Commands -/

section Commands

variable {mem mem' : Memory} {s t off : ℕ} {bytes : List UInt8} {fil : AmpmFil}

/-- A command inside a sector leaves the others alone. -/
lemma sameSector_program (hs : s ≤ diskSectorMax) (hoff : off < 4096)
    (hfit : off + bytes.length ≤ 4096) (hts : t ≠ s) :
    SameSector t mem (FlashCommand.apply mem (.program (ffAddr s off) bytes)) := by
  intro x hx
  rw [FlashCommand.apply, devAddr_ffAddr_of_le hs hoff]
  rcases Nat.lt_or_gt_of_ne hts with hlt | hgt
  · exact program_of_lt (by rw [sectorStart, sectorStart]; omega)
  · exact program_of_le (by rw [sectorStart, sectorStart]; omega)

lemma sameSector_erase (hs : s ≤ diskSectorMax) (hoff : off < 4096) (hts : t ≠ s) :
    SameSector t mem (FlashCommand.apply mem (.erase (ffAddr s off))) := by
  intro x hx
  rw [FlashCommand.apply, devAddr_ffAddr_of_le hs hoff]
  refine erase_of_ne ?_
  rw [sectorStart, sectorStart]
  omega

/-- Cells in front of the programmed ones. -/
lemma program_front (hs : s ≤ diskSectorMax) (hoff : off < 4096) {x : ℕ} (hx : x < off) :
    FlashCommand.apply mem (.program (ffAddr s off) bytes) (sectorStart s + x) =
      mem (sectorStart s + x) := by
  rw [FlashCommand.apply, devAddr_ffAddr_of_le hs hoff]
  exact program_of_lt (by omega)

lemma erase_cells (hs : s ≤ diskSectorMax) {x : ℕ} (hx : x < 4096) :
    FlashCommand.apply mem (.erase (ffAddr s 0)) (sectorStart s + x) = 0xFF := by
  rw [FlashCommand.apply, devAddr_ffAddr_of_le hs (by decide)]
  refine erase_of_eq ?_
  rw [sectorStart]
  omega

lemma SameSector.filAt_of_le (h : SameSector s mem mem') (hs : s ≤ diskSectorMax)
    (hoff : off + sizeofAmpmFil ≤ 4096) : filAt mem' s off = filAt mem s off :=
  filAt_congr_of_le hs hoff fun k hk => h _ (by omega)

lemma SameSector.headersOf_eq (h : SameSector s mem mem') : headersOf mem' s = headersOf mem s := by
  by_cases hs : s ≤ diskSectorMax
  · exact headersOf_congr (h.filAt_of_le hs (by decide))
  · rw [headersOf, headersOf, if_neg fun hand => hs hand.1, if_neg fun hand => hs hand.1]

/-- A write behind the header does not change what the headers say. -/
lemma WroteAt.headersOf_eq (h : WroteAt s off bytes mem mem') (hlow : sizeofAmpmFil ≤ off)
    (hoff : off ≤ 4096) : headersOf mem' = headersOf mem := by
  funext t
  by_cases hts : t = s
  · subst hts
    by_cases ht : t ≤ diskSectorMax
    · refine headersOf_congr (filAt_congr_of_le ht (by decide) fun k hk => ?_)
      have hpos : off ≠ 0 := Nat.ne_of_gt (Nat.lt_of_lt_of_le (by decide) hlow)
      rw [Nat.zero_add]
      exact h.outside hpos k (Nat.lt_of_lt_of_le hk (Nat.le_trans hlow hoff))
        (Or.inl (Nat.lt_of_lt_of_le hk hlow))
    · rw [headersOf, headersOf, if_neg fun hand => ht hand.1, if_neg fun hand => ht hand.1]
  · exact (h.other t hts).headersOf_eq

/-- Behind the header. -/
lemma headersOf_program (hs : s ≤ diskSectorMax) (hlow : sizeofAmpmFil ≤ off)
    (hfit : off + bytes.length ≤ 4096) (hoff : off < 4096) :
    headersOf (FlashCommand.apply mem (.program (ffAddr s off) bytes)) = headersOf mem := by
  funext t
  by_cases hts : t = s
  · subst hts
    refine headersOf_congr (filAt_congr_of_le hs (by decide) fun k hk => ?_)
    exact program_front hs hoff (by omega)
  · exact (sameSector_program hs hoff hfit hts).headersOf_eq

lemma headersOf_of_erased (hs : s ≤ diskSectorMax)
    (h : ∀ x < sizeofAmpmFil, mem (sectorStart s + x) = 0xFF) : headersOf mem s = none := by
  have hinvalid : formatCheck (filAt mem s 0) = false := by
    have hstart : ¬ (filAt mem s 0).startSector < diskSectorMax := by
      have hmax : diskSectorMax = 110 := rfl
      have hones : (0xFF : UInt8).toNat = 255 := rfl
      have hcell : ∀ k < sizeofAmpmFil, mem (devAddr (ffAddr s 0) + k) = 0xFF := fun k hk => by
        rw [devAddr_ffAddr_of_le hs (by decide)]
        exact h k hk
      have hfield : (filAt mem s 0).startSector =
          wordAt (fun j => (cells mem s 0 sizeofAmpmFil).getD j 0) 32 := rfl
      rw [hfield, wordAt_cells (by decide), wordAt, hcell 32 (by decide), hcell (32 + 1) (by decide),
        hones]
      omega
    rw [← Bool.not_eq_true, formatCheck_iff]
    exact fun hfil => hstart hfil.start_lt
  rw [headersOf, if_neg fun hand => Bool.false_ne_true (hinvalid.symm.trans hand.2)]

/-- An erased sector has no header. -/
lemma headersOf_erase (mem : Memory) (hs : s ≤ diskSectorMax) :
    headersOf (FlashCommand.apply mem (.erase (ffAddr s 0))) s = none ∧
      ∀ t, t ≠ s →
        headersOf (FlashCommand.apply mem (.erase (ffAddr s 0))) t = headersOf mem t :=
  ⟨headersOf_of_erased hs fun _ hx => erase_cells hs (Nat.lt_trans hx (by decide)),
    fun _ hts => (sameSector_erase hs (by decide) hts).headersOf_eq⟩

lemma HoldsRecord.name_eq {b : ℕ → UInt8} (h : HoldsRecord b fil) :
    (AmpmFil.ofBytes b).name = fil.name := by
  have hname : (List.range 32).map (AmpmFil.ofBytes b).fileName =
      (List.range 32).map fil.fileName := by
    refine List.map_congr_left fun k hk => ?_
    have hlt := List.mem_range.mp hk
    have hbyte := h k (Nat.lt_of_lt_of_le hlt (by decide))
    rwa [byte_of_name fil hlt] at hbyte
  rw [AmpmFil.name, AmpmFil.name, hname]

/-- A header that is stored: its sector has the entry of the record, if it passes the check. -/
lemma changedAt_header (hs : s ≤ diskSectorMax) (hword : fil.startSector < 2 ^ 32)
    (hother : ∀ t, t ≠ s → SameSector t mem mem') (hstored : StoredAt s 0 fil.bytes mem') :
    ChangedAt s (fil.startSector, fil.name) (headersOf mem) (headersOf mem') := by
  have hrecord := hstored.holdsRecord_of_le hs (by decide)
  refine ⟨fun t ht => (hother t ht).headersOf_eq, fun e he => ?_⟩
  obtain ⟨s', n⟩ := e
  obtain ⟨-, -, rfl, rfl⟩ := headersOf_eq_some.mp he
  exact Prod.ext (hrecord.wordAt_eq_of_lt (j := 0) (by decide) hword) hrecord.name_eq

/-- The record is there after the two commands that write it. -/
lemma storedAt_header (mem : Memory) (fil : AmpmFil) (hs : s ≤ diskSectorMax) :
    StoredAt s 0 fil.bytes (FlashCommand.apply (FlashCommand.apply mem (.erase (ffAddr s 0)))
      (.program (ffAddr s 0) fil.bytes)) := by
  intro i hi
  have hlt : i < 4096 := by
    rw [length_bytes] at hi
    exact Nat.lt_trans hi (by decide)
  have hblank : FlashCommand.apply mem (.erase (ffAddr s 0)) (sectorStart s + i) = 0xFF :=
    erase_cells hs hlt
  show program (devAddr (ffAddr s 0)) fil.bytes _ _ = _
  rw [Nat.zero_add, devAddr_ffAddr_of_le hs (by decide), Nat.add_zero, program_of_erased hblank hi,
    List.getD_eq_getElem _ _ hi]

/-- A header is written: its sector has the entry of the record, if it passes the check. -/
lemma headersOf_header (mem : Memory) (hs : s ≤ diskSectorMax) (hstart : fil.startSector < 2 ^ 32) :
    ChangedAt s (fil.startSector, fil.name) (headersOf mem)
      (headersOf (FlashCommand.apply (FlashCommand.apply mem (.erase (ffAddr s 0)))
        (.program (ffAddr s 0) fil.bytes))) := by
  have hlen : 0 + fil.bytes.length ≤ 4096 := by
    rw [length_bytes]
    decide
  refine changedAt_header hs hstart (fun t hts => ?_) (storedAt_header mem fil hs)
  exact (sameSector_erase hs (by decide) hts).trans (sameSector_program hs (by decide) hlen hts)

end Commands

end Ampm
