import AmpmGsm.Flash.Partition
import Mathlib.Data.Finset.Card
import Mathlib.Data.List.Find

/-!
# Appending to an open file

`ampm_ff/ampm_ff.c`, `ampm_f_write` on any handle that stands at the end of its file, whether the
file was created or opened again.

* `OpenFile` — such a handle, and the bytes of its file.
* `TakesBytes`, `BlocksTake`, `LinkTakes` — the cells that are to be programmed take the bytes.
* `ampmFWriteByte_taken_iff`, `OpenFile.byte` — one byte.
* `writeBytes_taken_iff` — any number.
* `findsSectors_of_spare` — as many sectors as the bytes fill, and one more, are enough.
* **`ampmFWrite_appends_iff`** — when a call ends with `FR_OK` and the bytes are behind the others.
* `ampmFWrite_created_iff` — a file that was created has room for them.
-/

namespace Ampm

open NorFlash

/-! ## Programming -/

/-- The cells take the bytes: no bit is to be set that is cleared. -/
def TakesBytes (s off : ℕ) (buf : List UInt8) (mem : Memory) : Prop :=
  ∀ i < buf.length, mem (sectorStart s + (off + i)) &&& buf.getD i 0 = buf.getD i 0

section Flash

variable {ff : Ff} {s off : ℕ} {buf : List UInt8}

lemma ampmFlashWrite_fst (hf : ff.flash.Faultless) (hs : s ≤ diskSectorMax)
    (hlen : buf.length ≤ 256) (hoff : off < 4096) (hfit : off + buf.length ≤ 4096) :
    (ampmFlashWrite ff (ffAddr s off) buf).1 = .frOk ↔
      StoredAt s off buf (pageMem ff.flash.mem (ffAddr s off) buf) := by
  have hin : ffAddr s off % 4096 + buf.length ≤ 4096 := by
    rwa [ffAddr_mod_of_le hs hoff]
  rw [ampmFlashWrite, sst25Write_page hf hlen hin, devAddr_ffAddr_of_le hs hoff]
  have hread : decide (read (pageMem ff.flash.mem (ffAddr s off) buf) (sectorStart s + off)
      buf.length = buf) = true ↔ StoredAt s off buf (pageMem ff.flash.mem (ffAddr s off) buf) := by
    rw [decide_eq_true_eq, read_eq_iff]
    refine forall₂_congr fun i hi => ?_
    rw [Nat.add_assoc, List.getD_eq_getElem _ _ hi]
  rw [← hread]
  generalize decide (read (pageMem ff.flash.mem (ffAddr s off) buf) (sectorStart s + off)
    buf.length = buf) = accepted
  cases accepted
  · exact iff_of_false AmpmFResult.noConfusion Bool.false_ne_true
  · exact iff_of_true rfl rfl

/-- A write behind the beginning of a sector is accepted if the cells take the bytes. -/
lemma ampmFlashWrite_ok_iff (hf : ff.flash.Faultless) (hs : s ≤ diskSectorMax)
    (hlen : buf.length ≤ 256) (hpos : 0 < off) (hoff : off < 4096)
    (hfit : off + buf.length ≤ 4096) :
    (ampmFlashWrite ff (ffAddr s off) buf).1 = .frOk ↔ TakesBytes s off buf ff.flash.mem := by
  rw [ampmFlashWrite_fst hf hs hlen hoff hfit]
  refine forall₂_congr fun i hi => ?_
  rw [pageMem, ffAddr_mod_of_le hs hoff, if_neg (Nat.ne_of_gt hpos), devAddr_ffAddr_of_le hs hoff,
    ← Nat.add_assoc, program_at hi, List.getD_eq_getElem _ _ hi]

/-- A write at the beginning of a sector erases it. -/
lemma ampmFlashWrite_start_ok (hf : ff.flash.Faultless) (hs : s ≤ diskSectorMax)
    (hlen : buf.length ≤ 256) : (ampmFlashWrite ff (ffAddr s 0) buf).1 = .frOk := by
  rw [ampmFlashWrite_fst hf hs hlen (by decide) (by omega)]
  intro i hi
  have herased : erase 4096 (sectorStart s + 0) ff.flash.mem (sectorStart s + 0 + i) = 0xFF := by
    refine erase_of_eq ?_
    rw [sectorStart]
    omega
  rw [pageMem, ffAddr_mod_of_le hs (by decide), if_pos rfl, devAddr_ffAddr_of_le hs (by decide),
    ← Nat.add_assoc, program_of_erased herased hi, List.getD_eq_getElem _ _ hi]

/-- Erased cells take everything. -/
lemma takesBytes_of_blank {mem : Memory}
    (h : ∀ i < buf.length, mem (sectorStart s + (off + i)) = 0xFF) : TakesBytes s off buf mem := by
  intro i hi
  rw [h i hi]
  exact UInt8.neg_one_and

lemma takesBytes_congr {mem mem' : Memory}
    (h : ∀ i < buf.length, mem' (sectorStart s + (off + i)) = mem (sectorStart s + (off + i))) :
    TakesBytes s off buf mem' ↔ TakesBytes s off buf mem :=
  forall₂_congr fun i hi => by rw [h i hi]

end Flash

/-! ## Finding a sector -/

section Find

variable {ff ff' : Ff}

/-- The sector that a search finds: the first that is free in the order of the search. -/
lemma ampmFFindFreeSector_fst (ff : Ff) : (ampmFFindFreeSector ff).1 =
    (scanOrder (ff.rand ff.drawn % diskSectorMax)).find? fun s =>
      !sectorValid ff.flash.mem s := by
  rcases ampmFFindFreeSector_spec ff with ⟨pre, t, post, horder, hpre, ht, heq⟩ | ⟨hall, heq⟩
  · rw [heq, horder]
    refine (List.find?_eq_some_iff_append.mpr ⟨by simp [ht], pre, post, rfl, ?_⟩).symm
    intro j hj
    simp [hpre j hj]
  · rw [heq]
    refine (List.find?_eq_none.mpr ?_).symm
    intro j hj
    simp [hall j hj]

/-- A search finds the same sector if the same sectors are free. -/
lemma ampmFFindFreeSector_congr (hrand : ff'.rand = ff.rand) (hdrawn : ff'.drawn = ff.drawn)
    (hvalid : ∀ s ≤ diskSectorMax, sectorValid ff'.flash.mem s = sectorValid ff.flash.mem s) :
    (ampmFFindFreeSector ff').1 = (ampmFFindFreeSector ff).1 := by
  rw [ampmFFindFreeSector_fst, ampmFFindFreeSector_fst, hrand, hdrawn]
  have hsame : ∀ s ∈ scanOrder (ff.rand ff.drawn % diskSectorMax),
      (!sectorValid ff'.flash.mem s) = !sectorValid ff.flash.mem s := fun s hs =>
    congrArg not (hvalid s ((mem_scanOrder (rand_lt ff)).mp hs).1)
  exact List.find?_congr hsame

/-- What a search has done that finds a sector. -/
lemma ampmFFindFreeSector_some {t : ℕ} (hfind : ampmFFindFreeSector ff = (some t, ff')) :
    ff'.flash.mem = ff.flash.mem ∧ (ff.flash.Faultless → ff'.flash.Faultless) ∧
      ff'.found = ff.found ++ [t] := by
  rcases ampmFFindFreeSector_spec ff with ⟨pre, t', post, -, -, -, heq⟩ | ⟨-, heq⟩
  · rw [heq] at hfind
    obtain ⟨hsome, rfl⟩ := Prod.mk.inj hfind
    obtain rfl := Option.some.inj hsome
    exact ⟨rfl, id, rfl⟩
  · rw [heq] at hfind
    cases hfind

lemma findsSector_iff :
    FindsSector ff ↔ ∃ t < diskSectorMax, (ampmFFindFreeSector ff).1 = some t := by
  constructor
  · intro h
    obtain ⟨t, ht, hfind, -⟩ := ampmFFindFreeSector_found h
    exact ⟨t, ht, hfind⟩
  · rintro ⟨t, ht, hfind⟩
    rcases ampmFFindFreeSector_spec ff with ⟨pre, t', post, horder, -, hfree, heq⟩ | ⟨-, heq⟩
    · rw [heq] at hfind
      obtain rfl := Option.some.inj hfind
      rcases scanOrder_stop (rand_lt ff) horder with ⟨-, hne, -⟩ | ⟨hmax, -⟩
      · exact ⟨t', ht, hne, hfree⟩
      · exact absurd hmax (Nat.ne_of_lt ht)
    · rw [heq] at hfind
      cases hfind

/-- A write behind the header does not make a sector valid or free, nor the one behind the
partition. -/
lemma WroteAt.sectorValid_eq_of_le {s off : ℕ} {buf : List UInt8} {mem mem' : Memory}
    (h : WroteAt s off buf mem mem') (hs : s < diskSectorMax) (hlow : sizeofAmpmFil ≤ off)
    (hoff : off ≤ 4096) {t : ℕ} (ht : t ≤ diskSectorMax) :
    sectorValid mem' t = sectorValid mem t := by
  rcases Nat.lt_or_eq_of_le ht with hlt | rfl
  · exact h.sectorValid_eq hlow hoff hlt
  · have hheader : filAt mem' diskSectorMax 0 = filAt mem diskSectorMax 0 :=
      filAt_congr_of_le (Nat.le_refl _) (by decide) fun k hk =>
        h.other _ (Nat.ne_of_gt hs) _ (Nat.lt_of_lt_of_le (Nat.add_lt_add_left hk 0) (by decide))
    have hpos : 0 < off := Nat.lt_of_lt_of_le (by decide) hlow
    unfold sectorValid
    rw [hheader]
    cases hcheck : formatCheck (filAt mem diskSectorMax 0) with
    | false => rfl
    | true =>
        have hstart := ((formatCheck_iff _).mp hcheck).start_lt
        rw [h.filAt_eq hpos hoff hstart ((Nat.zero_add _).symm ▸ hlow)]

end Find

/-! ## An open file -/

/-- A file that is open, and its bytes: the handle stands behind the last of them, the full blocks
are on the flash, and what is behind them is in the buffer. -/
structure OpenFile (ff : Ff) (fil : AmpmFil) (chain : List ℕ) (bs : List UInt8) : Prop extends
    WritingHandle fil chain bs where
  nodup : chain.Nodup
  owned : Owned ff.flash.mem chain
  linked : Linked ff.flash.mem chain
  length : chain.length = bs.length / diskSectorSize + 1
  current : chain.getD (bs.length / diskSectorSize) 0 = fil.currentSector
  flushed : ∀ k < bs.length / 256 * 256, ff.flash.mem (cellOf chain k) = bs.getD k 0
  pending : Pending ff.fileBuf bs

/-- The handle when its file has `n` bytes. -/
def AmpmFil.atSize (fil : AmpmFil) (n : ℕ) : AmpmFil := { fil with fileSize := n, fileOffset := n }

/-- Of the bytes `bs` the first `n` are there.  The cells of the blocks that will be full take
them, as far as the sectors go. -/
def BlocksTake (mem : Memory) (chain : List ℕ) (n : ℕ) (bs : List UInt8) : Prop :=
  ∀ k, n / 256 * 256 ≤ k → k < bs.length / 256 * 256 → k < chain.length * diskSectorSize →
    mem (cellOf chain k) &&& bs.getD k 0 = bs.getD k 0

/-- If the last sector will be full, the cells of its link take the record for the sector that is
found. -/
def LinkTakes (ff : Ff) (fil : AmpmFil) (chain : List ℕ) (total : ℕ) : Prop :=
  chain.length * diskSectorSize ≤ total → ∀ t, (ampmFFindFreeSector ff).1 = some t →
    TakesBytes fil.currentSector sizeofAmpmFil
      ((fil.atSize (chain.length * diskSectorSize)).linkTo t).bytes ff.flash.mem

section Byte

variable {ff ff' : Ff} {fil : AmpmFil} {chain : List ℕ} {bs : List UInt8} {c : UInt8}

/-- A file that is being written since it was created. -/
lemma Writing.openFile (h : Writing ff.flash.mem fil chain bs) (hbuf : Pending ff.fileBuf bs) :
    OpenFile ff fil chain bs :=
  ⟨h.toWritingHandle, h.cells.nodup, h.cells.owned, h.cells.linked, h.length, h.current,
    h.cells.data, hbuf⟩

namespace OpenFile

lemma lt (h : OpenFile ff fil chain bs) : ∀ s ∈ chain, s < diskSectorMax :=
  fun s hs => (h.owned s hs).1

lemma current_mem (h : OpenFile ff fil chain bs) : fil.currentSector ∈ chain := by
  have hlen := h.length
  exact h.current ▸ getD_mem (by omega)

lemma current_lt (h : OpenFile ff fil chain bs) : fil.currentSector < diskSectorMax :=
  h.lt _ h.current_mem

lemma length_pos (h : OpenFile ff fil chain bs) : 0 < chain.length := h.length ▸ Nat.succ_pos _

/-- The last sector of the file is full with the next byte. -/
lemma full_iff (h : OpenFile ff fil chain bs) :
    chain.length * diskSectorSize ≤ bs.length + 1 ↔ (bs.length + 1) % diskSectorSize = 0 := by
  have hlen := h.length
  unfold diskSectorSize at hlen ⊢
  omega

lemma full_eq (h : OpenFile ff fil chain bs) (hfull : (bs.length + 1) % diskSectorSize = 0) :
    chain.length * diskSectorSize = bs.length + 1 := by
  have hle := h.full_iff.mpr hfull
  have hlen := h.length
  unfold diskSectorSize at hle hlen ⊢
  omega

/-- Where the block is that is full with the next byte. -/
lemma place (h : OpenFile ff fil chain bs) (hlt : bs.length < 100000)
    (hfull : (bs.length + 1) % 256 = 0) :
    sub32 (bs.length + 1) 256 % diskSectorSize + 256 =
        256 + bs.length / 256 * 256 % diskSectorSize ∧
      fil.currentSector = chain.getD (bs.length / 256 * 256 / diskSectorSize) 0 ∧
      bs.length / 256 * 256 + 256 ≤ chain.length * diskSectorSize := by
  have hsector : bs.length / diskSectorSize = bs.length / 256 * 256 / diskSectorSize := by
    unfold diskSectorSize
    omega
  refine ⟨?_, ?_, ?_⟩
  · unfold sub32 diskSectorSize
    omega
  · rw [← hsector, h.current]
  · have hlen := h.length
    unfold diskSectorSize at hlen ⊢
    omega

end OpenFile

/-- The state in which the block is written that is full with the byte. -/
abbrev fullBlock (ff : Ff) (bs : List UInt8) (c : UInt8) : Ff := ff.put (bs.length % 256) c

lemma OpenFile.block_getD (h : OpenFile ff fil chain bs) (hfull : (bs.length + 1) % 256 = 0) {j : ℕ}
    (hj : j < 256) : (fullBlock ff bs c).buffer.getD j 0 =
      (bs ++ [c]).getD (bs.length / 256 * 256 + j) 0 := by
  rw [getD_buffer _ hj]
  exact h.pending.put c j (by omega)

/-- The block is written if the cells take it. -/
lemma OpenFile.block_ok_iff (h : OpenFile ff fil chain bs) (hf : ff.flash.Faultless)
    (hlt : bs.length < 100000) (hfull : (bs.length + 1) % 256 = 0) :
    (ampmFlashWrite (fullBlock ff bs c)
        (ffAddr fil.currentSector (sub32 (bs.length + 1) 256 % diskSectorSize + 256))
        (fullBlock ff bs c).buffer).1 = .frOk ↔
      BlocksTake ff.flash.mem chain bs.length (bs ++ [c]) := by
  obtain ⟨hplace, hcurrent, hin⟩ := h.place hlt hfull
  have hoff := mod_add_lt (bs.length / 256 * 256)
  have hfit : 256 + bs.length / 256 * 256 % diskSectorSize + 256 ≤ 4096 := by
    unfold diskSectorSize
    omega
  have hblock : bs.length / 256 * 256 % 256 = 0 := Nat.mul_mod_left _ _
  have hf' : (fullBlock ff bs c).flash.Faultless := hf
  rw [hplace, ampmFlashWrite_ok_iff hf' (Nat.le_of_lt h.current_lt) (Nat.le_of_eq (length_buffer _))
    (Nat.lt_of_lt_of_le (by decide) (Nat.le_add_right 256 _)) hoff (by rwa [length_buffer])]
  have hend : (bs ++ [c]).length / 256 * 256 = bs.length / 256 * 256 + 256 := by
    rw [List.length_append, List.length_singleton]
    omega
  unfold TakesBytes BlocksTake
  rw [length_buffer, hend]
  constructor
  · intro htakes k hlow hhigh _
    obtain ⟨j, rfl⟩ := Nat.exists_eq_add_of_le hlow
    have hj : j < 256 := by omega
    have hcell := htakes j hj
    rwa [h.block_getD hfull hj, hcurrent, ← cellOf_block hblock hj] at hcell
  · intro htakes j hj
    have hbound : bs.length / 256 * 256 + j < chain.length * diskSectorSize :=
      Nat.lt_of_lt_of_le (Nat.add_lt_add_left hj _) hin
    have hcell := htakes _ (Nat.le_add_right _ j) (Nat.add_lt_add_left hj _) hbound
    rwa [h.block_getD hfull hj, hcurrent, ← cellOf_block hblock hj]

/-- What has happened when the full block is on the flash. -/
structure BlockWritten (ff : Ff) (fil : AmpmFil) (chain : List ℕ) (bs : List UInt8) (c : UInt8)
    (ff' : Ff) : Prop where
  step : WriterStep ff ff' chain []
  rand : ff'.rand = ff.rand
  drawn : ff'.drawn = ff.drawn
  owned : Owned ff'.flash.mem chain
  linked : Linked ff'.flash.mem chain
  data : ∀ k < bs.length + 1, ff'.flash.mem (cellOf chain k) = (bs ++ [c]).getD k 0
  cells : ∀ k, bs.length + 1 ≤ k → k < chain.length * diskSectorSize →
    ff'.flash.mem (cellOf chain k) = ff.flash.mem (cellOf chain k)
  header : ∀ x < 256, ff'.flash.mem (sectorStart fil.currentSector + x) =
    ff.flash.mem (sectorStart fil.currentSector + x)
  found : (ampmFFindFreeSector ff').1 = (ampmFFindFreeSector ff).1

lemma OpenFile.block_written (h : OpenFile ff fil chain bs) (hf : ff.flash.Faultless)
    (hlt : bs.length < 100000) (hfull : (bs.length + 1) % 256 = 0)
    (hw : ampmFlashWrite (fullBlock ff bs c)
      (ffAddr fil.currentSector (sub32 (bs.length + 1) 256 % diskSectorSize + 256))
      (fullBlock ff bs c).buffer = (.frOk, ff')) : BlockWritten ff fil chain bs c ff' := by
  obtain ⟨hplace, hcurrent, hin⟩ := h.place hlt hfull
  have hfit : 256 + bs.length / 256 * 256 % diskSectorSize + 256 ≤ 4096 := by
    unfold diskSectorSize
    omega
  have hblock : bs.length / 256 * 256 % 256 = 0 := Nat.mul_mod_left _ _
  have hend : bs.length / 256 * 256 + 256 = bs.length + 1 := by omega
  have hin' : bs.length / 256 * 256 < chain.length * diskSectorSize :=
    Nat.lt_of_lt_of_le (Nat.lt_add_of_pos_right (by decide)) hin
  have hlow : 2 * sizeofAmpmFil ≤ 256 + bs.length / 256 * 256 % diskSectorSize :=
    Nat.le_trans (by decide) (Nat.le_add_right _ _)
  have hhigh := Nat.le_of_lt (mod_add_lt (bs.length / 256 * 256))
  rw [hplace] at hw
  have hwritten := ampmFlashWrite_written hw hf (Nat.le_of_lt h.current_lt)
    (Nat.le_of_eq (length_buffer _)) (mod_add_lt _) (by rwa [length_buffer])
  have hwrote := hwritten.wroteAt
  have hwrote' : WroteAt (chain.getD (bs.length / 256 * 256 / diskSectorSize) 0)
      (256 + bs.length / 256 * 256 % diskSectorSize) (fullBlock ff bs c).buffer ff.flash.mem
      ff'.flash.mem := hcurrent ▸ hwrote
  have hrest : ff'.rand = ff.rand ∧ ff'.drawn = ff.drawn := by
    rw [← (Prod.mk.inj hw).2]
    exact ⟨rfl, rfl⟩
  have hfound : ff'.found = (fullBlock ff bs c).found := ampmFlashWrite_found hw
  refine ⟨WriterStep.of_wroteAt hwritten.faultless hfound h.current_mem hwrote, hrest.1,
    hrest.2, h.owned.wroteBehind hwrote (Nat.le_trans (by decide) hlow) hhigh,
    h.linked.wroteBehind h.lt hwrote hlow hhigh, fun k hk => ?_, fun k hk hbound => ?_,
    fun x hx => ?_, ?_⟩
  · rcases Nat.lt_or_ge k (bs.length / 256 * 256) with hold | hnew
    · rw [hwrote'.cellOf_eq h.nodup (length_buffer _) hblock hin'
        (Nat.lt_trans hold hin') (Or.inl hold)]
      refine (h.flushed k hold).trans (List.getD_append _ _ _ _ ?_).symm
      exact Nat.lt_of_lt_of_le hold (Nat.div_mul_le_self _ _)
    · obtain ⟨j, rfl⟩ := Nat.exists_eq_add_of_le hnew
      have hj : j < 256 := by omega
      rw [cellOf_block hblock hj, ← hcurrent,
        hwritten.stored rfl j (Nat.lt_of_lt_of_eq hj (length_buffer _).symm)]
      exact h.block_getD hfull hj
  · exact hwrote'.cellOf_eq h.nodup (length_buffer _) hblock hin' hbound
      (Or.inr (hend ▸ hk))
  · exact hwrote.outside (Nat.ne_of_gt (Nat.lt_of_lt_of_le (by decide) hlow)) x
      (Nat.lt_trans hx (by decide)) (Or.inl (Nat.lt_of_lt_of_le hx (Nat.le_add_right _ _)))
  · exact ampmFFindFreeSector_congr hrest.1 hrest.2 fun s hs =>
      hwrote.sectorValid_eq_of_le h.current_lt (Nat.le_trans (by decide) hlow) hhigh hs

/-- The sector is changed if one is found and the cells of the link take it. -/
lemma ampmFWriteSector_ok_iff (hf : ff.flash.Faultless)
    (hcurrent : fil.currentSector < diskSectorMax) :
    (ampmFWriteSector ff fil).1 = .frOk ∧ FoundInRange ff (ampmFWriteSector ff fil).2.2 ↔
      FindsSector ff ∧ ∀ t, (ampmFFindFreeSector ff).1 = some t →
        TakesBytes fil.currentSector sizeofAmpmFil (fil.linkTo t).bytes ff.flash.mem := by
  have hlen : ∀ t, (fil.linkTo t).bytes.length ≤ 256 := fun t => by
    rw [length_bytes]
    decide
  have hfit : ∀ t, sizeofAmpmFil + (fil.linkTo t).bytes.length ≤ 4096 := fun t => by
    rw [length_bytes]
    decide
  constructor
  · rintro ⟨hok, hfound⟩
    obtain ⟨t, ff', l, h, hfind, hl, hh, heq⟩ := ampmFWriteSector_ok hok
    obtain ⟨hmem, hfaultless, hfound'⟩ := ampmFFindFreeSector_some hfind
    have hlast : h.found = ff.found ++ [t] :=
      (ampmFlashWrite_found hh).trans ((ampmFlashWrite_found hl).trans hfound')
    rw [heq] at hfound
    have hfst : (ampmFFindFreeSector ff).1 = some t := congrArg Prod.fst hfind
    refine ⟨findsSector_iff.mpr ⟨t, hfound.of_found hlast t List.mem_cons_self, hfst⟩,
      fun t' ht => ?_⟩
    obtain rfl : t = t' := Option.some.inj (hfst.symm.trans ht)
    rw [← hmem]
    exact (ampmFlashWrite_ok_iff (hfaultless hf) (Nat.le_of_lt hcurrent) (hlen _) (by decide)
      (by decide) (hfit _)).mp (congrArg Prod.fst hl)
  · rintro ⟨hfinds, htakes⟩
    obtain ⟨t, ht, hfst⟩ := findsSector_iff.mp hfinds
    rcases hfind : ampmFFindFreeSector ff with ⟨found, ff'⟩
    obtain rfl : found = some t := (congrArg Prod.fst hfind).symm.trans hfst
    obtain ⟨hmem, hfaultless, hfound⟩ := ampmFFindFreeSector_some hfind
    rcases hl : writeFil ff' fil.currentSector sizeofAmpmFil (fil.linkTo t) with ⟨r, l⟩
    have hr : r = .frOk := by
      refine (congrArg Prod.fst hl).symm.trans ?_
      refine (ampmFlashWrite_ok_iff (hfaultless hf) (Nat.le_of_lt hcurrent) (hlen _) (by decide)
        (by decide) (hfit _)).mpr ?_
      rw [hmem]
      exact htakes t hfst
    subst hr
    have hwl := writeFil_written hl (hfaultless hf) (Nat.le_of_lt hcurrent) (by decide)
    rcases hh : writeFil l t 0 ((fil.linkTo t).moveTo t) with ⟨r, k⟩
    have hr : r = .frOk := by
      refine (congrArg Prod.fst hh).symm.trans
        (ampmFlashWrite_start_ok hwl.faultless (Nat.le_of_lt ht) ?_)
      rw [length_bytes]
      decide
    subst hr
    have heq : ampmFWriteSector ff fil = (.frOk, (fil.linkTo t).moveTo t, k) := by
      simp only [ampmFWriteSector, hfind, hl, hh]
    have hlast : k.found = ff.found ++ [t] :=
      (ampmFlashWrite_found hh).trans ((ampmFlashWrite_found hl).trans hfound)
    rw [heq]
    refine ⟨rfl, fun s hs => ?_⟩
    have hs' : s ∈ k.found.drop ff.found.length := hs
    rw [hlast, List.drop_left, List.mem_singleton] at hs'
    exact hs' ▸ ht

section Block

lemma ampmFWriteBlock_err (hw : ampmFlashWrite ff
    (ffAddr fil.currentSector (sub32 fil.fileOffset 256 % diskSectorSize + 256)) ff.buffer =
      (.frErr, ff')) : ampmFWriteBlock ff fil = (.frErr, fil.fail, ff') := by
  simp only [ampmFWriteBlock, hw]

lemma ampmFWriteBlock_part (hw : ampmFlashWrite ff
    (ffAddr fil.currentSector (sub32 fil.fileOffset 256 % diskSectorSize + 256)) ff.buffer =
      (.frOk, ff')) (hpart : fil.fileOffset % diskSectorSize ≠ 0) :
    ampmFWriteBlock ff fil = (.frOk, fil, { ff' with fileBuf := fun _ => 0xff }) := by
  simp only [ampmFWriteBlock, hw, if_neg hpart]

lemma ampmFWriteBlock_full (hw : ampmFlashWrite ff
    (ffAddr fil.currentSector (sub32 fil.fileOffset 256 % diskSectorSize + 256)) ff.buffer =
      (.frOk, ff')) (hfull : fil.fileOffset % diskSectorSize = 0) :
    (ampmFWriteBlock ff fil).1 = (ampmFWriteSector ff' fil).1 ∧
      (ampmFWriteBlock ff fil).2.2.found = (ampmFWriteSector ff' fil).2.2.found := by
  simp only [ampmFWriteBlock, hw, if_pos hfull]
  rcases ampmFWriteSector ff' fil with ⟨_ | _, fil', ff''⟩
  · exact ⟨rfl, rfl⟩
  · exact ⟨rfl, rfl⟩

end Block

lemma foundInRange_congr {ff₁ ff₂ ff₃ ff₄ : Ff} (h : ff₃.found = ff₁.found)
    (h' : ff₄.found = ff₂.found) : FoundInRange ff₃ ff₄ ↔ FoundInRange ff₁ ff₂ := by
  unfold FoundInRange
  rw [h, h']

lemma OpenFile.grow_eq (h : OpenFile ff fil chain bs) (hlt : bs.length < 100000) :
    fil.grow = fil.atSize (bs.length + 1) := by
  have hnext : (bs.length + 1) % 2 ^ 32 = bs.length + 1 := Nat.mod_eq_of_lt (by omega)
  rw [AmpmFil.grow, AmpmFil.atSize, h.size, h.offset, hnext]

/-- What the link takes, does not depend on the block. -/
lemma BlockWritten.linkTakes_iff (hw : BlockWritten ff fil chain bs c ff')
    {fil' : AmpmFil} (hcurrent : fil'.currentSector = fil.currentSector)
    (hsize : ∀ n, fil'.atSize n = fil.atSize n) (total : ℕ) :
    LinkTakes ff' fil' chain total ↔ LinkTakes ff fil chain total := by
  unfold LinkTakes
  rw [hw.found, hcurrent, hsize]
  refine imp_congr_right fun _ => forall₂_congr fun t _ => takesBytes_congr fun i hi => ?_
  rw [length_bytes] at hi
  exact hw.header _ (Nat.lt_of_lt_of_le (Nat.add_lt_add_left hi _) (by decide))

/-- The sector is full with the byte: the link is the one that is written. -/
lemma BlockWritten.linkTakes_full_iff (hw : BlockWritten ff fil chain bs c ff')
    (h : OpenFile ff fil chain bs) (hlt : bs.length < 100000)
    (hfull : (bs.length + 1) % diskSectorSize = 0) :
    LinkTakes ff fil chain (bs.length + 1) ↔ ∀ t, (ampmFFindFreeSector ff').1 = some t →
      TakesBytes fil.grow.currentSector sizeofAmpmFil (fil.grow.linkTo t).bytes ff'.flash.mem := by
  have htotal := h.full_eq hfull
  have hsize : fil.grow.atSize (bs.length + 1) = fil.grow := by
    rw [h.grow_eq hlt]
    rfl
  have hlink := hw.linkTakes_iff (show fil.grow.currentSector = _ from rfl) (fun _ => rfl)
    (bs.length + 1)
  rw [LinkTakes, htotal, imp_iff_right (Nat.le_refl _), hsize] at hlink
  exact hlink.symm

/-- **One byte**: it is taken if the cells take the block that is full with it, and, if the sector
is full, the link, and a sector is found. -/
theorem ampmFWriteByte_taken_iff (h : OpenFile ff fil chain bs) (hf : ff.flash.Faultless)
    (hlt : bs.length < 100000) (c : UInt8) :
    (ampmFWriteByte ff fil c).1 = .frOk ∧ FoundInRange ff (ampmFWriteByte ff fil c).2.2 ↔
      BlocksTake ff.flash.mem chain bs.length (bs ++ [c]) ∧ LinkTakes ff fil chain (bs.length + 1) ∧
        ((bs.length + 1) % diskSectorSize = 0 → FindsSector ff) := by
  have hgrow := h.grow_eq hlt
  have hoffset : fil.grow.fileOffset = bs.length + 1 := by
    rw [hgrow]
    rfl
  have hlink : (bs.length + 1) % diskSectorSize ≠ 0 → LinkTakes ff fil chain (bs.length + 1) :=
    fun hpart hle => absurd (h.full_iff.mp hle) hpart
  rw [ampmFWriteByte_eq, hoffset, h.offset]
  by_cases hfull : (bs.length + 1) % 256 = 0
  · have hblock := h.block_ok_iff (c := c) hf hlt hfull
    rw [if_pos hfull]
    rcases hw : ampmFlashWrite (fullBlock ff bs c)
      (ffAddr fil.currentSector (sub32 (bs.length + 1) 256 % diskSectorSize + 256))
      (fullBlock ff bs c).buffer with ⟨_ | _, ff'⟩
    · have hwritten := h.block_written hf hlt hfull hw
      rw [and_iff_right (hblock.mp (congrArg Prod.fst hw))]
      have hw' : ampmFlashWrite (fullBlock ff bs c) (ffAddr fil.grow.currentSector
          (sub32 fil.grow.fileOffset 256 % diskSectorSize + 256)) (fullBlock ff bs c).buffer =
            (.frOk, ff') := by
        rw [hoffset]
        exact hw
      by_cases hswitch : (bs.length + 1) % diskSectorSize = 0
      · obtain ⟨hok, hfound⟩ := ampmFWriteBlock_full hw' (hoffset.symm ▸ hswitch)
        have hsame : (ampmFFindFreeSector ff').1 = (ampmFFindFreeSector ff).1 := hwritten.found
        have hcurrent : fil.grow.currentSector < diskSectorMax := h.current_lt
        rw [hok, foundInRange_congr hwritten.step.found_eq.symm hfound,
          ampmFWriteSector_ok_iff hwritten.step.faultless hcurrent,
          hwritten.linkTakes_full_iff h hlt hswitch, imp_iff_right hswitch,
          findsSector_iff, findsSector_iff, hsame, and_comm]
      · rw [ampmFWriteBlock_part hw' (hoffset.symm ▸ hswitch)]
        refine iff_of_true ⟨rfl, FoundInRange.of_eq ?_⟩
          ⟨hlink hswitch, fun hzero => absurd hzero hswitch⟩
        exact hwritten.step.found_eq
    · have hw' : ampmFlashWrite (fullBlock ff bs c) (ffAddr fil.grow.currentSector
          (sub32 fil.grow.fileOffset 256 % diskSectorSize + 256)) (fullBlock ff bs c).buffer =
            (.frErr, ff') := by
        rw [hoffset]
        exact hw
      have herr : (ampmFWriteBlock (fullBlock ff bs c) fil.grow).1 = .frErr :=
        congrArg Prod.fst (ampmFWriteBlock_err hw')
      refine iff_of_false (fun hok => ?_) fun htakes => ?_
      · exact AmpmFResult.noConfusion (herr.symm.trans hok.1)
      · exact AmpmFResult.noConfusion ((congrArg Prod.fst hw).symm.trans (hblock.mpr htakes.1))
  · have hswitch : (bs.length + 1) % diskSectorSize ≠ 0 := by
      unfold diskSectorSize
      omega
    rw [if_neg hfull]
    refine iff_of_true ⟨rfl, FoundInRange.of_eq rfl⟩ ⟨fun k hlow hhigh => ?_, hlink hswitch,
      fun hzero => absurd hzero hswitch⟩
    rw [List.length_append, List.length_singleton] at hhigh
    omega

/-- What a byte that is taken leaves for those that follow. -/
structure ByteStep (ff : Ff) (fil : AmpmFil) (chain : List ℕ) (n : ℕ) (ff' : Ff) (fil' : AmpmFil)
    (more : List ℕ) : Prop where
  step : WriterStep ff ff' chain more
  cells : ∀ k, (n + 1) / 256 * 256 ≤ k → k < chain.length * diskSectorSize →
    ff'.flash.mem (cellOf (chain ++ more) k) = ff.flash.mem (cellOf chain k)
  blank : ∀ k, chain.length * diskSectorSize ≤ k → k < (chain ++ more).length * diskSectorSize →
    ff'.flash.mem (cellOf (chain ++ more) k) = 0xFF
  link : ∀ total, n + 1 ≤ total →
    (LinkTakes ff fil chain total ↔
      LinkTakes ff fil chain (n + 1) ∧ LinkTakes ff' fil' (chain ++ more) total)

lemma LinkTakes.mono {total total' : ℕ} (h : LinkTakes ff fil chain total') (hle : total ≤ total') :
    LinkTakes ff fil chain total := fun hfull => h (Nat.le_trans hfull hle)

/-- A step in which the last sector stays the last one. -/
lemma ByteStep.of_stay {n : ℕ} {fil' : AmpmFil} (hstep : WriterStep ff ff' chain [])
    (hcells : ∀ k, (n + 1) / 256 * 256 ≤ k → k < chain.length * diskSectorSize →
      ff'.flash.mem (cellOf chain k) = ff.flash.mem (cellOf chain k))
    (hlink : ∀ total, LinkTakes ff' fil' chain total ↔ LinkTakes ff fil chain total) :
    ByteStep ff fil chain n ff' fil' [] := by
  refine ⟨hstep, fun k hlow hbound => ?_, fun k hlow hbound => ?_, fun total htotal => ?_⟩
  · rw [List.append_nil]
    exact hcells k hlow hbound
  · rw [List.append_nil] at hbound
    exact absurd hbound (Nat.not_lt.mpr hlow)
  · rw [List.append_nil, hlink]
    exact ⟨fun h => ⟨h.mono htotal, h⟩, fun h => h.2⟩

/-- A byte that does not fill a block. -/
lemma OpenFile.byte_buffered (h : OpenFile ff fil chain bs) (hf : ff.flash.Faultless)
    (hlt : bs.length < 100000) (hpart : (bs.length + 1) % 256 ≠ 0) (c : UInt8) :
    OpenFile (ff.put (bs.length % 256) c) fil.grow chain (bs ++ [c]) ∧
      ByteStep ff fil chain bs.length (ff.put (bs.length % 256) c) fil.grow [] := by
  have hlen : (bs ++ [c]).length = bs.length + 1 := by simp
  have hsector : (bs.length + 1) / diskSectorSize = bs.length / diskSectorSize := by
    unfold diskSectorSize
    omega
  have hblock : (bs.length + 1) / 256 = bs.length / 256 := by omega
  refine ⟨⟨h.toWritingHandle.grow hlt c, h.nodup, h.owned, h.linked, ?_, ?_, fun k hk => ?_,
      fun j hj => ?_⟩,
    ByteStep.of_stay (WriterStep.of_mem_eq hf rfl rfl) (fun _ _ _ => rfl) fun _ => ?_⟩
  · rw [hlen, hsector]
    exact h.length
  · rw [hlen, hsector]
    exact h.current
  · rw [hlen, hblock] at hk
    refine (h.flushed k hk).trans (List.getD_append _ _ _ _ ?_).symm
    exact Nat.lt_of_lt_of_le hk (Nat.div_mul_le_self _ _)
  · rw [hlen] at hj ⊢
    rw [hblock]
    exact h.pending.put c j (by omega)
  · have hfind : (ampmFFindFreeSector (ff.put (bs.length % 256) c)).1 =
        (ampmFFindFreeSector ff).1 := ampmFFindFreeSector_congr rfl rfl fun _ _ => rfl
    unfold LinkTakes
    rw [hfind]
    rfl

/-- A byte that fills a block. -/
lemma OpenFile.byte_block (h : OpenFile ff fil chain bs) (hlt : bs.length < 100000)
    (hfull : (bs.length + 1) % 256 = 0) (hpart : (bs.length + 1) % diskSectorSize ≠ 0)
    (hw : BlockWritten ff fil chain bs c ff') (buf : ℕ → UInt8) :
    OpenFile { ff' with fileBuf := buf } fil.grow chain (bs ++ [c]) ∧
      ByteStep ff fil chain bs.length { ff' with fileBuf := buf } fil.grow [] := by
  have hlen : (bs ++ [c]).length = bs.length + 1 := by simp
  have hsector : (bs.length + 1) / diskSectorSize = bs.length / diskSectorSize := by
    unfold diskSectorSize at hpart ⊢
    omega
  have hblock : (bs.length + 1) / 256 * 256 = bs.length + 1 :=
    Nat.div_mul_cancel (Nat.dvd_of_mod_eq_zero hfull)
  have hstep : WriterStep ff { ff' with fileBuf := buf } chain [] :=
    ⟨hw.step.faultless, hw.step.found, hw.step.apart, hw.step.other⟩
  refine ⟨⟨h.toWritingHandle.grow hlt c, h.nodup, hw.owned, hw.linked, ?_, ?_, ?_, fun j hj => ?_⟩,
    ByteStep.of_stay hstep (fun k hk => ?_) fun total => ?_⟩
  · rw [hlen, hsector]
    exact h.length
  · rw [hlen, hsector]
    exact h.current
  · rw [hlen, hblock]
    exact hw.data
  · rw [hlen, hfull] at hj
    exact absurd hj (Nat.not_lt_zero j)
  · rw [hblock] at hk
    exact hw.cells k hk
  · have hfind : (ampmFFindFreeSector { ff' with fileBuf := buf }).1 =
        (ampmFFindFreeSector ff').1 := ampmFFindFreeSector_congr rfl rfl fun _ _ => rfl
    refine Iff.trans ?_ (hw.linkTakes_iff (show fil.grow.currentSector = _ from rfl)
      (fun _ => rfl) total)
    unfold LinkTakes
    rw [hfind]

/-- A byte that fills a sector. -/
lemma OpenFile.byte_sector (h : OpenFile ff fil chain bs) (hlt : bs.length + 1 < 100000)
    (hfull : (bs.length + 1) % diskSectorSize = 0) (hw : BlockWritten ff fil chain bs c ff')
    (hok : (ampmFWriteSector ff' fil.grow).1 = .frOk)
    (hfound : FoundInRange ff' (ampmFWriteSector ff' fil.grow).2.2) (buf : ℕ → UInt8) :
    ∃ more, OpenFile { (ampmFWriteSector ff' fil.grow).2.2 with fileBuf := buf }
        (ampmFWriteSector ff' fil.grow).2.1 (chain ++ more) (bs ++ [c]) ∧
      ByteStep ff fil chain bs.length
        { (ampmFWriteSector ff' fil.grow).2.2 with fileBuf := buf }
        (ampmFWriteSector ff' fil.grow).2.1 more := by
  have hlen : (bs ++ [c]).length = bs.length + 1 := by simp
  have hgrow := h.toWritingHandle.grow (Nat.lt_of_succ_lt hlt) c
  have hpos := h.length_pos
  have htotal := h.full_eq hfull
  have hsector : (bs.length + 1) / diskSectorSize = chain.length := by
    rw [← htotal]
    exact Nat.mul_div_cancel _ (by decide)
  have hzero : (bs.length + 1) % 256 = 0 :=
    Nat.mod_eq_zero_of_dvd (Nat.dvd_trans (by decide) (Nat.dvd_of_mod_eq_zero hfull))
  have hblock : (bs.length + 1) / 256 * 256 = bs.length + 1 :=
    Nat.div_mul_cancel (Nat.dvd_of_mod_eq_zero hzero)
  have hlast : chain.getD (chain.length - 1) 0 = fil.grow.currentSector := by
    have hlength := h.length
    rw [hlength, Nat.add_sub_cancel]
    exact h.current
  obtain ⟨t, mem', hfind, hfil, hadds, hstep⟩ := ampmFWriteSector_adds hw.step.faultless hgrow
    hw.owned hpos hlast (hlen.symm ▸ hlt) hok hfound
  have hall : WriterStep ff (ampmFWriteSector ff' fil.grow).2.2 chain ([] ++ [t]) :=
    hw.step.trans ((List.append_nil chain).symm ▸ hstep)
  refine ⟨[t], ⟨?_, hadds.nodup h.nodup, hadds.owned hw.owned,
    hadds.linked h.nodup h.lt hw.linked, ?_, ?_, fun k hk => ?_, fun j hj => ?_⟩,
    ⟨⟨hall.faultless, hall.found, hall.apart, hall.other⟩, fun k hlow hbound => ?_,
      fun k hlow hbound => ?_, fun total hle => ?_⟩⟩
  · rw [hfil]
    exact hgrow.moveTo hpos t h.current_lt
  · rw [hlen, hsector, List.length_append, List.length_singleton]
  · rw [hlen, hsector, hfil, getD_append_self]
    rfl
  · rw [hlen, hblock] at hk
    exact (hadds.cellOf_eq (htotal.symm ▸ hk)).trans (hw.data k hk)
  · rw [hlen, hzero] at hj
    exact absurd hj (Nat.not_lt_zero j)
  · rw [hblock, ← htotal] at hlow
    exact absurd hbound (Nat.not_lt.mpr hlow)
  · rw [List.length_append, List.length_singleton] at hbound
    exact hadds.blank hlow hbound
  · -- the cells behind the header of the new sector are erased
    have hnew : LinkTakes { (ampmFWriteSector ff' fil.grow).2.2 with fileBuf := buf }
        (ampmFWriteSector ff' fil.grow).2.1 (chain ++ [t]) total := by
      intro _ u _
      rw [hfil]
      refine takesBytes_of_blank fun i hi => hadds.wroteHeader.erased rfl _ ?_ ?_
      · rw [length_bytes] at hi
        exact Nat.lt_trans (Nat.add_lt_add_left hi _) (by decide)
      · rw [length_bytes]
        exact Nat.le_add_right _ _
    rw [and_iff_left hnew]
    exact ⟨fun hlink => hlink.mono hle, fun hlink _ => hlink (Nat.le_of_eq htotal)⟩

/-- **One byte** that is taken. -/
theorem OpenFile.byte (h : OpenFile ff fil chain bs) (hf : ff.flash.Faultless)
    (hlt : bs.length + 1 < 100000) (hok : (ampmFWriteByte ff fil c).1 = .frOk)
    (hfound : FoundInRange ff (ampmFWriteByte ff fil c).2.2) :
    ∃ more, OpenFile (ampmFWriteByte ff fil c).2.2 (ampmFWriteByte ff fil c).2.1 (chain ++ more)
        (bs ++ [c]) ∧
      ByteStep ff fil chain bs.length (ampmFWriteByte ff fil c).2.2 (ampmFWriteByte ff fil c).2.1
        more := by
  have hlt' := Nat.lt_of_succ_lt hlt
  have hoffset : fil.grow.fileOffset = bs.length + 1 := by
    rw [h.grow_eq hlt']
    rfl
  rw [ampmFWriteByte_eq, hoffset, h.offset] at hok hfound ⊢
  by_cases hfull : (bs.length + 1) % 256 = 0
  · rw [if_pos hfull] at hok hfound ⊢
    obtain ⟨ff', hw, hcases⟩ := ampmFWriteBlock_ok hok
    rw [hoffset] at hw hcases
    have hwritten := h.block_written hf hlt' hfull hw
    rcases hcases with ⟨hpart, heq⟩ | ⟨hswitch, hok', heq⟩
    · rw [heq]
      refine ⟨[], ?_⟩
      rw [List.append_nil]
      exact h.byte_block hlt' hfull hpart hwritten _
    · rw [heq] at hfound ⊢
      exact h.byte_sector hlt hswitch hwritten hok'
        ((foundInRange_congr hwritten.step.found_eq.symm rfl).mp hfound) _
  · rw [if_neg hfull]
    refine ⟨[], ?_⟩
    rw [List.append_nil]
    exact h.byte_buffered hf hlt' hfull c

end Byte

/-! ## Any number of bytes -/

section Run

variable {ff ff' : Ff} {fil fil' : AmpmFil} {chain more : List ℕ} {bs : List UInt8} {c : UInt8}

lemma blockStart_mono {m n : ℕ} (h : m ≤ n) : m / 256 * 256 ≤ n / 256 * 256 :=
  Nat.mul_le_mul_right _ (Nat.div_le_div_right h)

/-- The blocks of a run: that of the first byte, and those of the others. -/
lemma ByteStep.blocksTake_iff (h : ByteStep ff fil chain bs.length ff' fil' more)
    (cs : List UInt8) :
    BlocksTake ff.flash.mem chain bs.length (bs ++ c :: cs) ↔
      BlocksTake ff.flash.mem chain bs.length (bs ++ [c]) ∧
        BlocksTake ff'.flash.mem (chain ++ more) (bs.length + 1) (bs ++ [c] ++ cs) := by
  have hlen : (bs ++ [c]).length = bs.length + 1 := by simp
  have hbytes : bs ++ c :: cs = bs ++ [c] ++ cs := by simp
  have hle : (bs.length + 1) / 256 * 256 ≤ bs.length + 1 := Nat.div_mul_le_self _ _
  have hblock := blockStart_mono (Nat.le_succ bs.length)
  have hfirst : ∀ k < bs.length + 1, (bs ++ [c] ++ cs).getD k 0 = (bs ++ [c]).getD k 0 :=
    fun k hk => List.getD_append _ _ _ _ (hlen ▸ hk)
  have htotal : (bs.length + 1) / 256 * 256 ≤ (bs ++ [c] ++ cs).length / 256 * 256 := by
    refine blockStart_mono ?_
    rw [List.length_append, hlen]
    exact Nat.le_add_right _ _
  rw [hbytes]
  unfold BlocksTake
  rw [hlen]
  constructor
  · intro hall
    refine ⟨fun k hlow hhigh hbound => ?_, fun k hlow hhigh hbound => ?_⟩
    · rw [← hfirst k (Nat.lt_of_lt_of_le hhigh hle)]
      exact hall k hlow (Nat.lt_of_lt_of_le hhigh htotal) hbound
    · rcases Nat.lt_or_ge k (chain.length * diskSectorSize) with hold | hnew
      · rw [h.cells k hlow hold]
        exact hall k (Nat.le_trans hblock hlow) hhigh hold
      · rw [h.blank k hnew hbound]
        exact UInt8.neg_one_and
  · rintro ⟨hbyte, hrest⟩ k hlow hhigh hbound
    rcases Nat.lt_or_ge k ((bs.length + 1) / 256 * 256) with hnow | hlater
    · rw [hfirst k (Nat.lt_of_lt_of_le hnow hle)]
      exact hbyte k hlow hnow hbound
    · rw [← h.cells k hlater hbound]
      refine hrest k hlater hhigh (Nat.lt_of_lt_of_le hbound ?_)
      exact Nat.mul_le_mul_right _ (List.length_append ▸ Nat.le_add_right _ _)

/-- **Any number of bytes**: they are taken exactly if the cells that are programmed take them, and
a sector is found whenever one is needed. -/
theorem writeBytes_taken_iff :
    ∀ (cs : List UInt8) {ff : Ff} {fil : AmpmFil} {chain : List ℕ} {bs : List UInt8},
      OpenFile ff fil chain bs → ff.flash.Faultless → (bs ++ cs).length < 100000 →
      ((writeBytes cs fil ff).1 = .frOk ∧ FoundInRange ff (writeBytes cs fil ff).2.2 ↔
        BlocksTake ff.flash.mem chain bs.length (bs ++ cs) ∧
          LinkTakes ff fil chain (bs ++ cs).length ∧ FindsSectors cs fil ff)
  | [], ff, fil, chain, bs, h, _, _ => by
      refine iff_of_true ⟨rfl, FoundInRange.of_eq rfl⟩ ⟨fun k hlow hhigh => ?_, fun hfull => ?_,
        trivial⟩
      · rw [List.append_nil] at hhigh
        exact absurd hhigh (Nat.not_lt.mpr hlow)
      · have hlen := h.length
        rw [List.append_nil] at hfull
        unfold diskSectorSize at hlen hfull
        omega
  | c :: cs, ff, fil, chain, bs, h, hf, hlt => by
      have hbytes : bs ++ [c] ++ cs = bs ++ c :: cs := by simp
      have hlen : (bs ++ [c]).length = bs.length + 1 := by simp
      have hnext : bs.length + 1 ≤ (bs ++ c :: cs).length := by simp
      have hshort := Nat.lt_of_le_of_lt hnext hlt
      have hbyte := ampmFWriteByte_taken_iff h hf (Nat.lt_of_succ_lt hshort) c
      have hfinds : FindsSectors (c :: cs) fil ff ↔
          ((bs.length + 1) % diskSectorSize = 0 → FindsSector ff) ∧
            FindsSectors cs (ampmFWriteByte ff fil c).2.1 (ampmFWriteByte ff fil c).2.2 := by
        rw [FindsSectors, h.offset]
      rw [hfinds, writeBytes]
      by_cases htaken : (ampmFWriteByte ff fil c).1 = .frOk ∧
          FoundInRange ff (ampmFWriteByte ff fil c).2.2
      · obtain ⟨hblocks, hlink, hfind⟩ := hbyte.mp htaken
        obtain ⟨more, h', hstep⟩ := h.byte hf hshort htaken.1 htaken.2
        have ih := writeBytes_taken_iff cs h' hstep.step.faultless (hbytes.symm ▸ hlt)
        rw [hlen, hbytes] at ih
        rw [if_pos htaken.1, hstep.blocksTake_iff, and_iff_right hblocks, hstep.link _ hnext,
          and_iff_right hlink, and_iff_right hfind, hbytes, ← ih]
        refine and_congr_right fun hok => ⟨fun hfound => ?_, fun hfound => ?_⟩
        · exact (hfound.split (ampmFWriteByte_found htaken.1) (writeBytes_found cs _ _ hok)).2
        · exact htaken.2.trans hfound (ampmFWriteByte_found htaken.1) (writeBytes_found cs _ _ hok)
      · refine iff_of_false (fun hall => ?_) fun hall => ?_
        · by_cases hok : (ampmFWriteByte ff fil c).1 = .frOk
          · rw [if_pos hok] at hall
            exact htaken ⟨hok, (hall.2.split (ampmFWriteByte_found hok)
              (writeBytes_found cs _ _ hall.1)).1⟩
          · rw [if_neg hok] at hall
            exact hok hall.1
        · obtain ⟨hblocks, hlink, hfind, -⟩ := hall
          refine htaken (hbyte.mpr ⟨fun k hlow hhigh hbound => ?_, hlink.mono hnext, hfind⟩)
          have hk : k < (bs ++ [c]).length := Nat.lt_of_lt_of_le hhigh (Nat.div_mul_le_self _ _)
          have hlast : k < (bs ++ c :: cs).length / 256 * 256 :=
            Nat.lt_of_lt_of_le hhigh (blockStart_mono (hlen ▸ hnext))
          have hcell := hblocks k hlow hlast hbound
          rwa [← hbytes, List.getD_append _ _ _ _ hk] at hcell

/-- Whatever is appended, the cells of the last sector take it. -/
def Roomy (ff : Ff) (fil : AmpmFil) (chain : List ℕ) (bs : List UInt8) : Prop :=
  (∀ cs, BlocksTake ff.flash.mem chain bs.length (bs ++ cs)) ∧ ∀ total, LinkTakes ff fil chain total

lemma Roomy.byte (h : Roomy ff fil chain bs)
    (hstep : ByteStep ff fil chain bs.length ff' fil' more)
    (hopen : OpenFile ff' fil' (chain ++ more) (bs ++ [c])) :
    Roomy ff' fil' (chain ++ more) (bs ++ [c]) := by
  have hlen : (bs ++ [c]).length = bs.length + 1 := by simp
  refine ⟨fun cs => ?_, fun total => ?_⟩
  · rw [hlen]
    exact ((hstep.blocksTake_iff cs).mp (h.1 (c :: cs))).2
  · rcases Nat.lt_or_ge total (bs.length + 1) with hless | hge
    · -- the last sector is not full
      intro hfull
      have hlength := hopen.length
      rw [hlen] at hlength
      unfold diskSectorSize at hlength hfull
      omega
    · exact ((hstep.link total hge).mp (h.2 total)).2

/-- What is written if they are taken. -/
lemma OpenFile.bytes :
    ∀ (cs : List UInt8) {ff : Ff} {fil : AmpmFil} {chain : List ℕ} {bs : List UInt8},
      OpenFile ff fil chain bs → ff.flash.Faultless → (bs ++ cs).length < 100000 →
      (writeBytes cs fil ff).1 = .frOk → FoundInRange ff (writeBytes cs fil ff).2.2 →
      ∃ more, OpenFile (writeBytes cs fil ff).2.2 (writeBytes cs fil ff).2.1 (chain ++ more)
          (bs ++ cs) ∧
        WriterStep ff (writeBytes cs fil ff).2.2 chain more ∧
        (Roomy ff fil chain bs →
          Roomy (writeBytes cs fil ff).2.2 (writeBytes cs fil ff).2.1 (chain ++ more) (bs ++ cs))
  | [], ff, fil, chain, bs, h, hf, _, _, _ => by
      refine ⟨[], ?_, WriterStep.of_mem_eq hf rfl rfl, fun hroomy => ?_⟩
      · rwa [List.append_nil, List.append_nil]
      · rwa [List.append_nil, List.append_nil]
  | c :: cs, ff, fil, chain, bs, h, hf, hlt, hok, hfound => by
      have hbytes : bs ++ [c] ++ cs = bs ++ c :: cs := by simp
      have hnext : bs.length + 1 ≤ (bs ++ c :: cs).length := by simp
      rw [writeBytes] at hok hfound ⊢
      by_cases hbyte : (ampmFWriteByte ff fil c).1 = .frOk
      · rw [if_pos hbyte] at hok hfound ⊢
        have hsplit := hfound.split (ampmFWriteByte_found hbyte) (writeBytes_found cs _ _ hok)
        obtain ⟨more, h', hstep⟩ := h.byte hf (Nat.lt_of_le_of_lt hnext hlt) hbyte hsplit.1
        obtain ⟨more', h'', hstep', hroomy⟩ := OpenFile.bytes cs h' hstep.step.faultless
          (hbytes.symm ▸ hlt) hok hsplit.2
        rw [hbytes, List.append_assoc] at h'' hroomy
        exact ⟨more ++ more', h'', hstep.step.trans hstep', fun h => hroomy (h.byte hstep h')⟩
      · rw [if_neg hbyte] at hok
        exact absurd hok hbyte

end Run

/-! ## Enough sectors -/

section Spare

variable {ff ff' : Ff} {chain more : List ℕ} {spare : Finset ℕ}

/-- The sectors of the partition in `spare` have no header. -/
def Spare (ff : Ff) (spare : Finset ℕ) : Prop :=
  ∀ s ∈ spare, s < diskSectorMax ∧ formatCheck (filAt ff.flash.mem s 0) = false

lemma sectorValid_of_noHeader {mem : Memory} {s : ℕ} (h : formatCheck (filAt mem s 0) = false) :
    sectorValid mem s = false := by
  simp [sectorValid, h]

/-- The sectors that are left. -/
lemma Spare.step (h : Spare ff spare) (howned : Owned ff.flash.mem chain)
    (hstep : WriterStep ff ff' chain more) : Spare ff' (spare \ more.toFinset) := by
  intro s hs
  obtain ⟨hmem, hnot⟩ := Finset.mem_sdiff.mp hs
  obtain ⟨hlt, hfree⟩ := h s hmem
  have hchain : s ∉ chain := fun hin =>
    Bool.false_ne_true (hfree.symm.trans (howned s hin).2.1)
  have hout : s ∉ chain ++ more := fun hin =>
    (List.mem_append.mp hin).elim hchain fun hin => hnot (List.mem_toFinset.mpr hin)
  refine ⟨hlt, ?_⟩
  rw [(hstep.other s hout).filAt_eq hlt (by decide)]
  exact hfree

/-- **Enough sectors.**  By induction on the bytes: one of the sectors is lost to each sector that
is filled, and another one may be that which the search does not look at. -/
theorem findsSectors_of_spare :
    ∀ (cs : List UInt8) {ff : Ff} {fil : AmpmFil} {chain : List ℕ} {bs : List UInt8}
      {spare : Finset ℕ}, OpenFile ff fil chain bs → ff.flash.Faultless →
      Roomy ff fil chain bs → (bs ++ cs).length < 100000 → Spare ff spare →
      (bs ++ cs).length / diskSectorSize < spare.card + bs.length / diskSectorSize →
      FindsSectors cs fil ff := by
  intro cs
  induction cs with
  | nil => exact fun _ _ _ _ _ _ => trivial
  | cons c cs ih =>
      intro ff fil chain bs spare h hf hroomy hlt hspare hcard
      have hbytes : bs ++ [c] ++ cs = bs ++ c :: cs := by simp
      have hlen : (bs ++ [c]).length = bs.length + 1 := by simp
      have hall : (bs ++ c :: cs).length = bs.length + 1 + cs.length := by
        simp [Nat.add_right_comm, Nat.add_assoc]
      have hfind : (bs.length + 1) % diskSectorSize = 0 → FindsSector ff := by
        intro hfull
        have hmany : 1 < spare.card := by
          unfold diskSectorSize at hcard hfull
          omega
        obtain ⟨t, ht, hne⟩ :=
          Finset.exists_mem_ne hmany (ff.rand ff.drawn % diskSectorMax)
        exact ⟨t, (hspare t ht).1, hne, sectorValid_of_noHeader (hspare t ht).2⟩
      obtain ⟨hok, hfound⟩ := (ampmFWriteByte_taken_iff h hf (by omega) c).mpr
        ⟨hroomy.1 [c], hroomy.2 _, hfind⟩
      obtain ⟨more, h', hstep⟩ := h.byte hf (by omega) hok hfound
      have hmore : more.length + bs.length / diskSectorSize = (bs.length + 1) / diskSectorSize := by
        have hnow := h.length
        have hthen := h'.length
        rw [List.length_append, hlen] at hthen
        omega
      have hleft := Finset.le_card_sdiff more.toFinset spare
      have hlost := List.toFinset_card_le more
      refine ⟨?_, ih h' hstep.step.faultless (hroomy.byte hstep h')
        (by rwa [hbytes]) (hspare.step h.owned hstep.step) ?_⟩
      · rw [h.offset]
        exact hfind
      · rw [hbytes, hlen]
        omega

end Spare

/-! ## The main result -/

/-- What is asked of a call: it ends with `FR_OK`, and the file has the bytes behind those that it
had.  The sectors that were found are those that it has more. -/
def Appends (ff : Ff) (fil : AmpmFil) (chain : List ℕ) (bs buff : List UInt8) : Prop :=
  ∃ fuel more, (ampmFWrite fuel ff fil buff).1 = some .frOk ∧
    (ampmFWrite fuel ff fil buff).2.2.found = ff.found ++ more ∧
    OpenFile (ampmFWrite fuel ff fil buff).2.2 (ampmFWrite fuel ff fil buff).2.1 (chain ++ more)
      (bs ++ buff)

section Call

variable {ff : Ff} {fil : AmpmFil} {chain : List ℕ} {bs buff : List UInt8}

/-- A loop that ends has taken all bytes, or those up to one that was refused. -/
lemma ampmFWriteLoop_some {r : AmpmFResult} (hlen : buff.length < 2 ^ 16) :
    ∀ (fuel i : ℕ) (fil : AmpmFil) (ff : Ff), i ≤ buff.length →
      (ampmFWriteLoop buff buff.length fuel i fil ff).1 = some r →
      writeBytes (buff.drop i) fil ff = (r, (ampmFWriteLoop buff buff.length fuel i fil ff).2)
  | 0, _, _, _, _, hend => by cases hend
  | fuel + 1, i, fil, ff, hi, hend => by
      rcases Nat.lt_or_eq_of_le hi with hlt | rfl
      · rw [drop_eq_getD_cons hlt, writeBytes]
        rw [ampmFWriteLoop, if_pos hlt] at hend ⊢
        have hnext : (i + 1) % 2 ^ 16 = i + 1 := Nat.mod_eq_of_lt (by omega)
        rcases hbyte : ampmFWriteByte ff fil (buff.getD i 0) with ⟨_ | _, fil', ff'⟩
        · simp only [hbyte, hnext, if_true] at hend ⊢
          exact ampmFWriteLoop_some hlen fuel (i + 1) fil' ff' hlt hend
        · simp only [hbyte] at hend
          obtain rfl := Option.some.inj hend
          rfl
      · rw [ampmFWriteLoop, if_neg (Nat.lt_irrefl _)] at hend ⊢
        obtain rfl := Option.some.inj hend
        rw [List.drop_length]
        rfl

lemma OpenFile.handleOk (h : OpenFile ff fil chain bs) (hlt : bs.length < 100000) :
    handleOk fil = true := by
  have hstart : fil.startSector ∈ chain := h.start ▸ getD_mem h.length_pos
  have hsize := h.size
  have hoffset := h.offset
  exact (handleOk_iff fil).mpr ⟨h.lt _ hstart, h.current_lt, h.previous_lt, h.named, by omega,
    by omega, by omega, Nat.le_of_eq h.permission_eq⟩

lemma OpenFile.ampmFWrite_eq (h : OpenFile ff fil chain bs) (hlt : bs.length < 100000)
    (fuel : ℕ) : ampmFWrite fuel ff fil buff = ampmFWriteLoop buff buff.length fuel 0 fil ff := by
  rw [ampmFWrite, h.handleOk hlt, h.permission_eq]
  rfl

/-- **A call of `ampm_f_write`** on a handle at the end of its file, on a flash that does not fail:
it appends the bytes exactly if they are less than 65536, a sector is found whenever one is needed,
and the cells that are programmed in the last sector of the file take what is written there. -/
theorem ampmFWrite_appends_iff (h : OpenFile ff fil chain bs) (hf : ff.flash.Faultless)
    (hlt : bs.length + buff.length < 100000) :
    Appends ff fil chain bs buff ↔
      buff.length < 65536 ∧ FindsSectors buff fil ff ∧
        BlocksTake ff.flash.mem chain bs.length (bs ++ buff) ∧
        LinkTakes ff fil chain (bs ++ buff).length := by
  have hshort : bs.length < 100000 := Nat.lt_of_le_of_lt (Nat.le_add_right _ _) hlt
  have hlt' : (bs ++ buff).length < 100000 := by rwa [List.length_append]
  have htaken := writeBytes_taken_iff buff h hf hlt'
  constructor
  · rintro ⟨fuel, more, hok, hfound, hopen⟩
    have hlen : buff.length < 2 ^ 16 := by
      by_contra hlong
      exact ampmFWrite_long (Nat.not_lt.mp hlong) hok
    rw [h.ampmFWrite_eq hshort] at hok hfound hopen
    have heq := ampmFWriteLoop_some hlen fuel 0 fil ff (Nat.zero_le _) hok
    rw [List.drop_zero] at heq
    have hok' : (writeBytes buff fil ff).1 = .frOk := congrArg Prod.fst heq
    rw [← congrArg Prod.snd heq] at hfound hopen
    have hrange : FoundInRange ff (writeBytes buff fil ff).2.2 := by
      intro s hs
      rw [hfound, List.drop_left] at hs
      exact hopen.lt s (List.mem_append_right _ hs)
    obtain ⟨hblocks, hlink, hfinds⟩ := htaken.mp ⟨hok', hrange⟩
    exact ⟨hlen, hfinds, hblocks, hlink⟩
  · rintro ⟨hlen, hfinds, hblocks, hlink⟩
    obtain ⟨hok, hrange⟩ := htaken.mpr ⟨hblocks, hlink, hfinds⟩
    obtain ⟨more, hopen, hstep, -⟩ := h.bytes buff hf hlt' hok hrange
    have hloop := ampmFWriteLoop_eq hlen (buff.length + 1) 0 fil ff (Nat.zero_le _)
      (Nat.lt_succ_self _)
    rw [List.drop_zero] at hloop
    refine ⟨buff.length + 1, more, ?_⟩
    rw [h.ampmFWrite_eq hshort, hloop]
    exact ⟨congrArg some hok, hstep.found, hopen⟩

end Call

/-! ## Files that were created -/

section Created

variable {ff ff' : Ff} {fil fil' : AmpmFil} {fileName : List UInt8} {mode : UInt8}

/-- The sector of a file that was created is erased behind the header. -/
lemma ampmFOpen_roomy (hf : ff.flash.Faultless)
    (hcreated : (ampmFOpen ff fil fileName mode).created = true)
    (hlt : (ampmFOpen ff fil fileName mode).fil.startSector < diskSectorMax) :
    Roomy (ampmFOpen ff fil fileName mode).ff (ampmFOpen ff fil fileName mode).fil
      [(ampmFOpen ff fil fileName mode).fil.startSector] [] := by
  obtain ⟨i, as, r, ff', hin, hfree, hw, heq⟩ := ampmFOpen_created hcreated
  rw [heq] at hlt ⊢
  have hwritten := writeFil_written hw hf (Nat.le_of_lt hlt) (by decide)
  have herased : ∀ x < 4096, sizeofAmpmFil ≤ x → ff'.flash.mem (sectorStart i + x) = 0xFF :=
    fun x hx hlow => hwritten.wroteAt.erased rfl x hx (by rwa [length_bytes])
  refine ⟨fun cs k _ _ hbound => ?_, fun total _ t _ => takesBytes_of_blank fun j hj => ?_⟩
  · have hsector : k / diskSectorSize = 0 := Nat.div_eq_of_lt (by simpa using hbound)
    have hcell : ff'.flash.mem (cellOf [i] k) = 0xFF := by
      rw [cellOf, hsector]
      exact herased _ (mod_add_lt k) (Nat.le_trans (by decide) (Nat.le_add_right _ _))
    exact hcell.symm ▸ UInt8.neg_one_and
  · rw [length_bytes] at hj
    exact herased _ (Nat.lt_trans (Nat.add_lt_add_left hj _) (by decide)) (Nat.le_add_right _ _)

/-- Calls of `ampm_f_write` one after another. -/
lemma writeAll_openFile (chunks : List (List UInt8)) {chain : List ℕ} {bs : List UInt8}
    (h : OpenFile ff fil chain bs) (hroomy : Roomy ff fil chain bs) (hf : ff.flash.Faultless)
    (hlen : ∀ c ∈ chunks, c.length < 2 ^ 16) (hlt : (bs ++ chunks.flatten).length < 100000)
    (hrun : writeAll chunks fil ff = some (fil', ff')) (hfound : FoundInRange ff ff') :
    ∃ more, OpenFile ff' fil' (chain ++ more) (bs ++ chunks.flatten) ∧
      Roomy ff' fil' (chain ++ more) (bs ++ chunks.flatten) ∧ ff'.flash.Faultless := by
  induction chunks generalizing ff fil chain bs with
  | nil =>
      obtain ⟨rfl, rfl⟩ := Prod.mk.inj (Option.some.inj hrun)
      refine ⟨[], ?_, ?_, hf⟩
      · rwa [List.append_nil, List.flatten_nil, List.append_nil]
      · rwa [List.append_nil, List.flatten_nil, List.append_nil]
  | cons c cs ih =>
      have hc := hlen c List.mem_cons_self
      have hcs : ∀ d ∈ cs, d.length < 2 ^ 16 := fun d hd => hlen d (List.mem_cons_of_mem _ hd)
      rw [writeAll] at hrun
      split_ifs at hrun with hok
      obtain ⟨-, hok', heq⟩ := ampmFWrite_ok hc hc hok
      rw [heq] at hrun
      have hsplit := hfound.split (writeBytes_found c fil ff hok') (writeAll_found cs hcs hrun)
      rw [List.flatten_cons, ← List.append_assoc] at hlt ⊢
      have hle : (bs ++ c).length ≤ (bs ++ c ++ cs.flatten).length := by simp
      obtain ⟨more, h', hstep, hroomy'⟩ :=
        h.bytes c hf (Nat.lt_of_le_of_lt hle hlt) hok' hsplit.1
      obtain ⟨more', h'', hroomy'', hf''⟩ :=
        ih h' (hroomy' hroomy) hstep.faultless hcs hlt hrun hsplit.2
      rw [List.append_assoc] at h'' hroomy''
      exact ⟨more ++ more', h'', hroomy'', hf''⟩

/-- **Files that were created** and written: only the counter and the free sectors matter. -/
theorem ampmFWrite_created_iff (hf : ff.flash.Faultless) (hname : FileName fileName)
    (chunks : List (List UInt8)) (hlen : ∀ c ∈ chunks, c.length < 65536)
    (htotal : chunks.flatten.length < 100000)
    (hopen : (ampmFOpen ff fil fileName mode).ret = .frOk)
    (hcreated : (ampmFOpen ff fil fileName mode).created = true)
    (hlt : (ampmFOpen ff fil fileName mode).fil.startSector < diskSectorMax)
    (hwrites : writeAll chunks (ampmFOpen ff fil fileName mode).fil
      (ampmFOpen ff fil fileName mode).ff = some (fil', ff'))
    (hfound : FoundInRange (ampmFOpen ff fil fileName mode).ff ff') :
    ∃ chain, OpenFile ff' fil' chain chunks.flatten ∧
      ∀ buff : List UInt8, chunks.flatten.length + buff.length < 100000 →
        (Appends ff' fil' chain chunks.flatten buff ↔
          buff.length < 65536 ∧ FindsSectors buff fil' ff') := by
  obtain ⟨hw, hf', -, -, -⟩ := ampmFOpen_writing hf hname hopen hcreated hlt
  have hstart := hw.openFile fun j hj => absurd hj (Nat.not_lt_zero j)
  obtain ⟨more, hopen', ⟨hblocks, hlink⟩, hf''⟩ := writeAll_openFile chunks hstart
    (ampmFOpen_roomy hf hcreated hlt) hf' hlen htotal hwrites hfound
  rw [List.nil_append] at hopen' hblocks
  refine ⟨_, hopen', fun buff hbuff => ?_⟩
  rw [ampmFWrite_appends_iff hopen' hf'' hbuff]
  exact and_congr_right fun _ => and_iff_left ⟨hblocks buff, hlink _⟩

end Created

/-! ### A file of two sectors, and one of 65536 bytes -/

lemma openedA_open : OpenFile openedA.ff openedA.fil [0] [] :=
  openedA_writing.1.openFile fun j hj => absurd hj (Nat.not_lt_zero j)

/-- The sectors 1 and 2 are erased. -/
lemma openedA_spare : Spare openedA.ff {1, 2} := by
  unfold Spare
  decide +kernel

/-- The bytes of a sector, and one more. -/
def longText : List UInt8 := List.replicate 3841 7

lemma length_longText : longText.length = 3841 := List.length_replicate

/-- The first sector is filled, and another one is found. -/
theorem ampmFWrite_appends_filled : Appends openedA.ff openedA.fil [0] [] longText := by
  have hroomy : Roomy openedA.ff openedA.fil [0] [] := by
    have hstart : openedA.fil.startSector = 0 := by decide +kernel
    have hopened : Roomy openedA.ff openedA.fil [openedA.fil.startSector] [] :=
      ampmFOpen_roomy (fun _ => rfl) (by decide +kernel) (by decide +kernel)
    rwa [hstart] at hopened
  have hlen := length_longText
  have hfinds : FindsSectors longText openedA.fil openedA.ff := by
    refine findsSectors_of_spare longText openedA_open (fun _ => rfl) hroomy ?_ openedA_spare ?_
    · rw [List.nil_append, hlen]
      decide
    · rw [List.nil_append, hlen]
      decide
  refine (ampmFWrite_appends_iff openedA_open (fun _ => rfl) ?_).mpr
    ⟨?_, hfinds, hroomy.1 _, hroomy.2 _⟩
  · rw [hlen]
    decide
  · rw [hlen]
    decide

/-- All other sectors are erased. -/
lemma openedA_free {s : ℕ} (hs : s < diskSectorMax) (hne : s ≠ 0) :
    sectorValid openedA.ff.flash.mem s = false := by
  refine sectorValid_of_erased fun k hk => ?_
  have haddr : devAddr (ffAddr s 0) = sectorStart s + 0 := devAddr_ffAddr hs (by decide)
  rw [haddr, Nat.add_zero]
  exact openedA_writing.2.2 s hne k (Nat.lt_trans hk (by decide))

/-- The counter of 16 bits never gets to 65536, though all other sectors are free. -/
theorem ampmFWrite_never_appends : ¬ ∀ (ff : Ff) (fil : AmpmFil) (chain : List ℕ)
    (bs buff : List UInt8), OpenFile ff fil chain bs → ff.flash.Faultless →
    bs.length + buff.length < 100000 →
    (∀ s < diskSectorMax, s ∉ chain → sectorValid ff.flash.mem s = false) →
    Appends ff fil chain bs buff := by
  intro h
  have hlen : (List.replicate 65536 (0 : UInt8)).length = 65536 := List.length_replicate
  obtain ⟨fuel, more, hok, -⟩ := h openedA.ff openedA.fil [0] [] (List.replicate 65536 0)
    openedA_open (fun _ => rfl) (by rw [hlen]; decide) fun s hs hne =>
      openedA_free hs fun heq => hne (List.mem_singleton.mpr heq)
  exact ampmFWrite_long (Nat.le_of_eq hlen.symm) hok

end Ampm
