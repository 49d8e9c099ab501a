import AmpmGsm.Flash.Writer
import Mathlib.Data.List.TakeWhile

/-!
# Opening, writing and closing

* `ampmFClose_spec` — closing a file that is being written.
* `ampmFOpen_writing` — a file that was just created.
* `writeAll`, `writeAll_spec` — a file that is written by any number of calls.
-/

namespace Ampm

open NorFlash

/-! ## Closing -/

section Close

variable {ff : Ff} {fil : AmpmFil} {chain : List ℕ} {bs : List UInt8}

@[simp] lemma closing_startSector (fil : AmpmFil) (nextSector : ℕ) :
    (fil.closing nextSector).startSector = fil.startSector := rfl

/-- What happens to a handle that passes the test and is open for writing. -/
lemma ampmFClose_run (ff : Ff) (hhandle : handleOk fil = true) (hpermission : fil.permission = 2) :
    ∃ r ff' r' ff'', ampmFlashWrite ff (ffAddr fil.currentSector
        (sub32 fil.fileOffset (fil.fileSize % 256) % diskSectorSize + 256)) ff.buffer = (r, ff') ∧
      writeFil (ff'.logged [.read (ffAddr fil.startSector sizeofAmpmFil) sizeofAmpmFil])
        fil.startSector (2 * sizeofAmpmFil)
        (fil.closing (filAt ff'.flash.mem fil.startSector sizeofAmpmFil).nextSector) = (r', ff'') ∧
      (r' = .frOk → ampmFClose ff fil = (.frOk,
        (fil.closing (filAt ff'.flash.mem fil.startSector sizeofAmpmFil).nextSector).clearName,
        ff'')) ∧
      (r' = .frErr → (ampmFClose ff fil).1 = .frErr ∧
        (ampmFClose ff fil).2.2 = ampmFlashEraseSector ff'' (ffAddr fil.startSector 0)) := by
  unfold ampmFClose
  rcases hw : ampmFlashWrite ff (ffAddr fil.currentSector
    (sub32 fil.fileOffset (fil.fileSize % 256) % diskSectorSize + 256)) ff.buffer with ⟨r, ff'⟩
  rcases hc : writeFil (ff'.logged [.read (ffAddr fil.startSector sizeofAmpmFil) sizeofAmpmFil])
    fil.startSector (2 * sizeofAmpmFil)
    (fil.closing (filAt ff'.flash.mem fil.startSector sizeofAmpmFil).nextSector)
    with ⟨r', ff''⟩
  refine ⟨r, ff', r', ff'', rfl, hc, ?_, ?_⟩
  · rintro rfl
    simp only [if_pos hhandle, if_pos hpermission, hw, readFil_eq, closing_startSector, hc]
  · rintro rfl
    simp only [if_pos hhandle, if_pos hpermission, hw, readFil_eq, closing_startSector, hc]
    exact ⟨trivial, trivial⟩

/-- What has happened if `FR_OK` is returned for a file that is being written. -/
lemma ampmFClose_ok (hpermission : fil.permission = 2) (hok : (ampmFClose ff fil).1 = .frOk) :
    handleOk fil = true ∧
    ∃ r ff' ff'' next, ampmFlashWrite ff (ffAddr fil.currentSector
        (sub32 fil.fileOffset (fil.fileSize % 256) % diskSectorSize + 256)) ff.buffer = (r, ff') ∧
      next = (filAt ff'.flash.mem fil.startSector sizeofAmpmFil).nextSector ∧
      writeFil (ff'.logged [.read (ffAddr fil.startSector sizeofAmpmFil) sizeofAmpmFil])
        fil.startSector (2 * sizeofAmpmFil) (fil.closing next) = (.frOk, ff'') ∧
      ampmFClose ff fil = (.frOk, (fil.closing next).clearName, ff'') := by
  have hhandle : handleOk fil = true := by
    by_contra hno
    rw [ampmFClose, if_neg hno] at hok
    exact AmpmFResult.noConfusion hok
  obtain ⟨r, ff', r', ff'', hw, hc, hends, hfails⟩ := ampmFClose_run ff hhandle hpermission
  cases r' with
  | frOk => exact ⟨hhandle, r, ff', ff'', _, hw, rfl, hc, hends rfl⟩
  | frErr => exact AmpmFResult.noConfusion ((hfails rfl).1.symm.trans hok)

lemma ampmFClose_found (ff : Ff) (fil : AmpmFil) : (ampmFClose ff fil).2.2.found = ff.found := by
  simp only [ampmFClose]
  split_ifs
  · split <;> rfl
  · rfl
  · rfl

/-- Only the bytes that are on the flash matter. -/
lemma FileCells.congr_bytes {mem : Memory} {flushed : ℕ} {bs' : List UInt8}
    (h : FileCells mem chain bs flushed) (hbytes : ∀ k < flushed, bs.getD k 0 = bs'.getD k 0) :
    FileCells mem chain bs' flushed :=
  ⟨h.nodup, h.owned, h.linked, fun k hk => (h.data k hk).trans (hbytes k hk), h.blank⟩

/-- The last block, which need not be full.  The cells are erased, so that the bytes are there
whatever the comparison says. -/
lemma Writing.lastBlock {ff' : Ff} {r : AmpmFResult} (h : Writing ff.flash.mem fil chain bs)
    (hf : ff.flash.Faultless) (hlt : bs.length < 2 ^ 32)
    (hw : ampmFlashWrite ff (ffAddr fil.currentSector
      (sub32 fil.fileOffset (fil.fileSize % 256) % diskSectorSize + 256)) ff.buffer = (r, ff')) :
    FileCells ff'.flash.mem chain (bs.take (bs.length / 256 * 256) ++ ff.buffer)
        (bs.length / 256 * 256 + 256) ∧
      WriterStep ff ff' chain [] := by
  have hplace : sub32 fil.fileOffset (fil.fileSize % 256) % diskSectorSize + 256 =
      256 + bs.length / 256 * 256 % diskSectorSize := by
    rw [h.offset, h.size, sub32]
    unfold diskSectorSize
    omega
  have hsector : bs.length / diskSectorSize = bs.length / 256 * 256 / diskSectorSize := by
    unfold diskSectorSize
    omega
  have hlength := h.length
  have hin : bs.length / 256 * 256 + 256 ≤ chain.length * diskSectorSize := by
    unfold diskSectorSize at hlength ⊢
    omega
  have hin' : bs.length / 256 * 256 < chain.length * diskSectorSize := by omega
  have hmem := h.current_mem
  have hcurrent : fil.currentSector = chain.getD (bs.length / 256 * 256 / diskSectorSize) 0 := by
    rw [← hsector, h.current]
  have hblock : bs.length / 256 * 256 % 256 = 0 := Nat.mul_mod_left _ _
  have hoff : 256 + bs.length / 256 * 256 % diskSectorSize + 256 ≤ 4096 := by
    unfold diskSectorSize
    omega
  have htake : (bs.take (bs.length / 256 * 256)).length = bs.length / 256 * 256 :=
    List.length_take_of_le (Nat.div_mul_le_self _ _)
  rw [hplace] at hw
  have hwritten := ampmFlashWrite_written hw hf (Nat.le_of_lt (h.cells.lt _ hmem))
    (Nat.le_of_eq (length_buffer _)) (by omega) (by rwa [length_buffer])
  have hstored : StoredAt fil.currentSector (256 + bs.length / 256 * 256 % diskSectorSize)
      ff.buffer ff'.flash.mem := by
    refine hwritten.wroteAt.blank fun i hi => ?_
    rw [length_buffer] at hi
    rw [hcurrent, ← cellOf_block hblock hi]
    exact h.cells.blank _ (Nat.le_add_right _ _) (Nat.lt_of_lt_of_le (Nat.add_lt_add_left hi _) hin)
  have hcells : FileCells ff.flash.mem chain (bs.take (bs.length / 256 * 256) ++ ff.buffer)
      (bs.length / 256 * 256) := by
    refine h.cells.congr_bytes fun k hk => ?_
    rw [List.getD_append _ _ _ _ (Nat.lt_of_lt_of_eq hk htake.symm), List.getD_eq_getElem?_getD,
      List.getD_eq_getElem?_getD, List.getElem?_take_of_lt hk]
  refine ⟨hcells.writeBlock (length_buffer _) hblock hin' (hcurrent ▸ hwritten.wroteAt)
    (hcurrent ▸ hstored) fun j _ => ?_, WriterStep.of_wroteAt hwritten.faultless
      (ampmFlashWrite_found hw) hmem hwritten.wroteAt⟩
  have hge : (bs.take (bs.length / 256 * 256)).length ≤ bs.length / 256 * 256 + j :=
    Nat.le_trans (Nat.le_of_eq htake) (Nat.le_add_right _ _)
  rw [List.getD_append_right _ _ _ _ hge, htake, Nat.add_sub_cancel_left]

/-- The bytes on the flash, with those in the buffer. -/
lemma getD_take_buffer (hbuf : Pending ff.fileBuf bs) {k : ℕ} (hk : k < bs.length) :
    (bs.take (bs.length / 256 * 256) ++ ff.buffer).getD k 0 = bs.getD k 0 := by
  have htake : (bs.take (bs.length / 256 * 256)).length = bs.length / 256 * 256 :=
    List.length_take_of_le (Nat.div_mul_le_self _ _)
  rcases Nat.lt_or_ge k (bs.length / 256 * 256) with hold | hnew
  · rw [List.getD_append _ _ _ _ (Nat.lt_of_lt_of_eq hold htake.symm), List.getD_eq_getElem?_getD,
      List.getD_eq_getElem?_getD, List.getElem?_take_of_lt hold]
  · obtain ⟨j, rfl⟩ := Nat.exists_eq_add_of_le hnew
    rw [List.getD_append_right _ _ _ _ (Nat.le_trans (Nat.le_of_eq htake) hnew), htake,
      Nat.add_sub_cancel_left, getD_buffer ff (by omega)]
    exact hbuf j (by omega)

/-- **Closing.**  What was written is on the flash, and no other sector was touched. -/
theorem ampmFClose_spec (hf : ff.flash.Faultless) (h : Writing ff.flash.mem fil chain bs)
    (hbuf : Pending ff.fileBuf bs) (hok : (ampmFClose ff fil).1 = .frOk) :
    ClosedFile (ampmFClose ff fil).2.2.flash.mem fil.startSector chain bs ∧
      Owned (ampmFClose ff fil).2.2.flash.mem chain ∧
      WriterStep ff (ampmFClose ff fil).2.2 chain [] ∧
      (ampmFClose ff fil).2.2.fileBuf = ff.fileBuf := by
  obtain ⟨hhandle, r, ff', ff'', next, hw, -, hc, heq⟩ := ampmFClose_ok h.permission_eq hok
  have hsize := ((handleOk_iff fil).mp hhandle).size_le
  rw [h.size] at hsize
  have hlt : bs.length < 2 ^ 32 := Nat.lt_of_le_of_lt hsize (by decide)
  rw [heq]
  obtain ⟨hcells, hstep⟩ := h.lastBlock hf hlt hw
  have hstart := h.start_mem
  have hstartLt := h.cells.lt _ hstart
  have hwritten := writeFil_written hc hstep.faultless (Nat.le_of_lt hstartLt) (by decide)
  have hkeep := hcells.wroteBehind hwritten.wroteAt (by decide) (by decide)
  have hfound := ampmFlashWrite_found hc
  have hstep' : WriterStep ff' ff'' chain [] :=
    WriterStep.of_wroteAt hwritten.faultless hfound hstart hwritten.wroteAt
  refine ⟨⟨h.start, h.length, h.cells.lt, hkeep.2, fun k hk => ?_, ?_⟩, hkeep.1,
    hstep.trans ((List.append_nil chain).symm ▸ hstep'), ?_⟩
  · have hkept : ff''.flash.mem (cellOf chain k) = ff'.flash.mem (cellOf chain k) := by
      by_cases hsector : chain.getD (k / diskSectorSize) 0 = fil.startSector
      · rw [cellOf, hsector]
        refine hwritten.wroteAt.outside (by decide) _ (mod_add_lt k) (Or.inr ?_)
        rw [length_bytes]
        exact Nat.le_trans (by decide) (Nat.le_add_right _ _)
      · exact cellOf_same (hwritten.wroteAt.other _ hsector)
    rw [hkept, hcells.data k (by omega)]
    exact getD_take_buffer hbuf hk
  · have hword := (hwritten.stored rfl).word_eq hstartLt (by decide) (j := 7) (by decide)
      (show fil.fileSize < 2 ^ 32 from h.size ▸ hlt)
    exact hword.trans h.size
  · have hbuf' : ff'.fileBuf = ff.fileBuf := by
      rw [← (Prod.mk.inj hw).2]
    exact hwritten.fileBuf.trans hbuf'

end Close

/-! ## Opening -/

/-- A name as the file system takes them. -/
structure FileName (fileName : List UInt8) : Prop where
  nonempty : fileName ≠ []
  length_le : fileName.length ≤ 28
  terminated : 0 ∉ fileName

section Open

variable {ff : Ff} {fil : AmpmFil} {fileName : List UInt8} {mode : UInt8}

lemma FileName.setName_named (h : FileName fileName) (fil : AmpmFil) :
    (fil.setName fileName).fileName 0 ≠ 0 := by
  obtain ⟨c, cs, rfl⟩ := List.exists_cons_of_ne_nil h.nonempty
  intro hzero
  have hc : c = 0 := hzero
  exact h.terminated (hc ▸ List.mem_cons_self)

/-- The terminating zero is in the name. -/
lemma FileName.nameLength_lt (h : FileName fileName) (fil : AmpmFil) :
    (fil.setName fileName).nameLength < 32 - 3 := by
  have hle := h.length_le
  have hend : (fil.setName fileName).fileName fileName.length = 0 :=
    (if_pos (Nat.le_refl _)).trans (List.getD_eq_default _ _ (Nat.le_refl _))
  rw [AmpmFil.nameLength]
  by_contra hlong
  have hlt : fileName.length < ((List.range 31).map (fil.setName fileName).fileName
      |>.takeWhile (· ≠ 0)).length := by omega
  have hne := List.mem_takeWhile_imp (List.getElem_mem hlt)
  rw [List.IsPrefix.getElem (List.takeWhile_prefix _) hlt, List.getElem_map, List.getElem_range,
    hend] at hne
  exact absurd hne (by decide)

/-- A file that was created, if its sector is one of the partition. -/
theorem ampmFOpen_writing (hf : ff.flash.Faultless) (hname : FileName fileName)
    (hok : (ampmFOpen ff fil fileName mode).ret = .frOk)
    (hcreated : (ampmFOpen ff fil fileName mode).created = true)
    (hlt : (ampmFOpen ff fil fileName mode).fil.startSector < diskSectorMax) :
    Writing (ampmFOpen ff fil fileName mode).ff.flash.mem (ampmFOpen ff fil fileName mode).fil
        [(ampmFOpen ff fil fileName mode).fil.startSector] [] ∧
      (ampmFOpen ff fil fileName mode).ff.flash.Faultless ∧
      (ampmFOpen ff fil fileName mode).ff.found = ff.found ∧
      (∀ ds, Owned ff.flash.mem ds →
        (ampmFOpen ff fil fileName mode).fil.startSector ∉ ds) ∧
      ∀ s, s ≠ (ampmFOpen ff fil fileName mode).fil.startSector →
        SameSector s ff.flash.mem (ampmFOpen ff fil fileName mode).ff.flash.mem := by
  obtain ⟨i, as, r, ff', hin, hfree, hw, heq⟩ := ampmFOpen_created hcreated
  rw [heq] at hok hlt ⊢
  have hwritten := writeFil_written hw hf (Nat.le_of_lt hlt) (by decide)
  have hfound := ampmFlashWrite_found hw
  have hnamed := hname.setName_named (headerAt ff.flash.mem i)
  have hnameLength := hname.nameLength_lt (headerAt ff.flash.mem i)
  have hheader : WellFormed (newFil (headerAt ff.flash.mem i) fileName i) :=
    ⟨hnamed, hlt, hlt, hlt, (checksum_seal _).symm, rfl, Nat.le_refl 0,
      show 0 < 100000 by decide, show 2 ≤ 0xff by decide, hnameLength⟩
  have hstored := hwritten.stored hok
  have hstart := hstored.word_eq hlt (by decide) (j := 0) (by decide)
    (Nat.lt_trans hlt (by decide))
  have howned : Owned ff'.flash.mem [i] := by
    intro s hs
    obtain rfl := List.mem_singleton.mp hs
    exact ⟨hlt, hstored.formatCheck hlt (by decide) hheader, List.mem_singleton.mpr hstart⟩
  refine ⟨⟨⟨rfl, rfl, rfl, hlt, hnamed, hnameLength, rfl, rfl⟩,
    ⟨List.nodup_singleton i, howned, fun k hk => ?_, fun k hk => ?_, fun k _ hk => ?_⟩, rfl, rfl⟩,
    hwritten.faultless, hfound, fun ds howned hds => ?_, fun s hs => hwritten.wroteAt.other s hs⟩
  · exact absurd hk (by simp)
  · exact absurd hk (by simp)
  · have hsector : k / diskSectorSize = 0 := Nat.div_eq_of_lt (by simpa using hk)
    rw [cellOf, hsector]
    refine hwritten.wroteAt.erased rfl _ (mod_add_lt k) ?_
    rw [length_bytes]
    exact Nat.le_trans (by decide) (Nat.le_add_right _ _)
  · exact Bool.false_ne_true (hfree.symm.trans (howned.sectorValid hds))

end Open

/-! ## Writing -/

/-- Calls of `ampm_f_write` one after another, if all of them return `FR_OK`.  None of less than
65536 bytes goes round more often than this. -/
def writeAll : List (List UInt8) → AmpmFil → Ff → Option (AmpmFil × Ff)
  | [], fil, ff => some (fil, ff)
  | c :: cs, fil, ff =>
      let r := ampmFWrite (2 ^ 16) ff fil c
      if r.1 = some .frOk then writeAll cs r.2.1 r.2.2 else none

section Write

variable {ff : Ff} {fil : AmpmFil} {chain : List ℕ} {bs : List UInt8}

/-- A call that returns `FR_OK` has taken all bytes. -/
lemma ampmFWrite_ok {fuel : ℕ} {buff : List UInt8} (hlen : buff.length < 2 ^ 16)
    (hfuel : buff.length < fuel) (hok : (ampmFWrite fuel ff fil buff).1 = some .frOk) :
    handleOk fil = true ∧ (writeBytes buff fil ff).1 = .frOk ∧
      (ampmFWrite fuel ff fil buff).2 = (writeBytes buff fil ff).2 := by
  unfold ampmFWrite at hok ⊢
  split_ifs at hok ⊢ with hhandle
  · rw [ampmFWriteLoop_eq hlen fuel 0 fil ff (Nat.zero_le _) hfuel, List.drop_zero] at hok ⊢
    exact ⟨(Bool.and_eq_true _ _ ▸ hhandle).1, Option.some.inj hok, rfl⟩
  · exact AmpmFResult.noConfusion (Option.some.inj hok)

lemma ampmFWrite_of_not_ok {fuel : ℕ} {buff : List UInt8} (h : handleOk fil = false) :
    (ampmFWrite fuel ff fil buff).1 = some .frErr := by
  rw [ampmFWrite, h, Bool.false_and, if_neg Bool.false_ne_true]

/-- The counter of 16 bits does not get to the end of more bytes. -/
lemma ampmFWriteLoop_long {buff : List UInt8} (hlen : 2 ^ 16 ≤ buff.length) :
    ∀ (fuel i : ℕ) (fil : AmpmFil) (ff : Ff), i < 2 ^ 16 →
      (ampmFWriteLoop buff buff.length fuel i fil ff).1 ≠ some .frOk
  | 0, _, _, _, _ => fun h => by cases h
  | fuel + 1, i, fil, ff, hi => by
      rw [ampmFWriteLoop, if_pos (Nat.lt_of_lt_of_le hi hlen)]
      rcases ampmFWriteByte ff fil (buff.getD i 0) with ⟨_ | _, fil', ff'⟩
      · exact ampmFWriteLoop_long hlen fuel _ fil' ff' (Nat.mod_lt _ (Nat.two_pow_pos 16))
      · exact fun h => by cases h

lemma ampmFWrite_long {fuel : ℕ} {buff : List UInt8} (hlen : 2 ^ 16 ≤ buff.length) :
    (ampmFWrite fuel ff fil buff).1 ≠ some .frOk := by
  unfold ampmFWrite
  split_ifs
  · exact ampmFWriteLoop_long hlen fuel 0 fil ff (Nat.two_pow_pos 16)
  · exact fun h => by cases h

/-- One call. -/
lemma ampmFWrite_spec {buff : List UInt8} (hf : ff.flash.Faultless)
    (h : Writing ff.flash.mem fil chain bs) (hbuf : Pending ff.fileBuf bs)
    (hlen : buff.length < 2 ^ 16) (hlt : (bs ++ buff).length ≤ 100000)
    (hok : (ampmFWrite (2 ^ 16) ff fil buff).1 = some .frOk)
    (hfound : FoundInRange ff (ampmFWrite (2 ^ 16) ff fil buff).2.2) :
    ∃ more, Writing (ampmFWrite (2 ^ 16) ff fil buff).2.2.flash.mem
        (ampmFWrite (2 ^ 16) ff fil buff).2.1 (chain ++ more) (bs ++ buff) ∧
      Pending (ampmFWrite (2 ^ 16) ff fil buff).2.2.fileBuf (bs ++ buff) ∧
      WriterStep ff (ampmFWrite (2 ^ 16) ff fil buff).2.2 chain more := by
  obtain ⟨-, hok', heq⟩ := ampmFWrite_ok hlen hlen hok
  rw [heq] at hfound ⊢
  exact writeBytes_spec buff hf h hbuf hlt hok' hfound

lemma writeAll_found :
    ∀ (chunks : List (List UInt8)) {fil fil' : AmpmFil} {ff ff' : Ff},
      (∀ c ∈ chunks, c.length < 2 ^ 16) → writeAll chunks fil ff = some (fil', ff') →
      ff.found <+: ff'.found
  | [], fil, fil', ff, ff', _, hrun => by
      obtain ⟨-, rfl⟩ := Prod.mk.inj (Option.some.inj hrun)
      exact List.prefix_rfl
  | c :: cs, fil, fil', ff, ff', hlen, hrun => by
      rw [writeAll] at hrun
      split_ifs at hrun with hok
      have hc := hlen c List.mem_cons_self
      obtain ⟨-, hok', heq⟩ := ampmFWrite_ok hc hc hok
      rw [heq] at hrun
      exact (writeBytes_found c fil ff hok').trans
        (writeAll_found cs (fun d hd => hlen d (List.mem_cons_of_mem _ hd)) hrun)

/-- **Any number of calls.**  What they were given is in the file. -/
theorem writeAll_spec :
    ∀ (chunks : List (List UInt8)) {ff : Ff} {fil : AmpmFil} {chain : List ℕ} {bs : List UInt8}
      {fil' : AmpmFil} {ff' : Ff}, ff.flash.Faultless → Writing ff.flash.mem fil chain bs →
      Pending ff.fileBuf bs → (∀ c ∈ chunks, c.length < 2 ^ 16) →
      (bs ++ chunks.flatten).length ≤ 100000 → writeAll chunks fil ff = some (fil', ff') →
      FoundInRange ff ff' →
      ∃ more, Writing ff'.flash.mem fil' (chain ++ more) (bs ++ chunks.flatten) ∧
        Pending ff'.fileBuf (bs ++ chunks.flatten) ∧ WriterStep ff ff' chain more
  | [], ff, fil, chain, bs, fil', ff', hf, h, hbuf, _, _, hrun, _ => by
      obtain ⟨rfl, rfl⟩ := Prod.mk.inj (Option.some.inj hrun)
      refine ⟨[], ?_, ?_, WriterStep.of_mem_eq hf rfl rfl⟩
      · rwa [List.append_nil, List.flatten_nil, List.append_nil]
      · rwa [List.flatten_nil, List.append_nil]
  | c :: cs, ff, fil, chain, bs, fil', ff', hf, h, hbuf, hlen, hlt, hrun, hfound => by
      have hc := hlen c List.mem_cons_self
      have hcs : ∀ d ∈ cs, d.length < 2 ^ 16 := fun d hd => hlen d (List.mem_cons_of_mem _ hd)
      rw [writeAll] at hrun
      split_ifs at hrun with hok
      have hfirst : ff.found <+: (ampmFWrite (2 ^ 16) ff fil c).2.2.found := by
        obtain ⟨-, hok', heq⟩ := ampmFWrite_ok hc hc hok
        exact heq ▸ writeBytes_found c fil ff hok'
      have hsplit := hfound.split hfirst (writeAll_found cs hcs hrun)
      rw [List.flatten_cons, ← List.append_assoc] at hlt ⊢
      have hshort : (bs ++ c).length ≤ 100000 := by
        rw [List.length_append] at hlt
        omega
      obtain ⟨more, h', hbuf', hstep⟩ := ampmFWrite_spec hf h hbuf hc hshort hok hsplit.1
      obtain ⟨more', h'', hbuf'', hstep'⟩ :=
        writeAll_spec cs hstep.faultless h' hbuf' hcs hlt hrun hsplit.2
      rw [List.append_assoc] at h''
      exact ⟨more ++ more', h'', hbuf'', hstep.trans hstep'⟩

end Write

/-! ### Three bytes -/

/-- An erased flash.  `rand()` returns 1, so that the first sector is tried first. -/
def erasedFf : Ff := ⟨⟨fun _ => 0xFF, fun _ => none, 0, []⟩, fun _ => 0, fun _ => 1, 0, []⟩

/-- The file `A` is created. -/
def openedA : AmpmFOpened := ampmFOpen erasedFf (AmpmFil.ofBytes fun _ => 0) [0x41] 0x08

/-- Three bytes are written. -/
def writtenA : Option AmpmFResult × AmpmFil × Ff :=
  ampmFWrite (2 ^ 16) openedA.ff openedA.fil [1, 2, 3]

lemma openedA_writing : Writing openedA.ff.flash.mem openedA.fil [0] [] ∧
    openedA.ff.flash.Faultless ∧
    ∀ s, s ≠ 0 → SameSector s erasedFf.flash.mem openedA.ff.flash.mem := by
  have hstart : openedA.fil.startSector = 0 := by decide +kernel
  have hopened : Writing openedA.ff.flash.mem openedA.fil [openedA.fil.startSector] [] ∧
      openedA.ff.flash.Faultless ∧ openedA.ff.found = erasedFf.found ∧
      (∀ ds, Owned erasedFf.flash.mem ds → openedA.fil.startSector ∉ ds) ∧
      ∀ s, s ≠ openedA.fil.startSector → SameSector s erasedFf.flash.mem openedA.ff.flash.mem := by
    unfold openedA
    exact ampmFOpen_writing (fun _ => rfl) ⟨by decide, by decide, by decide⟩ (by decide +kernel)
      (by decide +kernel) (by decide +kernel)
  rw [hstart] at hopened
  exact ⟨hopened.1, hopened.2.1, hopened.2.2.2.2⟩

lemma writtenA_all : writeAll [[1, 2, 3]] openedA.fil openedA.ff =
    some (writtenA.2.1, writtenA.2.2) := by
  have hok : (ampmFWrite (2 ^ 16) openedA.ff openedA.fil [1, 2, 3]).1 = some .frOk := by
    decide +kernel
  rw [writeAll, if_pos hok]
  rfl

end Ampm
