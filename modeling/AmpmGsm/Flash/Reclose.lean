import AmpmGsm.Flash.Standing
import AmpmGsm.Flash.Append

/-!
# Closing a file again

`ampm_f_close` programs the record of the file over the one that is there.  Programming only clears
bits, so a size that is larger is not taken, and then the first sector of the file is erased.

* `TakesBytes.word_le` — a word that is taken is not larger than the one that is there.
* `ampmFClose_destroys` — closing a file that has grown.
* `AmpmFil.reopened`, `ampmFClose_again` — closing a file that has not.
-/

namespace Ampm

open NorFlash Directories

/-! ## Programming twice -/

section Programming

variable {ff ff' : Ff} {s off : ℕ} {buf : List UInt8} {fil : AmpmFil} {r : AmpmFResult}

lemma wordAt_mono {b b' : ℕ → UInt8} {k : ℕ} (h : ∀ i < 4, (b (k + i)).toNat ≤ (b' (k + i)).toNat) :
    wordAt b k ≤ wordAt b' k := by
  have h0 := h 0 (by decide)
  have h1 := h 1 (by decide)
  have h2 := h 2 (by decide)
  have h3 := h 3 (by decide)
  rw [Nat.add_zero] at h0
  rw [wordAt, wordAt]
  omega

/-- What cells take is not larger than what they hold. -/
lemma TakesBytes.word_le {mem : Memory} (h : TakesBytes s off fil.bytes mem)
    (hs : s ≤ diskSectorMax) (hoff : off < 4096) {j : ℕ} (hj : j < 9) (hlt : fil.word j < 2 ^ 32) :
    fil.word j ≤ (filAt mem s off).word j := by
  have hword : wordAt fil.byte (32 + 4 * j) = fil.word j :=
    (wordAt_byte fil j).trans (Nat.mod_eq_of_lt hlt)
  rw [filAt, word_ofBytes _ hj, ← hword]
  refine wordAt_mono fun i hi => ?_
  have hk : 32 + 4 * j + i < sizeofAmpmFil := by
    unfold sizeofAmpmFil
    omega
  have hcell := h (32 + 4 * j + i) (by rwa [length_bytes])
  rw [getD_bytes fil hk] at hcell
  have hread : (cells mem s off sizeofAmpmFil).getD (32 + 4 * j + i) 0 =
      mem (sectorStart s + (off + (32 + 4 * j + i))) := by
    rw [cells, getD_read hk, devAddr_ffAddr_of_le hs hoff, Nat.add_assoc]
  rw [hread, ← hcell, UInt8.toNat_and]
  exact Nat.and_le_left

/-- The cells that are programmed behind the beginning of a sector. -/
lemma ampmFlashWrite_cells (hw : ampmFlashWrite ff (ffAddr s off) buf = (r, ff'))
    (hf : ff.flash.Faultless) (hs : s ≤ diskSectorMax) (hlen : buf.length ≤ 256) (hpos : 0 < off)
    (hoff : off < 4096) (hfit : off + buf.length ≤ 4096) {i : ℕ} (hi : i < buf.length) :
    ff'.flash.mem (sectorStart s + (off + i)) =
      ff.flash.mem (sectorStart s + (off + i)) &&& buf.getD i 0 := by
  have hin : ffAddr s off % 4096 + buf.length ≤ 4096 := by
    rwa [ffAddr_mod_of_le hs hoff]
  rw [ampmFlashWrite, sst25Write_page hf hlen hin] at hw
  obtain ⟨-, rfl⟩ := Prod.mk.inj hw
  show pageMem ff.flash.mem (ffAddr s off) buf _ = _
  rw [pageMem, ffAddr_mod_of_le hs hoff, if_neg (Nat.ne_of_gt hpos), devAddr_ffAddr_of_le hs hoff,
    ← Nat.add_assoc, program_at hi, List.getD_eq_getElem _ _ hi]

/-- The bytes of a record that is read are there. -/
lemma storedAt_filAt (mem : Memory) (hs : s ≤ diskSectorMax) (hoff : off < 4096) :
    StoredAt s off (filAt mem s off).bytes mem := by
  intro i hi
  rw [length_bytes] at hi
  have hbyte : (cells mem s off sizeofAmpmFil).getD i 0 = (filAt mem s off).byte i :=
    holdsRecord_ofBytes (fun k => (cells mem s off sizeofAmpmFil).getD k 0) i hi
  rw [getD_bytes _ hi, ← hbyte, cells, getD_read hi, devAddr_ffAddr_of_le hs hoff, Nat.add_assoc]

/-- A record that is written where it is already: nothing changes. -/
lemma writeFil_again (hw : writeFil ff s off (filAt ff.flash.mem s off) = (r, ff'))
    (hf : ff.flash.Faultless) (hs : s ≤ diskSectorMax) (hpos : 0 < off)
    (hfit : off + sizeofAmpmFil ≤ 4096) :
    r = .frOk ∧ ∀ t, SameSector t ff.flash.mem ff'.flash.mem := by
  have hoff : off < 4096 := Nat.lt_of_lt_of_le (Nat.lt_add_of_pos_right (by decide)) hfit
  have hlen := length_bytes (filAt ff.flash.mem s off)
  have hthere := storedAt_filAt ff.flash.mem hs hoff
  have htakes : TakesBytes s off (filAt ff.flash.mem s off).bytes ff.flash.mem := by
    intro i hi
    rw [hthere i hi, UInt8.and_self]
  have hr : r = .frOk := by
    rw [← (ampmFlashWrite_ok_iff hf hs (hlen ▸ by decide) hpos hoff (hlen.symm ▸ hfit))] at htakes
    exact (congrArg Prod.fst hw).symm.trans htakes
  have hwritten := writeFil_written hw hf hs hfit
  refine ⟨hr, fun t => ?_⟩
  by_cases hts : t = s
  · subst hts
    intro x hx
    by_cases hin : off ≤ x ∧ x < off + sizeofAmpmFil
    · obtain ⟨i, rfl⟩ := Nat.exists_eq_add_of_le hin.1
      have hi : i < (filAt ff.flash.mem t off).bytes.length := by omega
      rw [hwritten.stored hr i hi, hthere i hi]
    · exact hwritten.wroteAt.outside (Nat.ne_of_gt hpos) x hx (by omega)
  · exact hwritten.wroteAt.other t hts

end Programming

/-! ## A file that has grown -/

section Grown

variable {ff : Ff} {fil : AmpmFil} {fileName : List UInt8}

/-- Where the last block is. -/
lemma closeBlock_fits (n : ℕ) :
    2 * sizeofAmpmFil + sizeofAmpmFil ≤ sub32 n (n % 256) % diskSectorSize + 256 ∧
      sub32 n (n % 256) % diskSectorSize + 256 + 256 ≤ 4096 := by
  unfold sub32 diskSectorSize sizeofAmpmFil
  omega

/-- **A file that has grown is erased** when it is closed. -/
theorem ampmFClose_destroys (hf : ff.flash.Faultless) (hhandle : handleOk fil = true)
    (hpermission : fil.permission = 2) (hoffset : fil.fileOffset = fil.fileSize)
    (hgrown : (filAt ff.flash.mem fil.startSector (2 * sizeofAmpmFil)).fileSize < fil.fileSize)
    (honly : ∀ i, Begins (headersOf ff.flash.mem) fileName i → i = fil.startSector) :
    (ampmFClose ff fil).1 = .frErr ∧
      ∀ content, ¬ HasFile (ampmFClose ff fil).2.2.flash.mem fileName content := by
  have hpasses := (handleOk_iff fil).mp hhandle
  have hstart := Nat.le_of_lt hpasses.start_lt
  have hsize : fil.fileSize < 2 ^ 32 := Nat.lt_of_le_of_lt hpasses.size_le (by decide)
  obtain ⟨r, ff', r', ff'', hw, hc, hends, hfails⟩ := ampmFClose_run ff hhandle hpermission
  rw [hoffset] at hw
  obtain ⟨hlow, hfit⟩ := closeBlock_fits fil.fileSize
  have hoff : sub32 fil.fileSize (fil.fileSize % 256) % diskSectorSize + 256 < 4096 := by omega
  have hblock := ampmFlashWrite_written hw hf (Nat.le_of_lt hpasses.current_lt)
    (Nat.le_of_eq (length_buffer _)) hoff (by rwa [length_buffer])
  have hheaders := hblock.wroteAt.headersOf_eq (Nat.le_trans (by decide) hlow) (Nat.le_of_lt hoff)
  have hrecord := hblock.wroteAt.filAt_eq (Nat.lt_of_lt_of_le (by decide) hlow)
    (Nat.le_of_lt hoff) hpasses.start_lt hlow
  have hclosed := writeFil_written hc hblock.faultless hstart (by decide)
  have hr : r' = .frErr := by
    cases r' with
    | frErr => rfl
    | frOk =>
        have hlogged : (ff'.logged [.read (ffAddr fil.startSector sizeofAmpmFil)
          sizeofAmpmFil]).flash.Faultless := hblock.faultless
        have htakes := (ampmFlashWrite_ok_iff hlogged hstart (by rw [length_bytes]; decide)
          (by decide) (by decide) (by rw [length_bytes]; decide)).mp (congrArg Prod.fst hc)
        have hle := htakes.word_le hstart (by decide) (j := 7) (by decide) hsize
        have hle' : fil.fileSize ≤
            (filAt ff.flash.mem fil.startSector (2 * sizeofAmpmFil)).fileSize :=
          hrecord ▸ hle
        exact absurd hgrown (Nat.not_lt.mpr hle')
  obtain ⟨hret, hend⟩ := hfails hr
  refine ⟨hret, fun content => ?_⟩
  have herased := headersOf_erase ff''.flash.mem hstart
  have hsame : headersOf ff''.flash.mem = headersOf ff.flash.mem :=
    (hclosed.wroteAt.headersOf_eq (by decide) (by decide)).trans hheaders
  rw [hsame] at herased
  rw [hend]
  exact not_hasFile honly herased.1 herased.2 content

end Grown

/-! ## A file that has not -/

/-- The handle of a file that was opened again, at the end of the file. -/
def AmpmFil.reopened (fil : AmpmFil) (currentSector nextSector previousSector : ℕ) : AmpmFil :=
  { fil with
    currentSector := currentSector
    nextSector := nextSector
    previousSector := previousSector
    permission := 2
    fileOffset := fil.fileSize }

section Again

variable {ff : Ff} {fileName content : List UInt8} {start : ℕ} {chain : List ℕ} {next previous : ℕ}

/-- The record of a file that stands on the disk is the one that is written again. -/
lemma StandingFile.closing_eq (h : StandingFile ff.flash.mem fileName start chain content)
    (current next previous : ℕ) :
    ((filAt ff.flash.mem start (2 * sizeofAmpmFil)).reopened current next previous).closing
      (filAt ff.flash.mem start sizeofAmpmFil).nextSector =
        filAt ff.flash.mem start (2 * sizeofAmpmFil) := by
  have hstart := h.start_eq
  have hcurrent := h.current_eq
  have hprevious := h.previous_eq
  have hnext := h.next_eq
  have hoffset := h.offset_eq.trans h.size.symm
  have hpermission := h.permission_eq
  have hcrc := ((formatCheck_iff _).mp h.valid).crc_eq
  generalize filAt ff.flash.mem start (2 * sizeofAmpmFil) = fil at *
  generalize (filAt ff.flash.mem start sizeofAmpmFil).nextSector = linked at *
  have hfields : { fil.reopened current next previous with
      currentSector := fil.startSector
      nextSector := linked
      previousSector := fil.startSector } = fil := by
    show AmpmFil.mk fil.fileName fil.startSector fil.startSector fil.startSector linked
        fil.fileStatus fil.fileSize 2 fil.fileSize fil.crc =
      AmpmFil.mk fil.fileName fil.startSector fil.previousSector fil.currentSector fil.nextSector
        fil.fileStatus fil.fileOffset fil.permission fil.fileSize fil.crc
    rw [hstart, hcurrent, hprevious, hnext, hoffset, hpermission]
  have hseal : fil.seal = fil := by
    rw [AmpmFil.seal, ← hcrc]
  exact (congrArg AmpmFil.seal hfields).trans hseal

lemma AppendStep.of_same {mem mem' : Memory} {n : ℕ} (h : ∀ t, SameSector t mem mem') :
    AppendStep fileName chain n mem mem' := by
  refine ⟨fun s _ x hx _ => h s x hx, fun i hi => ?_⟩
  rwa [Begins, (h i).headersOf_eq] at hi

/-- **A file that has not grown** is closed again: its record is the same, and the bits of its last
block are cleared that are cleared in the buffer. -/
theorem ampmFClose_again (hf : ff.flash.Faultless)
    (h : StandingFile ff.flash.mem fileName start chain content) (hprevious : previous < diskSectorMax) :
    let fil := (filAt ff.flash.mem start (2 * sizeofAmpmFil)).reopened
      (chain.getD (content.length / diskSectorSize) 0) next previous
    (ampmFClose ff fil).1 = .frOk ∧
      AppendStep fileName chain content.length ff.flash.mem (ampmFClose ff fil).2.2.flash.mem ∧
      ∀ j < content.length % 256,
        (ampmFClose ff fil).2.2.flash.mem (cellOf chain (content.length / 256 * 256 + j)) =
          content.getD (content.length / 256 * 256 + j) 0 &&& ff.fileBuf j := by
  intro fil
  have hvalid := (formatCheck_iff _).mp h.valid
  have hsize : fil.fileSize = content.length := h.size
  have hlt : content.length < 100000 := h.size_lt
  have hstart := h.start_lt
  have hlast : chain.getD (content.length / diskSectorSize) 0 ∈ chain :=
    getD_mem (h.index_lt (Nat.le_refl _))
  have hcurrent := h.lt _ hlast
  have hhandle : handleOk fil = true := by
    refine (handleOk_iff fil).mpr ⟨?_, hcurrent, hprevious, hvalid.named, ?_, ?_, Nat.le_refl _,
      Nat.le_refl 2⟩
    · exact h.start_eq.trans_lt hstart
    · exact Nat.le_of_lt hvalid.size_lt
    · exact Nat.le_of_lt hvalid.size_lt
  obtain ⟨r, ff', r', ff'', hw, hc, hends, -⟩ := ampmFClose_run ff hhandle rfl
  have hplace : sub32 fil.fileOffset (fil.fileSize % 256) % diskSectorSize + 256 =
      256 + content.length / 256 * 256 % diskSectorSize := by
    show sub32 fil.fileSize (fil.fileSize % 256) % diskSectorSize + 256 = _
    rw [hsize]
    exact closePlace (Nat.lt_trans hlt (by decide))
  rw [hplace] at hw
  have hoff := mod_add_lt (content.length / 256 * 256)
  have hfit : 256 + content.length / 256 * 256 % diskSectorSize + 256 ≤ 4096 := by
    unfold diskSectorSize
    omega
  have hlow : 2 * sizeofAmpmFil + sizeofAmpmFil ≤
      256 + content.length / 256 * 256 % diskSectorSize :=
    Nat.le_trans (by decide) (Nat.le_add_right _ _)
  have hblock := ampmFlashWrite_written hw hf (Nat.le_of_lt hcurrent)
    (Nat.le_of_eq (length_buffer _)) hoff (by rwa [length_buffer])
  have hrecord (off : ℕ) (hle : off + sizeofAmpmFil ≤ 2 * sizeofAmpmFil + sizeofAmpmFil) :
      filAt ff'.flash.mem start off = filAt ff.flash.mem start off :=
    hblock.wroteAt.filAt_eq (Nat.lt_of_lt_of_le (by decide) hlow) (Nat.le_of_lt hoff) hstart
      (Nat.le_trans hle hlow)
  -- the record is the one that is there
  have hsector : fil.startSector = start := h.start_eq
  have hsame : fil.closing (filAt ff'.flash.mem fil.startSector sizeofAmpmFil).nextSector =
      filAt ff'.flash.mem start (2 * sizeofAmpmFil) := by
    rw [hsector, hrecord sizeofAmpmFil (by decide), hrecord (2 * sizeofAmpmFil) (Nat.le_refl _)]
    exact h.closing_eq _ next previous
  rw [hsame, hsector] at hc
  obtain ⟨rfl, hkept⟩ := writeFil_again hc hblock.faultless (Nat.le_of_lt hstart) (by decide)
    (by decide)
  rw [hends rfl]
  have hwrote : AppendStep fileName chain content.length ff.flash.mem ff'.flash.mem :=
    AppendStep.of_wroteAt hblock.wroteAt (Nat.le_trans (by decide) hlow) (Nat.le_of_lt hoff)
      fun _ => ⟨rfl, Or.inr (Nat.le_refl _)⟩
  refine ⟨rfl, hwrote.trans (AppendStep.of_same hkept), fun j hj => ?_⟩
  have hj' : j < 256 := Nat.lt_trans hj (Nat.mod_lt _ (by decide))
  have hk : content.length / 256 * 256 + j < content.length := by omega
  have hindex : (content.length / 256 * 256) / diskSectorSize = content.length / diskSectorSize := by
    unfold diskSectorSize
    omega
  rw [← h.data _ hk, cellOf_block (Nat.mul_mod_left (content.length / 256) 256) hj', hindex]
  refine (hkept _ _ (by omega)).trans ?_
  rw [← getD_buffer ff hj']
  exact ampmFlashWrite_cells hw hf (Nat.le_of_lt hcurrent) (Nat.le_of_eq (length_buffer _))
    (Nat.lt_of_lt_of_le (by decide) hlow) hoff (by rwa [length_buffer])
    (Nat.lt_of_lt_of_eq hj' (length_buffer _).symm)

end Again

end Ampm
