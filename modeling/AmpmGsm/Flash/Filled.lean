import AmpmGsm.Flash.Append

/-!
# Files that are created, written and closed

A file that was created has erased cells for everything that is written to it.  On a flash that does
not fail only a lack of sectors can therefore keep `ampm_f_write` and `ampm_f_close` from returning
`FR_OK`.

* `RecordErased` — the cells are erased that `ampm_f_close` programs in the first sector.
* `ampmFWrite_completes` — with enough sectors all calls return `FR_OK`.
* `ampmFWrite_stored` — if they do, the file holds what was written.
-/

namespace Ampm

open NorFlash

/-! ## The record -/

section Record

variable {ff ff' : Ff} {fil fil' : AmpmFil} {chain more : List ℕ} {bs : List UInt8} {c : UInt8}

/-- The cells are erased that `ampm_f_close` programs in the first sector of the file. -/
def RecordErased (ff : Ff) (fil : AmpmFil) : Prop :=
  ∀ i < sizeofAmpmFil, ff.flash.mem (sectorStart fil.startSector + (2 * sizeofAmpmFil + i)) = 0xFF

/-- A write changes no cell in front of it or behind it. -/
lemma WroteAt.cell_eq {s t off : ℕ} {buf : List UInt8} {mem mem' : Memory}
    (h : WroteAt t off buf mem mem') (hpos : off ≠ 0) {x : ℕ} (hx : x < 4096)
    (hout : x < off ∨ off + buf.length ≤ x) :
    mem' (sectorStart s + x) = mem (sectorStart s + x) := by
  by_cases hst : s = t
  · subst hst
    exact h.outside hpos x hx hout
  · exact h.other s hst x hx

/-- A byte changes no cell between the links and the data. -/
lemma OpenFile.byte_record (h : OpenFile ff fil chain bs) (hf : ff.flash.Faultless)
    (hlt : bs.length + 1 < 100000) (hok : (ampmFWriteByte ff fil c).1 = .frOk)
    (hfound : FoundInRange ff (ampmFWriteByte ff fil c).2.2) {s : ℕ} (hs : s ∈ chain) {x : ℕ}
    (hlow : 2 * sizeofAmpmFil ≤ x) (hx : x < 256) :
    (ampmFWriteByte ff fil c).2.2.flash.mem (sectorStart s + x) =
      ff.flash.mem (sectorStart s + x) := by
  have hlt' := Nat.lt_of_succ_lt hlt
  have hx' : x < 4096 := Nat.lt_trans hx (by decide)
  have hoffset : fil.grow.fileOffset = bs.length + 1 := by
    rw [h.grow_eq hlt']
    rfl
  rw [ampmFWriteByte_eq, hoffset, h.offset] at hok hfound ⊢
  by_cases hfull : (bs.length + 1) % 256 = 0
  swap
  · rw [if_neg hfull]
    rfl
  rw [if_pos hfull] at hok hfound ⊢
  obtain ⟨ff', hw, hcases⟩ := ampmFWriteBlock_ok hok
  rw [hoffset] at hw hcases
  have hwritten := h.block_written hf hlt' hfull hw
  have hplace := (h.place hlt' hfull).1
  have hfit : 256 + bs.length / 256 * 256 % diskSectorSize + 256 ≤ 4096 := by
    unfold diskSectorSize
    omega
  rw [hplace] at hw
  have hwrote := (ampmFlashWrite_written hw hf (Nat.le_of_lt h.current_lt)
    (Nat.le_of_eq (length_buffer _)) (mod_add_lt _) (by rwa [length_buffer])).wroteAt
  have hblock : ff'.flash.mem (sectorStart s + x) = ff.flash.mem (sectorStart s + x) :=
    hwrote.cell_eq (by omega) hx' (Or.inl (Nat.lt_of_lt_of_le hx (Nat.le_add_right _ _)))
  rcases hcases with ⟨-, heq⟩ | ⟨-, hok', heq⟩
  · rw [heq]
    exact hblock
  · rw [heq] at hfound ⊢
    have hlast : chain.getD (chain.length - 1) 0 = fil.grow.currentSector := by
      rw [h.length, Nat.add_sub_cancel]
      exact h.current
    obtain ⟨t, mem', -, -, hadds, -⟩ := ampmFWriteSector_adds hwritten.step.faultless
      (h.toWritingHandle.grow hlt' c) hwritten.owned h.length_pos hlast
      (by rwa [List.length_append]) hok'
      ((foundInRange_congr hwritten.step.found_eq.symm rfl).mp hfound)
    -- the link lies in front of the cell, and the header in another sector
    have hlink : mem' (sectorStart s + x) = ff'.flash.mem (sectorStart s + x) := by
      refine hadds.wroteLink.cell_eq (by decide) hx' (Or.inr ?_)
      rw [length_bytes]
      exact hlow
    refine (hadds.wroteHeader.other s (fun heq => hadds.fresh (heq ▸ hs)) x hx').trans ?_
    exact hlink.trans hblock

/-- No byte programs the cells of the record. -/
lemma RecordErased.bytes :
    ∀ (cs : List UInt8) {ff : Ff} {fil : AmpmFil} {chain : List ℕ} {bs : List UInt8},
      RecordErased ff fil → OpenFile ff fil chain bs → ff.flash.Faultless →
      (bs ++ cs).length < 100000 → (writeBytes cs fil ff).1 = .frOk →
      FoundInRange ff (writeBytes cs fil ff).2.2 →
      RecordErased (writeBytes cs fil ff).2.2 (writeBytes cs fil ff).2.1
  | [], _, _, _, _, herased, _, _, _, _, _ => herased
  | c :: cs, ff, fil, chain, bs, herased, h, hf, hlt, hok, hfound => by
      have hbytes : bs ++ [c] ++ cs = bs ++ c :: cs := by simp
      have hnext : bs.length + 1 ≤ (bs ++ c :: cs).length := by simp
      rw [writeBytes] at hok hfound ⊢
      by_cases hbyte : (ampmFWriteByte ff fil c).1 = .frOk
      swap
      · rw [if_neg hbyte] at hok
        exact absurd hok hbyte
      rw [if_pos hbyte] at hok hfound ⊢
      have hsplit := hfound.split (ampmFWriteByte_found hbyte) (writeBytes_found cs _ _ hok)
      have hshort := Nat.lt_of_le_of_lt hnext hlt
      obtain ⟨more, h', hstep⟩ := h.byte hf hshort hbyte hsplit.1
      have hfirst : fil.startSector ∈ chain := h.start ▸ getD_mem h.length_pos
      have hsame : (ampmFWriteByte ff fil c).2.1.startSector = fil.startSector := by
        rw [← h'.start, ← h.start, List.getD_append _ _ _ _ h.length_pos]
      refine RecordErased.bytes cs (fun i hi => ?_) h' hstep.step.faultless (hbytes ▸ hlt) hok
        hsplit.2
      have hin : 2 * sizeofAmpmFil + i < 256 := by
        unfold sizeofAmpmFil at hi ⊢
        omega
      rw [hsame, h.byte_record hf hshort hbyte hsplit.1 hfirst (Nat.le_add_right _ _) hin]
      exact herased i hi

/-- **Closing** a file whose record has its cells erased. -/
lemma ampmFClose_of_erased (h : OpenFile ff fil chain bs) (hf : ff.flash.Faultless)
    (hlt : bs.length < 100000) (herased : RecordErased ff fil) : (ampmFClose ff fil).1 = .frOk := by
  have hhandle := h.handleOk hlt
  have hstart := Nat.le_of_lt ((handleOk_iff fil).mp hhandle).start_lt
  obtain ⟨r, ff', r', ff'', hw, hc, hends, -⟩ := ampmFClose_run ff hhandle h.permission_eq
  have hplace : sub32 fil.fileOffset (fil.fileSize % 256) % diskSectorSize + 256 =
      256 + bs.length / 256 * 256 % diskSectorSize := by
    rw [h.offset, h.size, sub32]
    unfold diskSectorSize
    omega
  have hfit : 256 + bs.length / 256 * 256 % diskSectorSize + 256 ≤ 4096 := by
    unfold diskSectorSize
    omega
  rw [hplace] at hw
  have hwritten := ampmFlashWrite_written hw hf (Nat.le_of_lt h.current_lt)
    (Nat.le_of_eq (length_buffer _)) (mod_add_lt _) (by rwa [length_buffer])
  have htakes : TakesBytes fil.startSector (2 * sizeofAmpmFil)
      (fil.closing (filAt ff'.flash.mem fil.startSector sizeofAmpmFil).nextSector).bytes
      ff'.flash.mem := by
    refine takesBytes_of_blank fun i hi => ?_
    rw [length_bytes] at hi
    have hin : 2 * sizeofAmpmFil + i < 256 := by
      unfold sizeofAmpmFil at hi ⊢
      omega
    rw [hwritten.wroteAt.cell_eq (by omega) (Nat.lt_trans hin (by decide))
      (Or.inl (Nat.lt_of_lt_of_le hin (Nat.le_add_right _ _)))]
    exact herased i hi
  have hlogged : (ff'.logged [.read (ffAddr fil.startSector sizeofAmpmFil)
    sizeofAmpmFil]).flash.Faultless := hwritten.faultless
  have hr : r' = .frOk := by
    have hrecord := (ampmFlashWrite_ok_iff hlogged hstart (by rw [length_bytes]; decide)
      (by decide) (by decide) (by rw [length_bytes]; decide)).mpr htakes
    exact (congrArg Prod.fst hc).symm.trans hrecord
  rw [hends hr]

end Record

/-! ## Calls -/

section Calls

variable {ff : Ff} {fil : AmpmFil} {fileName : List UInt8} {mode : UInt8}

lemma writeBytes_append (as bs : List UInt8) :
    ∀ (fil : AmpmFil) (ff : Ff), writeBytes (as ++ bs) fil ff =
      if (writeBytes as fil ff).1 = .frOk then
        writeBytes bs (writeBytes as fil ff).2.1 (writeBytes as fil ff).2.2
      else writeBytes as fil ff := by
  induction as with
  | nil => exact fun _ _ => rfl
  | cons c as ih =>
      intro fil ff
      rw [List.cons_append, writeBytes, writeBytes]
      by_cases hbyte : (ampmFWriteByte ff fil c).1 = .frOk
      · rw [if_pos hbyte, if_pos hbyte]
        exact ih _ _
      · rw [if_neg hbyte, if_neg hbyte, if_neg hbyte]

/-- Calls one after another take their bytes one after another. -/
lemma writeAll_eq (chunks : List (List UInt8)) {chain : List ℕ} {bs : List UInt8}
    (h : OpenFile ff fil chain bs) (hf : ff.flash.Faultless)
    (hlen : ∀ c ∈ chunks, c.length < 2 ^ 16) (hlt : (bs ++ chunks.flatten).length < 100000)
    (hok : (writeBytes chunks.flatten fil ff).1 = .frOk)
    (hfound : FoundInRange ff (writeBytes chunks.flatten fil ff).2.2) :
    writeAll chunks fil ff = some (writeBytes chunks.flatten fil ff).2 := by
  induction chunks generalizing ff fil chain bs with
  | nil => rfl
  | cons c cs ih =>
      have hc := hlen c List.mem_cons_self
      rw [List.flatten_cons, ← List.append_assoc] at hlt
      have hle : (bs ++ c).length ≤ (bs ++ c ++ cs.flatten).length := by simp
      have hshort := Nat.lt_of_le_of_lt hle hlt
      have hshort' : bs.length < 100000 := by
        rw [List.length_append] at hshort
        omega
      rw [List.flatten_cons, writeBytes_append] at hok hfound ⊢
      by_cases hchunk : (writeBytes c fil ff).1 = .frOk
      swap
      · rw [if_neg hchunk] at hok
        exact absurd hok hchunk
      rw [if_pos hchunk] at hok hfound ⊢
      have hsplit := hfound.split (writeBytes_found c fil ff hchunk) (writeBytes_found _ _ _ hok)
      obtain ⟨more, h', hstep, -⟩ := h.bytes c hf hshort hchunk hsplit.1
      have hcall : ampmFWrite (2 ^ 16) ff fil c =
          (some (writeBytes c fil ff).1, (writeBytes c fil ff).2) := by
        rw [h.ampmFWrite_eq hshort', ampmFWriteLoop_eq hc (2 ^ 16) 0 fil ff (Nat.zero_le _)
          (Nat.lt_of_le_of_lt (Nat.sub_le _ _) hc), List.drop_zero]
      rw [writeAll, hcall, if_pos (congrArg some hchunk)]
      exact ih h' hstep.faultless (fun d hd => hlen d (List.mem_cons_of_mem _ hd)) hlt hok hsplit.2

/-- Nothing but the header is in the sector of a file that was created. -/
lemma ampmFOpen_erased (hf : ff.flash.Faultless)
    (hcreated : (ampmFOpen ff fil fileName mode).created = true)
    (hlt : (ampmFOpen ff fil fileName mode).fil.startSector < diskSectorMax) :
    RecordErased (ampmFOpen ff fil fileName mode).ff (ampmFOpen ff fil fileName mode).fil := by
  obtain ⟨i, as, r, ff', hin, hfree, hw, heq⟩ := ampmFOpen_created hcreated
  rw [heq] at hlt ⊢
  intro k hk
  refine (writeFil_written hw hf (Nat.le_of_lt hlt) (by decide)).wroteAt.erased rfl _ ?_ ?_
  · exact Nat.lt_trans (Nat.add_lt_add_left hk _) (by decide)
  · rw [length_bytes]
    exact Nat.le_trans (by decide) (Nat.le_add_right _ _)

/-- **With enough sectors all calls return `FR_OK`**: more than the bytes fill, not counting those
that are in use. -/
theorem ampmFWrite_completes (hf : ff.flash.Faultless) (hname : FileName fileName)
    (chunks : List (List UInt8)) (hlen : ∀ c ∈ chunks, c.length < 65536)
    (htotal : chunks.flatten.length < 100000)
    (hopen : (ampmFOpen ff fil fileName mode).ret = .frOk)
    (hcreated : (ampmFOpen ff fil fileName mode).created = true)
    (hlt : (ampmFOpen ff fil fileName mode).fil.startSector < diskSectorMax) {spare : Finset ℕ}
    (hspare : Spare (ampmFOpen ff fil fileName mode).ff spare)
    (hcard : chunks.flatten.length / diskSectorSize < spare.card) :
    ∃ fil' ff', writeAll chunks (ampmFOpen ff fil fileName mode).fil
        (ampmFOpen ff fil fileName mode).ff = some (fil', ff') ∧
      (ampmFClose ff' fil').1 = .frOk ∧ FoundInRange ff (ampmFClose ff' fil').2.2 := by
  obtain ⟨hw, hf', hsame, -, -⟩ := ampmFOpen_writing hf hname hopen hcreated hlt
  have hroomy := ampmFOpen_roomy hf hcreated hlt
  have herased := ampmFOpen_erased hf hcreated hlt
  have h := hw.openFile fun j hj => absurd hj (Nat.not_lt_zero j)
  have hfinds := findsSectors_of_spare chunks.flatten h hf' hroomy htotal hspare (by simpa using hcard)
  obtain ⟨hok, hfound⟩ := (writeBytes_taken_iff chunks.flatten h hf' htotal).mpr
    ⟨hroomy.1 _, hroomy.2 _, hfinds⟩
  obtain ⟨more, h', hstep, -⟩ := h.bytes chunks.flatten hf' htotal hok hfound
  refine ⟨_, _, writeAll_eq chunks h hf' hlen htotal hok hfound,
    ampmFClose_of_erased h' hstep.faultless htotal (herased.bytes _ h hf' htotal hok hfound), ?_⟩
  unfold FoundInRange at hfound ⊢
  rwa [ampmFClose_found, ← hsame]

end Calls

/-! ## What is stored -/

/-- **A file that was written is stored.**  On a flash that does not fail: if a file is created, and
all calls of `ampm_f_write` and `ampm_f_close` return `FR_OK`, and all sectors that were found for it
are sectors of the partition, then the sectors that its links lead to hold what was written. -/
theorem ampmFWrite_stored (ff : Ff) (fil : AmpmFil) (fileName : List UInt8) (mode : UInt8)
    (chunks : List (List UInt8)) (fil' : AmpmFil) (ff' : Ff) (hf : ff.flash.Faultless)
    (hname : FileName fileName) (hlen : ∀ c ∈ chunks, c.length < 65536)
    (htotal : chunks.flatten.length < 100000)
    (hopen : (ampmFOpen ff fil fileName mode).ret = .frOk)
    (hcreated : (ampmFOpen ff fil fileName mode).created = true)
    (hwrites : writeAll chunks (ampmFOpen ff fil fileName mode).fil
      (ampmFOpen ff fil fileName mode).ff = some (fil', ff'))
    (hclose : (ampmFClose ff' fil').1 = .frOk)
    (hfound : FoundInRange ff (ampmFClose ff' fil').2.2) :
    storedBytes (ampmFClose ff' fil').2.2.flash.mem
      (ampmFOpen ff fil fileName mode).fil.startSector = chunks.flatten := by
  have hclosed : handleOk fil' = true := by
    by_contra hno
    rw [ampmFClose, if_neg hno] at hclose
    exact AmpmFResult.noConfusion hclose
  have hlt : (ampmFOpen ff fil fileName mode).fil.startSector < diskSectorMax := by
    cases chunks with
    | nil =>
        obtain ⟨rfl, rfl⟩ := Prod.mk.inj (Option.some.inj hwrites)
        exact ((handleOk_iff _).mp hclosed).start_lt
    | cons c cs =>
        rw [writeAll] at hwrites
        split_ifs at hwrites with hok
        have hc := hlen c List.mem_cons_self
        exact ((handleOk_iff _).mp (ampmFWrite_ok hc hc hok).1).start_lt
  obtain ⟨hw, hf', hfound', -, -⟩ := ampmFOpen_writing hf hname hopen hcreated hlt
  have hfound'' : FoundInRange (ampmFOpen ff fil fileName mode).ff ff' := by
    unfold FoundInRange at hfound ⊢
    rwa [hfound', ← ampmFClose_found ff' fil']
  have hnone : Pending (ampmFOpen ff fil fileName mode).ff.fileBuf [] := fun j hj =>
    absurd hj (Nat.not_lt_zero j)
  obtain ⟨more, hw', hbuf', hstep⟩ :=
    writeAll_spec chunks hf' hw hnone hlen (Nat.le_of_lt htotal) hwrites hfound''
  have hstart : fil'.startSector = (ampmFOpen ff fil fileName mode).fil.startSector := by
    rw [← hw'.start]
    rfl
  rw [← hstart]
  exact (ampmFClose_spec hstep.faultless hw' hbuf' hclose).1.storedBytes_eq

/-- A file that fills its first sector. -/
theorem ampmFWrite_stored_filled :
    ∃ fil' ff', writeAll [longText] openedA.fil openedA.ff = some (fil', ff') ∧
      (ampmFClose ff' fil').1 = .frOk ∧
      storedBytes (ampmFClose ff' fil').2.2.flash.mem openedA.fil.startSector = longText := by
  have hname : FileName [0x41] := ⟨by decide, by decide, by decide⟩
  have hopen : openedA.ret = .frOk := by decide +kernel
  have hcreated : openedA.created = true := by decide +kernel
  have hlt : openedA.fil.startSector < diskSectorMax := by decide +kernel
  have hlen : ∀ c ∈ [longText], c.length < 65536 := by
    rw [List.forall_mem_singleton, length_longText]
    decide
  have hflat : [longText].flatten = longText := by simp
  have htotal : [longText].flatten.length < 100000 := by
    rw [hflat, length_longText]
    decide
  have hroom : [longText].flatten.length / diskSectorSize < ({1, 2} : Finset ℕ).card := by
    rw [hflat, length_longText]
    decide
  obtain ⟨fil', ff', hwrites, hclose, hfound⟩ := ampmFWrite_completes (fun _ => rfl) hname
    [longText] hlen htotal hopen hcreated hlt openedA_spare hroom
  have hstored := ampmFWrite_stored erasedFf (AmpmFil.ofBytes fun _ => 0) [0x41] 0x08 [longText]
    fil' ff' (fun _ => rfl) hname hlen htotal hopen hcreated hwrites hclose hfound
  exact ⟨fil', ff', hwrites, hclose, hstored.trans hflat⟩

end Ampm
