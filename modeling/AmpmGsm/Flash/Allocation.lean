import AmpmGsm.Flash.Partition

/-!
# Which operations are sound

What each operation of the file system does with the flash, and which sectors it gives away, for
every image of the flash, every handle and every value of `rand()`.

* `FfOp`, `FfOp.Sound` — the operations, and what is asked of them.
* `FfOp.Guarded` — the condition on the state before the operation.
* `ffOp_sound_iff` — the one holds if and only if the other does.
* `findFreeSector_fails` — a free sector that is not found.
-/

namespace Ampm

open NorFlash Traces

/-! ## Opening -/

section Open

variable {ff : Ff} {fil : AmpmFil} {fileName : List UInt8} {mode : UInt8} {i : ℕ}

/-- What `ampm_f_open` does at the sector where it stops. -/
lemma openedAt_trace (ff : Ff) (fileName : List UInt8) (mode : UInt8) (i : ℕ) :
    ∃ as, (openedAt ff fileName mode i).ff.trace = ff.trace ++ as ∧
      ((∀ a ∈ as, a.Inside) ↔ OnDisk i) := by
  by_cases hvalid : sectorValid ff.flash.mem i = true
  · refine ⟨openReads ff.flash.mem fileName mode i, ?_, openReads_inside_iff _ _ _ _⟩
    rw [openedAt, if_pos hvalid]
    rfl
  · have hlen : (newFil (headerAt ff.flash.mem i) fileName i).bytes.length ≤ 256 := by
      rw [length_bytes]
      decide
    refine ⟨headerReads ff.flash.mem i ++ pageLog (ffAddr i 0) sizeofAmpmFil, ?_, ?_⟩
    · rw [openedAt, if_neg hvalid, ← List.append_assoc]
      exact (ampmFlashWrite_trace hlen).trans (by rw [length_bytes]; rfl)
    · rw [List.forall_mem_append, headerReads_inside_iff, and_iff_left_iff_imp]
      exact fun hon => pageLog_inside hon (by decide) (by decide)

/-- `ampm_f_open` stays in the partition exactly if it stops there. -/
lemma ampmFOpen_stays_iff (ff : Ff) (fil : AmpmFil) (fileName : List UInt8) (mode : UInt8) :
    Stays ff (ampmFOpen ff fil fileName mode).ff ↔
      ∃ i < diskSectorMax, i ≠ ff.rand ff.drawn % diskSectorMax ∧
        OpensAt ff.flash.mem fileName mode i := by
  rcases ampmFOpen_spec ff fil fileName mode with
    ⟨pre, i, post, horder, hpre, hi, heq⟩ | ⟨hnone, fil', heq⟩
  · obtain ⟨as, htrace, hinside⟩ := openedAt_trace
      (ff.draw.2.logged (pre.flatMap (openReads ff.flash.mem fileName mode))) fileName mode i
    have hlog : (ampmFOpen ff fil fileName mode).ff.trace =
        ff.trace ++ (pre.flatMap (openReads ff.flash.mem fileName mode) ++ as) := by
      rw [heq, htrace, ← List.append_assoc]
      rfl
    rw [← stop_lt_iff (rand_lt ff) horder hpre hi,
      ← scan_stops_inside_iff (rand_lt ff) horder (openReads_inside_iff ff.flash.mem fileName mode)
        hinside,
      ← List.forall_mem_append]
    exact stays_iff hlog
  · have hnot := scan_not_inside (rand_lt ff) 
      (openReads_inside_iff ff.flash.mem fileName mode)
    rw [heq]
    refine iff_of_false (fun hstays => hnot ((stays_iff rfl).mp hstays)) ?_
    rintro ⟨i, hi, hne, hopens⟩
    exact hnone i ((mem_scanOrder (rand_lt ff)).mpr ⟨Nat.le_of_lt hi, hne⟩) hopens

/-- A write that succeeds has compared what it wrote. -/
lemma ampmFlashWrite_stored {ff' : Ff} {s off : ℕ} {buf : List UInt8} (hs : s < diskSectorMax)
    (hoff : off < 4096) (hlen : buf.length ≤ 256)
    (heq : ampmFlashWrite ff (ffAddr s off) buf = (.frOk, ff')) :
    StoredAt s off buf ff'.flash.mem := by
  have hmod : buf.length % 2 ^ 16 = buf.length := Nat.mod_eq_of_lt (by omega)
  obtain ⟨hret, rfl⟩ := Prod.mk.inj heq
  have hok : (sst25Write ff.flash (ffAddr s off) buf).1 = true := by
    by_contra hfail
    rw [if_neg hfail] at hret
    exact AmpmFResult.noConfusion hret
  have hread : NorFlash.read (sst25Write ff.flash (ffAddr s off) buf).2.mem
      (devAddr (ffAddr s off)) buf.length = buf := by
    revert hok
    unfold sst25Write
    cases ff.flash.fault ff.flash.writes with
    | some mem => exact fun hok => absurd hok Bool.false_ne_true
    | none =>
        simp only [sst25WriteInTime, hmod, if_pos hlen, List.take_length, sst25WriteChecked,
          sst25ReadBytes, decide_eq_true_eq]
        exact id
  intro k hk
  have hcell := read_eq_iff.mp hread k hk
  rw [devAddr_ffAddr hs hoff, Nat.add_assoc] at hcell
  exact hcell.trans (List.getD_eq_getElem _ _ hk).symm

/-- A file that is created has its header in a free sector of the partition, if the search stops
there. -/
lemma ampmFOpen_places {o : AmpmFOpened} (ho : ampmFOpen ff fil fileName mode = o)
    (hstop : ∃ i < diskSectorMax, i ≠ ff.rand ff.drawn % diskSectorMax ∧
      OpensAt ff.flash.mem fileName mode i)
    (hok : o.ret = .frOk) (hcreated : o.created = true) :
    o.fil.startSector < diskSectorMax ∧ sectorValid ff.flash.mem o.fil.startSector = false ∧
      StoredAt o.fil.startSector 0 o.fil.bytes o.ff.flash.mem := by
  subst ho
  rcases ampmFOpen_spec ff fil fileName mode with
    ⟨pre, i, post, horder, hpre, hi, heq⟩ | ⟨hnone, fil', heq⟩
  · have hlt := (stop_lt_iff (rand_lt ff) horder hpre hi).mpr hstop
    have hmem : (ff.draw.2.logged (pre.flatMap (openReads ff.flash.mem fileName mode))).flash.mem =
        ff.flash.mem := rfl
    cases hvalid : sectorValid ff.flash.mem i with
    | true =>
        rw [heq, openedAt, hmem, if_pos hvalid] at hcreated
        exact absurd hcreated Bool.false_ne_true
    | false =>
        rw [heq, openedAt, hmem, if_neg (Bool.eq_false_iff.mp hvalid)] at hok ⊢
        refine ⟨hlt, hvalid, ampmFlashWrite_stored hlt (by decide) ?_ (Prod.ext hok rfl)⟩
        rw [length_bytes]
        decide
  · rw [heq] at hcreated
    exact absurd hcreated Bool.false_ne_true

end Open

/-! ## Closing -/

/-- Where `ampm_f_close` writes the last block in the current sector. -/
def closeBlock (fil : AmpmFil) : ℕ := sub32 fil.fileOffset (fil.fileSize % 256) % diskSectorSize

/-- The last block is written over the end of the last sector. -/
def ClosesBehind (fil : AmpmFil) : Prop :=
  handleOk fil = true ∧ fil.permission = 2 ∧ fil.currentSector = diskSectorMax - 1 ∧
    diskSectorSize - 256 < closeBlock fil

section Close

/-- The commands of a write that goes on in the next sector. -/
lemma pageLog_of_cross {sector offset count : ℕ} (h : sector < diskSectorMax)
    (hoffset : offset < 4096) (hcount : count ≤ 256) (hcross : 4096 < offset + count) :
    pageLog (ffAddr sector offset) count =
      [.program (ffAddr sector offset) (4096 - offset), .erase (ffAddr (sector + 1) 0),
        .program (ffAddr (sector + 1) 0) (offset + count - 4096),
        .read (ffAddr sector offset) count] := by
  have hmax : diskSectorMax = 110 := rfl
  have haddr := ffAddr_of_lt h hoffset
  have hmod := ffAddr_mod_block sector hoffset
  have hover : overlapCount (ffAddr sector offset) count = offset + count - 4096 := by
    rw [overlapCount, hmod, if_pos hcross, haddr, sectorStart]
    omega
  have hfirst : count - (offset + count - 4096) = 4096 - offset := by omega
  have hnext : (ffAddr sector offset + (4096 - offset)) % 2 ^ 32 = ffAddr (sector + 1) 0 := by
    rw [haddr, sectorStart, ffAddr]
    omega
  have hzero : offset + count - 4096 ≠ 0 := by omega
  have hstart : ¬ offset = 0 := by omega
  simp only [pageLog, hover, hfirst, hnext, hmod, if_neg hstart, if_pos hzero]
  rfl

lemma pageLog_cross_inside_iff {sector offset count : ℕ} (h : sector < diskSectorMax)
    (hoffset : offset < 4096) (hcount : count ≤ 256) (hcross : 4096 < offset + count) :
    (∀ a ∈ pageLog (ffAddr sector offset) count, a.Inside) ↔ sector + 1 < diskSectorMax := by
  have hmax : diskSectorMax = 110 := rfl
  rw [pageLog_of_cross h hoffset hcount hcross]
  simp only [List.forall_mem_cons]
  constructor
  · rintro ⟨-, herase, -⟩
    have hon := (erase_inside_iff (by decide)).mp herase
    rw [OnDisk] at hon
    omega
  · intro hnext
    have hon := onDisk_of_lt h
    have hon' := onDisk_of_lt hnext
    refine ⟨(program_inside_iff (by omega) (by omega)).mpr hon,
      (erase_inside_iff (by decide)).mpr hon',
      (program_inside_iff (by omega) (by omega)).mpr hon', ?_,
      fun _ hnil => absurd hnil List.not_mem_nil⟩
    intro x hx
    rw [FlashAccess.Touches, devAddr_ffAddr h hoffset, sectorStart] at hx
    rw [InPartition]
    omega

/-- The last block, which goes over the end of the sector if it does not begin where blocks do. -/
lemma closeBlock_inside_iff {fil : AmpmFil} (h : fil.currentSector < diskSectorMax) :
    (∀ a ∈ pageLog (ffAddr fil.currentSector (closeBlock fil + 256)) 256, a.Inside) ↔
      ¬ (fil.currentSector = diskSectorMax - 1 ∧ diskSectorSize - 256 < closeBlock fil) := by
  have hmax : diskSectorMax = 110 := rfl
  have hsize : diskSectorSize = 3840 := rfl
  have hblock : closeBlock fil < diskSectorSize := Nat.mod_lt _ (by decide)
  rcases Nat.lt_or_ge 4096 (closeBlock fil + 256 + 256) with hcross | hfit
  · rw [pageLog_cross_inside_iff h (by omega) (Nat.le_refl _) hcross]
    omega
  · refine iff_of_true (pageLog_inside (onDisk_of_lt h) (by decide) hfit) ?_
    rintro ⟨-, hlarge⟩
    omega

/-- What `ampm_f_close` does after it has written the last block. -/
lemma ampmFClose_rest_stays (ff : Ff) {fil : AmpmFil} (hok : handleOk fil = true)
    (hpermission : fil.permission = 2) :
    Stays (ampmFlashWrite ff (ffAddr fil.currentSector (closeBlock fil + 256)) ff.buffer).2
      (ampmFClose ff fil).2.2 := by
  have hstart := onDisk_of_lt ((handleOk_iff fil).mp hok).start_lt
  simp only [ampmFClose, if_pos hok, if_pos hpermission, closing_startSector]
  rw [← closeBlock]
  generalize (ampmFlashWrite ff (ffAddr fil.currentSector (closeBlock fil + 256)) ff.buffer).2 = ff'
  have hread : Stays ff' (readFil ff' fil.startSector sizeofAmpmFil).2 :=
    readFil_stays hstart (by decide)
  split
  · exact hread.trans (writeFil_stays hstart (by decide))
  · exact (hread.trans (writeFil_stays hstart (by decide))).trans
      (ampmFlashEraseSector_stays hstart)

/-- `ampm_f_close` stays in the partition unless the last block goes over the end of it. -/
lemma ampmFClose_stays_iff (ff : Ff) (fil : AmpmFil) :
    Stays ff (ampmFClose ff fil).2.2 ↔ ¬ ClosesBehind fil := by
  by_cases hok : handleOk fil = true
  · by_cases hpermission : fil.permission = 2
    · have hcurrent := ((handleOk_iff fil).mp hok).current_lt
      have hlen : ff.buffer.length = 256 := by
        rw [Ff.buffer, List.length_map, List.length_range]
      have hlog : (ampmFlashWrite ff (ffAddr fil.currentSector (closeBlock fil + 256))
          ff.buffer).2.trace = ff.trace ++
            pageLog (ffAddr fil.currentSector (closeBlock fil + 256)) 256 := by
        rw [ampmFlashWrite_trace (Nat.le_of_eq hlen), hlen]
      have hrest := ampmFClose_rest_stays ff hok hpermission
      rw [stays_trans_iff ⟨_, hlog⟩ hrest.extends, and_iff_left hrest, stays_iff hlog,
        closeBlock_inside_iff hcurrent, ClosesBehind]
      simp only [hok, hpermission, true_and]
    · rw [ampmFClose, if_pos hok, if_neg hpermission]
      exact iff_of_true (addsOnly_refl ff) fun hbehind => hpermission hbehind.2.1
  · rw [ampmFClose, if_neg hok]
    exact iff_of_true (addsOnly_refl ff) fun hbehind => hok hbehind.1

end Close

/-! ## Seeking -/

/-- The sectors whose links `ampm_f_lseek` reads. -/
def linksFollowed (mem : Memory) : ℕ → ℕ → List ℕ
  | 0, _ => []
  | n + 1, s =>
      s :: if formatCheck (filAt mem s sizeofAmpmFil) then
        linksFollowed mem n (filAt mem s sizeofAmpmFil).nextSector
      else []

section Lseek

lemma ampmFLseekLoop_state :
    ∀ (n s : ℕ) (rfil : AmpmFil) (ff : Ff), (ampmFLseekLoop n s rfil ff).2 =
      ff.logged ((linksFollowed ff.flash.mem n s).map fun t =>
        .read (ffAddr t sizeofAmpmFil) sizeofAmpmFil)
  | 0, s, rfil, ff => by
      rw [ampmFLseekLoop, linksFollowed, List.map_nil, logged_nil]
  | n + 1, s, rfil, ff => by
      rw [ampmFLseekLoop, linksFollowed, readFil_eq]
      simp only
      split_ifs
      · rw [ampmFLseekLoop_state n, logged_logged, logged_mem, List.map_cons, List.singleton_append]
      · rw [List.map_singleton]

lemma ampmFLseek_stays_iff (ff : Ff) (fil : AmpmFil) (seek : ℕ) (rfil : AmpmFil) :
    Stays ff (ampmFLseek ff fil seek rfil).2.2 ↔
      ∀ t ∈ linksFollowed ff.flash.mem (seek / diskSectorSize) fil.startSector, OnDisk t := by
  have hstate : (ampmFLseek ff fil seek rfil).2.2 =
      (ampmFLseekLoop (seek / diskSectorSize) fil.startSector rfil ff).2 := by
    simp only [ampmFLseek]
    split <;> rfl
  rw [hstate, ampmFLseekLoop_state, stays_logged_iff, List.forall_mem_map]
  exact forall₂_congr fun t _ => read_inside_iff (by decide) (by decide)

lemma ampmFNextSector_stays_iff (ff : Ff) (fil : AmpmFil) :
    Stays ff (ampmFNextSector ff fil).2.2 ↔ OnDisk fil.startSector := by
  have hstate : (ampmFNextSector ff fil).2.2 =
      ff.logged [.read (ffAddr fil.startSector sizeofAmpmFil) sizeofAmpmFil] := by
    rw [ampmFNextSector, readFil_eq]
    split_ifs <;> rfl
  rw [hstate, stays_logged_iff, List.forall_mem_singleton]
  exact read_inside_iff (by decide) (by decide)

end Lseek

/-! ## Reading -/

/-- The number of bytes that `ampm_f_read` sets out to read. -/
def readCount (fil : AmpmFil) (btr : ℕ) : ℕ :=
  if (fil.fileOffset + btr) % 2 ^ 32 < fil.fileSize then btr
  else sub32 fil.fileSize fil.fileOffset

/-- A read that does not leave the current sector ends in the partition, in spite of what the sum
with the offset may hide; and one that does goes to a sector of the partition. -/
def ReadsInside (mem : Memory) (fil : AmpmFil) (btr : ℕ) : Prop :=
  handleOk fil = true →
    let temp := fil.fileOffset % diskSectorSize
    let n := readCount fil btr
    let link := filAt mem fil.startSector sizeofAmpmFil
    if (temp + n) % 2 ^ 32 ≤ diskSectorSize then
      fil.currentSector * 4096 + (256 + temp) + n % 2 ^ 16 ≤ diskSectorMax * 4096
    else formatCheck link = true →
      (temp + n) % 2 ^ 32 % diskSectorSize = 0 ∨ OnDisk link.nextSector

section Read

lemma readLoopLog_inside_iff :
    ∀ (fuel addr cnt : ℕ), cnt ≤ fuel → devAddr addr + cnt ≤ 2 ^ 24 →
      ((∀ a ∈ readLoopLog fuel addr cnt, a.Inside) ↔ (FlashAccess.read addr cnt).Inside)
  | 0, addr, cnt, hfuel, _ => by
      obtain rfl := Nat.le_zero.mp hfuel
      refine iff_of_true (fun a ha => absurd ha List.not_mem_nil) fun x hx => ?_
      exact absurd hx.2 (Nat.not_lt.mpr hx.1)
  | fuel + 1, addr, cnt, hfuel, hfit => by
      rw [readLoopLog]
      split_ifs with hcnt
      · subst hcnt
        refine iff_of_true (fun a ha => absurd ha List.not_mem_nil) fun x hx => ?_
        exact absurd hx.2 (Nat.not_lt.mpr hx.1)
      · have hnext : devAddr ((addr + 512) % 2 ^ 32) = devAddr addr + 512 ∨ cnt ≤ 512 := by
          rw [devAddr] at hfit ⊢
          rw [devAddr]
          omega
        have hlt : devAddr ((addr + 512) % 2 ^ 32) < 2 ^ 24 := Nat.mod_lt _ (by decide)
        rw [List.forall_mem_cons, readLoopLog_inside_iff fuel _ _ (by omega) (by omega)]
        simp only [FlashAccess.Inside, FlashAccess.Touches]
        constructor
        · rintro ⟨hfirst, hrest⟩ x hx
          rcases Nat.lt_or_ge x (devAddr addr + 512) with hlow | hhigh
          · exact hfirst x (by omega)
          · exact hrest x (by omega)
        · intro h
          exact ⟨fun x hx => h x (by omega), fun x hx => h x (by omega)⟩

/-- A read is inside if all that it is to read is. -/
lemma readLog_inside_iff {addr count : ℕ} (hfit : devAddr addr + count % 2 ^ 16 ≤ 2 ^ 24) :
    (∀ a ∈ readLog addr count, a.Inside) ↔ (FlashAccess.read addr (count % 2 ^ 16)).Inside := by
  simp only [readLog]
  split_ifs
  · exact List.forall_mem_singleton
  · exact readLoopLog_inside_iff _ _ _ (Nat.le_refl _) hfit

/-- A read inside a sector. -/
lemma readLog_sector_inside_iff {sector offset count : ℕ} (hfit : offset + count ≤ 4096) :
    (∀ a ∈ readLog (ffAddr sector offset) count, a.Inside) ↔ count = 0 ∨ OnDisk sector := by
  have hmod : count % 2 ^ 16 = count := Nat.mod_eq_of_lt (by omega)
  have hend : devAddr (ffAddr sector offset) + count ≤ 2 ^ 24 := by
    rw [devAddr_ffAddr_mod]
    omega
  rw [readLog_inside_iff (by rwa [hmod]), hmod]
  rcases Nat.eq_zero_or_pos count with rfl | hpos
  · exact iff_of_true (fun x hx => absurd hx.2 (Nat.not_lt.mpr hx.1)) (Or.inl rfl)
  · rw [read_inside_iff hpos hfit, or_iff_right (Nat.ne_of_gt hpos)]

/-- A read from a sector of the partition on. -/
lemma readLog_on_inside_iff {sector offset count : ℕ} (h : sector < diskSectorMax)
    (hoffset : offset < 4096) :
    (∀ a ∈ readLog (ffAddr sector offset) count, a.Inside) ↔
      sector * 4096 + offset + count % 2 ^ 16 ≤ diskSectorMax * 4096 := by
  have hmax : diskSectorMax = 110 := rfl
  have hlt : count % 2 ^ 16 < 2 ^ 16 := Nat.mod_lt _ (by decide)
  have haddr : devAddr (ffAddr sector offset) = 0x92000 + sector * 4096 + offset :=
    devAddr_ffAddr h hoffset
  rw [readLog_inside_iff (by omega), FlashAccess.Inside]
  simp only [FlashAccess.Touches, haddr, InPartition]
  constructor
  · intro hall
    by_contra hover
    have hlast := hall (max 0x100000 (0x92000 + sector * 4096 + offset)) (by omega)
    omega
  · intro hle x hx
    omega

/-- What `ampm_f_read` reads. -/
lemma ampmFRead_state {ff : Ff} {fil : AmpmFil} (btr : ℕ) (hok : handleOk fil = true) :
    (ampmFRead ff fil btr).ff =
      let temp := fil.fileOffset % diskSectorSize
      let n := readCount fil btr
      let addr := ffAddr fil.currentSector (256 + temp)
      let link := filAt ff.flash.mem fil.startSector sizeofAmpmFil
      if (temp + n) % 2 ^ 32 ≤ diskSectorSize then ff.logged (readLog addr n)
      else ff.logged (readLog addr (diskSectorSize - temp) ++
        .read (ffAddr fil.startSector sizeofAmpmFil) sizeofAmpmFil ::
          if formatCheck link then
            readLog (ffAddr link.nextSector 256) ((temp + n) % 2 ^ 32 % diskSectorSize)
          else []) := by
  simp only [ampmFRead, if_pos hok]
  rw [← readCount]
  by_cases hfit : (fil.fileOffset % diskSectorSize + readCount fil btr) % 2 ^ 32 ≤ diskSectorSize
  · simp only [if_pos hfit, ampmFlashRead_eq]
  · simp only [if_neg hfit, ampmFlashRead_eq, ampmFNextSector, readFil_eq, logged_mem]
    cases formatCheck (filAt ff.flash.mem fil.startSector sizeofAmpmFil) <;> simp

/-- `ampm_f_read` stays in the partition exactly if its reads do. -/
lemma ampmFRead_stays_iff (ff : Ff) (fil : AmpmFil) (btr : ℕ) :
    Stays ff (ampmFRead ff fil btr).ff ↔ ReadsInside ff.flash.mem fil btr := by
  by_cases hok : handleOk fil = true
  · have hhandle := (handleOk_iff fil).mp hok
    have htemp : fil.fileOffset % diskSectorSize < diskSectorSize := Nat.mod_lt _ (by decide)
    have hsize : diskSectorSize = 3840 := rfl
    have hcurrent := hhandle.current_lt
    have hfirst : ∀ a ∈ readLog
        (ffAddr fil.currentSector (256 + fil.fileOffset % diskSectorSize))
        (diskSectorSize - fil.fileOffset % diskSectorSize), a.Inside :=
      (readLog_sector_inside_iff (by omega)).mpr (Or.inr (onDisk_of_lt hcurrent))
    have hlink : (FlashAccess.read (ffAddr fil.startSector sizeofAmpmFil) sizeofAmpmFil).Inside :=
      (read_inside_iff (by decide) (by decide)).mpr (onDisk_of_lt hhandle.start_lt)
    have hrest : (fil.fileOffset % diskSectorSize + readCount fil btr) % 2 ^ 32 % diskSectorSize <
        diskSectorSize := Nat.mod_lt _ (by decide)
    rw [ampmFRead_state btr hok, ReadsInside, imp_iff_right hok]
    simp only
    split_ifs with hfit hvalid
    · rw [stays_logged_iff]
      exact readLog_on_inside_iff hcurrent (by omega)
    · rw [stays_logged_iff, List.forall_mem_append, List.forall_mem_cons, and_iff_right hfirst,
        and_iff_right hlink, readLog_sector_inside_iff (by omega), imp_iff_right hvalid]
    · rw [stays_logged_iff, List.forall_mem_append, List.forall_mem_singleton]
      exact iff_of_true ⟨hfirst, hlink⟩ fun h => absurd h hvalid
  · rw [ampmFRead, if_neg hok]
    exact iff_of_true (addsOnly_refl ff) fun h => absurd h hok

end Read

/-! ## Writing -/

/-- If the byte fills a sector, and the last block of it is written, another sector is free. -/
def NextFree (ff : Ff) (fil : AmpmFil) (c : UInt8) : Prop :=
  let put := ff.put (fil.fileOffset % 256) c
  let w := ampmFlashWrite put
    (ffAddr fil.grow.currentSector (sub32 fil.grow.fileOffset 256 % diskSectorSize + 256))
    put.buffer
  fil.grow.fileOffset % diskSectorSize = 0 → w.1 = .frOk → FindsSector w.2

/-- That is so at each byte that `ampm_f_write` takes. -/
def NextFrees (buff : List UInt8) (btr : ℕ) : ℕ → ℕ → AmpmFil → Ff → Prop
  | 0, _, _, _ => True
  | fuel + 1, i, fil, ff =>
      i < btr →
        let r := ampmFWriteByte ff fil (buff.getD i 0)
        NextFree ff fil (buff.getD i 0) ∧
          (r.1 = .frOk → NextFrees buff btr fuel ((i + 1) % 2 ^ 16) r.2.1 r.2.2)

section Write

variable {ff : Ff} {fil : AmpmFil}

lemma ampmFWriteSector_extends (ff : Ff) (fil : AmpmFil) :
    Extends Ff.trace (ampmFFindFreeSector ff).2 (ampmFWriteSector ff fil).2.2 := by
  simp only [ampmFWriteSector]
  split
  · exact extends_refl _
  · split
    · exact writeFil_extends _ _ _ _
    · split
      · exact (writeFil_extends _ _ _ _).trans (writeFil_extends _ _ _ _)
      · exact (writeFil_extends _ _ _ _).trans (writeFil_extends _ _ _ _)

/-- Another sector is found, linked, and given a header. -/
lemma ampmFWriteSector_stays_iff (hcurrent : fil.currentSector < diskSectorMax) :
    Stays ff (ampmFWriteSector ff fil).2.2 ↔ FindsSector ff := by
  rw [stays_trans_iff (ampmFFindFreeSector_extends ff) (ampmFWriteSector_extends ff fil),
    ampmFFindFreeSector_stays_iff, and_iff_left_iff_imp]
  intro hfinds
  obtain ⟨t, ht, hfound, -⟩ := ampmFFindFreeSector_found hfinds
  have hlink : ∀ ff' : Ff, Stays ff' (writeFil ff' fil.currentSector sizeofAmpmFil
      (fil.linkTo t)).2 := fun _ => writeFil_stays (onDisk_of_lt hcurrent) (by decide)
  have hheader : ∀ ff' : Ff, Stays ff' (writeFil ff' t 0 ((fil.linkTo t).moveTo t)).2 :=
    fun _ => writeFil_stays (onDisk_of_lt ht) (by decide)
  simp only [ampmFWriteSector, hfound]
  split
  · exact hlink _
  · split
    · exact (hlink _).trans (hheader _)
    · exact (hlink _).trans (hheader _)

/-- What is known of the sector if one is needed and found. -/
lemma ampmFWriteSector_current (hfinds : FindsSector ff)
    (hok : (ampmFWriteSector ff fil).1 = .frOk) :
    (ampmFWriteSector ff fil).2.1.currentSector < diskSectorMax := by
  obtain ⟨t, ff', l, h, hfind, -, -, heq⟩ := ampmFWriteSector_ok hok
  rw [heq]
  exact hfinds.found_lt (congrArg Prod.fst hfind)

lemma ampmFWriteBlock_trace {r : AmpmFResult} {ff' : Ff}
    (hw : ampmFlashWrite ff
      (ffAddr fil.currentSector (sub32 fil.fileOffset 256 % diskSectorSize + 256)) ff.buffer =
        (r, ff')) :
    (ampmFWriteBlock ff fil).2.2.trace =
      if fil.fileOffset % diskSectorSize = 0 ∧ r = .frOk then
        (ampmFWriteSector ff' fil).2.2.trace
      else ff'.trace := by
  cases r with
  | frErr =>
      rw [if_neg fun h => AmpmFResult.noConfusion h.2]
      simp only [ampmFWriteBlock, hw]
  | frOk =>
      simp only [ampmFWriteBlock, hw, and_true]
      split_ifs
      · split <;> rfl
      · rfl

/-- The block in `ampm_file_buf` is written, and with it the sector may be full. -/
lemma ampmFWriteBlock_stays_iff (hcurrent : fil.currentSector < diskSectorMax)
    (hblock : fil.fileOffset % 256 = 0) {r : AmpmFResult} {ff' : Ff}
    (hw : ampmFlashWrite ff
      (ffAddr fil.currentSector (sub32 fil.fileOffset 256 % diskSectorSize + 256)) ff.buffer =
        (r, ff')) :
    Stays ff (ampmFWriteBlock ff fil).2.2 ↔
      (fil.fileOffset % diskSectorSize = 0 → r = .frOk → FindsSector ff') := by
  have hlen := length_buffer ff
  have hfit : sub32 fil.fileOffset 256 % diskSectorSize + 256 + 256 ≤ 4096 := by
    unfold sub32 diskSectorSize
    omega
  have hfirst : Stays ff ff' := by
    have hstays : Stays ff (ampmFlashWrite ff
        (ffAddr fil.currentSector (sub32 fil.fileOffset 256 % diskSectorSize + 256)) ff.buffer).2 :=
      ampmFlashWrite_stays (onDisk_of_lt hcurrent) (by rw [hlen]; decide) (Nat.le_of_eq hlen)
        (by rwa [hlen])
    rwa [hw] at hstays
  have htrace := ampmFWriteBlock_trace hw
  split_ifs at htrace with hfull
  · have hstate : Stays ff (ampmFWriteBlock ff fil).2.2 ↔
        Stays ff (ampmFWriteSector ff' fil).2.2 := addsOnly_congr rfl htrace
    have hextends := (ampmFFindFreeSector_extends ff').trans (ampmFWriteSector_extends ff' fil)
    rw [hstate, stays_trans_iff hfirst.extends hextends, and_iff_right hfirst,
      ampmFWriteSector_stays_iff hcurrent, imp_iff_right hfull.1, imp_iff_right hfull.2]
  · have hstate : Stays ff (ampmFWriteBlock ff fil).2.2 ↔ Stays ff ff' := addsOnly_congr rfl htrace
    rw [hstate]
    exact iff_of_true hfirst fun hfull' hok => absurd ⟨hfull', hok⟩ hfull

lemma ampmFWriteBlock_extends (ff : Ff) (fil : AmpmFil) :
    Extends Ff.trace ff (ampmFWriteBlock ff fil).2.2 := by
  rcases hw : ampmFlashWrite ff
    (ffAddr fil.currentSector (sub32 fil.fileOffset 256 % diskSectorSize + 256)) ff.buffer
    with ⟨r, ff'⟩
  have hfirst : Extends Ff.trace ff ff' := by
    obtain ⟨-, rfl⟩ := Prod.mk.inj hw
    exact ampmFlashWrite_extends _ (Nat.le_of_eq (length_buffer ff))
  have htrace := ampmFWriteBlock_trace hw
  split_ifs at htrace
  · exact (extends_congr rfl htrace).mpr
      ((hfirst.trans (ampmFFindFreeSector_extends ff')).trans (ampmFWriteSector_extends ff' fil))
  · exact (extends_congr rfl htrace).mpr hfirst

lemma put_trace (ff : Ff) (k : ℕ) (c : UInt8) : (ff.put k c).trace = ff.trace := rfl

lemma mod_block_of_mod_sector {n : ℕ} (h : n % diskSectorSize = 0) : n % 256 = 0 := by
  unfold diskSectorSize at h
  omega

/-- One byte. -/
lemma ampmFWriteByte_stays_iff (hcurrent : fil.currentSector < diskSectorMax) (c : UInt8) :
    Stays ff (ampmFWriteByte ff fil c).2.2 ↔ NextFree ff fil c := by
  have hcurrent' : fil.grow.currentSector < diskSectorMax := hcurrent
  rw [ampmFWriteByte_eq, NextFree]
  rcases hw : ampmFlashWrite (ff.put (fil.fileOffset % 256) c)
    (ffAddr fil.grow.currentSector (sub32 fil.grow.fileOffset 256 % diskSectorSize + 256))
    (ff.put (fil.fileOffset % 256) c).buffer with ⟨r, ff'⟩
  simp only
  split_ifs with hblock
  · have hput : Stays ff (ampmFWriteBlock (ff.put (fil.fileOffset % 256) c) fil.grow).2.2 ↔
        Stays (ff.put (fil.fileOffset % 256) c)
          (ampmFWriteBlock (ff.put (fil.fileOffset % 256) c) fil.grow).2.2 :=
      addsOnly_congr (put_trace ff _ c).symm rfl
    exact hput.trans (ampmFWriteBlock_stays_iff hcurrent' hblock hw)
  · exact iff_of_true (addsOnly_of_eq rfl) fun hfull =>
      absurd (mod_block_of_mod_sector hfull) hblock

lemma ampmFWriteByte_extends (ff : Ff) (fil : AmpmFil) (c : UInt8) :
    Extends Ff.trace ff (ampmFWriteByte ff fil c).2.2 := by
  rw [ampmFWriteByte_eq]
  split_ifs
  · exact (extends_congr (put_trace ff _ c) rfl).mp
      (ampmFWriteBlock_extends (ff.put (fil.fileOffset % 256) c) fil.grow)
  · exact (extends_congr (put_trace ff (fil.fileOffset % 256) c) rfl).mp (extends_refl _)

lemma ampmFWriteByte_current (hcurrent : fil.currentSector < diskSectorMax) {c : UInt8}
    (hnext : NextFree ff fil c) (hok : (ampmFWriteByte ff fil c).1 = .frOk) :
    (ampmFWriteByte ff fil c).2.1.currentSector < diskSectorMax := by
  rw [ampmFWriteByte_eq] at hok ⊢
  split_ifs at hok ⊢ with hblock
  · obtain ⟨ff', hw, ⟨-, heq⟩ | ⟨hfull, hok', heq⟩⟩ := ampmFWriteBlock_ok hok
    · rw [heq]
      exact hcurrent
    · rw [heq]
      have hfinds : FindsSector ff' := by
        have hnext' := hnext hfull
        rw [hw] at hnext'
        exact hnext' rfl
      exact ampmFWriteSector_current hfinds hok'
  · exact hcurrent

lemma ampmFWriteLoop_extends (buff : List UInt8) (btr : ℕ) :
    ∀ (fuel i : ℕ) (fil : AmpmFil) (ff : Ff),
      Extends Ff.trace ff (ampmFWriteLoop buff btr fuel i fil ff).2.2
  | 0, _, _, ff => extends_refl ff
  | fuel + 1, i, fil, ff => by
      have hbyte := ampmFWriteByte_extends ff fil (buff.getD i 0)
      simp only [ampmFWriteLoop]
      split_ifs
      · split
        · exact hbyte
        · exact hbyte.trans (ampmFWriteLoop_extends buff btr fuel _ _ _)
      · exact extends_refl ff

/-- All bytes. -/
lemma ampmFWriteLoop_stays_iff (buff : List UInt8) (btr : ℕ) :
    ∀ (fuel i : ℕ) (fil : AmpmFil) (ff : Ff), fil.currentSector < diskSectorMax →
      (Stays ff (ampmFWriteLoop buff btr fuel i fil ff).2.2 ↔ NextFrees buff btr fuel i fil ff)
  | 0, _, _, ff, _ => iff_of_true (addsOnly_refl ff) trivial
  | fuel + 1, i, fil, ff, hcurrent => by
      have hbyte : Stays ff (ampmFWriteByte ff fil (buff.getD i 0)).2.2 ↔ _ :=
        ampmFWriteByte_stays_iff hcurrent (buff.getD i 0)
      have hextends := ampmFWriteByte_extends ff fil (buff.getD i 0)
      simp only [ampmFWriteLoop, NextFrees]
      split_ifs with hi
      · rw [imp_iff_right hi, ← hbyte]
        split
        next hret =>
          rw [hret]
          exact (and_iff_left fun h => AmpmFResult.noConfusion h).symm
        next hret =>
          rw [stays_trans_iff hextends (ampmFWriteLoop_extends buff btr fuel _ _ _),
            imp_iff_right hret]
          refine and_congr_right fun hstays => ?_
          exact ampmFWriteLoop_stays_iff buff btr fuel _ _ _
            (ampmFWriteByte_current hcurrent (hbyte.mp hstays) hret)
      · exact iff_of_true (addsOnly_refl ff) fun h => absurd h hi

end Write

/-! ## All operations -/

/-- The functions of the file system that reach the flash.  A handle is whatever the caller has. -/
inductive FfOp
  | fFileFormatCheck (fil : AmpmFil)
  | fDiskFormat
  | fDiskCleanup
  | fOpen (fil : AmpmFil) (fileName : List UInt8) (mode : UInt8)
  | fFindFreeSector
  | fGetfree
  | fSearchfile (fil : AmpmFil)
  | fUnlink (fileName : List UInt8)
  | fClose (fil : AmpmFil)
  | fLseek (fil : AmpmFil) (seek : ℕ) (rfil : AmpmFil)
  | fNextSector (fil : AmpmFil)
  | fRead (fil : AmpmFil) (btr : ℕ)
  | fWrite (fuel : ℕ) (fil : AmpmFil) (buff : List UInt8)

/-- The state after a call. -/
def FfOp.run (ff : Ff) : FfOp → Ff
  | .fFileFormatCheck fil => (ampmFFileFormatCheck ff fil).2.2
  | .fDiskFormat => ampmFDiskFormat ff
  | .fDiskCleanup => ampmFDiskCleanup ff
  | .fOpen fil fileName mode => (ampmFOpen ff fil fileName mode).ff
  | .fFindFreeSector => (ampmFFindFreeSector ff).2
  | .fGetfree => (ampmFGetfree ff).2
  | .fSearchfile fil => (ampmFSearchfile ff fil).2.2
  | .fUnlink fileName => (ampmFUnlink ff fileName).2
  | .fClose fil => (ampmFClose ff fil).2.2
  | .fLseek fil seek rfil => (ampmFLseek ff fil seek rfil).2.2
  | .fNextSector fil => (ampmFNextSector ff fil).2.2
  | .fRead fil btr => (ampmFRead ff fil btr).ff
  | .fWrite fuel fil buff => (ampmFWrite fuel ff fil buff).2.2

/-- The sectors that are given away are sectors of the partition, and free; and there is one to find
if one is counted. -/
def FfOp.Allocates (ff : Ff) : FfOp → Prop
  | .fFindFreeSector =>
      ((ampmFFindFreeSector ff).1.isSome = true ↔ 0 < (ampmFGetfree ff).1) ∧
        ∀ t, (ampmFFindFreeSector ff).1 = some t →
          t < diskSectorMax ∧ sectorValid ff.flash.mem t = false
  | .fOpen fil fileName mode =>
      let o := ampmFOpen ff fil fileName mode
      o.ret = .frOk → o.created = true →
        o.fil.startSector < diskSectorMax ∧ sectorValid ff.flash.mem o.fil.startSector = false ∧
          StoredAt o.fil.startSector 0 o.fil.bytes o.ff.flash.mem
  | _ => True

/-- What is asked of a call. -/
def FfOp.Sound (ff : Ff) (op : FfOp) : Prop := op.Allocates ff ∧ Stays ff (op.run ff)

/-- The condition on the state and the arguments. -/
def FfOp.Guarded (ff : Ff) : FfOp → Prop
  | .fOpen _ fileName mode =>
      ∃ i < diskSectorMax, i ≠ ff.rand ff.drawn % diskSectorMax ∧
        OpensAt ff.flash.mem fileName mode i
  | .fFindFreeSector => FindsSector ff
  | .fClose fil => ¬ ClosesBehind fil
  | .fLseek fil seek _ =>
      ∀ t ∈ linksFollowed ff.flash.mem (seek / diskSectorSize) fil.startSector, OnDisk t
  | .fNextSector fil => OnDisk fil.startSector
  | .fRead fil btr => ReadsInside ff.flash.mem fil btr
  | .fWrite fuel fil buff =>
      handleOk fil = true → fil.permission = 2 → NextFrees buff buff.length fuel 0 fil ff
  | _ => True

section All

variable {ff : Ff}

lemma ampmFFileFormatCheck_stays (ff : Ff) (fil : AmpmFil) :
    Stays ff (ampmFFileFormatCheck ff fil).2.2 := by
  rw [ampmFFileFormatCheck]
  split_ifs with hcheck
  · exact readFil_stays (onDisk_of_lt ((formatCheck_iff _).mp hcheck).start_lt) (by decide)
  · exact addsOnly_refl ff

lemma ampmFFindFreeSector_allocates (hfinds : FindsSector ff) :
    FfOp.Allocates ff .fFindFreeSector := by
  obtain ⟨t, ht, hfound, hfree⟩ := ampmFFindFreeSector_found hfinds
  refine ⟨iff_of_true ?_ ((ampmFGetfree_pos_iff ff).mpr ⟨t, ht, hfree⟩), fun u hu => ?_⟩
  · rw [hfound]
    rfl
  · obtain rfl := Option.some.inj (hfound.symm.trans hu)
    exact ⟨ht, hfree⟩

lemma findFreeSector_sound_iff : FfOp.Sound ff .fFindFreeSector ↔ FindsSector ff :=
  ⟨fun h => (ampmFFindFreeSector_stays_iff ff).mp h.2, fun h =>
    ⟨ampmFFindFreeSector_allocates h, (ampmFFindFreeSector_stays_iff ff).mpr h⟩⟩

lemma ampmFWrite_stays_iff (fuel : ℕ) (fil : AmpmFil) (buff : List UInt8) :
    Stays ff (ampmFWrite fuel ff fil buff).2.2 ↔
      (handleOk fil = true → fil.permission = 2 → NextFrees buff buff.length fuel 0 fil ff) := by
  rw [ampmFWrite]
  split_ifs with hok
  · obtain ⟨hhandle, hpermission⟩ := Bool.and_eq_true_iff.mp hok
    rw [imp_iff_right hhandle, imp_iff_right (of_decide_eq_true hpermission)]
    exact ampmFWriteLoop_stays_iff buff _ fuel 0 fil ff ((handleOk_iff fil).mp hhandle).current_lt
  · refine iff_of_true (addsOnly_refl ff) fun hhandle hpermission => absurd ?_ hok
    rw [hhandle, decide_eq_true hpermission]
    rfl

end All

/-- **Allocation and the partition.**  For every image of the flash, every value of `rand()`, every
operation and all its arguments: it is sound if and only if it is guarded. -/
theorem ffOp_sound_iff (ff : Ff) (op : FfOp) : op.Sound ff ↔ op.Guarded ff := by
  cases op with
  | fFileFormatCheck fil =>
      exact iff_of_true ⟨trivial, ampmFFileFormatCheck_stays ff fil⟩ trivial
  | fDiskFormat => exact iff_of_true ⟨trivial, ampmFDiskFormat_stays ff⟩ trivial
  | fDiskCleanup => exact iff_of_true ⟨trivial, ampmFDiskCleanup_stays ff⟩ trivial
  | fOpen fil fileName mode =>
      have hstays := ampmFOpen_stays_iff ff fil fileName mode
      exact ⟨fun h => hstays.mp h.2, fun h =>
        ⟨fun hok hcreated => ampmFOpen_places rfl h hok hcreated, hstays.mpr h⟩⟩
  | fFindFreeSector => exact findFreeSector_sound_iff
  | fGetfree => exact iff_of_true ⟨trivial, ampmFGetfree_stays ff⟩ trivial
  | fSearchfile fil => exact iff_of_true ⟨trivial, ampmFSearchfile_stays ff fil⟩ trivial
  | fUnlink fileName => exact iff_of_true ⟨trivial, ampmFUnlink_stays ff fileName⟩ trivial
  | fClose fil => exact (and_iff_right trivial).trans (ampmFClose_stays_iff ff fil)
  | fLseek fil seek rfil => exact (and_iff_right trivial).trans (ampmFLseek_stays_iff ff fil seek rfil)
  | fNextSector fil => exact (and_iff_right trivial).trans (ampmFNextSector_stays_iff ff fil)
  | fRead fil btr => exact (and_iff_right trivial).trans (ampmFRead_stays_iff ff fil btr)
  | fWrite fuel fil buff =>
      exact (and_iff_right trivial).trans (ampmFWrite_stays_iff fuel fil buff)

/-! ### A full disk but for one sector -/

/-- The header of a file in the sector 1. -/
def oneFreeFil : AmpmFil := newFil (AmpmFil.ofBytes fun _ => 0) [0x41] 1

/-- The sector 0 is erased, and all others have that header. -/
def oneFreeMem : Memory := fun x =>
  if x / 4096 = 0x92 then 0xFF else oneFreeFil.byte (x % 4096)

/-- The state in which `rand()` returns 0. -/
def oneFreeFf : Ff := ⟨⟨oneFreeMem, fun _ => none, 0, []⟩, fun _ => 0, fun _ => 0, 0, []⟩

lemma oneFreeFil_wellFormed : WellFormed oneFreeFil := (formatCheck_iff _).mp (by decide +kernel)

lemma oneFreeMem_holds {i : ℕ} (hpos : i ≠ 0) (hi : i ≤ diskSectorMax) :
    HoldsRecord (fun k => (cells oneFreeMem i 0 sizeofAmpmFil).getD k 0) oneFreeFil := by
  have hmax : diskSectorMax = 110 := rfl
  have hsizeof : sizeofAmpmFil = 68 := rfl
  intro k hk
  have hsector : (devAddr (ffAddr i 0) + k) / 4096 ≠ 0x92 := by
    rw [devAddr_ffAddr_mod]
    omega
  have hplace : (devAddr (ffAddr i 0) + k) % 4096 = k := by
    rw [devAddr_ffAddr_mod]
    omega
  show (NorFlash.read oneFreeMem _ _).getD k 0 = _
  rw [getD_read hk, oneFreeMem, if_neg hsector, hplace]

lemma oneFreeMem_valid {i : ℕ} (hpos : i ≠ 0) (hi : i ≤ diskSectorMax) :
    sectorValid oneFreeMem i = true := by
  have hcheck : ∀ {j : ℕ}, j ≠ 0 → j ≤ diskSectorMax →
      formatCheck (filAt oneFreeMem j 0) = true := fun hj hj' =>
    (formatCheck_iff _).mpr ((oneFreeMem_holds hj hj').wellFormed oneFreeFil_wellFormed)
  have hstart : (filAt oneFreeMem i 0).startSector = 1 :=
    (oneFreeMem_holds hpos hi).wordAt_eq_of_lt (j := 0) (by decide)
      (show oneFreeFil.startSector < 2 ^ 32 by decide)
  rw [sectorValid, hcheck hpos hi, hstart, hcheck (by decide) (by decide)]
  rfl

lemma oneFreeMem_free : sectorValid oneFreeMem 0 = false := by
  decide +kernel

/-- A free sector is counted and not found. -/
theorem findFreeSector_fails :
    (ampmFFindFreeSector oneFreeFf).1 = none ∧ 0 < (ampmFGetfree oneFreeFf).1 ∧
      ¬ FfOp.Sound oneFreeFf .fFindFreeSector := by
  refine ⟨?_, (ampmFGetfree_pos_iff oneFreeFf).mpr ⟨0, by decide, oneFreeMem_free⟩, fun h => ?_⟩
  · rcases ampmFFindFreeSector_spec oneFreeFf with ⟨pre, t, post, horder, -, hfree, -⟩ | ⟨-, heq⟩
    · have ht : t ∈ scanOrder 0 := horder ▸ List.mem_append_right _ List.mem_cons_self
      obtain ⟨hle, hne⟩ := (mem_scanOrder (by decide)).mp ht
      exact absurd (hfree.symm.trans (oneFreeMem_valid hne hle)) Bool.false_ne_true
    · rw [heq]
  · obtain ⟨i, hi, hne, hfree⟩ := findFreeSector_sound_iff.mp h
    exact Bool.false_ne_true (hfree.symm.trans (oneFreeMem_valid hne (Nat.le_of_lt hi)))

end Ampm
