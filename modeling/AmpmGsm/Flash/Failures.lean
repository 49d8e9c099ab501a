import AmpmGsm.Flash.Scan
import AmpmGsm.Lib.Runs

/-!
# Failures of the flash

What the calls of `ampm_f_write` and `ampm_f_close` report when `SST25_Write` fails.

* `FlashWrite`, `Round` — a program operation with its result, and those of one round of the loop of
  `ampm_f_write`.
* `writeRounds`, `closeWrites` — the program operations of a call; `ampmFWrite_issued` and
  `ampmFClose_issued` say that these are all.
* `WriterCall`, `writerStep` — a file that is written and closed, call by call.
* `flashFailures_reported_iff` — the calls that report what happened.
-/

namespace Ampm

open Runs

/-! ## Program operations -/

/-- What a program operation puts on the flash. -/
inductive Cargo
  | data
  | link
  | header
  | closeRecord
  | padding
  deriving DecidableEq

/-- A program operation, and what `SST25_Write` returned. -/
structure FlashWrite where
  cargo : Cargo
  ret : AmpmFResult
  deriving DecidableEq

/-- One round of the loop of `ampm_f_write`: what was programmed, and whether a sector was looked for
in vain. -/
structure Round where
  writes : List FlashWrite
  noSector : Bool

/-- Something failed in the round. -/
def Round.fails (round : Round) : Bool :=
  round.noSector || round.writes.any (·.ret = .frErr)

/-- `ampmFWriteSector`. -/
def sectorRound (ff : Ff) (fil : AmpmFil) : Round :=
  let s := ampmFFindFreeSector ff
  match s.1 with
  | none => ⟨[], true⟩
  | some sector =>
      let link := fil.linkTo sector
      let l := writeFil s.2 fil.currentSector sizeofAmpmFil link
      match l.1 with
      | .frErr => ⟨[⟨.link, .frErr⟩], false⟩
      | .frOk =>
          let h := writeFil l.2 sector 0 (link.moveTo sector)
          ⟨[⟨.link, .frOk⟩, ⟨.header, h.1⟩], false⟩

/-- `ampmFWriteBlock`. -/
def blockRound (ff : Ff) (fil : AmpmFil) : Round :=
  let block := sub32 fil.fileOffset 256 % diskSectorSize
  let w := ampmFlashWrite ff (ffAddr fil.currentSector (block + 256)) ff.buffer
  match w.1 with
  | .frErr => ⟨[⟨.data, .frErr⟩], false⟩
  | .frOk =>
      let s := if fil.fileOffset % diskSectorSize = 0 then sectorRound w.2 fil else ⟨[], false⟩
      ⟨⟨.data, .frOk⟩ :: s.writes, s.noSector⟩

/-- `ampmFWriteByte`. -/
def byteRound (ff : Ff) (fil : AmpmFil) (c : UInt8) : Round :=
  let ff := { ff with fileBuf := fun k => if k = fil.fileOffset % 256 then c else ff.fileBuf k }
  let fil :=
    { fil with
      fileSize := (fil.fileSize + 1) % 2 ^ 32
      fileOffset := (fil.fileOffset + 1) % 2 ^ 32 }
  if fil.fileOffset % 256 = 0 then blockRound ff fil else ⟨[], false⟩

/-- `ampmFWriteLoop`. -/
def loopRounds (buff : List UInt8) (btr : ℕ) : ℕ → ℕ → AmpmFil → Ff → List Round
  | 0, _, _, _ => []
  | fuel + 1, i, fil, ff =>
      if i < btr then
        let r := ampmFWriteByte ff fil (buff.getD i 0)
        byteRound ff fil (buff.getD i 0) ::
          match r.1 with
          | .frErr => []
          | .frOk => loopRounds buff btr fuel ((i + 1) % 2 ^ 16) r.2.1 r.2.2
      else []

/-- The test at the head of `ampm_f_write`. -/
def writeHandleOk (fil : AmpmFil) : Bool := handleOk fil && fil.permission = 2

/-- The rounds of `ampmFWrite`.  In each a byte is stored and counted in `file_size`. -/
def writeRounds (fuel : ℕ) (ff : Ff) (fil : AmpmFil) (buff : List UInt8) : List Round :=
  if writeHandleOk fil then loopRounds buff buff.length fuel 0 fil ff else []

/-- What `*br` is after `ampm_f_write`, if it was `br`. -/
def ampmFWriteBr (fil : AmpmFil) (buff : List UInt8) (br : ℕ) : ℕ :=
  if writeHandleOk fil then buff.length else br

/-- The write of `ampm_file_buf` in `ampm_f_close`. -/
def closeBlockWrite (ff : Ff) (fil : AmpmFil) : AmpmFResult × Ff :=
  let temp := fil.fileSize % 256
  let block := sub32 fil.fileOffset temp % diskSectorSize
  ampmFlashWrite ff (ffAddr fil.currentSector (block + 256)) ff.buffer

/-- The write of the close record in `ampm_f_close`. -/
def closeRecordWrite (ff : Ff) (fil : AmpmFil) : AmpmFResult × Ff :=
  let r := readFil (closeBlockWrite ff fil).2 fil.startSector sizeofAmpmFil
  writeFil r.2 fil.startSector (2 * sizeofAmpmFil) (fil.closing r.1.nextSector)

/-- The program operations of `ampmFClose`.  Without a rest of a block the buffer is empty. -/
def closeWrites (ff : Ff) (fil : AmpmFil) : List FlashWrite :=
  if handleOk fil && fil.permission = 2 then
    [⟨if fil.fileSize % 256 = 0 then .padding else .data, (closeBlockWrite ff fil).1⟩,
      ⟨.closeRecord, (closeRecordWrite ff fil).1⟩]
  else []

/-! ## All program operations -/

/-- Between the two states `SST25_Write` was called for `ws`, and it failed when the device let it
fail. -/
structure Issued (ff ff' : Ff) (ws : List FlashWrite) : Prop where
  fault : ff'.flash.fault = ff.flash.fault
  writes : ff'.flash.writes = ff.flash.writes + ws.length
  failing : ∀ (k : ℕ) (w : FlashWrite), ws[k]? = some w →
    (ff.flash.fault (ff.flash.writes + k)).isSome → w.ret = .frErr

section Issued

variable {ff ff' ff'' : Ff} {fil : AmpmFil} {ws ws' : List FlashWrite}

lemma Issued.none (hfault : ff'.flash.fault = ff.flash.fault)
    (hwrites : ff'.flash.writes = ff.flash.writes) : Issued ff ff' [] :=
  ⟨hfault, hwrites, fun _ _ hw => by cases hw⟩

lemma Issued.trans (h : Issued ff ff' ws) (h' : Issued ff' ff'' ws') :
    Issued ff ff'' (ws ++ ws') := by
  refine ⟨h'.fault.trans h.fault, ?_, fun k w hw hfault => ?_⟩
  · rw [h'.writes, h.writes, List.length_append, Nat.add_assoc]
  · rcases Nat.lt_or_ge k ws.length with hlt | hge
    · rw [List.getElem?_append_left hlt] at hw
      exact h.failing k w hw hfault
    · rw [List.getElem?_append_right hge] at hw
      refine h'.failing (k - ws.length) w hw ?_
      rwa [h.fault, h.writes, Nat.add_assoc, Nat.add_sub_cancel' hge]

/-- What follows does not write. -/
lemma Issued.quiet (h : Issued ff ff' ws) (hfault : ff''.flash.fault = ff'.flash.fault)
    (hwrites : ff''.flash.writes = ff'.flash.writes) : Issued ff ff'' ws :=
  ⟨hfault.trans h.fault, hwrites.trans h.writes, h.failing⟩

lemma sst25WriteChecked_frame (f : Flash) (addr : ℕ) (buf : List UInt8) :
    (sst25WriteChecked f addr buf).2.fault = f.fault ∧
      (sst25WriteChecked f addr buf).2.writes = f.writes := by
  simp only [sst25WriteChecked, sst25ReadBytes, sst25WriteBlocks]
  split_ifs <;> exact ⟨rfl, rfl⟩

lemma sst25WriteLoop_frame :
    ∀ (fuel : ℕ) (f : Flash) (addr : ℕ) (buf : List UInt8),
      (sst25WriteLoop fuel f addr buf).2.fault = f.fault ∧
        (sst25WriteLoop fuel f addr buf).2.writes = f.writes
  | 0, _, _, _ => ⟨rfl, rfl⟩
  | fuel + 1, f, addr, buf => by
      have hfirst := sst25WriteChecked_frame f addr (buf.take 256)
      rw [sst25WriteLoop]
      split_ifs
      · exact ⟨rfl, rfl⟩
      · simp only
        split_ifs
        · have hrest := sst25WriteLoop_frame fuel (sst25WriteChecked f addr (buf.take 256)).2
            ((addr + 256) % 2 ^ 32) (buf.drop 256)
          exact ⟨hrest.1.trans hfirst.1, hrest.2.trans hfirst.2⟩
        · exact hfirst

lemma sst25WriteInTime_frame (f : Flash) (addr : ℕ) (buf : List UInt8) :
    (sst25WriteInTime f addr buf).2.fault = f.fault ∧
      (sst25WriteInTime f addr buf).2.writes = f.writes := by
  simp only [sst25WriteInTime]
  split_ifs
  · exact sst25WriteChecked_frame f addr _
  · exact sst25WriteLoop_frame _ f addr _

lemma sst25Write_frame (f : Flash) (addr : ℕ) (buf : List UInt8) :
    (sst25Write f addr buf).2.fault = f.fault ∧
      (sst25Write f addr buf).2.writes = f.writes + 1 := by
  have hframe := sst25WriteInTime_frame { f with writes := f.writes + 1 } addr buf
  rw [sst25Write]
  cases f.fault f.writes with
  | none => exact hframe
  | some mem => exact hframe

lemma issued_write (ff : Ff) (addr : ℕ) (buf : List UInt8) (cargo : Cargo) :
    Issued ff (ampmFlashWrite ff addr buf).2 [⟨cargo, (ampmFlashWrite ff addr buf).1⟩] := by
  obtain ⟨hfault, hwrites⟩ := sst25Write_frame ff.flash addr buf
  refine ⟨hfault, hwrites, fun k w hw hfails => ?_⟩
  obtain rfl : k = 0 := by
    have hk := (List.getElem?_eq_some_iff.mp hw).1
    rw [List.length_singleton] at hk
    omega
  obtain rfl := Option.some.inj hw
  obtain ⟨mem, hmem⟩ := Option.isSome_iff_exists.mp hfails
  rw [Nat.add_zero] at hmem
  simp [ampmFlashWrite, sst25Write, hmem]

lemma issued_writeFil (ff : Ff) (sector offset : ℕ) (fil : AmpmFil) (cargo : Cargo) :
    Issued ff (writeFil ff sector offset fil).2 [⟨cargo, (writeFil ff sector offset fil).1⟩] :=
  issued_write ff (ffAddr sector offset) fil.bytes cargo

lemma issued_findFreeSector (ff : Ff) : Issued ff (ampmFFindFreeSector ff).2 [] := by
  rcases ampmFFindFreeSector_spec ff with ⟨_, _, _, -, -, -, heq⟩ | ⟨-, heq⟩
  · rw [heq]
    exact Issued.none rfl rfl
  · rw [heq]
    exact Issued.none rfl rfl

lemma ampmFWriteSector_issued (ff : Ff) (fil : AmpmFil) :
    Issued ff (ampmFWriteSector ff fil).2.2 (sectorRound ff fil).writes := by
  have hfind := issued_findFreeSector ff
  simp only [ampmFWriteSector, sectorRound]
  generalize ampmFFindFreeSector ff = s at hfind ⊢
  obtain ⟨_ | sector, ff'⟩ := s
  · exact hfind
  · have hlink := issued_writeFil ff' fil.currentSector sizeofAmpmFil (fil.linkTo sector) .link
    simp only at hfind ⊢
    generalize writeFil ff' fil.currentSector sizeofAmpmFil (fil.linkTo sector) = l at hlink ⊢
    obtain ⟨_ | _, ff''⟩ := l
    · have hheader := issued_writeFil ff'' sector 0 ((fil.linkTo sector).moveTo sector) .header
      simp only
      generalize writeFil ff'' sector 0 ((fil.linkTo sector).moveTo sector) = h at hheader ⊢
      obtain ⟨_ | _, ffEnd⟩ := h
      · exact (hfind.trans hlink).trans hheader
      · exact (hfind.trans hlink).trans hheader
    · exact hfind.trans hlink

lemma ampmFWriteBlock_issued (ff : Ff) (fil : AmpmFil) :
    Issued ff (ampmFWriteBlock ff fil).2.2 (blockRound ff fil).writes := by
  have hdata := issued_write ff
    (ffAddr fil.currentSector (sub32 fil.fileOffset 256 % diskSectorSize + 256)) ff.buffer .data
  simp only [ampmFWriteBlock, blockRound]
  generalize ampmFlashWrite ff _ ff.buffer = w at hdata ⊢
  obtain ⟨_ | _, ff'⟩ := w
  · simp only
    split_ifs with hsector
    · have hrest := ampmFWriteSector_issued ff' fil
      generalize ampmFWriteSector ff' fil = r at hrest ⊢
      obtain ⟨_ | _, fil', ff''⟩ := r
      · exact (hdata.trans hrest).quiet rfl rfl
      · exact hdata.trans hrest
    · exact hdata.quiet rfl rfl
  · exact hdata

lemma ampmFWriteByte_issued (ff : Ff) (fil : AmpmFil) (c : UInt8) :
    Issued ff (ampmFWriteByte ff fil c).2.2 (byteRound ff fil c).writes := by
  simp only [ampmFWriteByte, byteRound]
  split_ifs
  · have hblock := ampmFWriteBlock_issued
      { ff with fileBuf := fun k => if k = fil.fileOffset % 256 then c else ff.fileBuf k }
      { fil with
        fileSize := (fil.fileSize + 1) % 2 ^ 32
        fileOffset := (fil.fileOffset + 1) % 2 ^ 32 }
    exact ⟨hblock.fault, hblock.writes, hblock.failing⟩
  · exact Issued.none rfl rfl

lemma ampmFWriteLoop_issued (buff : List UInt8) (btr : ℕ) :
    ∀ (fuel i : ℕ) (fil : AmpmFil) (ff : Ff),
      Issued ff (ampmFWriteLoop buff btr fuel i fil ff).2.2
        ((loopRounds buff btr fuel i fil ff).flatMap (·.writes))
  | 0, _, _, _ => Issued.none rfl rfl
  | fuel + 1, i, fil, ff => by
      rw [ampmFWriteLoop, loopRounds]
      split_ifs
      · have hfirst := ampmFWriteByte_issued ff fil (buff.getD i 0)
        rw [List.flatMap_cons]
        generalize ampmFWriteByte ff fil (buff.getD i 0) = r at hfirst ⊢
        obtain ⟨_ | _, fil', ff'⟩ := r
        · exact hfirst.trans (ampmFWriteLoop_issued buff btr fuel _ fil' ff')
        · exact hfirst.trans (Issued.none rfl rfl)
      · exact Issued.none rfl rfl

/-- The rounds of a call of `ampm_f_write` have all its calls of `SST25_Write`. -/
theorem ampmFWrite_issued (fuel : ℕ) (ff : Ff) (fil : AmpmFil) (buff : List UInt8) :
    Issued ff (ampmFWrite fuel ff fil buff).2.2
      ((writeRounds fuel ff fil buff).flatMap (·.writes)) := by
  rw [ampmFWrite, writeRounds, ← writeHandleOk]
  split_ifs
  · exact ampmFWriteLoop_issued buff buff.length fuel 0 fil ff
  · exact Issued.none rfl rfl

lemma closeRecord_issued (ff : Ff) (fil : AmpmFil) (cargo : Cargo) :
    Issued ff (closeRecordWrite ff fil).2
      [⟨cargo, (closeBlockWrite ff fil).1⟩, ⟨.closeRecord, (closeRecordWrite ff fil).1⟩] := by
  have hblock := issued_write ff (ffAddr fil.currentSector
    (sub32 fil.fileOffset (fil.fileSize % 256) % diskSectorSize + 256)) ff.buffer cargo
  have hread : Issued ff (readFil (closeBlockWrite ff fil).2 fil.startSector sizeofAmpmFil).2
      [⟨cargo, (closeBlockWrite ff fil).1⟩] := by
    rw [readFil_eq]
    exact hblock.quiet rfl rfl
  exact hread.trans (issued_writeFil _ _ _ _ .closeRecord)

/-- And the list for `ampm_f_close` has all of its. -/
theorem ampmFClose_issued (ff : Ff) (fil : AmpmFil) :
    Issued ff (ampmFClose ff fil).2.2 (closeWrites ff fil) := by
  by_cases hpass : handleOk fil = true
  · by_cases hwrite : fil.permission = 2
    · have hcond : (handleOk fil && fil.permission = 2) = true := by simp [hpass, hwrite]
      have hrecord := closeRecord_issued ff fil
        (if fil.fileSize % 256 = 0 then .padding else .data)
      rw [ampmFClose, closeWrites, if_pos hpass, if_pos hwrite, if_pos hcond]
      simp only
      split
      · exact hrecord
      · exact hrecord.quiet rfl rfl
    · simp [ampmFClose, closeWrites, hpass, hwrite, Issued.none]
  · simp [ampmFClose, closeWrites, hpass, Issued.none]

end Issued

/-! ## Calls -/

/-- A call on a handle.  `br` is what the variable of the caller holds before the call, and `fuel`
for how many rounds of its loop the call is followed. -/
inductive WriterCall
  | write (buff : List UInt8) (br fuel : ℕ)
  | close

/-- The handle and the shared state, and whether the last call has returned. -/
structure WriterRun where
  fil : AmpmFil
  ff : Ff
  returned : Bool

/-- One call. -/
def writerStep (s : WriterRun) (call : WriterCall) : WriterRun :=
  if s.returned then
    match call with
    | .write buff _ fuel =>
        let r := ampmFWrite fuel s.ff s.fil buff
        ⟨r.2.1, r.2.2, r.1.isSome⟩
    | .close =>
        let r := ampmFClose s.ff s.fil
        ⟨r.2.1, r.2.2, true⟩
  else s

/-- The call returns `FR_ERR` if a program operation failed that carries something, and `*br` is the
number of bytes that were accepted. -/
def Reported (s : WriterRun) : WriterCall → Prop
  | .write buff br fuel =>
      s.returned →
        ((∃ round ∈ writeRounds fuel s.ff s.fil buff, ∃ w ∈ round.writes, w.ret = .frErr) →
          (ampmFWrite fuel s.ff s.fil buff).1 = some .frErr) ∧
        ((ampmFWrite fuel s.ff s.fil buff).1.isSome →
          ampmFWriteBr s.fil buff br = (writeRounds fuel s.ff s.fil buff).length)
  | .close =>
      s.returned →
        (∃ w ∈ closeWrites s.ff s.fil, w.cargo ≠ .padding ∧ w.ret = .frErr) →
          (ampmFClose s.ff s.fil).1 = .frErr

/-- Writing: nothing fails before the last byte of the call, and a call that is refused finds 0 in
`*br`.  Closing: the block in the buffer is written, if it holds bytes of the file, unless the close
record is not. -/
def FailsInTime (s : WriterRun) : WriterCall → Prop
  | .write buff br fuel =>
      s.returned →
        if writeHandleOk s.fil then
          ∀ (k : ℕ) (round : Round), (writeRounds fuel s.ff s.fil buff)[k]? = some round →
            round.fails → k + 1 = buff.length
        else br = 0
  | .close =>
      s.returned → handleOk s.fil → s.fil.permission = 2 → s.fil.fileSize % 256 ≠ 0 →
        (closeBlockWrite s.ff s.fil).1 = .frErr → (closeRecordWrite s.ff s.fil).1 = .frErr

/-! ## What the rounds say -/

section Rounds

variable {ff : Ff} {fil : AmpmFil}

lemma ampmFWriteSector_err_iff :
    (ampmFWriteSector ff fil).1 = .frErr ↔ (sectorRound ff fil).fails = true := by
  simp only [ampmFWriteSector, sectorRound]
  rcases ampmFFindFreeSector ff with ⟨_ | sector, ff'⟩
  · simp [Round.fails]
  · simp only
    rcases writeFil ff' fil.currentSector sizeofAmpmFil (fil.linkTo sector) with ⟨_ | _, ff''⟩
    · simp only
      rcases writeFil ff'' sector 0 ((fil.linkTo sector).moveTo sector) with ⟨_ | _, ff'''⟩
      · simp [Round.fails]
      · simp [Round.fails]
    · simp [Round.fails]

/-- A write that does not fail adds nothing. -/
lemma fails_cons (cargo : Cargo) (round : Round) :
    Round.fails ⟨⟨cargo, .frOk⟩ :: round.writes, round.noSector⟩ = round.fails := by
  simp [Round.fails]

lemma ampmFWriteBlock_err_iff :
    (ampmFWriteBlock ff fil).1 = .frErr ↔ (blockRound ff fil).fails = true := by
  simp only [ampmFWriteBlock, blockRound]
  generalize ampmFlashWrite ff _ ff.buffer = w
  obtain ⟨_ | _, ff'⟩ := w
  · simp only
    rw [fails_cons]
    split_ifs with hsector
    · rw [← ampmFWriteSector_err_iff]
      rcases hret : (ampmFWriteSector ff' fil).1 with _ | _
      · simp
      · simp [hret]
    · simp [Round.fails]
  · simp [Round.fails]

lemma ampmFWriteByte_err_iff (ff : Ff) (fil : AmpmFil) (c : UInt8) :
    (ampmFWriteByte ff fil c).1 = .frErr ↔ (byteRound ff fil c).fails = true := by
  unfold ampmFWriteByte byteRound
  simp only
  split_ifs with hfull
  · exact ampmFWriteBlock_err_iff
  · simp [Round.fails]

/-- What the rounds have to do with the end of the call: something failed in the last one at most,
and then the call returns `FR_ERR`. -/
structure RoundsEnd (ret : Option AmpmFResult) (rounds : List Round) (left : ℕ) : Prop where
  stopped : ∀ (k : ℕ) (round : Round), rounds[k]? = some round → round.fails = true →
    ret = some .frErr ∧ k + 1 = rounds.length
  failed : ret = some .frErr → ∃ (k : ℕ) (round : Round), rounds[k]? = some round ∧ round.fails = true
  all : ret = some .frOk → rounds.length = left

lemma RoundsEnd.of_fails {round : Round} (h : round.fails = true) (left : ℕ) :
    RoundsEnd (some .frErr) [round] left := by
  refine ⟨fun k r hr _ => ⟨rfl, ?_⟩, fun _ => ⟨0, round, rfl, h⟩, fun hok => by cases hok⟩
  have hk : k < [round].length := (List.getElem?_eq_some_iff.mp hr).1
  rw [List.length_singleton] at hk ⊢
  omega

lemma RoundsEnd.cons {ret : Option AmpmFResult} {rounds : List Round} {left : ℕ} {round : Round}
    (h : RoundsEnd ret rounds left) (hround : round.fails = false) :
    RoundsEnd ret (round :: rounds) (left + 1) := by
  refine ⟨fun k r hr hfails => ?_, fun hret => ?_, fun hok => ?_⟩
  · cases k with
    | zero =>
        obtain rfl : round = r := Option.some.inj hr
        rw [hround] at hfails
        cases hfails
    | succ k =>
        obtain ⟨hret, hk⟩ := h.stopped k r hr hfails
        exact ⟨hret, by rw [List.length_cons, hk]⟩
  · obtain ⟨k, r, hr, hfails⟩ := h.failed hret
    exact ⟨k + 1, r, hr, hfails⟩
  · rw [List.length_cons, h.all hok]

/-- The loop ends without a result or with `FR_OK` only if nothing failed. -/
lemma loopRounds_end {buff : List UInt8} {btr : ℕ} :
    ∀ (fuel i : ℕ) (fil : AmpmFil) (ff : Ff), i ≤ btr → i < 2 ^ 16 →
      RoundsEnd (ampmFWriteLoop buff btr fuel i fil ff).1 (loopRounds buff btr fuel i fil ff)
          (btr - i) ∧
        ((ampmFWriteLoop buff btr fuel i fil ff).1 = some .frOk → btr < 2 ^ 16)
  | 0, _, _, _, _, _ => by
      refine ⟨⟨fun _ _ hr _ => ?_, fun h => ?_, fun h => ?_⟩, fun h => ?_⟩
      · cases hr
      · cases h
      · cases h
      · cases h
  | fuel + 1, i, fil, ff, hi, hcount => by
      rw [ampmFWriteLoop, loopRounds]
      split_ifs with hlt
      · have hiff := ampmFWriteByte_err_iff ff fil (buff.getD i 0)
        rcases hbyte : ampmFWriteByte ff fil (buff.getD i 0) with ⟨_ | _, fil', ff'⟩
        · rw [hbyte] at hiff
          have hround : (byteRound ff fil (buff.getD i 0)).fails = false := by
            simpa using hiff
          have hnext : (i + 1) % 2 ^ 16 ≤ btr := Nat.le_trans (Nat.mod_le _ _) hlt
          obtain ⟨hend, hbound⟩ := loopRounds_end fuel ((i + 1) % 2 ^ 16) fil' ff' hnext
            (Nat.mod_lt _ (by decide))
          refine ⟨⟨(hend.cons hround).stopped, (hend.cons hround).failed, fun hok => ?_⟩, hbound⟩
          have hbtr := hbound hok
          rw [(hend.cons hround).all hok]
          omega
        · rw [hbyte] at hiff
          exact ⟨RoundsEnd.of_fails (hiff.mp rfl) _, fun h => by cases h⟩
      · refine ⟨⟨fun _ _ hr _ => ?_, fun h => ?_, fun _ => ?_⟩, fun _ => ?_⟩
        · cases hr
        · cases h
        · rw [List.length_nil]
          omega
        · omega

/-- The call of `ampm_f_write` on a handle that passes. -/
lemma writeRounds_end (ff : Ff) (fuel : ℕ) (buff : List UInt8)
    (hpass : writeHandleOk fil = true) :
    RoundsEnd (ampmFWrite fuel ff fil buff).1 (writeRounds fuel ff fil buff) buff.length := by
  rw [ampmFWrite, writeRounds, ← writeHandleOk, if_pos hpass, if_pos hpass]
  exact (loopRounds_end fuel 0 fil ff (Nat.zero_le _) (by decide)).1

lemma ampmFWrite_refused (ff : Ff) (fuel : ℕ) (buff : List UInt8)
    (hpass : writeHandleOk fil = false) :
    (ampmFWrite fuel ff fil buff).1 = some .frErr ∧ writeRounds fuel ff fil buff = [] := by
  rw [ampmFWrite, writeRounds, ← writeHandleOk, hpass]
  exact ⟨rfl, rfl⟩

/-- `ampm_f_close` returns what the write of the close record returns. -/
lemma ampmFClose_ret (hpass : handleOk fil = true) (hwrite : fil.permission = 2) :
    (ampmFClose ff fil).1 = (closeRecordWrite ff fil).1 := by
  rw [ampmFClose, if_pos hpass, if_pos hwrite, closeRecordWrite, closeBlockWrite]
  simp only
  split
  case h_1 hret => exact hret.symm
  case h_2 hret => exact hret.symm

end Rounds

/-! ## The calls that report -/

/-- A program operation that fails is in a round in which something fails. -/
lemma fails_of_write {round : Round} {w : FlashWrite} (hw : w ∈ round.writes)
    (hret : w.ret = .frErr) : round.fails = true := by
  rw [Round.fails, Bool.or_eq_true]
  exact .inr (List.any_eq_true.mpr ⟨w, hw, decide_eq_true hret⟩)

lemma reported_write_iff (s : WriterRun) (buff : List UInt8) (br fuel : ℕ) :
    Reported s (.write buff br fuel) ↔ FailsInTime s (.write buff br fuel) := by
  refine imp_congr_right fun _ => ?_
  cases hpass : writeHandleOk s.fil with
  | false =>
      obtain ⟨hret, hrounds⟩ := ampmFWrite_refused s.ff fuel buff hpass
      rw [ampmFWriteBr, hret, hrounds, hpass]
      simp
  | true =>
      have hend := writeRounds_end s.ff fuel buff hpass
      rw [ampmFWriteBr, hpass, if_pos rfl, if_pos rfl]
      constructor
      · rintro ⟨-, hbr⟩ k round hround hfails
        obtain ⟨hret, hk⟩ := hend.stopped k round hround hfails
        exact hk.trans (hbr (by rw [hret, Option.isSome_some])).symm
      · intro hcond
        refine ⟨?_, fun hret => ?_⟩
        · rintro ⟨round, hround, w, hw, hfail⟩
          obtain ⟨k, hk⟩ := List.mem_iff_getElem?.mp hround
          exact (hend.stopped k round hk (fails_of_write hw hfail)).1
        · obtain ⟨ret, hret⟩ := Option.isSome_iff_exists.mp hret
          cases ret with
          | frOk => exact (hend.all hret).symm
          | frErr =>
              obtain ⟨k, round, hround, hfails⟩ := hend.failed hret
              rw [← hcond k round hround hfails, (hend.stopped k round hround hfails).2]

lemma reported_close_iff (s : WriterRun) : Reported s .close ↔ FailsInTime s .close := by
  refine imp_congr_right fun _ => ?_
  rw [closeWrites]
  by_cases hpass : handleOk s.fil = true
  · by_cases hwrite : s.fil.permission = 2
    · rw [ampmFClose_ret hpass hwrite]
      simp only [hpass, hwrite]
      by_cases hrest : s.fil.fileSize % 256 = 0
      · simp [hrest]
      · simp [hrest, or_imp]
    · simp [hwrite]
  · simp [hpass]

/-- **Failures of the flash are reported** by the calls of a run, whatever `SST25_Write` returns, if
and only if nothing fails in a call of `ampm_f_write` before its last byte, a call that is refused
finds 0 in `*br`, and `ampm_f_close` writes the rest of the file unless it fails to write the close
record too. -/
theorem flashFailures_reported_iff (s : WriterRun) (calls : List WriterCall) :
    StepsMeet writerStep Reported s calls ↔ StepsMeet writerStep FailsInTime s calls := by
  have hiff : ∀ (s : WriterRun) (call : WriterCall), Reported s call ↔ FailsInTime s call := by
    intro s call
    cases call with
    | write buff br fuel => exact reported_write_iff s buff br fuel
    | close => exact reported_close_iff s
  have htrivial : ∀ (s : WriterRun) (call : WriterCall), True → Reported s call → True :=
    fun _ _ _ _ => trivial
  constructor
  · exact stepsMeet_of_invariant (I := fun _ => True) htrivial (fun s call _ => (hiff s call).mp)
      trivial
  · exact stepsMeet_of_invariant (I := fun _ => True) (fun _ _ _ _ => trivial)
      (fun s call _ => (hiff s call).mpr) trivial

/-- A file that was just created, on a flash whose next write programs nothing and fails. -/
def failingFile : WriterRun :=
  let ff : Ff := ⟨⟨fun _ => 0xff, fun _ => none, 0, []⟩, fun _ => 0xff, fun _ => 1, 0, []⟩
  let o := ampmFOpen ff (AmpmFil.ofBytes fun _ => 0) [97] 0x08
  let fault := fun k => if k = 1 then some o.ff.flash.mem else none
  ⟨o.fil, { o.ff with flash := { o.ff.flash with fault := fault } }, true⟩

/-- One byte is written, and the write of the block fails when the file is closed: `ampm_f_close`
returns `FR_OK`. -/
theorem flashFailures_unreported :
    ¬ StepsMeet writerStep Reported failingFile [.write [7] 0 2, .close] := by
  rintro ⟨-, hclose, -⟩
  have hret : (ampmFClose (writerStep failingFile (.write [7] 0 2)).ff
      (writerStep failingFile (.write [7] 0 2)).fil).1 = .frOk := by
    decide +kernel
  have hwrites : closeWrites (writerStep failingFile (.write [7] 0 2)).ff
      (writerStep failingFile (.write [7] 0 2)).fil =
        [⟨.data, .frErr⟩, ⟨.closeRecord, .frOk⟩] := by
    decide +kernel
  have herr := hclose (by decide +kernel) ⟨⟨.data, .frErr⟩, by rw [hwrites]; simp, by decide, rfl⟩
  rw [hret] at herr
  cases herr

end Ampm
