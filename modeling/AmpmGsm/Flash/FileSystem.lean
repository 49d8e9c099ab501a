import AmpmGsm.Flash.FileRecord

/-!
# The file system

`ampm_ff/ampm_ff.c`: files in sectors of 4096 bytes of the flash, each sector with a header of 256
bytes that has room for three records: the header record, the link to the next sector, and in the
first sector the record that is written when the file is closed.

* `Ff` — the flash and what the functions share.
* `scanLoop` — the search that starts at a random sector, goes down and then up.
* `ampmFOpen`, `ampmFFindFreeSector`, `ampmFClose`, `ampmFLseek`, `ampmFRead`, `ampmFWrite`, … — the
  functions.
-/

namespace Ampm

/-! ## Shared state -/

/-- `AMPM_FRESULT`. -/
inductive AmpmFResult
  | frOk
  | frErr
  deriving DecidableEq

/-- The flash, `ampm_file_buf`, what the calls of `rand()` return and how many were made, and the
sectors that `ampm_f_find_free_sector` has returned. -/
structure Ff where
  flash : Flash
  fileBuf : ℕ → UInt8
  rand : ℕ → ℕ
  drawn : ℕ
  found : List ℕ

/-- `AMPM_FLASH_START_ADDR + sector*AMPM_FLASH_SECTOR_SIZE + offset`. -/
def ffAddr (sector offset : ℕ) : ℕ := (0x00092000 + sector * 0x1000 + offset) % 2 ^ 32

/-- A difference in `uint32_t`. -/
def sub32 (a b : ℕ) : ℕ := (a + 2 ^ 32 - b) % 2 ^ 32

/-- `ampm_flash_read`.  No caller looks at its result. -/
def ampmFlashRead (ff : Ff) (addr count : ℕ) : List UInt8 × Ff :=
  let r := sst25Read ff.flash addr count
  (r.1, { ff with flash := r.2 })

/-- `ampm_flash_write`. -/
def ampmFlashWrite (ff : Ff) (addr : ℕ) (buf : List UInt8) : AmpmFResult × Ff :=
  let r := sst25Write ff.flash addr buf
  (if r.1 then .frOk else .frErr, { ff with flash := r.2 })

/-- `ampm_flash_erase_sector`. -/
def ampmFlashEraseSector (ff : Ff) (addr : ℕ) : Ff :=
  { ff with flash := sst25Erase ff.flash addr }

/-- `ampm_flash_read` of a record. -/
def readFil (ff : Ff) (sector offset : ℕ) : AmpmFil × Ff :=
  let r := ampmFlashRead ff (ffAddr sector offset) sizeofAmpmFil
  (AmpmFil.ofBytes fun k => r.1.getD k 0, r.2)

/-- `ampm_flash_write` of a record. -/
def writeFil (ff : Ff) (sector offset : ℕ) (fil : AmpmFil) : AmpmFResult × Ff :=
  ampmFlashWrite ff (ffAddr sector offset) fil.bytes

/-- `ampm_f_file_format_check`: whether it returns `FR_OK`, and what it leaves in `fil`. -/
def ampmFFileFormatCheck (ff : Ff) (fil : AmpmFil) : Bool × AmpmFil × Ff :=
  if formatCheck fil then
    let r := readFil ff fil.startSector 0
    (formatCheck r.1, r.1, r.2)
  else (false, fil, ff)

/-- The read of the record at the head of a sector, and the check of it. -/
def readHeader (ff : Ff) (sector : ℕ) : Bool × AmpmFil × Ff :=
  let r := readFil ff sector 0
  ampmFFileFormatCheck r.2 r.1

/-! ## Searches -/

/-- A loop that goes on while its body returns nothing. -/
def untilSome {σ ρ : Type*} (body : ℕ → σ → Option ρ × σ) : List ℕ → σ → Option ρ × σ
  | [], s => (none, s)
  | i :: is, s =>
      let r := body i s
      if r.1.isSome then r else untilSome body is r.2

/-- `i`, `rand_sec` and `temp` of the random search. -/
structure Scan where
  i : ℕ
  randSec : ℕ
  temp : ℕ

/-- The beginning of the loop's body. -/
def Scan.next (s : Scan) : Scan :=
  if s.randSec ≠ 0 then ⟨s.i - 1, s.randSec - 1, s.temp⟩
  else if s.temp ≠ 0 then ⟨s.temp + 1, 0, 0⟩
  else ⟨s.i + 1, 0, 0⟩

/-- The loop of `ampm_f_open` and `ampm_f_find_free_sector`. -/
def scanLoop {σ ρ : Type*} (body : ℕ → σ → Option ρ × σ) : ℕ → Scan → σ → Option ρ × σ
  | 0, _, s => (none, s)
  | fuel + 1, scan, s =>
      if scan.i < diskSectorMax then
        let r := body scan.next.i s
        if r.1.isSome then r else scanLoop body fuel scan.next r.2
      else (none, s)

/-- The search from `rand()` on.  It looks at each sector once at most. -/
def randomScan {σ ρ : Type*} (body : ℕ → σ → Option ρ × σ) (rand : ℕ) (s : σ) : Option ρ × σ :=
  let r := rand % diskSectorMax
  scanLoop body (diskSectorMax + 1) ⟨r, r, r⟩ s

/-- `rand()`. -/
def Ff.draw (ff : Ff) : ℕ × Ff := (ff.rand ff.drawn, { ff with drawn := ff.drawn + 1 })

/-- `ampm_f_find_free_sector`: the sector, if it returns `FR_OK`. -/
def ampmFFindFreeSector (ff : Ff) : Option ℕ × Ff :=
  let d := ff.draw
  let r := randomScan (fun i ff =>
    let h := readHeader ff i
    (if h.1 then none else some i, h.2.2)) d.1 d.2
  (r.1, { r.2 with found := r.2.found ++ r.1.toList })

/-! ## Files -/

/-- The string in `file_name`. -/
def AmpmFil.name (fil : AmpmFil) : List UInt8 := ((List.range 32).map fil.fileName).takeWhile (· ≠ 0)

/-- `fil->file_name[0] = 0;` -/
def AmpmFil.clearName (fil : AmpmFil) : AmpmFil :=
  { fil with fileName := fun k => if k = 0 then 0 else fil.fileName k }

/-- `strcpy(fil->file_name, fileName)`.  What does not fit into the name is overwritten by the
assignments that follow. -/
def AmpmFil.setName (fil : AmpmFil) (fileName : List UInt8) : AmpmFil :=
  { fil with
    fileName := fun k => if k ≤ fileName.length then fileName.getD k 0 else fil.fileName k }

/-- A bit of `mode`. -/
def hasMode (mode bits : UInt8) : Bool := mode &&& bits ≠ 0

/-- The record of a new file in the sector `i`. -/
def newFil (fil : AmpmFil) (fileName : List UInt8) (i : ℕ) : AmpmFil :=
  AmpmFil.seal
    { fil.setName fileName with
      startSector := i
      currentSector := i
      previousSector := i
      nextSector := 0xffffffff
      fileSize := 0
      fileOffset := 0
      fileStatus := ampmFaStatusOk
      permission := 2 }

/-- What a call of `ampm_f_open` comes to, and whether the file is a new one. -/
structure AmpmFOpened where
  ret : AmpmFResult
  created : Bool
  fil : AmpmFil
  ff : Ff

/-- The body of the loop of `ampm_f_open`, on `fil` and the shared state. -/
def ampmFOpenBody (fileName : List UInt8) (mode : UInt8) (i : ℕ) (s : AmpmFil × Ff) :
    Option (AmpmFResult × Bool) × AmpmFil × Ff :=
  let h := readHeader s.2 i
  let fil := h.2.1
  let ff := h.2.2
  if h.1 then
    if hasMode mode (0x01 ||| 0x10 ||| 0x80) && fileName = fil.name then
      let r := readFil ff fil.startSector (2 * sizeofAmpmFil)
      if formatCheck r.1 then
        let permission := if hasMode mode 0x02 then 2 else 1
        (some (.frOk, false), { r.1 with permission := permission, fileOffset := 0 }, r.2)
      else (none, r.1, r.2)
    else (none, fil, ff)
  else if hasMode mode (0x08 ||| 0x04) then
    let fil := newFil fil fileName i
    let r := writeFil ff fil.startSector 0 fil
    (some (r.1, true), fil, r.2)
  else (none, fil, ff)

/-- `ampm_f_open`. -/
def ampmFOpen (ff : Ff) (fil : AmpmFil) (fileName : List UInt8) (mode : UInt8) : AmpmFOpened :=
  let d := ff.draw
  let r := randomScan (ampmFOpenBody fileName mode) d.1 (fil, d.2)
  match r.1 with
  | some (ret, created) => ⟨ret, created, r.2.1, r.2.2⟩
  | none => ⟨.frErr, false, r.2.1.clearName, r.2.2⟩

/-- `ampm_f_disk_format`. -/
def ampmFDiskFormat (ff : Ff) : Ff :=
  (List.range diskSectorMax).foldl (fun ff i => ampmFlashEraseSector ff (ffAddr i 0)) ff

/-- `ampm_f_disk_cleanup`. -/
def ampmFDiskCleanup (ff : Ff) : Ff :=
  (List.range diskSectorMax).foldl (fun ff i =>
    let h := readHeader ff i
    if h.1 then
      let startSector := h.2.1.startSector
      let r := readFil h.2.2 startSector 0
      if formatCheck r.1 then
        let c := readFil r.2 r.1.startSector (2 * sizeofAmpmFil)
        if formatCheck c.1 then c.2 else ampmFlashEraseSector c.2 (ffAddr startSector 0)
      else r.2
    else h.2.2) ff

/-- `ampm_f_getfree`. -/
def ampmFGetfree (ff : Ff) : ℕ × Ff :=
  (List.range diskSectorMax).foldl (fun s i =>
    let h := readHeader s.2 i
    (if h.1 then s.1 else s.1 + 1, h.2.2)) (0, ff)

/-- `ampm_f_searchfile`. -/
def ampmFSearchfile (ff : Ff) (fil : AmpmFil) : AmpmFResult × AmpmFil × Ff :=
  let r := untilSome (ρ := AmpmFResult) (fun i (s : AmpmFil × Ff) =>
    let h := readHeader s.2 i
    if h.1 then
      let c := readFil h.2.2 h.2.1.startSector (2 * sizeofAmpmFil)
      (if formatCheck c.1 then some .frOk else none, c)
    else (none, h.2)) (List.range diskSectorMax) (fil, ff)
  (r.1.getD .frErr, r.2)

/-- `ampm_f_unlink`. -/
def ampmFUnlink (ff : Ff) (fileName : List UInt8) : AmpmFResult × Ff :=
  let r := untilSome (ρ := AmpmFResult) (fun i ff =>
    let h := readHeader ff i
    if h.1 && fileName = h.2.1.name then
      let ff := ampmFlashEraseSector h.2.2 (ffAddr h.2.1.startSector 0)
      (some .frOk, ampmFlashEraseSector ff (ffAddr i 0))
    else (none, h.2.2)) (List.range diskSectorMax) ff
  (r.1.getD .frErr, r.2)

/-! ## Handles -/

/-- The test at the head of `ampm_f_close` and `ampm_f_read`: whether the handle passes. -/
def handleOk (fil : AmpmFil) : Bool :=
  fil.startSector < diskSectorMax &&
  fil.currentSector < diskSectorMax &&
  fil.previousSector < diskSectorMax &&
  fil.fileName 0 ≠ 0 &&
  fil.fileSize ≤ 100000 &&
  fil.fileOffset ≤ 100000 &&
  fil.fileOffset ≤ fil.fileSize &&
  fil.permission ≤ 2

/-- What the test asks for. -/
structure HandlePasses (fil : AmpmFil) : Prop where
  start_lt : fil.startSector < diskSectorMax
  current_lt : fil.currentSector < diskSectorMax
  previous_lt : fil.previousSector < diskSectorMax
  named : fil.fileName 0 ≠ 0
  size_le : fil.fileSize ≤ 100000
  offset_le : fil.fileOffset ≤ 100000
  offset_le_size : fil.fileOffset ≤ fil.fileSize
  permission_le : fil.permission ≤ 2

lemma handleOk_iff (fil : AmpmFil) : handleOk fil = true ↔ HandlePasses fil := by
  simp only [handleOk, Bool.and_eq_true, decide_eq_true_eq]
  constructor
  · rintro ⟨⟨⟨⟨⟨⟨⟨h0, h1⟩, h2⟩, h3⟩, h4⟩, h5⟩, h6⟩, h7⟩
    exact ⟨h0, h1, h2, h3, h4, h5, h6, h7⟩
  · rintro ⟨h0, h1, h2, h3, h4, h5, h6, h7⟩
    exact ⟨⟨⟨⟨⟨⟨⟨h0, h1⟩, h2⟩, h3⟩, h4⟩, h5⟩, h6⟩, h7⟩

/-- `ampm_file_buf`. -/
def Ff.buffer (ff : Ff) : List UInt8 := (List.range 256).map ff.fileBuf

/-- The record that is written when a file is closed. -/
def AmpmFil.closing (fil : AmpmFil) (nextSector : ℕ) : AmpmFil :=
  AmpmFil.seal
    { fil with
      currentSector := fil.startSector
      nextSector := nextSector
      previousSector := fil.startSector }

/-- `ampm_f_close`. -/
def ampmFClose (ff : Ff) (fil : AmpmFil) : AmpmFResult × AmpmFil × Ff :=
  if handleOk fil then
    if fil.permission = 2 then
      let temp := fil.fileSize % 256
      let block := sub32 fil.fileOffset temp % diskSectorSize
      let w := ampmFlashWrite ff (ffAddr fil.currentSector (block + 256)) ff.buffer
      let r := readFil w.2 fil.startSector sizeofAmpmFil
      let fil := fil.closing r.1.nextSector
      let c := writeFil r.2 fil.startSector (2 * sizeofAmpmFil) fil
      match c.1 with
      | .frOk => (.frOk, fil.clearName, c.2)
      | .frErr => (.frErr, fil, ampmFlashEraseSector c.2 (ffAddr fil.startSector 0))
    else (.frOk, fil.clearName, ff)
  else (.frErr, fil, ff)

/-- The loop of `ampm_f_lseek`: the sector, and the record that was read last. -/
def ampmFLseekLoop : ℕ → ℕ → AmpmFil → Ff → Option (ℕ × AmpmFil) × Ff
  | 0, currentSector, rfil, ff => (some (currentSector, rfil), ff)
  | n + 1, currentSector, _, ff =>
      let r := readFil ff currentSector sizeofAmpmFil
      if formatCheck r.1 then ampmFLseekLoop n r.1.nextSector r.1 r.2 else (none, r.2)

/-- `ampm_f_lseek`.  `rfil` is what the stack holds before the function stores anything there. -/
def ampmFLseek (ff : Ff) (fil : AmpmFil) (seek : ℕ) (rfil : AmpmFil) : AmpmFResult × AmpmFil × Ff :=
  let r := ampmFLseekLoop (seek / diskSectorSize) fil.startSector rfil ff
  match r.1 with
  | some (currentSector, rfil) =>
      (.frOk,
        { fil with
          currentSector := currentSector
          nextSector := rfil.nextSector
          previousSector := rfil.previousSector
          fileOffset := seek }, r.2)
  | none => (.frErr, fil, r.2)

/-- `ampm_f_next_sector`. -/
def ampmFNextSector (ff : Ff) (fil : AmpmFil) : AmpmFResult × AmpmFil × Ff :=
  let r := readFil ff fil.startSector sizeofAmpmFil
  if formatCheck r.1 then
    (.frOk,
      { fil with
        currentSector := r.1.nextSector
        nextSector := r.1.nextSector
        previousSector := r.1.previousSector }, r.2)
  else (.frErr, fil, r.2)

/-- What a call of `ampm_f_read` comes to: `br` is `*br` if it was set, `buff` what was stored. -/
structure AmpmFReadEnd where
  ret : AmpmFResult
  br : Option ℕ
  buff : List UInt8
  fil : AmpmFil
  ff : Ff

/-- `ampm_f_read`. -/
def ampmFRead (ff : Ff) (fil : AmpmFil) (btr : ℕ) : AmpmFReadEnd :=
  if handleOk fil then
    let br := if (fil.fileOffset + btr) % 2 ^ 32 < fil.fileSize then btr
      else sub32 fil.fileSize fil.fileOffset
    let temp := fil.fileOffset % diskSectorSize
    let offset := (fil.fileOffset + br) % 2 ^ 32
    if (temp + br) % 2 ^ 32 ≤ diskSectorSize then
      let r := ampmFlashRead ff (ffAddr fil.currentSector (256 + temp)) br
      ⟨.frOk, some br, r.1, { fil with fileOffset := offset }, r.2⟩
    else
      let temp0 := diskSectorSize - temp
      let r := ampmFlashRead ff (ffAddr fil.currentSector (256 + temp)) temp0
      let temp := (temp + br) % 2 ^ 32 % diskSectorSize
      let n := ampmFNextSector r.2 fil
      match n.1 with
      | .frErr => ⟨.frErr, some br, r.1, n.2.1, n.2.2⟩
      | .frOk =>
          let r' := ampmFlashRead n.2.2 (ffAddr n.2.1.currentSector 256) temp
          ⟨.frOk, some br, r.1 ++ r'.1, { n.2.1 with fileOffset := offset }, r'.2⟩
  else ⟨.frErr, none, [], fil, ff⟩

/-! ## Writing -/

/-- `fil->file_status = AMPM_FA_STATUS_ERR;` -/
def AmpmFil.fail (fil : AmpmFil) : AmpmFil := { fil with fileStatus := ampmFaStatusErr }

/-- The record with which a sector is linked to the next one. -/
def AmpmFil.linkTo (fil : AmpmFil) (sector : ℕ) : AmpmFil :=
  AmpmFil.seal { fil with nextSector := sector }

/-- The record at the head of the next sector. -/
def AmpmFil.moveTo (fil : AmpmFil) (sector : ℕ) : AmpmFil :=
  AmpmFil.seal { fil with previousSector := fil.currentSector, currentSector := sector }

/-- The sector is full: another one is found, linked, and given a header. -/
def ampmFWriteSector (ff : Ff) (fil : AmpmFil) : AmpmFResult × AmpmFil × Ff :=
  let s := ampmFFindFreeSector ff
  match s.1 with
  | none => (.frErr, fil.fail, s.2)
  | some sector =>
      let link := fil.linkTo sector
      let l := writeFil s.2 fil.currentSector sizeofAmpmFil link
      match l.1 with
      | .frErr => (.frErr, link.fail, l.2)
      | .frOk =>
          let header := link.moveTo sector
          let h := writeFil l.2 sector 0 header
          match h.1 with
          | .frErr => (.frErr, header.fail, h.2)
          | .frOk => (.frOk, header, h.2)

/-- The block in `ampm_file_buf` is full: it is written, and with it the sector may be full. -/
def ampmFWriteBlock (ff : Ff) (fil : AmpmFil) : AmpmFResult × AmpmFil × Ff :=
  let block := sub32 fil.fileOffset 256 % diskSectorSize
  let w := ampmFlashWrite ff (ffAddr fil.currentSector (block + 256)) ff.buffer
  match w.1 with
  | .frErr => (.frErr, fil.fail, w.2)
  | .frOk =>
      let s := if fil.fileOffset % diskSectorSize = 0 then ampmFWriteSector w.2 fil
        else (.frOk, fil, w.2)
      match s.1 with
      | .frErr => s
      | .frOk => (.frOk, s.2.1, { s.2.2 with fileBuf := fun _ => 0xff })

/-- The body of the loop of `ampm_f_write`. -/
def ampmFWriteByte (ff : Ff) (fil : AmpmFil) (c : UInt8) : AmpmFResult × AmpmFil × Ff :=
  let ff := { ff with fileBuf := fun k => if k = fil.fileOffset % 256 then c else ff.fileBuf k }
  let fil :=
    { fil with
      fileSize := (fil.fileSize + 1) % 2 ^ 32
      fileOffset := (fil.fileOffset + 1) % 2 ^ 32 }
  if fil.fileOffset % 256 = 0 then ampmFWriteBlock ff fil else (.frOk, fil, ff)

/-- The loop of `ampm_f_write`; `i` is a `uint16_t`.  After `fuel` rounds it is left where it is,
without a result. -/
def ampmFWriteLoop (buff : List UInt8) (btr : ℕ) :
    ℕ → ℕ → AmpmFil → Ff → Option AmpmFResult × AmpmFil × Ff
  | 0, _, fil, ff => (none, fil, ff)
  | fuel + 1, i, fil, ff =>
      if i < btr then
        let r := ampmFWriteByte ff fil (buff.getD i 0)
        match r.1 with
        | .frErr => (some .frErr, r.2)
        | .frOk => ampmFWriteLoop buff btr fuel ((i + 1) % 2 ^ 16) r.2.1 r.2.2
      else (some .frOk, fil, ff)

/-- `ampm_f_write` of all bytes of `buff`, for `fuel` rounds of its loop at most. -/
def ampmFWrite (fuel : ℕ) (ff : Ff) (fil : AmpmFil) (buff : List UInt8) :
    Option AmpmFResult × AmpmFil × Ff :=
  if handleOk fil && fil.permission = 2 then ampmFWriteLoop buff buff.length fuel 0 fil ff
  else (some .frErr, fil, ff)

end Ampm
