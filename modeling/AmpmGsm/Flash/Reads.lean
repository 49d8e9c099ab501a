import AmpmGsm.Flash.FileSystem

/-!
# What a read finds

Reading leaves the cells alone: all it does to the shared state is the log.

* `Ff.logged` — the state after some reads.
* `filAt`, `readFil_eq` — the record in a sector.
* `sectorValid`, `headerAt`, `readHeader_eq` — what `ampm_f_file_format_check` makes of a sector.
-/

namespace Ampm

open NorFlash

/-! ## The log -/

/-- The state after some commands that change nothing. -/
def Ff.logged (ff : Ff) (as : List FlashAccess) : Ff :=
  { ff with flash := { ff.flash with log := ff.flash.log ++ as } }

section Logged

variable (ff : Ff) (as bs : List FlashAccess)

@[simp] lemma logged_mem : (ff.logged as).flash.mem = ff.flash.mem := rfl

@[simp] lemma logged_fault : (ff.logged as).flash.fault = ff.flash.fault := rfl

@[simp] lemma logged_writes : (ff.logged as).flash.writes = ff.flash.writes := rfl

@[simp] lemma logged_log : (ff.logged as).flash.log = ff.flash.log ++ as := rfl

@[simp] lemma logged_fileBuf : (ff.logged as).fileBuf = ff.fileBuf := rfl

@[simp] lemma logged_rand : (ff.logged as).rand = ff.rand := rfl

@[simp] lemma logged_drawn : (ff.logged as).drawn = ff.drawn := rfl

@[simp] lemma logged_found : (ff.logged as).found = ff.found := rfl

@[simp] lemma logged_logged : (ff.logged as).logged bs = ff.logged (as ++ bs) := by
  simp [Ff.logged]

@[simp] lemma logged_nil : ff.logged [] = ff := by
  simp [Ff.logged]

end Logged

/-! ## Records -/

/-- The bytes from an offset in a sector on. -/
def cells (mem : Memory) (sector offset count : ℕ) : List UInt8 :=
  read mem (devAddr (ffAddr sector offset)) count

/-- The record in a sector. -/
def filAt (mem : Memory) (sector offset : ℕ) : AmpmFil :=
  AmpmFil.ofBytes fun k => (cells mem sector offset sizeofAmpmFil).getD k 0

lemma sst25Read_of_le (f : Flash) (addr : ℕ) {count : ℕ} (h : count ≤ 512) :
    sst25Read f addr count =
      (read f.mem (devAddr addr) count, { f with log := f.log ++ [.read addr count] }) := by
  have hmod : count % 2 ^ 16 = count := Nat.mod_eq_of_lt (by omega)
  simp only [sst25Read, hmod, if_pos h, sst25ReadBytes]

lemma readFil_eq (ff : Ff) (sector offset : ℕ) :
    readFil ff sector offset = (filAt ff.flash.mem sector offset,
      ff.logged [.read (ffAddr sector offset) sizeofAmpmFil]) := by
  have hle : sizeofAmpmFil ≤ 512 := by decide
  simp only [readFil, ampmFlashRead, sst25Read_of_le _ _ hle]
  rfl

/-- A read of any size. -/
lemma ampmFlashRead_eq (ff : Ff) (addr count : ℕ) :
    ampmFlashRead ff addr count =
      ((sst25Read ff.flash addr count).1, ff.logged (readLog addr count)) := by
  rw [ampmFlashRead, sst25Read_state]
  rfl

/-! ## Headers -/

/-- `ampm_f_file_format_check` of the record at the head of a sector returns `FR_OK`. -/
def sectorValid (mem : Memory) (sector : ℕ) : Bool :=
  formatCheck (filAt mem sector 0) && formatCheck (filAt mem (filAt mem sector 0).startSector 0)

/-- What it leaves in the record. -/
def headerAt (mem : Memory) (sector : ℕ) : AmpmFil :=
  if formatCheck (filAt mem sector 0) then filAt mem (filAt mem sector 0).startSector 0
  else filAt mem sector 0

/-- What it reads. -/
def headerReads (mem : Memory) (sector : ℕ) : List FlashAccess :=
  .read (ffAddr sector 0) sizeofAmpmFil ::
    if formatCheck (filAt mem sector 0) then
      [.read (ffAddr (filAt mem sector 0).startSector 0) sizeofAmpmFil]
    else []

lemma readHeader_eq (ff : Ff) (sector : ℕ) :
    readHeader ff sector = (sectorValid ff.flash.mem sector, headerAt ff.flash.mem sector,
      ff.logged (headerReads ff.flash.mem sector)) := by
  simp only [readHeader, readFil_eq, ampmFFileFormatCheck, sectorValid, headerAt, headerReads]
  by_cases h : formatCheck (filAt ff.flash.mem sector 0) = true
  · simp [h]
  · simp [h]

/-! ## Erased sectors -/

lemma wordAt_cells {mem : Memory} {sector offset k : ℕ} (hk : k + 4 ≤ sizeofAmpmFil) :
    wordAt (fun j => (cells mem sector offset sizeofAmpmFil).getD j 0) k =
      wordAt (fun j => mem (devAddr (ffAddr sector offset) + j)) k :=
  wordAt_congr fun i hi => getD_read (by omega) 0

/-- An erased sector has no valid header. -/
lemma sectorValid_of_erased {mem : Memory} {sector : ℕ}
    (h : ∀ k < sizeofAmpmFil, mem (devAddr (ffAddr sector 0) + k) = 0xFF) :
    sectorValid mem sector = false := by
  have hones : (0xFF : UInt8).toNat = 255 := rfl
  have hfield : (filAt mem sector 0).startSector =
      wordAt (fun j => (cells mem sector 0 sizeofAmpmFil).getD j 0) 32 := rfl
  have hstart : ¬ (filAt mem sector 0).startSector < diskSectorMax := by
    rw [hfield, wordAt_cells (by decide), wordAt, h 32 (by decide), h (32 + 1) (by decide), hones]
    show ¬ _ < 110
    omega
  have hcheck : formatCheck (filAt mem sector 0) = false := by
    rw [← Bool.not_eq_true, formatCheck_iff]
    exact fun hfil => hstart hfil.start_lt
  rw [sectorValid, hcheck, Bool.false_and]

end Ampm
