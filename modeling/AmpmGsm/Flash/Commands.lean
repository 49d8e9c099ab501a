import AmpmGsm.Flash.Stored
import AmpmGsm.Lib.Runs
import Mathlib.Data.List.Basic

/-!
# The commands that change the flash

Between two commands the power may go, and then the cells are as the commands so far have left them.

* `FlashCommand`, `FlashCommand.apply` — a command that erases or programs cells.
* `pageCommands` — those of a write of a page or less.
* `openCommands`, `writeCommands`, `closeCommands`, `unlinkCommands`, `cleanupCommands` — those of the
  functions of the file system, and that these are all: `ampmFOpen_commanded`, ….
-/

namespace Ampm

open NorFlash Runs

/-! ## Commands -/

/-- A command that changes cells. -/
inductive FlashCommand
  | erase (addr : ℕ)
  | program (addr : ℕ) (bytes : List UInt8)

/-- The cells after it. -/
def FlashCommand.apply (mem : Memory) : FlashCommand → Memory
  | .erase addr => NorFlash.erase 4096 (devAddr addr) mem
  | .program addr bytes => NorFlash.program (devAddr addr) bytes mem

/-- The commands of a write of a page or less. -/
@[irreducible] def pageCommands (addr : ℕ) (buf : List UInt8) : List FlashCommand :=
  let count1 := overlapCount addr buf.length
  let count := buf.length - count1
  let next := (addr + count) % 2 ^ 32
  (if addr % 4096 = 0 then [.erase addr] else []) ++ .program addr (buf.take count) ::
    if count1 ≠ 0 then [.erase next, .program next (buf.drop count)] else []

/-- From the one state to the other the commands were given, and nothing failed. -/
structure Commanded (ff ff' : Ff) (cs : List FlashCommand) : Prop where
  mem : ff'.flash.mem = run FlashCommand.apply ff.flash.mem cs
  faultless : ff'.flash.Faultless

section Commanded

variable {ff ff' ff'' : Ff} {cs cs' : List FlashCommand} {fil : AmpmFil}

lemma Commanded.none (hf : ff.flash.Faultless) (hmem : ff'.flash.mem = ff.flash.mem)
    (hfault : ff'.flash.fault = ff.flash.fault) : Commanded ff ff' [] :=
  ⟨hmem, fun k => (congrFun hfault k).trans (hf k)⟩

lemma Commanded.trans (h : Commanded ff ff' cs) (h' : Commanded ff' ff'' cs') :
    Commanded ff ff'' (cs ++ cs') :=
  ⟨by rw [run_append, ← h.mem, h'.mem], h'.faultless⟩

/-- What follows does not touch the flash. -/
lemma Commanded.quiet (h : Commanded ff ff' cs) (hmem : ff''.flash.mem = ff'.flash.mem)
    (hfault : ff''.flash.fault = ff'.flash.fault) : Commanded ff ff'' cs :=
  ⟨hmem.trans h.mem, fun k => (congrFun hfault k).trans (h.faultless k)⟩

lemma sst25WriteBlocks_mem (f : Flash) (addr : ℕ) (buf : List UInt8) :
    (sst25WriteBlocks f addr buf).mem = run FlashCommand.apply f.mem (pageCommands addr buf) := by
  simp only [sst25WriteBlocks, pageCommands]
  rw [← overlapCount]
  split_ifs <;> rfl

lemma ampmFlashWrite_commanded (hf : ff.flash.Faultless) (addr : ℕ) {buf : List UInt8}
    (hlen : buf.length ≤ 256) :
    Commanded ff (ampmFlashWrite ff addr buf).2 (pageCommands addr buf) := by
  have hmod : buf.length % 2 ^ 16 = buf.length := Nat.mod_eq_of_lt (by omega)
  have hfault : ∀ f : Flash, (sst25WriteBlocks f addr buf).fault = f.fault := by
    intro f
    simp only [sst25WriteBlocks]
    split_ifs <;> rfl
  simp only [ampmFlashWrite, sst25Write, hf ff.flash.writes, sst25WriteInTime, hmod, if_pos hlen,
    List.take_length, sst25WriteChecked, sst25ReadBytes]
  refine ⟨sst25WriteBlocks_mem _ addr buf, fun k => ?_⟩
  exact (congrFun (hfault { ff.flash with writes := ff.flash.writes + 1 }) k).trans (hf k)

lemma writeFil_commanded (hf : ff.flash.Faultless) (sector offset : ℕ) (fil : AmpmFil) :
    Commanded ff (writeFil ff sector offset fil).2
      (pageCommands (ffAddr sector offset) fil.bytes) :=
  ampmFlashWrite_commanded hf _ (length_bytes fil ▸ by decide)

lemma ampmFlashEraseSector_commanded (hf : ff.flash.Faultless) (addr : ℕ) :
    Commanded ff (ampmFlashEraseSector ff addr) [.erase addr] := ⟨rfl, hf⟩

lemma readFil_commanded (hf : ff.flash.Faultless) (sector offset : ℕ) :
    Commanded ff (readFil ff sector offset).2 [] := by
  rw [readFil_eq]
  exact Commanded.none hf rfl rfl

lemma ampmFFindFreeSector_commanded (hf : ff.flash.Faultless) :
    Commanded ff (ampmFFindFreeSector ff).2 [] := by
  rcases ampmFFindFreeSector_spec ff with ⟨_, _, _, -, -, -, heq⟩ | ⟨-, heq⟩
  · rw [heq]
    exact Commanded.none hf rfl rfl
  · rw [heq]
    exact Commanded.none hf rfl rfl

end Commanded

/-! ## Writing -/

/-- `ampmFWriteSector`. -/
def sectorCommands (ff : Ff) (fil : AmpmFil) : List FlashCommand :=
  let s := ampmFFindFreeSector ff
  match s.1 with
  | none => []
  | some sector =>
      let link := fil.linkTo sector
      let l := writeFil s.2 fil.currentSector sizeofAmpmFil link
      pageCommands (ffAddr fil.currentSector sizeofAmpmFil) link.bytes ++
        match l.1 with
        | .frErr => []
        | .frOk => pageCommands (ffAddr sector 0) (link.moveTo sector).bytes

/-- `ampmFWriteBlock`. -/
def blockCommands (ff : Ff) (fil : AmpmFil) : List FlashCommand :=
  let block := sub32 fil.fileOffset 256 % diskSectorSize
  let w := ampmFlashWrite ff (ffAddr fil.currentSector (block + 256)) ff.buffer
  pageCommands (ffAddr fil.currentSector (block + 256)) ff.buffer ++
    match w.1 with
    | .frErr => []
    | .frOk => if fil.fileOffset % diskSectorSize = 0 then sectorCommands w.2 fil else []

/-- `ampmFWriteByte`. -/
def byteCommands (ff : Ff) (fil : AmpmFil) (c : UInt8) : List FlashCommand :=
  let ff := { ff with fileBuf := fun k => if k = fil.fileOffset % 256 then c else ff.fileBuf k }
  let fil :=
    { fil with
      fileSize := (fil.fileSize + 1) % 2 ^ 32
      fileOffset := (fil.fileOffset + 1) % 2 ^ 32 }
  if fil.fileOffset % 256 = 0 then blockCommands ff fil else []

/-- `ampmFWriteLoop`. -/
def loopCommands (buff : List UInt8) (btr : ℕ) : ℕ → ℕ → AmpmFil → Ff → List FlashCommand
  | 0, _, _, _ => []
  | fuel + 1, i, fil, ff =>
      if i < btr then
        let r := ampmFWriteByte ff fil (buff.getD i 0)
        byteCommands ff fil (buff.getD i 0) ++
          match r.1 with
          | .frErr => []
          | .frOk => loopCommands buff btr fuel ((i + 1) % 2 ^ 16) r.2.1 r.2.2
      else []

/-- `ampmFWrite`. -/
def writeCommands (fuel : ℕ) (ff : Ff) (fil : AmpmFil) (buff : List UInt8) : List FlashCommand :=
  if handleOk fil && fil.permission = 2 then loopCommands buff buff.length fuel 0 fil ff else []

section Write

variable {ff : Ff}

lemma ampmFWriteSector_commanded (hf : ff.flash.Faultless) (fil : AmpmFil) :
    Commanded ff (ampmFWriteSector ff fil).2.2 (sectorCommands ff fil) := by
  have hfind := ampmFFindFreeSector_commanded hf
  simp only [ampmFWriteSector, sectorCommands]
  generalize ampmFFindFreeSector ff = s at hfind ⊢
  obtain ⟨_ | sector, ff'⟩ := s
  · exact hfind
  · have hlink := writeFil_commanded hfind.faultless fil.currentSector sizeofAmpmFil
      (fil.linkTo sector)
    simp only at hfind hlink ⊢
    generalize writeFil ff' fil.currentSector sizeofAmpmFil (fil.linkTo sector) = l at hlink ⊢
    obtain ⟨_ | _, ff''⟩ := l
    · have hheader := writeFil_commanded hlink.faultless sector 0 ((fil.linkTo sector).moveTo sector)
      simp only at hheader ⊢
      generalize writeFil ff'' sector 0 ((fil.linkTo sector).moveTo sector) = h at hheader ⊢
      obtain ⟨_ | _, ffEnd⟩ := h
      · exact hfind.trans (hlink.trans hheader)
      · exact hfind.trans (hlink.trans hheader)
    · exact hfind.trans (hlink.trans (Commanded.none hlink.faultless rfl rfl))

lemma ampmFWriteBlock_commanded (hf : ff.flash.Faultless) (fil : AmpmFil) :
    Commanded ff (ampmFWriteBlock ff fil).2.2 (blockCommands ff fil) := by
  have hdata := ampmFlashWrite_commanded hf
    (ffAddr fil.currentSector (sub32 fil.fileOffset 256 % diskSectorSize + 256))
    (Nat.le_of_eq (length_buffer ff))
  simp only [ampmFWriteBlock, blockCommands]
  generalize ampmFlashWrite ff _ ff.buffer = w at hdata ⊢
  obtain ⟨_ | _, ff'⟩ := w
  · simp only
    split_ifs
    · have hrest := ampmFWriteSector_commanded hdata.faultless fil
      simp only at hdata hrest ⊢
      generalize ampmFWriteSector ff' fil = r at hrest ⊢
      obtain ⟨_ | _, fil', ff''⟩ := r
      · exact (hdata.trans hrest).quiet rfl rfl
      · exact hdata.trans hrest
    · exact (hdata.trans (Commanded.none hdata.faultless rfl rfl)).quiet rfl rfl
  · exact hdata.trans (Commanded.none hdata.faultless rfl rfl)

lemma ampmFWriteByte_commanded (hf : ff.flash.Faultless) (fil : AmpmFil) (c : UInt8) :
    Commanded ff (ampmFWriteByte ff fil c).2.2 (byteCommands ff fil c) := by
  simp only [ampmFWriteByte, byteCommands]
  split_ifs
  · have hf' : (ff.put (fil.fileOffset % 256) c).flash.Faultless := hf
    have hblock := ampmFWriteBlock_commanded hf' fil.grow
    exact ⟨hblock.mem, hblock.faultless⟩
  · exact Commanded.none hf rfl rfl

lemma ampmFWriteLoop_commanded (buff : List UInt8) (btr : ℕ) :
    ∀ (fuel i : ℕ) (fil : AmpmFil) (ff : Ff), ff.flash.Faultless →
      Commanded ff (ampmFWriteLoop buff btr fuel i fil ff).2.2 (loopCommands buff btr fuel i fil ff)
  | 0, _, _, _, hf => Commanded.none hf rfl rfl
  | fuel + 1, i, fil, ff, hf => by
      rw [ampmFWriteLoop, loopCommands]
      split_ifs
      · have hfirst := ampmFWriteByte_commanded hf fil (buff.getD i 0)
        generalize ampmFWriteByte ff fil (buff.getD i 0) = r at hfirst ⊢
        obtain ⟨_ | _, fil', ff'⟩ := r
        · exact hfirst.trans (ampmFWriteLoop_commanded buff btr fuel _ fil' ff' hfirst.faultless)
        · exact hfirst.trans (Commanded.none hfirst.faultless rfl rfl)
      · exact Commanded.none hf rfl rfl

/-- The commands of `ampm_f_write`. -/
lemma ampmFWrite_commanded (hf : ff.flash.Faultless) (fuel : ℕ) (fil : AmpmFil)
    (buff : List UInt8) :
    Commanded ff (ampmFWrite fuel ff fil buff).2.2 (writeCommands fuel ff fil buff) := by
  rw [ampmFWrite, writeCommands]
  split_ifs
  · exact ampmFWriteLoop_commanded buff buff.length fuel 0 fil ff hf
  · exact Commanded.none hf rfl rfl

end Write

/-! ## Opening, closing, unlinking -/

/-- `ampmFOpen`. -/
def openCommands (ff : Ff) (fil : AmpmFil) (fileName : List UInt8) (mode : UInt8) :
    List FlashCommand :=
  let o := ampmFOpen ff fil fileName mode
  if o.created then pageCommands (ffAddr o.fil.startSector 0) o.fil.bytes else []

/-- `ampmFClose`. -/
def closeCommands (ff : Ff) (fil : AmpmFil) : List FlashCommand :=
  if handleOk fil && fil.permission = 2 then
    let temp := fil.fileSize % 256
    let block := sub32 fil.fileOffset temp % diskSectorSize
    let w := ampmFlashWrite ff (ffAddr fil.currentSector (block + 256)) ff.buffer
    let r := readFil w.2 fil.startSector sizeofAmpmFil
    let fil' := fil.closing r.1.nextSector
    let c := writeFil r.2 fil.startSector (2 * sizeofAmpmFil) fil'
    pageCommands (ffAddr fil.currentSector (block + 256)) ff.buffer ++
      pageCommands (ffAddr fil.startSector (2 * sizeofAmpmFil)) fil'.bytes ++
        match c.1 with
        | .frOk => []
        | .frErr => [.erase (ffAddr fil.startSector 0)]
  else []

/-- The sector is one at which `ampm_f_unlink` stops. -/
def UnlinksAt (mem : Memory) (fileName : List UInt8) (i : ℕ) : Prop :=
  sectorValid mem i = true ∧ fileName = (headerAt mem i).name

instance (mem : Memory) (fileName : List UInt8) : DecidablePred (UnlinksAt mem fileName) :=
  fun _ => inferInstanceAs (Decidable (_ ∧ _))

/-- The first of these. -/
def unlinkSector (mem : Memory) (fileName : List UInt8) : Option ℕ :=
  (List.range diskSectorMax).find? (UnlinksAt mem fileName ·)

/-- `ampmFUnlink`. -/
def unlinkCommands (mem : Memory) (fileName : List UInt8) : List FlashCommand :=
  match unlinkSector mem fileName with
  | none => []
  | some i => [.erase (ffAddr (headerAt mem i).startSector 0), .erase (ffAddr i 0)]

/-- One round of the loop of `ampmFDiskCleanup`. -/
def cleanupCommand (mem : Memory) (i : ℕ) : List FlashCommand :=
  let startSector := (headerAt mem i).startSector
  let fil := filAt mem startSector 0
  if sectorValid mem i && formatCheck fil &&
      !formatCheck (filAt mem fil.startSector (2 * sizeofAmpmFil)) then
    [.erase (ffAddr startSector 0)]
  else []

/-- `ampmFDiskCleanup`, from the sectors that are left. -/
def cleanupCommands : List ℕ → Memory → List FlashCommand
  | [], _ => []
  | i :: is, mem =>
      cleanupCommand mem i ++ cleanupCommands is (run FlashCommand.apply mem (cleanupCommand mem i))

section Calls

variable {ff : Ff}

/-- Without a new file nothing is written. -/
lemma ampmFOpen_quiet {fil : AmpmFil} {fileName : List UInt8} {mode : UInt8}
    (hcreated : (ampmFOpen ff fil fileName mode).created = false) :
    ∃ as, (ampmFOpen ff fil fileName mode).ff = ff.draw.2.logged as := by
  rcases ampmFOpen_spec ff fil fileName mode with
    ⟨pre, i, post, -, -, -, heq⟩ | ⟨-, fil', heq⟩
  · have hmem : (ff.draw.2.logged (pre.flatMap (openReads ff.flash.mem fileName mode))).flash.mem =
        ff.flash.mem := rfl
    cases hvalid : sectorValid ff.flash.mem i with
    | true =>
        rw [heq, openedAt, hmem, if_pos hvalid]
        exact ⟨_, logged_logged _ _ _⟩
    | false =>
        rw [heq, openedAt, hmem, if_neg (Bool.eq_false_iff.mp hvalid)] at hcreated
        cases hcreated
  · rw [heq]
    exact ⟨_, rfl⟩

/-- The commands of `ampm_f_open`. -/
lemma ampmFOpen_commanded (hf : ff.flash.Faultless) (fil : AmpmFil) (fileName : List UInt8)
    (mode : UInt8) :
    Commanded ff (ampmFOpen ff fil fileName mode).ff (openCommands ff fil fileName mode) := by
  simp only [openCommands]
  cases hcreated : (ampmFOpen ff fil fileName mode).created with
  | true =>
      obtain ⟨i, as, r, ff', -, -, hw, heq⟩ := ampmFOpen_created hcreated
      have hf' : (ff.draw.2.logged as).flash.Faultless := hf
      have hwrite := writeFil_commanded hf' i 0
        (newFil (headerAt ff.flash.mem i) fileName i)
      rw [hw] at hwrite
      rw [heq]
      exact ⟨hwrite.mem, hwrite.faultless⟩
  | false =>
      obtain ⟨as, heq⟩ := ampmFOpen_quiet hcreated
      rw [heq]
      exact Commanded.none hf rfl rfl

/-- `ampm_f_close` behind the close record: if that was not stored, the first sector is erased. -/
lemma closed_commanded {ff' : Ff} {cs : List FlashCommand} (h : Commanded ff ff' cs)
    (res : AmpmFResult) (fil : AmpmFil) (address : ℕ) :
    Commanded ff
      (match res with
        | .frOk => (AmpmFResult.frOk, fil.clearName, ff')
        | .frErr => (AmpmFResult.frErr, fil, ampmFlashEraseSector ff' address)).2.2
      (cs ++ match res with
        | .frOk => []
        | .frErr => [.erase address]) := by
  cases res with
  | frOk =>
      rw [List.append_nil]
      exact h
  | frErr => exact h.trans (ampmFlashEraseSector_commanded h.faultless address)

/-- The commands of `ampm_f_close`. -/
lemma ampmFClose_commanded (hf : ff.flash.Faultless) (fil : AmpmFil) :
    Commanded ff (ampmFClose ff fil).2.2 (closeCommands ff fil) := by
  by_cases hpass : handleOk fil = true
  · by_cases hwrite : fil.permission = 2
    · have hblock := ampmFlashWrite_commanded hf
        (ffAddr fil.currentSector (sub32 fil.fileOffset (fil.fileSize % 256) % diskSectorSize + 256))
        (Nat.le_of_eq (length_buffer ff))
      have hread := readFil_commanded hblock.faultless fil.startSector sizeofAmpmFil
      have hrecord := writeFil_commanded hread.faultless fil.startSector (2 * sizeofAmpmFil)
        (fil.closing (readFil (ampmFlashWrite ff (ffAddr fil.currentSector
          (sub32 fil.fileOffset (fil.fileSize % 256) % diskSectorSize + 256)) ff.buffer).2
            fil.startSector sizeofAmpmFil).1.nextSector)
      have hall := hblock.trans (hread.trans hrecord)
      have hcond : (handleOk fil && fil.permission = 2) = true := by simp [hpass, hwrite]
      rw [ampmFClose, closeCommands, if_pos hpass, if_pos hwrite, if_pos hcond]
      rw [List.nil_append] at hall
      simp only [closing_startSector] at hall ⊢
      exact closed_commanded hall _ _ _
    · simp [ampmFClose, closeCommands, hpass, hwrite, Commanded.none hf]
  · simp [ampmFClose, closeCommands, hpass, Commanded.none hf]

/-- One round of the loop of `ampm_f_unlink`. -/
def unlinkBody (fileName : List UInt8) (i : ℕ) (ff : Ff) : Option AmpmFResult × Ff :=
  let h := readHeader ff i
  if h.1 && fileName = h.2.1.name then
    let ff := ampmFlashEraseSector h.2.2 (ffAddr h.2.1.startSector 0)
    (some .frOk, ampmFlashEraseSector ff (ffAddr i 0))
  else (none, h.2.2)

lemma ampmFUnlink_eq (ff : Ff) (fileName : List UInt8) :
    ampmFUnlink ff fileName =
      let r := untilSome (unlinkBody fileName) (List.range diskSectorMax) ff
      (r.1.getD .frErr, r.2) := rfl

lemma unlinkBody_stop {fileName : List UInt8} {i : ℕ} (h : UnlinksAt ff.flash.mem fileName i) :
    unlinkBody fileName i ff = (some .frOk, ampmFlashEraseSector
      (ampmFlashEraseSector (ff.logged (headerReads ff.flash.mem i))
        (ffAddr (headerAt ff.flash.mem i).startSector 0)) (ffAddr i 0)) := by
  have hcond : (sectorValid ff.flash.mem i && fileName = (headerAt ff.flash.mem i).name) = true := by
    rw [h.1, decide_eq_true h.2]
    rfl
  simp only [unlinkBody, readHeader_eq]
  rw [if_pos hcond]

lemma unlinkBody_pass {fileName : List UInt8} {i : ℕ} (h : ¬ UnlinksAt ff.flash.mem fileName i) :
    unlinkBody fileName i ff = (none, ff.logged (headerReads ff.flash.mem i)) := by
  have hcond : ¬ (sectorValid ff.flash.mem i && fileName = (headerAt ff.flash.mem i).name) = true := by
    rw [Bool.and_eq_true, decide_eq_true_eq]
    exact h
  simp only [unlinkBody, readHeader_eq]
  rw [if_neg hcond]

/-- `ampm_f_unlink`: the first sector with the name, and the first one of its file. -/
lemma ampmFUnlink_spec (ff : Ff) (fileName : List UInt8) :
    (∃ i as, i < diskSectorMax ∧ UnlinksAt ff.flash.mem fileName i ∧
      unlinkSector ff.flash.mem fileName = some i ∧
      ampmFUnlink ff fileName = (.frOk, ampmFlashEraseSector
        (ampmFlashEraseSector (ff.logged as) (ffAddr (headerAt ff.flash.mem i).startSector 0))
          (ffAddr i 0))) ∨
    ((∀ i < diskSectorMax, ¬ UnlinksAt ff.flash.mem fileName i) ∧
      ∃ as, ampmFUnlink ff fileName = (.frErr, ff.logged as)) := by
  have hkeep : ∀ (pre : List ℕ) (i : ℕ) (s : Ff),
      s = ff.logged (pre.flatMap (headerReads ff.flash.mem)) →
      ¬ UnlinksAt ff.flash.mem fileName i → (unlinkBody fileName i s).2 =
        ff.logged ((pre ++ [i]).flatMap (headerReads ff.flash.mem)) := by
    rintro pre i _ rfl hpass
    rw [unlinkBody_pass (by exact hpass), logged_logged, List.flatMap_append,
      List.flatMap_singleton]
    rfl
  have hstop : ∀ (pre : List ℕ) (i : ℕ) (s : Ff),
      s = ff.logged (pre.flatMap (headerReads ff.flash.mem)) →
      ((unlinkBody fileName i s).1.isSome = true ↔ UnlinksAt ff.flash.mem fileName i) := by
    rintro pre i _ rfl
    by_cases hstop : UnlinksAt ff.flash.mem fileName i
    · rw [unlinkBody_stop (by exact hstop)]
      exact iff_of_true rfl hstop
    · rw [unlinkBody_pass (by exact hstop)]
      exact iff_of_false Bool.false_ne_true hstop
  rw [ampmFUnlink_eq]
  rcases untilSome_spec _ hkeep hstop (List.range diskSectorMax) [] ff (logged_nil ff).symm with
    ⟨pre, i, post, s, hrange, hpre, hi, rfl, heq⟩ | ⟨s, hnone, rfl, heq⟩
  · have hfind : unlinkSector ff.flash.mem fileName = some i := by
      rw [unlinkSector, hrange, List.find?_append,
        List.find?_eq_none.mpr fun j hj => by simpa using hpre j hj,
        List.find?_cons_of_pos (by simpa using hi)]
      rfl
    have hlt : i < diskSectorMax :=
      List.mem_range.mp (hrange ▸ List.mem_append_right _ List.mem_cons_self)
    rw [heq, unlinkBody_stop (by exact hi), logged_logged]
    exact Or.inl ⟨i, _, hlt, hi, hfind, rfl⟩
  · rw [heq]
    exact Or.inr ⟨fun i hi => hnone i (List.mem_range.mpr hi), _, rfl⟩

lemma unlinkSector_eq_none {mem : Memory} {fileName : List UInt8}
    (hnone : ∀ i < diskSectorMax, ¬ UnlinksAt mem fileName i) :
    unlinkSector mem fileName = none :=
  List.find?_eq_none.mpr fun j hj => by simpa using hnone j (List.mem_range.mp hj)

/-- The commands of `ampm_f_unlink`. -/
lemma ampmFUnlink_commanded (hf : ff.flash.Faultless) (fileName : List UInt8) :
    Commanded ff (ampmFUnlink ff fileName).2 (unlinkCommands ff.flash.mem fileName) := by
  rcases ampmFUnlink_spec ff fileName with ⟨i, as, -, -, hfind, heq⟩ | ⟨hnone, as, heq⟩
  · have hf' : (ff.logged as).flash.Faultless := hf
    have hfirst := ampmFlashEraseSector_commanded hf'
      (ffAddr (headerAt ff.flash.mem i).startSector 0)
    have hboth := hfirst.trans (ampmFlashEraseSector_commanded hfirst.faultless (ffAddr i 0))
    have hcommands : unlinkCommands ff.flash.mem fileName =
        [.erase (ffAddr (headerAt ff.flash.mem i).startSector 0), .erase (ffAddr i 0)] := by
      unfold unlinkCommands
      simp only [hfind]
    rw [hcommands, heq]
    exact ⟨hboth.mem, hboth.faultless⟩
  · have hcommands : unlinkCommands ff.flash.mem fileName = [] := by
      unfold unlinkCommands
      simp only [unlinkSector_eq_none hnone]
    rw [hcommands, heq]
    exact Commanded.none hf rfl rfl

/-- One round of the loop of `ampm_f_disk_cleanup`. -/
def cleanupBody (ff : Ff) (i : ℕ) : Ff :=
  let h := readHeader ff i
  if h.1 then
    let startSector := h.2.1.startSector
    let r := readFil h.2.2 startSector 0
    if formatCheck r.1 then
      let c := readFil r.2 r.1.startSector (2 * sizeofAmpmFil)
      if formatCheck c.1 then c.2 else ampmFlashEraseSector c.2 (ffAddr startSector 0)
    else r.2
  else h.2.2

lemma cleanupBody_commanded (hf : ff.flash.Faultless) (i : ℕ) :
    Commanded ff (cleanupBody ff i) (cleanupCommand ff.flash.mem i) := by
  simp only [cleanupBody, cleanupCommand, readHeader_eq, readFil_eq, logged_mem]
  cases sectorValid ff.flash.mem i with
  | false => exact Commanded.none hf rfl rfl
  | true =>
      cases formatCheck (filAt ff.flash.mem (headerAt ff.flash.mem i).startSector 0) with
      | false => exact Commanded.none hf rfl rfl
      | true =>
          cases formatCheck (filAt ff.flash.mem (filAt ff.flash.mem
            (headerAt ff.flash.mem i).startSector 0).startSector (2 * sizeofAmpmFil)) with
          | true => exact Commanded.none hf rfl rfl
          | false => exact ⟨rfl, hf⟩

/-- The commands of `ampm_f_disk_cleanup`. -/
lemma ampmFDiskCleanup_commanded (hf : ff.flash.Faultless) :
    Commanded ff (ampmFDiskCleanup ff)
      (cleanupCommands (List.range diskSectorMax) ff.flash.mem) := by
  have hloop : ∀ (is : List ℕ) (ff : Ff), ff.flash.Faultless →
      Commanded ff (is.foldl cleanupBody ff) (cleanupCommands is ff.flash.mem) := by
    intro is
    induction is with
    | nil => exact fun ff hf => Commanded.none hf rfl rfl
    | cons i is ih =>
        intro ff hf
        have hfirst := cleanupBody_commanded hf i
        have hrest := ih (cleanupBody ff i) hfirst.faultless
        rw [hfirst.mem] at hrest
        exact hfirst.trans hrest
  exact hloop _ ff hf

end Calls

end Ampm
