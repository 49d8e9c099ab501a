import AmpmGsm.Flash.Chain
import AmpmGsm.Flash.Scan

/-!
# Writing a file

`ampm_f_write` collects blocks of 256 bytes in `ampm_file_buf`, and takes another sector when it has
written the last block of one.

* `Writing`, `Pending` — a file that is being written: the full blocks are on the flash, and the
  bytes behind them in the buffer.
* `ampmFWriteByte_spec` — one byte.
* `writeBytes`, `ampmFWriteLoop_eq` — the loop.
* `writeBytes_spec` — any number of bytes.
* `FindsSectors`, `writeBytes_inRange` — when the sectors that are found are sectors of the partition.
-/

namespace Ampm

open NorFlash

/-! ## The invariant -/

/-- What the handle of a file says while `bs` is being written. -/
structure WritingHandle (fil : AmpmFil) (chain : List ℕ) (bs : List UInt8) : Prop where
  start : chain.getD 0 0 = fil.startSector
  size : fil.fileSize = bs.length
  offset : fil.fileOffset = bs.length
  previous_lt : fil.previousSector < diskSectorMax
  named : fil.fileName 0 ≠ 0
  nameLength_lt : fil.nameLength < 32 - 3
  status_eq : fil.fileStatus = ampmFaStatusOk
  permission_eq : fil.permission = 2

/-- A file of which `bs` was written so far. -/
structure Writing (mem : Memory) (fil : AmpmFil) (chain : List ℕ) (bs : List UInt8) : Prop extends
    WritingHandle fil chain bs where
  cells : FileCells mem chain bs (bs.length / 256 * 256)
  length : chain.length = bs.length / diskSectorSize + 1
  current : chain.getD (bs.length / diskSectorSize) 0 = fil.currentSector

/-- The bytes that are not on the flash yet. -/
def Pending (buf : ℕ → UInt8) (bs : List UInt8) : Prop :=
  ∀ j < bs.length % 256, buf j = bs.getD (bs.length / 256 * 256 + j) 0

section Invariant

variable {mem mem' : Memory} {fil : AmpmFil} {chain : List ℕ} {bs : List UInt8}

lemma Writing.current_mem (h : Writing mem fil chain bs) : fil.currentSector ∈ chain := by
  have hlen := h.length
  exact h.current ▸ getD_mem (by omega)

lemma Writing.start_mem (h : Writing mem fil chain bs) : fil.startSector ∈ chain := by
  have hpos : 0 < chain.length := h.length ▸ Nat.succ_pos _
  exact h.start ▸ getD_mem hpos

lemma FileCells.congr {flushed : ℕ} (h : FileCells mem chain bs flushed)
    (hle : flushed ≤ chain.length * diskSectorSize) (hsame : SameSectors chain mem mem') :
    FileCells mem' chain bs flushed :=
  ⟨h.nodup, h.owned.congr hsame, h.linked.congr h.lt hsame,
    fun k hk => (hsame.cellOf_eq (Nat.lt_of_lt_of_le hk hle)).trans (h.data k hk),
    fun k hk hbound => (hsame.cellOf_eq hbound).trans (h.blank k hk hbound)⟩

/-- The file does not care for what happens in other sectors. -/
lemma Writing.congr (h : Writing mem fil chain bs) (hsame : SameSectors chain mem mem') :
    Writing mem' fil chain bs := by
  refine ⟨h.toWritingHandle, h.cells.congr ?_ hsame, h.length, h.current⟩
  have hlen := h.length
  unfold diskSectorSize at hlen ⊢
  omega

/-- The records that are made of the handle are well-formed. -/
lemma WritingHandle.wellFormed (h : WritingHandle fil chain bs) (hlt : bs.length < 100000)
    (hstart : fil.startSector < diskSectorMax) {previous current : ℕ} (next : ℕ)
    (hprevious : previous < diskSectorMax) (hcurrent : current < diskSectorMax) :
    WellFormed (AmpmFil.seal
      { fil with previousSector := previous, currentSector := current, nextSector := next }) :=
  ⟨h.named, hstart, hcurrent, hprevious, (checksum_seal _).symm, h.status_eq,
    Nat.le_of_eq (h.offset.trans h.size.symm), h.size ▸ hlt, h.permission_eq ▸ by decide,
    h.nameLength_lt⟩

end Invariant

/-! ## What a step of the writer may do -/

/-- The sectors that were found meanwhile are sectors of the partition. -/
def FoundInRange (ff ff' : Ff) : Prop := ∀ s ∈ ff'.found.drop ff.found.length, s < diskSectorMax

/-- The chain grew by `more`.  The sectors that are taken are in no chain, and all other sectors are
left alone. -/
structure WriterStep (ff ff' : Ff) (chain more : List ℕ) : Prop where
  faultless : ff'.flash.Faultless
  found : ff'.found = ff.found ++ more
  apart : ∀ ds, Owned ff.flash.mem ds → List.Disjoint chain ds → List.Disjoint (chain ++ more) ds
  other : ∀ s, s ∉ chain ++ more → SameSector s ff.flash.mem ff'.flash.mem

section WriterStep

variable {ff ff' ff'' : Ff} {chain more more' ds : List ℕ}

lemma WriterStep.sameSectors (h : WriterStep ff ff' chain more)
    (hds : List.Disjoint (chain ++ more) ds) : SameSectors ds ff.flash.mem ff'.flash.mem :=
  fun s hs => h.other s fun hmem => hds hmem hs

lemma WriterStep.trans (h : WriterStep ff ff' chain more)
    (h' : WriterStep ff' ff'' (chain ++ more) more') :
    WriterStep ff ff'' chain (more ++ more') := by
  refine ⟨h'.faultless, ?_, fun ds howned hds => ?_, fun s hs => ?_⟩
  · rw [h'.found, h.found, List.append_assoc]
  · have hds' := h.apart ds howned hds
    rw [← List.append_assoc]
    exact h'.apart ds (howned.congr (h.sameSectors hds')) hds'
  · rw [← List.append_assoc] at hs
    exact (h.other s fun hmem => hs (List.mem_append_left _ hmem)).trans (h'.other s hs)

lemma WriterStep.found_eq (h : WriterStep ff ff' chain []) : ff'.found = ff.found :=
  h.found.trans (List.append_nil _)

/-- A step that does not touch the flash. -/
lemma WriterStep.of_mem_eq (hfaultless : ff'.flash.Faultless) (hfound : ff'.found = ff.found)
    (hmem : ff'.flash.mem = ff.flash.mem) : WriterStep ff ff' chain [] :=
  ⟨hfaultless, hfound.trans (List.append_nil _).symm,
    fun _ _ hds => (List.append_nil chain).symm ▸ hds, fun s _ => hmem ▸ SameSector.refl s _⟩

/-- A step that only writes in one sector of the chain. -/
lemma WriterStep.of_wroteAt {s off : ℕ} {buf : List UInt8}
    (hfaultless : ff'.flash.Faultless) (hfound : ff'.found = ff.found) (hs : s ∈ chain)
    (hw : WroteAt s off buf ff.flash.mem ff'.flash.mem) : WriterStep ff ff' chain [] := by
  refine ⟨hfaultless, by rw [hfound, List.append_nil], fun ds _ hds => ?_, fun t ht => ?_⟩
  · rwa [List.append_nil]
  · rw [List.append_nil] at ht
    exact hw.other t fun heq => ht (heq ▸ hs)

lemma FoundInRange.of_found (h : FoundInRange ff ff') (hfound : ff'.found = ff.found ++ more) :
    ∀ s ∈ more, s < diskSectorMax := by
  intro s hs
  refine h s ?_
  rwa [hfound, List.drop_left]

/-- A run finds what its parts find. -/
lemma FoundInRange.split (h : FoundInRange ff ff'') (hfirst : ff.found <+: ff'.found)
    (hsecond : ff'.found <+: ff''.found) : FoundInRange ff ff' ∧ FoundInRange ff' ff'' := by
  obtain ⟨l, hl⟩ := hfirst
  obtain ⟨l', hl'⟩ := hsecond
  have hall : ∀ s ∈ l ++ l', s < diskSectorMax :=
    h.of_found (by rw [← hl', ← hl, List.append_assoc])
  constructor
  · intro s hs
    rw [← hl, List.drop_left] at hs
    exact hall s (List.mem_append_left _ hs)
  · intro s hs
    rw [← hl', List.drop_left] at hs
    exact hall s (List.mem_append_right _ hs)

end WriterStep

/-! ## Another sector -/

section Sector

variable {ff : Ff} {fil : AmpmFil} {chain : List ℕ} {bs : List UInt8}

/-- What has happened if `FR_OK` is returned. -/
lemma ampmFWriteSector_ok (hok : (ampmFWriteSector ff fil).1 = .frOk) :
    ∃ t ff' l h, ampmFFindFreeSector ff = (some t, ff') ∧
      writeFil ff' fil.currentSector sizeofAmpmFil (fil.linkTo t) = (.frOk, l) ∧
      writeFil l t 0 ((fil.linkTo t).moveTo t) = (.frOk, h) ∧
      ampmFWriteSector ff fil = (.frOk, (fil.linkTo t).moveTo t, h) := by
  unfold ampmFWriteSector at hok ⊢
  rcases hfind : ampmFFindFreeSector ff with ⟨_ | t, ff'⟩
  · simp only [hfind] at hok
    exact AmpmFResult.noConfusion hok
  · rcases hl : writeFil ff' fil.currentSector sizeofAmpmFil (fil.linkTo t) with ⟨_ | _, l⟩
    · rcases hh : writeFil l t 0 ((fil.linkTo t).moveTo t) with ⟨_ | _, h⟩
      · simp only [hl, hh]
        exact ⟨t, ff', l, h, rfl, hl, hh, rfl⟩
      · simp only [hfind, hl, hh] at hok
        exact AmpmFResult.noConfusion hok
    · simp only [hfind, hl] at hok
      exact AmpmFResult.noConfusion hok

lemma WritingHandle.linkTo (h : WritingHandle fil chain bs) (t : ℕ) :
    WritingHandle (fil.linkTo t) chain bs :=
  ⟨h.start, h.size, h.offset, h.previous_lt, h.named, h.nameLength_lt, h.status_eq,
    h.permission_eq⟩

lemma WritingHandle.moveTo (h : WritingHandle fil chain bs) (hlen : 0 < chain.length) (t : ℕ)
    (hcurrent : fil.currentSector < diskSectorMax) :
    WritingHandle ((fil.linkTo t).moveTo t) (chain ++ [t]) bs :=
  ⟨(List.getD_append _ _ _ _ hlen).trans h.start, h.size, h.offset, hcurrent, h.named,
    h.nameLength_lt, h.status_eq, h.permission_eq⟩

/-- **Another sector.**  It was free, it is linked to the last one, and it has a valid header. -/
theorem ampmFWriteSector_adds (hf : ff.flash.Faultless) (hh : WritingHandle fil chain bs)
    (howned : Owned ff.flash.mem chain) (hlen : 0 < chain.length)
    (hcurrent : chain.getD (chain.length - 1) 0 = fil.currentSector)
    (hlt : bs.length < 100000) (hok : (ampmFWriteSector ff fil).1 = .frOk)
    (hfound : FoundInRange ff (ampmFWriteSector ff fil).2.2) :
    ∃ t mem', (ampmFFindFreeSector ff).1 = some t ∧
      (ampmFWriteSector ff fil).2.1 = (fil.linkTo t).moveTo t ∧
      AddsSector chain t (fil.linkTo t) ((fil.linkTo t).moveTo t) ff.flash.mem mem'
        (ampmFWriteSector ff fil).2.2.flash.mem ∧
      WriterStep ff (ampmFWriteSector ff fil).2.2 chain [t] := by
  obtain ⟨t, ff', l, h, hfind, hl, hh', heq⟩ := ampmFWriteSector_ok hok
  rw [heq] at hfound ⊢
  have hmem : chain.getD (chain.length - 1) 0 ∈ chain := getD_mem (by omega)
  rw [hcurrent] at hmem
  have hcur := (howned _ hmem).1
  have hstart : fil.startSector ∈ chain := hh.start ▸ getD_mem hlen
  have hstartLt := (howned _ hstart).1
  -- the sector is none of those in use
  rcases ampmFFindFreeSector_spec ff with ⟨pre, t', post, -, -, hfree, hfind'⟩ | ⟨-, hfind'⟩
  swap
  · rw [hfind'] at hfind
    cases hfind
  rw [hfind'] at hfind ⊢
  obtain ⟨hsome, rfl⟩ := Prod.mk.inj hfind
  obtain rfl := Option.some.inj hsome
  have hfresh : ∀ ds, Owned ff.flash.mem ds → t' ∉ ds := fun ds howned hin =>
    Bool.false_ne_true (hfree.symm.trans (howned.sectorValid hin))
  have hwl := writeFil_written hl hf (Nat.le_of_lt hcur) (by decide)
  have hfound' : h.found = ff.found ++ [t'] :=
    (ampmFlashWrite_found hh').trans (ampmFlashWrite_found hl)
  have ht : t' < diskSectorMax := hfound.of_found hfound' t' List.mem_cons_self
  have hwh := writeFil_written hh' hwl.faultless (Nat.le_of_lt ht) (by decide)
  have hlink : WellFormed (fil.linkTo t') := hh.wellFormed hlt hstartLt t' hh.previous_lt hcur
  have hheader : WellFormed ((fil.linkTo t').moveTo t') :=
    (hh.linkTo t').wellFormed hlt hstartLt (fil.linkTo t').nextSector hcur ht
  refine ⟨t', l.flash.mem, rfl, rfl, ⟨hlen, hlink, rfl, hcurrent ▸ hwl.wroteAt,
    hcurrent ▸ hwl.stored rfl, hheader, hstart, hfresh chain howned, ht, hwh.wroteAt,
    hwh.stored rfl⟩, ⟨hwh.faultless, hfound', fun ds howned hds => ?_, fun s hs => ?_⟩⟩
  · refine List.disjoint_append_left.mpr ⟨hds, ?_⟩
    exact List.singleton_disjoint.mpr (hfresh ds howned)
  · have hne : s ≠ t' := fun heq => hs (heq ▸ List.mem_append_right _ List.mem_cons_self)
    have hne' : s ≠ fil.currentSector := fun heq => hs (heq ▸ List.mem_append_left _ hmem)
    exact (hwl.wroteAt.other s hne').trans (hwh.wroteAt.other s hne)

/-- The file with one sector more. -/
lemma ampmFWriteSector_spec (hf : ff.flash.Faultless) (hh : WritingHandle fil chain bs)
    (hcells : FileCells ff.flash.mem chain bs (chain.length * diskSectorSize))
    (hlen : 0 < chain.length) (hcurrent : chain.getD (chain.length - 1) 0 = fil.currentSector)
    (hlt : bs.length < 100000) (hok : (ampmFWriteSector ff fil).1 = .frOk)
    (hfound : FoundInRange ff (ampmFWriteSector ff fil).2.2) :
    ∃ t, (ampmFWriteSector ff fil).2.1 = (fil.linkTo t).moveTo t ∧
      FileCells (ampmFWriteSector ff fil).2.2.flash.mem (chain ++ [t]) bs
        (chain.length * diskSectorSize) ∧
      WriterStep ff (ampmFWriteSector ff fil).2.2 chain [t] := by
  obtain ⟨t, mem', -, hfil, hadds, hstep⟩ :=
    ampmFWriteSector_adds hf hh hcells.owned hlen hcurrent hlt hok hfound
  exact ⟨t, hfil, hcells.addSector hadds, hstep⟩

end Sector

/-! ## One byte -/

section Byte

variable {ff : Ff} {fil : AmpmFil} {chain : List ℕ} {bs : List UInt8} {c : UInt8}

/-- What has happened if `FR_OK` is returned. -/
lemma ampmFWriteBlock_ok (hok : (ampmFWriteBlock ff fil).1 = .frOk) :
    ∃ ff', ampmFlashWrite ff
        (ffAddr fil.currentSector (sub32 fil.fileOffset 256 % diskSectorSize + 256)) ff.buffer =
          (.frOk, ff') ∧
      ((fil.fileOffset % diskSectorSize ≠ 0 ∧
          ampmFWriteBlock ff fil = (.frOk, fil, { ff' with fileBuf := fun _ => 0xff })) ∨
        (fil.fileOffset % diskSectorSize = 0 ∧ (ampmFWriteSector ff' fil).1 = .frOk ∧
          ampmFWriteBlock ff fil = (.frOk, (ampmFWriteSector ff' fil).2.1,
            { (ampmFWriteSector ff' fil).2.2 with fileBuf := fun _ => 0xff }))) := by
  unfold ampmFWriteBlock at hok ⊢
  rcases hw : ampmFlashWrite ff
      (ffAddr fil.currentSector (sub32 fil.fileOffset 256 % diskSectorSize + 256)) ff.buffer
    with ⟨_ | _, ff'⟩
  · refine ⟨ff', rfl, ?_⟩
    simp only [hw] at hok ⊢
    by_cases hfull : fil.fileOffset % diskSectorSize = 0
    · simp only [if_pos hfull] at hok ⊢
      rcases hs : ampmFWriteSector ff' fil with ⟨_ | _, fil', ff''⟩
      · exact Or.inr ⟨hfull, rfl, rfl⟩
      · simp only [hs] at hok
        exact AmpmFResult.noConfusion hok
    · refine Or.inl ⟨hfull, ?_⟩
      simp only [if_neg hfull]
  · simp only [hw] at hok
    exact AmpmFResult.noConfusion hok

/-- The handle, when a byte more is in the buffer. -/
def AmpmFil.grow (fil : AmpmFil) : AmpmFil :=
  { fil with
    fileSize := (fil.fileSize + 1) % 2 ^ 32
    fileOffset := (fil.fileOffset + 1) % 2 ^ 32 }

/-- The state then. -/
def Ff.put (ff : Ff) (k : ℕ) (c : UInt8) : Ff :=
  { ff with fileBuf := fun j => if j = k then c else ff.fileBuf j }

lemma ampmFWriteByte_eq (ff : Ff) (fil : AmpmFil) (c : UInt8) :
    ampmFWriteByte ff fil c =
      if fil.grow.fileOffset % 256 = 0 then
        ampmFWriteBlock (ff.put (fil.fileOffset % 256) c) fil.grow
      else (.frOk, fil.grow, ff.put (fil.fileOffset % 256) c) := rfl

lemma WritingHandle.grow (h : WritingHandle fil chain bs) (hlt : bs.length < 100000) (c : UInt8) :
    WritingHandle fil.grow chain (bs ++ [c]) := by
  have hsize : (fil.fileSize + 1) % 2 ^ 32 = (bs ++ [c]).length := by
    rw [h.size, List.length_append, List.length_singleton]
    omega
  have hoffset : (fil.fileOffset + 1) % 2 ^ 32 = (bs ++ [c]).length := by
    rw [h.offset, List.length_append, List.length_singleton]
    omega
  exact ⟨h.start, hsize, hoffset, h.previous_lt, h.named, h.nameLength_lt, h.status_eq,
    h.permission_eq⟩

/-- The bytes in the buffer, with the new one. -/
lemma Pending.put (h : Pending ff.fileBuf bs) (c : UInt8) :
    ∀ j ≤ bs.length % 256,
      (ff.put (bs.length % 256) c).fileBuf j = (bs ++ [c]).getD (bs.length / 256 * 256 + j) 0 := by
  intro j hj
  rcases Nat.lt_or_eq_of_le hj with hlt | rfl
  · rw [List.getD_append _ _ _ _ (by omega), ← h j hlt]
    exact if_neg (Nat.ne_of_lt hlt)
  · rw [Nat.div_add_mod', List.getD_append_right _ _ _ _ (Nat.le_refl _), Nat.sub_self]
    exact if_pos rfl

lemma getD_buffer (ff : Ff) {j : ℕ} (hj : j < 256) : ff.buffer.getD j 0 = ff.fileBuf j := by
  rw [Ff.buffer, List.getD_eq_getElem?_getD, List.getElem?_map, List.getElem?_range hj]
  rfl

lemma length_buffer (ff : Ff) : ff.buffer.length = 256 := by
  rw [Ff.buffer, List.length_map, List.length_range]

/-- A byte that does not fill a block. -/
lemma Writing.growBuffered (h : Writing ff.flash.mem fil chain bs) (hlt : bs.length < 100000)
    (hpart : (bs.length + 1) % 256 ≠ 0) (c : UInt8) :
    Writing ff.flash.mem fil.grow chain (bs ++ [c]) := by
  have hlen : (bs ++ [c]).length = bs.length + 1 := by simp
  have hsector : (bs.length + 1) / diskSectorSize = bs.length / diskSectorSize := by
    unfold diskSectorSize
    omega
  have hblock : (bs.length + 1) / 256 = bs.length / 256 := by omega
  refine ⟨h.grow hlt c, ?_, ?_, ?_⟩
  · rw [hlen, hblock]
    exact h.cells.append (Nat.div_mul_le_self _ _) [c]
  · rw [hlen, hsector]
    exact h.length
  · rw [hlen, hsector]
    exact h.current

/-- The block that is full is written behind those on the flash. -/
lemma Writing.flushed (h : Writing ff.flash.mem fil chain bs) (hf : ff.flash.Faultless)
    (hbuf : Pending ff.fileBuf bs) (hfull : (bs.length + 1) % 256 = 0) {ff' : Ff}
    (hw : ampmFlashWrite (ff.put (bs.length % 256) c)
      (ffAddr fil.currentSector (sub32 (bs.length + 1) 256 % diskSectorSize + 256))
      (ff.put (bs.length % 256) c).buffer = (.frOk, ff')) (hlt : bs.length < 100000) :
    FileCells ff'.flash.mem chain (bs ++ [c]) (bs.length + 1) ∧ WriterStep ff ff' chain [] := by
  have hplace : sub32 (bs.length + 1) 256 % diskSectorSize + 256 =
      256 + bs.length / 256 * 256 % diskSectorSize := by
    unfold sub32 diskSectorSize
    omega
  have hsector : bs.length / diskSectorSize = bs.length / 256 * 256 / diskSectorSize := by
    unfold diskSectorSize
    omega
  have hflushed : bs.length / 256 * 256 + 256 = bs.length + 1 := by omega
  have hin : bs.length / 256 * 256 < chain.length * diskSectorSize := by
    have hlength := h.length
    unfold diskSectorSize at hlength ⊢
    omega
  have hmem := h.current_mem
  have hcurrent : fil.currentSector = chain.getD (bs.length / 256 * 256 / diskSectorSize) 0 := by
    rw [← hsector, h.current]
  rw [hplace] at hw
  have hoff : 256 + bs.length / 256 * 256 % diskSectorSize + 256 ≤ 4096 := by
    unfold diskSectorSize
    omega
  have hwritten := ampmFlashWrite_written hw hf (Nat.le_of_lt (h.cells.lt _ hmem))
    (Nat.le_of_eq (length_buffer _)) (by omega) (by rwa [length_buffer])
  have hfound : ff'.found = (ff.put (bs.length % 256) c).found := ampmFlashWrite_found hw
  refine ⟨?_, WriterStep.of_wroteAt hwritten.faultless hfound hmem hwritten.wroteAt⟩
  rw [← hflushed]
  refine (h.cells.append (Nat.div_mul_le_self _ _) [c]).writeBlock (length_buffer _)
    (Nat.mul_mod_left _ _) hin (hcurrent ▸ hwritten.wroteAt) (hcurrent ▸ hwritten.stored rfl)
    fun j hj => ?_
  rw [getD_buffer _ hj]
  exact hbuf.put c j (by omega)

/-- **One byte.**  If it is taken, the file has it. -/
theorem ampmFWriteByte_spec (hf : ff.flash.Faultless) (h : Writing ff.flash.mem fil chain bs)
    (hbuf : Pending ff.fileBuf bs) (hlt : bs.length < 100000)
    (hok : (ampmFWriteByte ff fil c).1 = .frOk)
    (hfound : FoundInRange ff (ampmFWriteByte ff fil c).2.2) :
    ∃ more, Writing (ampmFWriteByte ff fil c).2.2.flash.mem (ampmFWriteByte ff fil c).2.1
        (chain ++ more) (bs ++ [c]) ∧
      Pending (ampmFWriteByte ff fil c).2.2.fileBuf (bs ++ [c]) ∧
      WriterStep ff (ampmFWriteByte ff fil c).2.2 chain more := by
  have hlen : (bs ++ [c]).length = bs.length + 1 := by simp
  have hgrow := h.grow hlt c
  have hoffset : fil.grow.fileOffset = bs.length + 1 := hgrow.offset.trans hlen
  rw [ampmFWriteByte_eq, hoffset, h.offset] at hok hfound ⊢
  by_cases hfull : (bs.length + 1) % 256 = 0
  · have hnone : ∀ buf, Pending buf (bs ++ [c]) := fun buf j hj => by
      rw [hlen, hfull] at hj
      exact absurd hj (Nat.not_lt_zero j)
    rw [if_pos hfull] at hok hfound ⊢
    obtain ⟨ff', hw, hcases⟩ := ampmFWriteBlock_ok hok
    rw [hoffset] at hw hcases
    obtain ⟨hcells, hstep⟩ := h.flushed hf hbuf hfull hw hlt
    have hblock : (bs.length + 1) / 256 * 256 = bs.length + 1 :=
      Nat.div_mul_cancel (Nat.dvd_of_mod_eq_zero hfull)
    rcases hcases with ⟨hpart, heq⟩ | ⟨hswitch, hok', heq⟩
    · have hsector : (bs.length + 1) / diskSectorSize = bs.length / diskSectorSize := by
        unfold diskSectorSize at hpart ⊢
        omega
      rw [heq]
      refine ⟨[], ⟨?_, ?_, ?_, ?_⟩, hnone _, hstep.faultless, hstep.found, hstep.apart, hstep.other⟩
      · rwa [List.append_nil]
      · rw [List.append_nil, hlen, hblock]
        exact hcells
      · rw [List.append_nil, hlen, hsector]
        exact h.length
      · rw [List.append_nil, hlen, hsector]
        exact h.current
    · have hsector : (bs.length + 1) / diskSectorSize = chain.length := by
        have hlength := h.length
        unfold diskSectorSize at hswitch hlength ⊢
        omega
      have htotal : chain.length * diskSectorSize = bs.length + 1 := by
        rw [← hsector]
        exact Nat.div_mul_cancel (Nat.dvd_of_mod_eq_zero hswitch)
      have hlast : chain.getD (chain.length - 1) 0 = fil.grow.currentSector := by
        have hlength := h.length
        rw [hlength, Nat.add_sub_cancel]
        exact h.current
      rw [heq] at hfound ⊢
      have hfound' : FoundInRange ff' (ampmFWriteSector ff' fil.grow).2.2 := by
        unfold FoundInRange
        rw [hstep.found, List.append_nil]
        exact hfound
      have hpos : 0 < chain.length := h.length ▸ Nat.succ_pos _
      have hlt' : (bs ++ [c]).length < 100000 := by
        rw [hlen]
        unfold diskSectorSize at hswitch
        omega
      obtain ⟨t, hfil, hcells', hstep'⟩ := ampmFWriteSector_spec hstep.faultless hgrow
        (htotal.symm ▸ hcells) hpos hlast hlt' hok' hfound'
      have hall : WriterStep ff _ chain ([] ++ [t]) :=
        hstep.trans ((List.append_nil chain).symm ▸ hstep')
      refine ⟨[t], ⟨?_, ?_, ?_, ?_⟩, hnone _, hall.faultless, hall.found, hall.apart, hall.other⟩
      · rw [hfil]
        exact hgrow.moveTo hpos t (h.cells.lt _ h.current_mem)
      · rw [hlen, hblock, ← htotal]
        exact hcells'
      · rw [hlen, hsector, List.length_append, List.length_singleton]
      · rw [hlen, hsector, hfil, getD_append_self]
        rfl
  · rw [if_neg hfull] at hok hfound ⊢
    refine ⟨[], ?_, fun j hj => ?_, WriterStep.of_mem_eq hf rfl rfl⟩
    · rw [List.append_nil]
      exact h.growBuffered hlt hfull c
    · have hblock : (bs.length + 1) / 256 = bs.length / 256 := by omega
      rw [hlen] at hj ⊢
      rw [hblock]
      exact hbuf.put c j (by omega)

end Byte

/-! ## The loop -/

/-- Bytes one after another, as long as they are taken. -/
def writeBytes : List UInt8 → AmpmFil → Ff → AmpmFResult × AmpmFil × Ff
  | [], fil, ff => (.frOk, fil, ff)
  | c :: cs, fil, ff =>
      let r := ampmFWriteByte ff fil c
      if r.1 = .frOk then writeBytes cs r.2.1 r.2.2 else r

section Loop

variable {ff : Ff} {fil : AmpmFil} {chain : List ℕ} {bs : List UInt8}

lemma drop_eq_getD_cons {buff : List UInt8} {i : ℕ} (hi : i < buff.length) :
    buff.drop i = buff.getD i 0 :: buff.drop (i + 1) := by
  rw [List.drop_eq_getElem_cons hi, List.getD_eq_getElem _ _ hi]

/-- The loop of `ampm_f_write` takes all bytes if the counter can count them. -/
lemma ampmFWriteLoop_eq {buff : List UInt8} (hlen : buff.length < 2 ^ 16) :
    ∀ (fuel i : ℕ) (fil : AmpmFil) (ff : Ff), i ≤ buff.length → buff.length - i < fuel →
      ampmFWriteLoop buff buff.length fuel i fil ff =
        (some (writeBytes (buff.drop i) fil ff).1, (writeBytes (buff.drop i) fil ff).2)
  | 0, _, _, _, _, hfuel => absurd hfuel (Nat.not_lt_zero _)
  | fuel + 1, i, fil, ff, hi, hfuel => by
      rcases Nat.lt_or_eq_of_le hi with hlt | rfl
      · rw [drop_eq_getD_cons hlt, ampmFWriteLoop, if_pos hlt, writeBytes]
        have hnext : (i + 1) % 2 ^ 16 = i + 1 := Nat.mod_eq_of_lt (by omega)
        rcases hbyte : ampmFWriteByte ff fil (buff.getD i 0) with ⟨_ | _, fil', ff'⟩
        · simp only [if_true, hnext]
          exact ampmFWriteLoop_eq hlen fuel (i + 1) fil' ff' hlt (by omega)
        · rfl
      · rw [ampmFWriteLoop, if_neg (Nat.lt_irrefl _), List.drop_length]
        rfl

lemma ampmFWriteByte_found {c : UInt8} (hok : (ampmFWriteByte ff fil c).1 = .frOk) :
    ff.found <+: (ampmFWriteByte ff fil c).2.2.found := by
  rw [ampmFWriteByte_eq] at hok ⊢
  split_ifs at hok ⊢ with hfull
  · obtain ⟨ff', hw, hcases⟩ := ampmFWriteBlock_ok hok
    have hfound : ff'.found = (ff.put (fil.fileOffset % 256) c).found := ampmFlashWrite_found hw
    rcases hcases with ⟨-, heq⟩ | ⟨-, hok', heq⟩
    · rw [heq]
      exact hfound ▸ List.prefix_rfl
    · obtain ⟨t, ff'', l, h, hfind, hl, hh, heq'⟩ := ampmFWriteSector_ok hok'
      have hgrown : ff'.found <+: (ampmFFindFreeSector ff').2.found := by
        rcases ampmFFindFreeSector_spec ff' with ⟨_, _, _, -, -, -, hfind'⟩ | ⟨-, hfind'⟩
        · rw [hfind']
          exact List.prefix_append _ _
        · rw [hfind']
          exact List.prefix_rfl
      have hsame : h.found = (ampmFFindFreeSector ff').2.found := by
        rw [ampmFlashWrite_found hh, ampmFlashWrite_found hl, hfind]
      rw [heq, heq']
      exact hsame ▸ hfound ▸ hgrown
  · exact List.prefix_rfl

lemma writeBytes_found :
    ∀ (cs : List UInt8) (fil : AmpmFil) (ff : Ff), (writeBytes cs fil ff).1 = .frOk →
      ff.found <+: (writeBytes cs fil ff).2.2.found
  | [], _, _, _ => List.prefix_rfl
  | c :: cs, fil, ff, hok => by
      rw [writeBytes] at hok ⊢
      by_cases hbyte : (ampmFWriteByte ff fil c).1 = .frOk
      · rw [if_pos hbyte] at hok ⊢
        exact (ampmFWriteByte_found hbyte).trans (writeBytes_found cs _ _ hok)
      · rw [if_neg hbyte] at hok
        exact absurd hok hbyte

lemma ampmFWriteByte_fileSize {c : UInt8} (hok : (ampmFWriteByte ff fil c).1 = .frOk) :
    (ampmFWriteByte ff fil c).2.1.fileSize = (fil.fileSize + 1) % 2 ^ 32 := by
  rw [ampmFWriteByte_eq] at hok ⊢
  split_ifs at hok ⊢ with hfull
  · obtain ⟨ff', -, ⟨-, heq⟩ | ⟨-, hok', heq⟩⟩ := ampmFWriteBlock_ok hok
    · rw [heq]
      rfl
    · obtain ⟨t, ff'', l, h, -, -, -, heq'⟩ := ampmFWriteSector_ok hok'
      rw [heq, heq']
      rfl
  · rfl

lemma writeBytes_fileSize :
    ∀ (cs : List UInt8) (fil : AmpmFil) (ff : Ff), (writeBytes cs fil ff).1 = .frOk →
      fil.fileSize + cs.length < 2 ^ 32 →
      (writeBytes cs fil ff).2.1.fileSize = fil.fileSize + cs.length
  | [], _, _, _, _ => rfl
  | c :: cs, fil, ff, hok, hlt => by
      rw [writeBytes] at hok ⊢
      rw [List.length_cons] at hlt ⊢
      by_cases hbyte : (ampmFWriteByte ff fil c).1 = .frOk
      · rw [if_pos hbyte] at hok ⊢
        have hfirst : (ampmFWriteByte ff fil c).2.1.fileSize = fil.fileSize + 1 :=
          (ampmFWriteByte_fileSize hbyte).trans (Nat.mod_eq_of_lt (by omega))
        rw [writeBytes_fileSize cs _ _ hok (by omega), hfirst]
        omega
      · rw [if_neg hbyte] at hok
        exact absurd hok hbyte

/-- **Any number of bytes.**  If all are taken, the file has them. -/
theorem writeBytes_spec :
    ∀ (cs : List UInt8) {ff : Ff} {fil : AmpmFil} {chain : List ℕ} {bs : List UInt8},
      ff.flash.Faultless → Writing ff.flash.mem fil chain bs → Pending ff.fileBuf bs →
      (bs ++ cs).length ≤ 100000 → (writeBytes cs fil ff).1 = .frOk →
      FoundInRange ff (writeBytes cs fil ff).2.2 →
      ∃ more, Writing (writeBytes cs fil ff).2.2.flash.mem (writeBytes cs fil ff).2.1
          (chain ++ more) (bs ++ cs) ∧
        Pending (writeBytes cs fil ff).2.2.fileBuf (bs ++ cs) ∧
        WriterStep ff (writeBytes cs fil ff).2.2 chain more
  | [], ff, fil, chain, bs, hf, h, hbuf, _, _, _ => by
      refine ⟨[], ?_, ?_, WriterStep.of_mem_eq hf rfl rfl⟩
      · rwa [List.append_nil, List.append_nil]
      · rwa [List.append_nil]
  | c :: cs, ff, fil, chain, bs, hf, h, hbuf, hlt, hok, hfound => by
      rw [writeBytes] at hok hfound ⊢
      by_cases hbyte : (ampmFWriteByte ff fil c).1 = .frOk
      · rw [if_pos hbyte] at hok hfound ⊢
        have hsplit := hfound.split (ampmFWriteByte_found hbyte) (writeBytes_found cs _ _ hok)
        have hbytes : bs ++ [c] ++ cs = bs ++ c :: cs := by rw [List.append_assoc]; rfl
        have hshort : bs.length < 100000 := by
          rw [List.length_append, List.length_cons] at hlt
          omega
        obtain ⟨more, h', hbuf', hstep⟩ := ampmFWriteByte_spec hf h hbuf hshort hbyte hsplit.1
        obtain ⟨more', h'', hbuf'', hstep'⟩ :=
          writeBytes_spec cs hstep.faultless h' hbuf' (hbytes.symm ▸ hlt) hok hsplit.2
        rw [hbytes, List.append_assoc] at h''
        rw [hbytes] at hbuf''
        exact ⟨more ++ more', h'', hbuf'', hstep.trans hstep'⟩
      · rw [if_neg hbyte] at hok
        exact absurd hok hbyte

/-! ## When the sectors are sectors of the partition -/

/-- A sector of the partition is free that the search for one looks at. -/
def FindsSector (ff : Ff) : Prop :=
  ∃ t < diskSectorMax, t ≠ ff.rand ff.drawn % diskSectorMax ∧ sectorValid ff.flash.mem t = false

/-- Whenever the bytes fill a sector, another one is free. -/
def FindsSectors : List UInt8 → AmpmFil → Ff → Prop
  | [], _, _ => True
  | c :: cs, fil, ff =>
      ((fil.fileOffset + 1) % diskSectorSize = 0 → FindsSector ff) ∧
        FindsSectors cs (ampmFWriteByte ff fil c).2.1 (ampmFWriteByte ff fil c).2.2

/-- The search stops in the partition. -/
lemma FindsSector.found_lt (h : FindsSector ff) {t : ℕ}
    (ht : (ampmFFindFreeSector ff).1 = some t) : t < diskSectorMax := by
  obtain ⟨u, hu, hne, hfree⟩ := h
  have hr : ff.rand ff.drawn % diskSectorMax < diskSectorMax := Nat.mod_lt _ (by decide)
  rcases ampmFFindFreeSector_spec ff with ⟨pre, t', post, horder, hpre, -, heq⟩ | ⟨-, heq⟩
  · rw [heq] at ht
    obtain rfl := Option.some.inj ht
    rcases scanOrder_stop hr horder with ⟨hlt, -, -⟩ | ⟨-, hall⟩
    · exact hlt
    · exact absurd (hfree.symm.trans (hpre u (hall u hu hne))) Bool.false_ne_true
  · rw [heq] at ht
    cases ht

lemma FoundInRange.of_eq {ff ff' : Ff} (h : ff'.found = ff.found) : FoundInRange ff ff' := by
  intro s hs
  rw [h, List.drop_length] at hs
  exact absurd hs List.not_mem_nil

lemma FoundInRange.trans {ff ff' ff'' : Ff} (h : FoundInRange ff ff') (h' : FoundInRange ff' ff'')
    (hfirst : ff.found <+: ff'.found) (hsecond : ff'.found <+: ff''.found) :
    FoundInRange ff ff'' := by
  obtain ⟨l, hl⟩ := hfirst
  obtain ⟨l', hl'⟩ := hsecond
  intro s hs
  rw [← hl', ← hl, List.append_assoc, List.drop_left] at hs
  rcases List.mem_append.mp hs with hold | hnew
  · exact h.of_found hl.symm s hold
  · exact h'.of_found hl'.symm s hnew

/-- One byte, when a sector is free if it is needed. -/
lemma ampmFWriteByte_inRange {c : UInt8} (hf : ff.flash.Faultless)
    (h : Writing ff.flash.mem fil chain bs) (hlt : bs.length < 100000)
    (hok : (ampmFWriteByte ff fil c).1 = .frOk)
    (hfree : (fil.fileOffset + 1) % diskSectorSize = 0 → FindsSector ff) :
    FoundInRange ff (ampmFWriteByte ff fil c).2.2 := by
  have hoffset : fil.grow.fileOffset = bs.length + 1 :=
    (h.grow hlt c).offset.trans (by rw [List.length_append, List.length_singleton])
  rw [h.offset] at hfree
  rw [ampmFWriteByte_eq, hoffset, h.offset] at hok ⊢
  split_ifs at hok ⊢ with hfull
  · obtain ⟨ff', hw, hcases⟩ := ampmFWriteBlock_ok hok
    rw [hoffset] at hw hcases
    have hsame := ampmFlashWrite_found hw
    rcases hcases with ⟨-, heq⟩ | ⟨hswitch, hok', heq⟩
    · rw [heq]
      exact FoundInRange.of_eq hsame
    · obtain ⟨t, ff'', l, k, hfind, hl, hh, heq'⟩ := ampmFWriteSector_ok hok'
      have hoff : sub32 (bs.length + 1) 256 % diskSectorSize + 256 + 256 ≤ 4096 := by
        unfold sub32 diskSectorSize
        omega
      have hwritten := ampmFlashWrite_written hw hf (Nat.le_of_lt (h.cells.lt _ h.current_mem))
        (Nat.le_of_eq (length_buffer _)) (by omega) (by rwa [length_buffer])
      -- the block that was written has not changed which sectors are free
      have hfree' : FindsSector ff' := by
        obtain ⟨u, hu, hne, hvalid⟩ := hfree hswitch
        have hrand : ff'.rand = ff.rand ∧ ff'.drawn = ff.drawn := by
          rw [← (Prod.mk.inj hw).2]
          exact ⟨rfl, rfl⟩
        refine ⟨u, hu, ?_, ?_⟩
        · rwa [hrand.1, hrand.2]
        · rw [hwritten.wroteAt.sectorValid_eq (Nat.le_trans (by decide) (Nat.le_add_left _ _))
            (by omega) hu]
          exact hvalid
      have hfound : k.found = ff.found ++ [t] := by
        rcases ampmFFindFreeSector_spec ff' with ⟨_, t', _, -, -, -, hfind'⟩ | ⟨-, hfind'⟩
        · rw [hfind'] at hfind
          obtain ⟨hsome, rfl⟩ := Prod.mk.inj hfind
          obtain rfl := Option.some.inj hsome
          exact (ampmFlashWrite_found hh).trans ((ampmFlashWrite_found hl).trans
            (congrArg (· ++ [t']) hsame))
        · rw [hfind'] at hfind
          cases hfind
      rw [heq, heq']
      intro s hs
      rw [show ({ k with fileBuf := fun _ => 0xff } : Ff).found = ff.found ++ [t] from hfound,
        List.drop_left, List.mem_singleton] at hs
      exact hs ▸ hfree'.found_lt (congrArg Prod.fst hfind)
  · exact FoundInRange.of_eq rfl

/-- Any number of bytes. -/
lemma writeBytes_inRange :
    ∀ (cs : List UInt8) {ff : Ff} {fil : AmpmFil} {chain : List ℕ} {bs : List UInt8},
      ff.flash.Faultless → Writing ff.flash.mem fil chain bs → Pending ff.fileBuf bs →
      (bs ++ cs).length ≤ 100000 → (writeBytes cs fil ff).1 = .frOk → FindsSectors cs fil ff →
      FoundInRange ff (writeBytes cs fil ff).2.2
  | [], _, _, _, _, _, _, _, _, _, _ => FoundInRange.of_eq rfl
  | c :: cs, ff, fil, chain, bs, hf, h, hbuf, hlt, hok, hfree => by
      rw [writeBytes] at hok ⊢
      by_cases hbyte : (ampmFWriteByte ff fil c).1 = .frOk
      · rw [if_pos hbyte] at hok ⊢
        have hbytes : bs ++ [c] ++ cs = bs ++ c :: cs := by rw [List.append_assoc]; rfl
        have hshort : bs.length < 100000 := by
          rw [List.length_append, List.length_cons] at hlt
          omega
        have hfirst := ampmFWriteByte_inRange hf h hshort hbyte hfree.1
        obtain ⟨more, h', hbuf', hstep⟩ := ampmFWriteByte_spec hf h hbuf hshort hbyte hfirst
        exact hfirst.trans
          (writeBytes_inRange cs hstep.faultless h' hbuf' (hbytes.symm ▸ hlt) hok hfree.2)
          (ampmFWriteByte_found hbyte) (writeBytes_found cs _ _ hok)
      · rw [if_neg hbyte] at hok
        exact absurd hok hbyte

end Loop

end Ampm
