import AmpmGsm.Flash.Stored
import AmpmGsm.Lib.Runs

/-!
# Reading a file

`ampm_f_read` and `ampm_f_lseek` keep the current sector in the handle.  A read that ends with the
last byte of a sector leaves it where it was, and one that goes on into another sector takes that from
the link of the first sector of the file, wherever it is; `ampm_f_lseek` to a position in the first
sector copies a record that it has not read.

* `ReadableFile` — a closed file that can be opened.
* `ampmFClose_readable` — what `ampm_f_close` leaves.
* `readerStep`, `CallMeets` — calls on a handle, and what is asked of them.
* `ReadsCurrent` — the condition at one call.
* `reader_correct` — the runs in which each call does what it should.
* `reader_incorrect` — two reads of which the second delivers the wrong byte.
-/

namespace Ampm

open NorFlash Runs

/-! ## Closed files -/

/-- A closed file whose record is valid. -/
structure ReadableFile (mem : Memory) (start : ℕ) (chain : List ℕ) (content : List UInt8) : Prop
    extends ClosedFile mem start chain content where
  valid : formatCheck (filAt mem start (2 * sizeofAmpmFil)) = true
  start_eq : (filAt mem start (2 * sizeofAmpmFil)).startSector = start
  current_eq : (filAt mem start (2 * sizeofAmpmFil)).currentSector = start

section Close

variable {ff : Ff} {fil : AmpmFil} {chain : List ℕ} {bs : List UInt8}

/-- The record that `ampm_f_close` writes. -/
lemma ampmFClose_record (hf : ff.flash.Faultless) (h : Writing ff.flash.mem fil chain bs)
    (hlt : bs.length < 2 ^ 32) (hok : (ampmFClose ff fil).1 = .frOk) :
    ∃ next, next = (filAt (ampmFClose ff fil).2.2.flash.mem fil.startSector
        sizeofAmpmFil).nextSector ∧
      StoredAt fil.startSector (2 * sizeofAmpmFil) (fil.closing next).bytes
        (ampmFClose ff fil).2.2.flash.mem := by
  obtain ⟨-, r, ff', ff'', next, hw, hnext, hc, heq⟩ := ampmFClose_ok h.permission_eq hok
  obtain ⟨-, hstep⟩ := h.lastBlock hf hlt hw
  have hwritten := writeFil_written hc hstep.faultless
    (Nat.le_of_lt (h.cells.lt _ h.start_mem)) (by decide)
  have hlink : filAt ff''.flash.mem fil.startSector sizeofAmpmFil =
      filAt ff'.flash.mem fil.startSector sizeofAmpmFil :=
    hwritten.wroteAt.filAt_eq (by decide) (by decide) (h.cells.lt _ h.start_mem) (by decide)
  rw [heq, hlink]
  exact ⟨next, hnext, hwritten.stored rfl⟩

lemma WritingHandle.closing_wellFormed (h : WritingHandle fil chain bs)
    (hstart : fil.startSector < diskSectorMax) (hlen : bs.length < 100000) (next : ℕ) :
    WellFormed (fil.closing next) where
  named := h.named
  start_lt := hstart
  current_lt := hstart
  previous_lt := hstart
  crc_eq := (checksum_seal _).symm
  status_eq := h.status_eq
  offset_le := Nat.le_of_eq (h.offset.trans h.size.symm)
  size_lt := h.size.trans_lt hlen
  permission_le := h.permission_eq.trans_le (by decide)
  nameLength_lt := h.nameLength_lt

/-- **What is closed can be read.**  `ampm_f_close` leaves a readable file, unless the file is so
large that its record is not taken for valid. -/
theorem ampmFClose_readable (hf : ff.flash.Faultless) (h : Writing ff.flash.mem fil chain bs)
    (hbuf : Pending ff.fileBuf bs) (hok : (ampmFClose ff fil).1 = .frOk)
    (hlen : bs.length < 100000) :
    ReadableFile (ampmFClose ff fil).2.2.flash.mem fil.startSector chain bs := by
  have hmax : diskSectorMax < 2 ^ 32 := by decide
  have hclosed := (ampmFClose_spec hf h hbuf hok).1
  have hstart := h.cells.lt _ h.start_mem
  obtain ⟨next, -, hrecord⟩ := ampmFClose_record hf h (Nat.lt_trans hlen (by decide)) hok
  have hwell := h.closing_wellFormed hstart hlen next
  have hword : fil.startSector < 2 ^ 32 := Nat.lt_trans hstart hmax
  exact ⟨hclosed, hrecord.formatCheck hstart (by decide) hwell,
    hrecord.word_eq hstart (by decide) (j := 0) (by decide) hword,
    hrecord.word_eq hstart (by decide) (j := 2) (by decide) hword⟩

end Close

/-! ## Calls -/

/-- A call on the handle.  `rfil` is what is on the stack when `ampm_f_lseek` is called. -/
inductive ReadCall
  | read (btr : ℕ)
  | lseek (seek : ℕ) (rfil : AmpmFil)

/-- What a call may ask for in a file of that size. -/
def ReadCall.InRange (size : ℕ) : ReadCall → Prop
  | .read btr => btr < 2 ^ 32
  | .lseek seek _ => seek ≤ size

/-- The state and the handle after a call. -/
def readerStep (s : Ff × AmpmFil) : ReadCall → Ff × AmpmFil
  | .read btr => ((ampmFRead s.1 s.2 btr).ff, (ampmFRead s.1 s.2 btr).fil)
  | .lseek seek rfil =>
      ((ampmFLseek s.1 s.2 seek rfil).2.2, (ampmFLseek s.1 s.2 seek rfil).2.1)

/-- What a call is to do: `FR_OK`, the bytes from the offset on, and the new offset. -/
def CallMeets (content : List UInt8) (s : Ff × AmpmFil) : ReadCall → Prop
  | .read btr =>
      let r := ampmFRead s.1 s.2 btr
      let n := min btr (content.length - s.2.fileOffset)
      r.ret = .frOk ∧ r.br = some n ∧ r.buff = (content.drop s.2.fileOffset).take n ∧
        r.fil.fileOffset = s.2.fileOffset + n
  | .lseek seek rfil =>
      (ampmFLseek s.1 s.2 seek rfil).1 = .frOk ∧
        (ampmFLseek s.1 s.2 seek rfil).2.1.fileOffset = seek

/-- The handle passes the test, the sum of the offset and the number of bytes does not overflow to
something small, and the bytes are in the current sector, or begin in the first and end before the
end of the second. -/
def ReadsCurrent (chain : List ℕ) (content : List UInt8) (s : Ff × AmpmFil) : ReadCall → Prop
  | .read btr =>
      let p := s.2.fileOffset
      let n := min btr (content.length - p)
      s.2.previousSector < diskSectorMax ∧
        (p + btr < 2 ^ 32 ∨ content.length ≤ (p + btr) % 2 ^ 32) ∧
        (n = 0 ∨ s.2.currentSector = chain.getD (p / diskSectorSize) 0 ∧
          (p % diskSectorSize + n ≤ diskSectorSize ∨
            p < diskSectorSize ∧ p + n < 2 * diskSectorSize))
  | .lseek seek _ => seek ≤ content.length

instance (chain : List ℕ) (content : List UInt8) (s : Ff × AmpmFil) :
    ∀ call, Decidable (ReadsCurrent chain content s call)
  | .read _ => inferInstanceAs (Decidable (_ ∧ _ ∧ _))
  | .lseek _ _ => inferInstanceAs (Decidable (_ ≤ _))

/-! ## The invariant -/

/-- A handle of the file, with the cells as they were. -/
structure Reading (mem : Memory) (start : ℕ) (chain : List ℕ) (content : List UInt8)
    (s : Ff × AmpmFil) : Prop where
  mem_eq : s.1.flash.mem = mem
  start_eq : s.2.startSector = start
  current_mem : s.2.currentSector ∈ chain
  named : s.2.fileName 0 ≠ 0
  size_eq : s.2.fileSize = content.length
  offset_le : s.2.fileOffset ≤ content.length
  permission_le : s.2.permission ≤ 2

section Reading

variable {mem : Memory} {start : ℕ} {chain : List ℕ} {content : List UInt8} {s : Ff × AmpmFil}

lemma ClosedFile.index_lt (h : ClosedFile mem start chain content) {p : ℕ}
    (hp : p ≤ content.length) : p / diskSectorSize < chain.length := by
  rw [h.length]
  exact Nat.lt_succ_of_le (Nat.div_le_div_right hp)

lemma cellOf_add {p i : ℕ} (h : p % diskSectorSize + i < diskSectorSize) :
    cellOf chain (p + i) = cellOf chain p + i := by
  have hplace : (p + i) % diskSectorSize = p % diskSectorSize + i := by
    rw [Nat.add_mod, Nat.mod_eq_of_lt (Nat.lt_of_le_of_lt (Nat.le_add_left i _) h),
      Nat.mod_eq_of_lt h]
  have hsector : (p + i) / diskSectorSize = p / diskSectorSize := by
    unfold diskSectorSize at h ⊢
    omega
  rw [cellOf, cellOf, hsector, hplace, Nat.add_assoc, Nat.add_assoc]

/-- Bytes of one sector. -/
lemma ClosedFile.read_eq (h : ClosedFile mem start chain content) {p n : ℕ}
    (hin : p + n ≤ content.length) (hsector : p % diskSectorSize + n ≤ diskSectorSize) {ff : Ff}
    (hmem : ff.flash.mem = mem) :
    (ampmFlashRead ff (ffAddr (chain.getD (p / diskSectorSize) 0) (256 + p % diskSectorSize)) n).1 =
      (content.drop p).take n := by
  have hsize : diskSectorSize = 3840 := rfl
  have hmax : diskSectorMax = 110 := rfl
  have hlt := h.lt _ (getD_mem (h.index_lt (p := p) (by omega)))
  have haddr : ffAddr (chain.getD (p / diskSectorSize) 0) (256 + p % diskSectorSize) =
      cellOf chain p := ffAddr_of_lt hlt (mod_add_lt p)
  have hplace := mod_add_lt p
  have hcell : cellOf chain p < 0x100000 := by
    rw [cellOf, sectorStart]
    omega
  rw [ampmFlashRead_eq, haddr, sst25Read_bytes _ (by omega) (by omega) (by omega), hmem]
  refine List.ext_getElem ?_ fun i hi hi' => ?_
  · rw [length_read, List.length_take, List.length_drop]
    omega
  · rw [length_read] at hi
    have hbyte := h.data (p + i) (by omega)
    rw [cellOf_add (by omega), List.getD_eq_getElem _ _ (by omega)] at hbyte
    rw [List.getElem_take, List.getElem_drop, ← hbyte, ← List.getD_eq_getElem _ 0, getD_read hi]

/-- The number of bytes that are read. -/
lemma readCount_eq {p btr size : ℕ} (hp : p ≤ size) (hsize : size < 2 ^ 32)
    (hsum : p + btr < 2 ^ 32 ∨ size ≤ (p + btr) % 2 ^ 32) :
    (if (p + btr) % 2 ^ 32 < size then btr else sub32 size p) = min btr (size - p) := by
  unfold sub32
  split_ifs <;> omega

/-- The loop of `ampm_f_lseek` follows the links, and keeps the record of the last one. -/
lemma ampmFLseekLoop_eq (hlinked : Linked mem chain) :
    ∀ (n i : ℕ) (rfil : AmpmFil) (ff : Ff), ff.flash.mem = mem → i + n < chain.length →
      ∃ as, ampmFLseekLoop n (chain.getD i 0) rfil ff =
        (some (chain.getD (i + n) 0,
          if n = 0 then rfil else filAt mem (chain.getD (i + n - 1) 0) sizeofAmpmFil),
          ff.logged as)
  | 0, i, rfil, ff, _, _ => ⟨[], by rw [ampmFLseekLoop, logged_nil, if_pos rfl, Nat.add_zero]⟩
  | n + 1, i, rfil, ff, hmem, hi => by
      obtain ⟨hvalid, hnext⟩ := hlinked i (by omega)
      obtain ⟨as, hrest⟩ := ampmFLseekLoop_eq hlinked n (i + 1)
        (filAt mem (chain.getD i 0) sizeofAmpmFil)
        (ff.logged [.read (ffAddr (chain.getD i 0) sizeofAmpmFil) sizeofAmpmFil]) hmem (by omega)
      have hlast : (if n = 0 then filAt mem (chain.getD i 0) sizeofAmpmFil
          else filAt mem (chain.getD (i + 1 + n - 1) 0) sizeofAmpmFil) =
          filAt mem (chain.getD (i + (n + 1) - 1) 0) sizeofAmpmFil := by
        split_ifs with hn
        · rw [hn, Nat.add_sub_cancel]
        · rw [Nat.add_right_comm, Nat.add_assoc]
      refine ⟨.read (ffAddr (chain.getD i 0) sizeofAmpmFil) sizeofAmpmFil :: as, ?_⟩
      rw [ampmFLseekLoop, readFil_eq, hmem, if_pos hvalid, hnext, hrest, logged_logged, hlast,
        if_neg (Nat.succ_ne_zero n), Nat.add_right_comm]
      rfl

/-- `ampm_f_lseek` finds the sector of the position. -/
lemma Reading.lseek (hfile : ReadableFile mem start chain content)
    (h : Reading mem start chain content s) {seek : ℕ} (hseek : seek ≤ content.length)
    (rfil : AmpmFil) :
    Reading mem start chain content (readerStep s (.lseek seek rfil)) ∧
      CallMeets content s (.lseek seek rfil) := by
  have hindex := hfile.index_lt hseek
  obtain ⟨as, hloop⟩ := ampmFLseekLoop_eq hfile.linked (seek / diskSectorSize) 0 rfil s.1
    h.mem_eq ((Nat.zero_add _).symm ▸ hindex)
  rw [hfile.head, ← h.start_eq, Nat.zero_add] at hloop
  generalize (if seek / diskSectorSize = 0 then rfil
    else filAt mem (chain.getD (seek / diskSectorSize - 1) 0) sizeofAmpmFil) = rfil' at hloop
  have heq : ampmFLseek s.1 s.2 seek rfil =
      (.frOk,
        { s.2 with
          currentSector := chain.getD (seek / diskSectorSize) 0
          nextSector := rfil'.nextSector
          previousSector := rfil'.previousSector
          fileOffset := seek }, s.1.logged as) := by
    rw [ampmFLseek, hloop]
  rw [readerStep, CallMeets, heq]
  exact ⟨⟨h.mem_eq, h.start_eq, getD_mem hindex, h.named, h.size_eq, hseek, h.permission_le⟩, rfl, rfl⟩

lemma ReadableFile.size_lt (h : ReadableFile mem start chain content) : content.length < 100000 :=
  h.size ▸ ((formatCheck_iff _).mp h.valid).size_lt

/-- The handle passes the test of `ampm_f_read`. -/
lemma Reading.handleOk (hfile : ReadableFile mem start chain content)
    (h : Reading mem start chain content s) (hprevious : s.2.previousSector < diskSectorMax) :
    handleOk s.2 = true := by
  have hsize := hfile.size_lt
  have hlen := h.size_eq
  have hoffset := h.offset_le
  refine (handleOk_iff _).mpr ⟨?_, hfile.lt _ h.current_mem, hprevious, h.named, by omega, by omega,
    by omega, h.permission_le⟩
  rw [h.start_eq]
  exact hfile.lt _ hfile.start_mem

/-- A read that stays in the current sector. -/
lemma ampmFRead_within {ff : Ff} {fil : AmpmFil} {btr n : ℕ} (hok : Ampm.handleOk fil = true)
    (hn : (if (fil.fileOffset + btr) % 2 ^ 32 < fil.fileSize then btr
      else sub32 fil.fileSize fil.fileOffset) = n)
    (hfit : fil.fileOffset % diskSectorSize + n ≤ diskSectorSize)
    (hsum : fil.fileOffset + n < 2 ^ 32) :
    ampmFRead ff fil btr =
      let addr := ffAddr fil.currentSector (256 + fil.fileOffset % diskSectorSize)
      ⟨.frOk, some n, (ampmFlashRead ff addr n).1, { fil with fileOffset := fil.fileOffset + n },
        ff.logged (readLog addr n)⟩ := by
  have hmod : (fil.fileOffset % diskSectorSize + n) % 2 ^ 32 =
      fil.fileOffset % diskSectorSize + n :=
    Nat.mod_eq_of_lt (Nat.lt_of_le_of_lt hfit (by decide))
  simp only [ampmFRead, if_pos hok, hn, hmod, if_pos hfit, Nat.mod_eq_of_lt hsum]
  rw [ampmFlashRead_eq]

/-- A read that goes on into another sector: it takes the one behind the first. -/
lemma ampmFRead_across {ff : Ff} {fil link : AmpmFil} {btr n : ℕ}
    (hok : Ampm.handleOk fil = true)
    (hn : (if (fil.fileOffset + btr) % 2 ^ 32 < fil.fileSize then btr
      else sub32 fil.fileSize fil.fileOffset) = n)
    (hover : diskSectorSize < fil.fileOffset % diskSectorSize + n)
    (hsum : fil.fileOffset + n < 2 ^ 32)
    (hlink : filAt ff.flash.mem fil.startSector sizeofAmpmFil = link)
    (hvalid : formatCheck link = true) :
    ampmFRead ff fil btr =
      let temp := fil.fileOffset % diskSectorSize
      let addr := ffAddr fil.currentSector (256 + temp)
      let as := readLog addr (diskSectorSize - temp) ++
        [.read (ffAddr fil.startSector sizeofAmpmFil) sizeofAmpmFil]
      let addr' := ffAddr link.nextSector 256
      let rest := (temp + n) % diskSectorSize
      ⟨.frOk, some n,
        (ampmFlashRead ff addr (diskSectorSize - temp)).1 ++
          (ampmFlashRead (ff.logged as) addr' rest).1,
        { fil with
          fileOffset := fil.fileOffset + n
          currentSector := link.nextSector
          nextSector := link.nextSector
          previousSector := link.previousSector }, ff.logged (as ++ readLog addr' rest)⟩ := by
  have hle : fil.fileOffset % diskSectorSize + n < 2 ^ 32 :=
    Nat.lt_of_le_of_lt (Nat.add_le_add_right (Nat.mod_le _ _) n) hsum
  simp only [ampmFRead, if_pos hok, hn, Nat.mod_eq_of_lt hle, if_neg (Nat.not_le.mpr hover),
    Nat.mod_eq_of_lt hsum, ampmFlashRead_eq, ampmFNextSector, readFil_eq, logged_mem, hlink,
    if_pos hvalid, logged_logged]

/-- Bytes of the first sector and of the one behind it. -/
lemma ReadableFile.read_across (h : ReadableFile mem start chain content) {p n : ℕ}
    (hin : p + n ≤ content.length) (hfirst : p < diskSectorSize) (hover : diskSectorSize < p + n)
    (hend : p + n < 2 * diskSectorSize) {ff ff' : Ff} (hmem : ff.flash.mem = mem)
    (hmem' : ff'.flash.mem = mem) :
    (ampmFlashRead ff (ffAddr start (256 + p)) (diskSectorSize - p)).1 ++
        (ampmFlashRead ff' (ffAddr (chain.getD 1 0) 256) (p + n - diskSectorSize)).1 =
      (content.drop p).take n := by
  have hsize : 0 < diskSectorSize := by decide
  have hleft := h.read_eq (p := p) (n := diskSectorSize - p) (by omega)
    (by rw [Nat.mod_eq_of_lt hfirst]; omega) hmem
  have hright := h.read_eq (p := diskSectorSize) (n := p + n - diskSectorSize) (by omega)
    (by rw [Nat.mod_self]; omega) hmem'
  rw [Nat.div_eq_of_lt hfirst, Nat.mod_eq_of_lt hfirst, h.head] at hleft
  rw [Nat.div_self hsize, Nat.mod_self] at hright
  rw [hleft, hright]
  have hsplit : n = diskSectorSize - p + (p + n - diskSectorSize) := by omega
  conv_rhs => rw [hsplit, List.take_add, List.drop_drop, Nat.add_sub_cancel' (Nat.le_of_lt hfirst)]

/-- The handle after a read at which it is about the right sector. -/
lemma Reading.read (hfile : ReadableFile mem start chain content)
    (h : Reading mem start chain content s) {btr : ℕ}
    (hcall : ReadsCurrent chain content s (.read btr)) :
    Reading mem start chain content (readerStep s (.read btr)) ∧
      CallMeets content s (.read btr) := by
  obtain ⟨hprevious, hsum, hplace⟩ := hcall
  have hlen := hfile.size_lt
  have hoffset := h.offset_le
  have hok := h.handleOk hfile hprevious
  have hn : (if (s.2.fileOffset + btr) % 2 ^ 32 < s.2.fileSize then btr
      else sub32 s.2.fileSize s.2.fileOffset) = min btr (content.length - s.2.fileOffset) := by
    rw [h.size_eq, readCount_eq hoffset (Nat.lt_trans hlen (by decide)) hsum]
  rw [readerStep, CallMeets]
  generalize hcount : min btr (content.length - s.2.fileOffset) = n at hn hplace ⊢
  have hend : s.2.fileOffset + n ≤ content.length := by omega
  have hsum' : s.2.fileOffset + n < 2 ^ 32 := by omega
  by_cases hfit : s.2.fileOffset % diskSectorSize + n ≤ diskSectorSize
  · rw [ampmFRead_within hok hn hfit hsum']
    refine ⟨⟨h.mem_eq, h.start_eq, h.current_mem, h.named, h.size_eq, hend, h.permission_le⟩,
      rfl, rfl, ?_, rfl⟩
    rcases hplace with rfl | ⟨hcurrent, -⟩
    · rfl
    · rw [hcurrent]
      exact hfile.read_eq hend hfit h.mem_eq
  · have hover := Nat.lt_of_not_le hfit
    have hzero : n ≠ 0 := fun hzero => hfit (hzero ▸ Nat.le_of_lt (Nat.mod_lt _ (by decide)))
    obtain ⟨hcurrent, hspan⟩ := hplace.resolve_left hzero
    obtain ⟨hfirst, hbound⟩ := hspan.resolve_left hfit
    have hsecond : 1 < chain.length := by
      rw [hfile.length]
      refine Nat.succ_lt_succ (Nat.div_pos ?_ (by decide))
      rw [Nat.mod_eq_of_lt hfirst] at hover
      omega
    obtain ⟨hvalid, hnext⟩ := hfile.linked 0 hsecond
    rw [hfile.head, ← h.mem_eq, ← h.start_eq] at hvalid hnext
    rw [ampmFRead_across hok hn hover hsum' rfl hvalid]
    rw [Nat.mod_eq_of_lt hfirst] at hover
    rw [Nat.div_eq_of_lt hfirst, hfile.head] at hcurrent
    have hrest : (s.2.fileOffset + n) % diskSectorSize = s.2.fileOffset + n - diskSectorSize := by
      rw [Nat.mod_eq_sub_mod (Nat.le_of_lt hover), Nat.mod_eq_of_lt (by omega)]
    simp only [hnext, hcurrent, Nat.mod_eq_of_lt hfirst, hrest]
    exact ⟨⟨h.mem_eq, h.start_eq, getD_mem hsecond, h.named, h.size_eq, hend, h.permission_le⟩,
      trivial, trivial, hfile.read_across hend hfirst hover hbound h.mem_eq h.mem_eq, trivial⟩

/-- The handle that `ampm_f_open` returns. -/
lemma Reading.opened (hfile : ReadableFile mem start chain content) {ff : Ff} {fil : AmpmFil}
    {fileName : List UInt8} {mode : UInt8} (hmem : ff.flash.mem = mem)
    (hname : ∀ i ≤ diskSectorMax, HoldsFile mem fileName i →
      (headerAt mem i).startSector = start)
    (hok : (ampmFOpen ff fil fileName mode).ret = .frOk)
    (hold : (ampmFOpen ff fil fileName mode).created = false) :
    Reading mem start chain content
      ((ampmFOpen ff fil fileName mode).ff, (ampmFOpen ff fil fileName mode).fil) := by
  subst hmem
  have hrecord := (formatCheck_iff _).mp hfile.valid
  rcases ampmFOpen_spec ff fil fileName mode with
    ⟨pre, i, post, horder, -, hi, heq⟩ | ⟨-, fil', heq⟩
  · have hle : i ≤ diskSectorMax := by
      refine ((mem_scanOrder (Nat.mod_lt (ff.rand ff.drawn) (by decide))).mp ?_).1
      rw [horder]
      exact List.mem_append_right _ List.mem_cons_self
    rcases hi with ⟨hholds, -⟩ | ⟨hfree, -⟩
    · rw [heq, openedAt, logged_mem, show ff.draw.2.flash.mem = ff.flash.mem from rfl,
        hname i hle hholds, if_pos hholds.1]
      refine ⟨rfl, hfile.start_eq, ?_, hrecord.named, hfile.size, Nat.zero_le _, ?_⟩
      · show (filAt ff.flash.mem start (2 * sizeofAmpmFil)).currentSector ∈ chain
        rw [hfile.current_eq]
        exact hfile.start_mem
      · show (if hasMode mode 0x02 = true then 2 else 1) ≤ 2
        split_ifs <;> decide
    · rw [heq, openedAt, logged_mem, show ff.draw.2.flash.mem = ff.flash.mem from rfl,
        if_neg (Bool.eq_false_iff.mp hfree)] at hold
      exact absurd hold.symm Bool.false_ne_true
  · rw [heq] at hok
    exact absurd hok (show ¬ AmpmFResult.frErr = .frOk by decide)

end Reading

/-! ## Runs -/

/-- **Reads at which the handle is about the right sector are right.** -/
theorem reader_correct {ff : Ff} {fil : AmpmFil} {fileName : List UInt8} {mode : UInt8}
    {start : ℕ} {chain : List ℕ} {content : List UInt8} {o : AmpmFOpened}
    (ho : ampmFOpen ff fil fileName mode = o)
    (hfile : ReadableFile ff.flash.mem start chain content)
    (hname : ∀ i ≤ diskSectorMax, HoldsFile ff.flash.mem fileName i →
      (headerAt ff.flash.mem i).startSector = start)
    (hok : o.ret = .frOk) (hold : o.created = false) (calls : List ReadCall)
    (hcalls : StepsMeet readerStep (ReadsCurrent chain content) (o.ff, o.fil) calls) :
    StepsMeet readerStep (CallMeets content) (o.ff, o.fil) calls := by
  subst ho
  have hopened := Reading.opened hfile rfl hname hok hold
  have hstep : ∀ s call, Reading ff.flash.mem start chain content s →
      ReadsCurrent chain content s call →
      Reading ff.flash.mem start chain content (readerStep s call) ∧ CallMeets content s call := by
    intro s call hs hcall
    cases call with
    | read btr => exact hs.read hfile hcall
    | lseek seek rfil => exact hs.lseek hfile hcall rfil
  exact stepsMeet_of_invariant (fun s call hs hcall => (hstep s call hs hcall).1)
    (fun s call hs hcall => (hstep s call hs hcall).2) hopened hcalls

/-! ### A file of two sectors -/

/-- The file `A` of 3840 bytes 0 and one byte 0xFF, as it is written into the sectors 0 and 1. -/
def twoSectorMem : Memory :=
  let fil := newFil (AmpmFil.ofBytes fun _ => 0) [0x41] 0
  let link := { fil with fileSize := 3840, fileOffset := 3840 }.linkTo 1
  let header := link.moveTo 1
  let close := { header with fileSize := 3841, fileOffset := 3841 }.closing 1
  program (ffAddr 0 (2 * sizeofAmpmFil)) close.bytes
    (program (ffAddr 1 0) header.bytes
      (program (ffAddr 0 sizeofAmpmFil) link.bytes
        (program (ffAddr 0 0) fil.bytes fun x =>
          if 0x92100 ≤ x ∧ x < 0x93000 then 0 else 0xFF)))

/-- Its bytes. -/
def twoSectorContent : List UInt8 := List.replicate 3840 0 ++ [0xFF]

/-- The state in which `rand()` returns 1. -/
def twoSectorFf : Ff := ⟨⟨twoSectorMem, fun _ => none, 0, []⟩, fun _ => 0, fun _ => 1, 0, []⟩

/-- Behind the records. -/
lemma twoSectorMem_data {x : ℕ} (hlow : 0x92100 ≤ x) (hout : x < 0x93000 ∨ 0x93044 ≤ x) :
    twoSectorMem x = if x < 0x93000 then 0 else 0xFF := by
  have haddr (k : ℕ) : ffAddr 0 k = (0x92000 + k) % 2 ^ 32 := by
    rw [ffAddr, Nat.zero_mul, Nat.add_zero]
  have hnext : ffAddr 1 0 = 0x93000 := rfl
  rw [twoSectorMem, program_of_le]
  · rcases hout with hfirst | hsecond
    · rw [program_of_lt, program_of_le, program_of_le, if_pos ⟨hlow, hfirst⟩, if_pos hfirst]
      · show ffAddr 0 0 + 68 ≤ x
        rw [haddr]
        omega
      · show ffAddr 0 68 + 68 ≤ x
        rw [haddr]
        omega
      · rw [hnext]
        exact hfirst
    · have hlarge : ¬ x < 0x93000 := by omega
      rw [program_of_le, program_of_le, program_of_le, if_neg fun hin => hlarge hin.2, if_neg hlarge]
      · show ffAddr 0 0 + 68 ≤ x
        rw [haddr]
        omega
      · show ffAddr 0 68 + 68 ≤ x
        rw [haddr]
        omega
      · show ffAddr 1 0 + 68 ≤ x
        rw [hnext]
        omega
  · show ffAddr 0 136 + 68 ≤ x
    rw [haddr]
    omega

lemma twoSectorMem_file : ReadableFile twoSectorMem 0 [0, 1] twoSectorContent := by
  have hlen : twoSectorContent.length = 3841 := by
    rw [twoSectorContent, List.length_append, List.length_replicate]
    rfl
  have hindex : ∀ s ∈ [0, 1], s < diskSectorMax := by decide
  refine ⟨⟨rfl, ?_, hindex, ?_, ?_, ?_⟩, ?_, ?_, ?_⟩
  · rw [hlen]
    rfl
  · intro i hi
    obtain rfl : i = 0 := Nat.lt_one_iff.mp (Nat.lt_of_succ_lt_succ hi)
    decide +kernel
  · intro k hk
    rcases Nat.lt_or_ge k 3840 with hfirst | hlast
    · have hcell : cellOf [0, 1] k = 0x92100 + k := by
        rw [cellOf, diskSectorSize, Nat.div_eq_of_lt hfirst, Nat.mod_eq_of_lt hfirst]
        exact (Nat.add_assoc _ _ _).symm
      have hsmall : 0x92100 + k < 0x93000 := by omega
      rw [hcell, twoSectorMem_data (Nat.le_add_right _ _) (Or.inl hsmall), if_pos hsmall,
        twoSectorContent, List.getD_append _ _ _ _ (by rwa [List.length_replicate]),
        List.getD_replicate _ hfirst]
    · obtain rfl : k = 3840 := by omega
      decide +kernel
  · rw [hlen]
    decide +kernel
  · decide +kernel
  · decide +kernel
  · decide +kernel

lemma twoSectorMem_name : ∀ i ≤ diskSectorMax, HoldsFile twoSectorMem [0x41] i →
    (headerAt twoSectorMem i).startSector = 0 := by
  intro i hi hholds
  have hmax : diskSectorMax = 110 := rfl
  rcases (by omega : i = 0 ∨ i = 1 ∨ 2 ≤ i) with rfl | rfl | hge
  · decide +kernel
  · decide +kernel
  · have haddr : devAddr (ffAddr i 0) = 0x92000 + i * 0x1000 := by
      rw [devAddr, ffAddr]
      omega
    have hinvalid : sectorValid twoSectorMem i = false := by
      refine sectorValid_of_erased fun k _ => ?_
      rw [haddr, twoSectorMem_data (by omega) (by omega), if_neg (by omega)]
    exact absurd (hinvalid.symm.trans hholds.1) Bool.false_ne_true

/-- What `ampm_f_open` returns there. -/
def twoSectorOpened : AmpmFOpened :=
  ampmFOpen twoSectorFf (AmpmFil.ofBytes fun _ => 0) [0x41] 0x01

/-- All of the first sector, and the byte behind it after a call of `ampm_f_lseek`. -/
theorem reader_correct_seeking :
    StepsMeet readerStep (CallMeets twoSectorContent) (twoSectorOpened.ff, twoSectorOpened.fil)
      [.read 3840, .lseek 3840 (AmpmFil.ofBytes fun _ => 0), .read 1] := by
  have hopened : ampmFOpen twoSectorFf (AmpmFil.ofBytes fun _ => 0) [0x41] 0x01 =
      twoSectorOpened := rfl
  have hret : twoSectorOpened.ret = .frOk := by decide +kernel
  have hold : twoSectorOpened.created = false := by decide +kernel
  have hcalls : StepsMeet readerStep (ReadsCurrent [0, 1] twoSectorContent)
      (twoSectorOpened.ff, twoSectorOpened.fil)
      [.read 3840, .lseek 3840 (AmpmFil.ofBytes fun _ => 0), .read 1] := by
    decide +kernel
  exact reader_correct hopened twoSectorMem_file twoSectorMem_name hret hold _ hcalls

/-- Two reads: all of the first sector, and the byte behind it, which is not delivered. -/
theorem reader_incorrect :
    ¬ ∀ (ff : Ff) (fil : AmpmFil) (fileName : List UInt8) (start : ℕ) (chain : List ℕ)
      (content : List UInt8) (calls : List ReadCall) (o : AmpmFOpened),
      ampmFOpen ff fil fileName 0x01 = o → ReadableFile ff.flash.mem start chain content →
      (∀ i ≤ diskSectorMax, HoldsFile ff.flash.mem fileName i →
        (headerAt ff.flash.mem i).startSector = start) →
      o.ret = .frOk → o.created = false → (∀ call ∈ calls, call.InRange content.length) →
      StepsMeet readerStep (CallMeets content) (o.ff, o.fil) calls := by
  intro h
  have hmeets := h twoSectorFf (AmpmFil.ofBytes fun _ => 0) [0x41] 0 [0, 1] twoSectorContent
    [.read 3840, .read 1] _ rfl twoSectorMem_file twoSectorMem_name (by decide +kernel)
    (by decide +kernel) (by simp [ReadCall.InRange])
  obtain ⟨-, ⟨-, -, hbuff, -⟩, -⟩ := hmeets
  exact absurd hbuff (by decide +kernel)

end Ampm
