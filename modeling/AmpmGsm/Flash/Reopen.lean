import AmpmGsm.Flash.Resume

/-!
# Opening a file to append

`ampm_ff/ampm_ff_port.c`: a file that was closed is opened with the mode "a", written, and closed.

* `ampmFopenWin32`, `ampmFwriteWin32`, `ampmFcloseWin32` — the functions.
* `appendWin32` — a call of each.
* `ampmFopenWin32_append` — the handle at the end of the file.
* `AppendPreserves` — the bytes are behind those of the file, or an error is reported and the file is
  as it was.
* `appendWin32_preserves_iff` — when that is so.
-/

namespace Ampm

open NorFlash Directories

/-! ## The functions -/

/-- `ampm_fopen_win32`, for a `mode` that begins with this character.  `fil` is what `malloc` finds,
`rfil` and `res` are what the stack holds. -/
def ampmFopenWin32 (ff : Ff) (fil rfil : AmpmFil) (res : AmpmFResult) (fileName : List UInt8)
    (mode : Char) : Option AmpmFil × Ff :=
  let r : AmpmFResult × AmpmFil × Ff :=
    if mode = 'r' then
      let o := ampmFOpen ff fil fileName 0x01
      (o.ret, o.fil, o.ff)
    else if mode = 'w' then
      let o := ampmFOpen ff fil fileName 0x08
      (o.ret, o.fil, o.ff)
    else if mode = 'a' then
      let o := ampmFOpen ff fil fileName (0x10 ||| 0x01 ||| 0x02)
      if o.ret = .frOk then
        let s := ampmFLseek o.ff o.fil o.fil.fileSize rfil
        (o.ret, s.2.1, s.2.2)
      else (o.ret, o.fil, o.ff)
    else (res, fil, ff)
  (if r.1 = .frOk then some r.2.1 else none, r.2.2)

/-- `ampm_fwrite_win32` of all bytes of `ptr`.  `none` is `NULL`. -/
def ampmFwriteWin32 (fuel : ℕ) (ff : Ff) (fil : Option AmpmFil) (ptr : List UInt8) :
    Option AmpmFResult × Option AmpmFil × Ff :=
  match fil with
  | none => (some .frErr, none, ff)
  | some fil =>
      let r := ampmFWrite fuel ff fil ptr
      (r.1, some r.2.1, r.2.2)

/-- `ampm_fclose_win32`. -/
def ampmFcloseWin32 (ff : Ff) (fil : Option AmpmFil) : AmpmFResult × Ff :=
  match fil with
  | none => (.frErr, ff)
  | some fil =>
      let r := ampmFClose ff fil
      (r.1, r.2.2)

/-- The three calls, and whether all of them succeed.  There is no result while the loop of
`ampm_f_write` goes on. -/
def appendWin32 (fuel : ℕ) (ff : Ff) (fil rfil : AmpmFil) (res : AmpmFResult)
    (fileName ptr : List UInt8) : Option (Bool × Ff) :=
  let o := ampmFopenWin32 ff fil rfil res fileName 'a'
  let w := ampmFwriteWin32 fuel o.2 o.1 ptr
  w.1.map fun r =>
    let c := ampmFcloseWin32 w.2.2 w.2.1
    (o.1.isSome && r = .frOk && c.1 = .frOk, c.2)

/-! ## Opening -/

/-- No sector that the search looks at leads to the file. -/
def LeftOut (ff : Ff) (fileName : List UInt8) : Prop :=
  ∀ i ≤ diskSectorMax, HoldsFile ff.flash.mem fileName i → i = ff.rand ff.drawn % diskSectorMax

/-- The handle of the file at its end, if it has `n` bytes: two of its fields are of the link of the
sector before, or of what the stack holds. -/
def reopenedFil (mem : Memory) (start : ℕ) (chain : List ℕ) (rfil : AmpmFil) (n : ℕ) : AmpmFil :=
  let last := if n / diskSectorSize = 0 then rfil
    else filAt mem (chain.getD (n / diskSectorSize - 1) 0) sizeofAmpmFil
  (filAt mem start (2 * sizeofAmpmFil)).reopened (chain.getD (n / diskSectorSize) 0)
    last.nextSector last.previousSector

section Opening

variable {ff : Ff} {fileName content : List UInt8} {start : ℕ} {chain : List ℕ}

/-- What `ampm_f_open` returns. -/
def openedFil (mem : Memory) (start : ℕ) : AmpmFil :=
  { filAt mem start (2 * sizeofAmpmFil) with permission := 2, fileOffset := 0 }

/-- The file is found in all sectors but one. -/
lemma ampmFOpen_append (honly : OnlyFile ff.flash.mem fileName start) (fil : AmpmFil) :
    (LeftOut ff fileName ∧ ∃ fil' as, ampmFOpen ff fil fileName (0x10 ||| 0x01 ||| 0x02) =
      ⟨.frErr, false, fil', ff.draw.2.logged as⟩) ∨
    (¬ LeftOut ff fileName ∧ ∃ as, ampmFOpen ff fil fileName (0x10 ||| 0x01 ||| 0x02) =
      ⟨.frOk, false, openedFil ff.flash.mem start, ff.draw.2.logged as⟩) := by
  have hstops {i : ℕ} : OpensAt ff.flash.mem fileName (0x10 ||| 0x01 ||| 0x02) i ↔
      HoldsFile ff.flash.mem fileName i := opensAt_iff (by decide) (by decide)
  have hlooks (i : ℕ) := mem_scanOrder (i := i) (rand_lt ff)
  rcases ampmFOpen_spec ff fil fileName (0x10 ||| 0x01 ||| 0x02) with
    ⟨pre, i, post, horder, -, hi, heq⟩ | ⟨hnone, fil', heq⟩
  · have hholds := hstops.mp hi
    have hin : i ∈ scanOrder (ff.rand ff.drawn % diskSectorMax) := by
      rw [horder]
      exact List.mem_append_right _ List.mem_cons_self
    obtain ⟨hle, hne⟩ := (hlooks i).mp hin
    have hmem (as : List FlashAccess) : (ff.draw.2.logged as).flash.mem = ff.flash.mem := rfl
    rw [openedAt, hmem, if_pos hholds.1, honly.leads i hle hholds, logged_logged] at heq
    exact Or.inr ⟨fun hleft => hne (hleft i hle hholds), _, heq⟩
  · refine Or.inl ⟨fun i hi hholds => ?_, fil', _, heq⟩
    by_contra hne
    exact hnone i ((hlooks i).mpr ⟨hi, hne⟩) (hstops.mpr hholds)

/-- `ampm_f_lseek` to the end of the file. -/
lemma StandingFile.lseek_end (hfile : StandingFile ff.flash.mem fileName start chain content)
    (rfil : AmpmFil) :
    ∃ as, ampmFLseek ff (openedFil ff.flash.mem start) (openedFil ff.flash.mem start).fileSize
      rfil = (.frOk, reopenedFil ff.flash.mem start chain rfil content.length, ff.logged as) := by
  have hsize : (openedFil ff.flash.mem start).fileSize = content.length := hfile.size
  have hstart : (openedFil ff.flash.mem start).startSector = start := hfile.start_eq
  have hindex := hfile.index_lt (Nat.le_refl content.length)
  obtain ⟨as, hloop⟩ := ampmFLseekLoop_eq hfile.linked (content.length / diskSectorSize) 0 rfil ff
    rfl ((Nat.zero_add _).symm ▸ hindex)
  rw [hfile.head, Nat.zero_add, ← hstart] at hloop
  have hrecord : (filAt ff.flash.mem start (2 * sizeofAmpmFil)).fileSize = content.length :=
    hfile.size
  refine ⟨as, ?_⟩
  rw [ampmFLseek, hsize, hloop, reopenedFil, AmpmFil.reopened, hrecord]
  rfl

/-- The handle stands at the end of the file, if that is found. -/
theorem ampmFopenWin32_append (hfile : StandingFile ff.flash.mem fileName start chain content)
    (honly : OnlyFile ff.flash.mem fileName start) (fil rfil : AmpmFil) (res : AmpmFResult) :
    (LeftOut ff fileName ∧ ∃ as, ampmFopenWin32 ff fil rfil res fileName 'a' =
      (none, ff.draw.2.logged as)) ∨
    (¬ LeftOut ff fileName ∧ ∃ as, ampmFopenWin32 ff fil rfil res fileName 'a' =
      (some (reopenedFil ff.flash.mem start chain rfil content.length), ff.draw.2.logged as)) := by
  rcases ampmFOpen_append honly fil with ⟨hleft, fil', as, heq⟩ | ⟨hfound, as, heq⟩
  · refine Or.inl ⟨hleft, as, ?_⟩
    simp only [ampmFopenWin32, heq]
    rfl
  · have hfile' : StandingFile (ff.draw.2.logged as).flash.mem fileName start chain content := hfile
    obtain ⟨as', hseek⟩ := hfile'.lseek_end rfil
    refine Or.inr ⟨hfound, as ++ as', ?_⟩
    have hmem : (ff.draw.2.logged as).flash.mem = ff.flash.mem := rfl
    rw [logged_logged, hmem] at hseek
    have hr : ('a' : Char) ≠ 'r' := by decide
    have hw : ('a' : Char) ≠ 'w' := by decide
    simp only [ampmFopenWin32, heq, hseek, if_neg hr, if_neg hw, if_true]

end Opening

/-! ## The handle -/

/-- The bytes with those behind the full blocks as the buffer has them. -/
def bufferedBytes (buf : ℕ → UInt8) (bs : List UInt8) : List UInt8 :=
  bs.take (bs.length / 256 * 256) ++ (List.range (bs.length % 256)).map buf

section Buffered

variable {buf : ℕ → UInt8} {bs : List UInt8} {k : ℕ}

lemma length_fullBlocks (bs : List UInt8) :
    (bs.take (bs.length / 256 * 256)).length = bs.length / 256 * 256 := by
  rw [List.length_take]
  omega

lemma length_bufferedBytes (buf : ℕ → UInt8) (bs : List UInt8) :
    (bufferedBytes buf bs).length = bs.length := by
  rw [bufferedBytes, List.length_append, length_fullBlocks, List.length_map, List.length_range]
  omega

lemma getD_bufferedBytes_full (hk : k < bs.length / 256 * 256) :
    (bufferedBytes buf bs).getD k 0 = bs.getD k 0 := by
  rw [bufferedBytes, List.getD_append _ _ _ _ (by rwa [length_fullBlocks]), List.getD_eq_getElem?_getD,
    List.getElem?_take_of_lt hk, ← List.getD_eq_getElem?_getD]

lemma getD_bufferedBytes_rest (hk : k < bs.length % 256) :
    (bufferedBytes buf bs).getD (bs.length / 256 * 256 + k) 0 = buf k := by
  rw [bufferedBytes, List.getD_append_right _ _ _ _ (by rw [length_fullBlocks]; omega),
    length_fullBlocks, Nat.add_sub_cancel_left, List.getD_eq_getElem?_getD, List.getElem?_map,
    List.getElem?_range hk]
  rfl

lemma pending_bufferedBytes (buf : ℕ → UInt8) (bs : List UInt8) :
    Pending buf (bufferedBytes buf bs) := by
  intro j hj
  rw [length_bufferedBytes] at hj ⊢
  exact (getD_bufferedBytes_rest hj).symm

/-- They are those of the file if the buffer has its last ones. -/
lemma bufferedBytes_eq (h : Pending buf bs) : bufferedBytes buf bs = bs := by
  refine List.ext_getElem (length_bufferedBytes buf bs) fun k hk hk' => ?_
  rw [← List.getD_eq_getElem _ 0, ← List.getD_eq_getElem _ 0]
  rcases Nat.lt_or_ge k (bs.length / 256 * 256) with hfull | hrest
  · exact getD_bufferedBytes_full hfull
  · obtain ⟨j, rfl⟩ := Nat.exists_eq_add_of_le hrest
    have hj : j < bs.length % 256 := by omega
    rw [getD_bufferedBytes_rest hj, h j hj]

end Buffered

section Handle

variable {ff : Ff} {fil rfil : AmpmFil} {fileName content : List UInt8} {mem : Memory} {start : ℕ}
  {chain : List ℕ}

/-- Only the stack can hold a sector that does not exist. -/
lemma StandingFile.previous_lt_iff (hfile : StandingFile mem fileName start chain content)
    (rfil : AmpmFil) :
    (reopenedFil mem start chain rfil content.length).previousSector < diskSectorMax ↔
      ¬ (content.length < diskSectorSize ∧ diskSectorMax ≤ rfil.previousSector) := by
  have hprevious : (reopenedFil mem start chain rfil content.length).previousSector =
      (if content.length / diskSectorSize = 0 then rfil
        else filAt mem (chain.getD (content.length / diskSectorSize - 1) 0)
          sizeofAmpmFil).previousSector := rfl
  have hfirst : content.length / diskSectorSize = 0 ↔ content.length < diskSectorSize :=
    Nat.div_eq_zero_iff_lt (by decide)
  rw [hprevious]
  split_ifs with hzero
  · rw [and_iff_right (hfirst.mp hzero), Nat.not_le]
  · have hindex : content.length / diskSectorSize - 1 + 1 < chain.length := by
      rw [Nat.sub_add_cancel (Nat.pos_of_ne_zero hzero)]
      exact hfile.index_lt (Nat.le_refl content.length)
    have hlink := (hfile.linked _ hindex).1
    refine iff_of_true ((formatCheck_iff _).mp hlink).previous_lt fun hstale => ?_
    exact hzero (hfirst.mpr hstale.1)

/-- The handle at the end of the file. -/
lemma StandingFile.resuming (hfile : StandingFile ff.flash.mem fileName start chain content)
    (hf : ff.flash.Faultless) (hbehind : headersOf ff.flash.mem diskSectorMax = none)
    (hprevious : (reopenedFil ff.flash.mem start chain rfil content.length).previousSector <
      diskSectorMax) :
    Resuming ff.flash.mem fileName start chain (bufferedBytes ff.fileBuf content) [] ff
      (reopenedFil ff.flash.mem start chain rfil content.length) := by
  have hlen := length_bufferedBytes ff.fileBuf content
  have hvalid := (formatCheck_iff _).mp hfile.valid
  have hsize : (filAt ff.flash.mem start (2 * sizeofAmpmFil)).fileSize = content.length := hfile.size
  rw [← hlen] at hsize
  constructor
  · rw [List.append_nil]
    refine ⟨⟨hfile.head.trans hfile.start_eq.symm, hsize, hsize, hprevious, hvalid.named,
      hvalid.nameLength_lt, hvalid.status_eq, rfl⟩, hfile.nodup, hfile.owned, hfile.linked, ?_, ?_,
      fun k hk => ?_, pending_bufferedBytes _ _⟩
    · rw [hlen]
      exact hfile.length
    · rw [hlen]
      rfl
    · rw [hlen] at hk
      rw [getD_bufferedBytes_full hk]
      exact hfile.data k (Nat.lt_of_lt_of_le hk (Nat.div_mul_le_self _ _))
  · exact ⟨hf, hbehind, AppendStep.refl _ _ _ _, hfile.start_eq, rfl, hvalid.named, rfl⟩

/-- A handle of the file is accepted if its sectors are in the partition. -/
lemma AppendHandle.handleOk_iff {n : ℕ} (h : AppendHandle mem fileName start chain n ff fil)
    (hstart : start < diskSectorMax) (hsize : fil.fileSize ≤ 100000) :
    handleOk fil = true ↔
      fil.previousSector < diskSectorMax ∧ fil.currentSector < diskSectorMax := by
  have hoffset := h.offset_eq
  rw [Ampm.handleOk_iff]
  refine ⟨fun hpasses => ⟨hpasses.previous_lt, hpasses.current_lt⟩, fun hsectors => ?_⟩
  refine ⟨?_, hsectors.2, hsectors.1, h.named, hsize, by omega, by omega,
    Nat.le_of_eq h.permission_eq⟩
  rw [h.start_eq]
  exact hstart

/-- Closing a file that has grown. -/
lemma AppendHandle.destroyed (h : AppendHandle mem fileName start chain content.length ff fil)
    (hfile : StandingFile mem fileName start chain content) (honly : OnlyFile mem fileName start)
    (hhandle : handleOk fil = true) (hgrown : content.length < fil.fileSize) :
    (ampmFClose ff fil).1 = .frErr ∧
      ∀ content', ¬ HasFile (ampmFClose ff fil).2.2.flash.mem fileName content' := by
  have hsize : (filAt ff.flash.mem fil.startSector (2 * sizeofAmpmFil)).fileSize =
      content.length := by
    rw [h.start_eq, h.step.record_eq hfile.lt hfile.start_mem]
    exact hfile.size
  refine ampmFClose_destroys h.faultless hhandle h.permission_eq h.offset_eq
    (hsize.trans_lt hgrown) fun i hi => ?_
  rw [h.start_eq]
  exact honly.only i (h.step.begins i hi)

/-- A handle that is not accepted. -/
lemma ampmFClose_rejected (h : ¬ handleOk fil = true) : ampmFClose ff fil = (.frErr, fil, ff) := by
  rw [ampmFClose, if_neg h]

end Handle

/-! ## Writing and closing -/

/-- The bytes are behind those of the file if both calls succeed, and the file is as it was if one of
them does not. -/
def WritePreserves (ff : Ff) (fil : AmpmFil) (fileName content ptr : List UInt8) : Prop :=
  ∃ fuel r, (ampmFWrite fuel ff fil ptr).1 = some r ∧
    let c := ampmFClose (ampmFWrite fuel ff fil ptr).2.2 (ampmFWrite fuel ff fil ptr).2.1
    HasFile c.2.2.flash.mem fileName (if r = .frOk ∧ c.1 = .frOk then content ++ ptr else content)

/-- No bit of the bytes behind the full blocks is cleared in the buffer. -/
def TailKept (buf : ℕ → UInt8) (bs : List UInt8) : Prop :=
  ∀ j < bs.length % 256, bs.getD (bs.length / 256 * 256 + j) 0 &&& buf j =
    bs.getD (bs.length / 256 * 256 + j) 0

/-- Of the last two searches for a sector one finds none in the partition. -/
def RunsOut (ptr : List UInt8) (fil : AmpmFil) (ff : Ff) : Prop :=
  ¬ ((lastFinds ptr fil ff (True, True)).1 ∧ (lastFinds ptr fil ff (True, True)).2)

section Write

variable {ff ff' : Ff} {fil : AmpmFil} {fileName content ptr : List UInt8} {mem : Memory}
  {start : ℕ} {chain : List ℕ}

/-- A handle that is not accepted. -/
lemma writePreserves_rejected (h : ¬ handleOk fil = true)
    (hfile : HasFile ff.flash.mem fileName content) (ptr : List UInt8) :
    WritePreserves ff fil fileName content ptr := by
  have hw : ampmFWrite 0 ff fil ptr = (some .frErr, fil, ff) := by
    rw [ampmFWrite, Bool.eq_false_iff.mpr h]
    rfl
  refine ⟨0, .frErr, congrArg Prod.fst hw, ?_⟩
  rw [hw, ampmFClose_rejected h]
  exact hfile

/-- What is left after a write that has failed. -/
lemma Spoiled.lost (h : Spoiled mem fileName start chain content.length ff fil)
    (hfile : StandingFile mem fileName start chain content)
    (honly : OnlyFile mem fileName start) (content' : List UInt8) :
    ¬ HasFile (ampmFClose ff fil).2.2.flash.mem fileName content' := by
  have hhandle := (h.handleOk_iff hfile.start_lt (Nat.le_of_lt h.size_lt)).mpr
    ⟨h.previous_lt, h.current_lt⟩
  exact (h.destroyed hfile honly hhandle h.grown).2 content'

/-- What is left after bytes that were written. -/
lemma BytesResumed.preserves_iff {buf : ℕ → UInt8} {takes : Prop} {p : Prop × Prop}
    {w : AmpmFResult × AmpmFil × Ff}
    (h : BytesResumed mem fileName start chain (bufferedBytes buf content) ptr takes p w)
    (hfile : StandingFile mem fileName start chain content)
    (honly : OnlyFile mem fileName start) (hne : ptr ≠ [])
    (hlt : content.length + ptr.length < 100000) :
    HasFile (ampmFClose w.2.2 w.2.1).2.2.flash.mem fileName
        (if w.1 = .frOk ∧ (ampmFClose w.2.2 w.2.1).1 = .frOk then content ++ ptr else content) ↔
      takes ∧ ¬ (p.1 ∧ p.2) ∧ Pending buf content := by
  have hlen := length_bufferedBytes buf content
  have hlength : (bufferedBytes buf content ++ ptr).length = content.length + ptr.length := by
    rw [List.length_append, hlen]
  have hpos : 0 < ptr.length := List.length_pos_iff.mpr hne
  cases h with
  | @stays fil' ff' taken p_eq resuming =>
      have hsize : fil'.fileSize = content.length + ptr.length :=
        resuming.opened.size.trans hlength
      have hhandle := (resuming.handle.handleOk_iff hfile.start_lt (by omega)).mpr
        ⟨resuming.opened.previous_lt, resuming.opened.current_lt⟩
      have hlost := ((hlen ▸ resuming.handle).destroyed hfile honly hhandle (by omega)).2
      refine iff_of_false (hlost _) fun hout => hout.2.1 ?_
      rw [p_eq]
      exact ⟨trivial, trivial⟩
  | @strays fil' ff' taken straying size_eq sectors =>
      have hsize : fil'.fileSize = content.length + ptr.length := size_eq.trans hlength
      have hhandle := straying.handleOk_iff hfile.start_lt (by omega)
      rw [sectors.1, sectors.2] at hhandle
      by_cases hin : p.1 ∧ p.2
      · have hlost := ((hlen ▸ straying.toAppendHandle).destroyed hfile honly (hhandle.mpr hin)
          (by omega)).2
        exact iff_of_false (hlost _) fun hout => hout.2.1 hin
      · rw [ampmFClose_rejected (fun hok => hin (hhandle.mp hok)), if_neg (fun hok => by cases hok.2),
          and_iff_right taken, and_iff_right hin, hfile.hasFile_iff (hlen ▸ straying.step) honly]
        have hdata {j : ℕ} (hj : j < content.length % 256) :
            ff'.flash.mem (cellOf chain (content.length / 256 * 256 + j)) = buf j := by
          rw [straying.data _ (by rw [hlen]; omega), getD_bufferedBytes_rest hj]
        refine ⟨fun hall j hj => ?_, fun hpending k hlow hk => ?_⟩
        · rw [← hdata hj]
          exact hall _ (Nat.le_add_right _ _) (by omega)
        · obtain ⟨j, rfl⟩ := Nat.exists_eq_add_of_le hlow
          have hj : j < content.length % 256 := by omega
          rw [hdata hj]
          exact hpending j hj
  | @spoils fil' ff' refused spoiled =>
      exact iff_of_false ((hlen ▸ spoiled).lost hfile honly _) fun hout => refused hout.1

/-- **Writing at the end of the file**, and closing it. -/
theorem Resuming.writePreserves_iff
    (h : Resuming ff.flash.mem fileName start chain (bufferedBytes ff.fileBuf content) [] ff fil)
    (hfile : StandingFile ff.flash.mem fileName start chain content)
    (honly : OnlyFile ff.flash.mem fileName start) (hne : ptr ≠ [])
    (hlt : content.length + ptr.length < 100000) :
    WritePreserves ff fil fileName content ptr ↔
      ptr.length < 65536 ∧ Pending ff.fileBuf content ∧
        LastTakes ff fil chain content.length (content ++ ptr) ∧ RunsOut ptr fil ff := by
  have hlen := length_bufferedBytes ff.fileBuf content
  have hshort : (bufferedBytes ff.fileBuf content ++ []).length < 100000 := by
    rw [List.append_nil, hlen]
    omega
  unfold WritePreserves
  simp only [h.opened.ampmFWrite_eq hshort]
  by_cases hcount : ptr.length < 65536
  · rw [and_iff_right hcount]
    have hiff := (h.bytes hfile hlen ptr (by
      rw [List.append_nil, List.length_append, hlen]
      exact hlt)).preserves_iff hfile honly hne hlt
    rw [List.append_nil, hlen] at hiff
    have hcond : LastTakes ff fil chain content.length (bufferedBytes ff.fileBuf content ++ ptr) ∧
        RunsOut ptr fil ff ∧ Pending ff.fileBuf content ↔
          Pending ff.fileBuf content ∧ LastTakes ff fil chain content.length (content ++ ptr) ∧
            RunsOut ptr fil ff := by
      constructor
      · rintro ⟨htakes, hout, hpending⟩
        rw [bufferedBytes_eq hpending] at htakes
        exact ⟨hpending, htakes, hout⟩
      · rintro ⟨hpending, htakes, hout⟩
        rw [bufferedBytes_eq hpending]
        exact ⟨htakes, hout, hpending⟩
    rw [← hcond]
    constructor
    · rintro ⟨fuel, r, hend, hhas⟩
      have heq := ampmFWriteLoop_some hcount fuel 0 fil ff (Nat.zero_le _) hend
      rw [List.drop_zero] at heq
      rw [heq] at hiff
      exact hiff.mp hhas
    · intro hall
      have hloop := ampmFWriteLoop_eq hcount (ptr.length + 1) 0 fil ff (Nat.zero_le _)
        (Nat.lt_succ_self _)
      rw [List.drop_zero] at hloop
      refine ⟨ptr.length + 1, (writeBytes ptr fil ff).1, congrArg Prod.fst hloop, ?_⟩
      rw [hloop]
      exact hiff.mpr hall
  · -- the counter never gets to the number of bytes
    refine iff_of_false ?_ fun hall => hcount hall.1
    rintro ⟨fuel, r, hend, hhas⟩
    cases r with
    | frOk =>
        exact ampmFWriteLoop_long (Nat.not_lt.mp hcount) fuel 0 fil ff (Nat.two_pow_pos 16) hend
    | frErr =>
        have hroom : (bufferedBytes ff.fileBuf content).length + diskSectorSize < 100000 := by
          rw [hlen]
          unfold diskSectorSize
          omega
        have hspoiled := h.loop hfile hlen hroom ptr ptr.length fuel 0 hend
        rw [hlen] at hspoiled
        exact hspoiled.lost hfile honly _ hhas

/-- **Writing nothing**, and closing the file: its last block is programmed once more. -/
theorem Resuming.writePreserves_nil_iff {rfil : AmpmFil}
    (h : Resuming ff.flash.mem fileName start chain (bufferedBytes ff.fileBuf content) [] ff
      (reopenedFil ff.flash.mem start chain rfil content.length))
    (hfile : StandingFile ff.flash.mem fileName start chain content)
    (honly : OnlyFile ff.flash.mem fileName start) :
    WritePreserves ff (reopenedFil ff.flash.mem start chain rfil content.length) fileName content
        [] ↔ TailKept ff.fileBuf content := by
  have hlen := length_bufferedBytes ff.fileBuf content
  have hshort : (bufferedBytes ff.fileBuf content ++ []).length < 100000 := by
    rw [List.append_nil, hlen]
    exact hfile.size_lt
  generalize hfil : reopenedFil ff.flash.mem start chain rfil content.length = fil at h ⊢
  have hclose : (ampmFClose ff fil).1 = .frOk ∧
      AppendStep fileName chain content.length ff.flash.mem (ampmFClose ff fil).2.2.flash.mem ∧
      ∀ j < content.length % 256,
        (ampmFClose ff fil).2.2.flash.mem (cellOf chain (content.length / 256 * 256 + j)) =
          content.getD (content.length / 256 * 256 + j) 0 &&& ff.fileBuf j := by
    subst hfil
    exact ampmFClose_again h.handle.faultless hfile h.opened.previous_lt
  obtain ⟨hok, hstep, hcells⟩ := hclose
  have hclosed : HasFile (ampmFClose ff fil).2.2.flash.mem fileName content ↔
      TailKept ff.fileBuf content := by
    rw [hfile.hasFile_iff hstep honly]
    refine ⟨fun hall j hj => ?_, fun hall k hlow hk => ?_⟩
    · rw [← hcells j hj]
      exact hall _ (Nat.le_add_right _ _) (by omega)
    · obtain ⟨j, rfl⟩ := Nat.exists_eq_add_of_le hlow
      have hj : j < content.length % 256 := by omega
      exact (hcells j hj).trans (hall j hj)
  rw [← hclosed]
  unfold WritePreserves
  simp only [h.opened.ampmFWrite_eq hshort]
  constructor
  · rintro ⟨fuel, r, hend, hhas⟩
    cases fuel with
    | zero => cases hend
    | succ fuel =>
        rwa [List.append_nil, ite_self] at hhas
  · intro hhas
    refine ⟨1, .frOk, rfl, ?_⟩
    rwa [List.append_nil, ite_self]

end Write

/-! ## The main result -/

/-- The bytes are behind those of the file if all calls succeed, and the file is as it was if one of
them does not. -/
def AppendPreserves (ff : Ff) (fil rfil : AmpmFil) (res : AmpmFResult)
    (fileName content ptr : List UInt8) : Prop :=
  ∃ fuel ok ff', appendWin32 fuel ff fil rfil res fileName ptr = some (ok, ff') ∧
    HasFile ff'.flash.mem fileName (if ok then content ++ ptr else content)

/-- The cases in which it is so: the file is not found, the handle is not accepted, there is nothing
to append and the last block is kept, or the handle has left the partition when it is closed. -/
inductive AppendSafe (ff : Ff) (rfil : AmpmFil) (fileName : List UInt8) (start : ℕ)
    (chain : List ℕ) (content ptr : List UInt8) : Prop
  | leftOut (left : LeftOut ff fileName)
  | stale (short : content.length < diskSectorSize) (stale : diskSectorMax ≤ rfil.previousSector)
  | nothing (nil : ptr = []) (kept : TailKept ff.fileBuf content)
  | runsOut (short : ptr.length < 65536) (pending : Pending ff.fileBuf content)
      (takes : LastTakes ff.draw.2 (reopenedFil ff.flash.mem start chain rfil content.length) chain
        content.length (content ++ ptr))
      (out : RunsOut ptr (reopenedFil ff.flash.mem start chain rfil content.length) ff.draw.2)

section Append

variable {ff ff' : Ff} {fil rfil fil' : AmpmFil} {res : AmpmFResult}
  {fileName content ptr : List UInt8} {start : ℕ} {chain : List ℕ}

lemma lastTakes_alike (h : Alike ff ff') (n : ℕ) (bs : List UInt8) :
    LastTakes ff' fil chain n bs ↔ LastTakes ff fil chain n bs := by
  unfold LastTakes LinkTakes
  rw [h.mem, h.find_fst]

lemma runsOut_alike (h : Alike ff ff') : RunsOut ptr fil ff' ↔ RunsOut ptr fil ff := by
  rw [RunsOut, RunsOut, lastFinds_alike ptr fil _ h]

lemma appendPreserves_of_left
    (hopen : ampmFopenWin32 ff fil rfil res fileName 'a' = (none, ff'))
    (hfile : HasFile ff'.flash.mem fileName content) (ptr : List UInt8) :
    AppendPreserves ff fil rfil res fileName content ptr := by
  refine ⟨0, false, ff', ?_, hfile⟩
  simp only [appendWin32, hopen]
  rfl

lemma appendPreserves_found_iff
    (hopen : ampmFopenWin32 ff fil rfil res fileName 'a' = (some fil', ff')) :
    AppendPreserves ff fil rfil res fileName content ptr ↔
      WritePreserves ff' fil' fileName content ptr := by
  unfold AppendPreserves WritePreserves appendWin32
  simp only [hopen, ampmFwriteWin32, ampmFcloseWin32, Option.map_eq_some_iff]
  constructor
  · rintro ⟨fuel, ok, ff'', ⟨r, hend, hresult⟩, hhas⟩
    obtain ⟨rfl, rfl⟩ := Prod.mk.inj hresult
    exact ⟨fuel, r, hend, by simpa using hhas⟩
  · rintro ⟨fuel, r, hend, hhas⟩
    exact ⟨fuel, _, _, ⟨r, hend, rfl⟩, by simpa using hhas⟩

/-- Something is appended, and the handle is accepted. -/
lemma appendPreserves_written_iff (hf : ff.flash.Faultless)
    (hfile : StandingFile ff.flash.mem fileName start chain content)
    (honly : OnlyFile ff.flash.mem fileName start)
    (hbehind : headersOf ff.flash.mem diskSectorMax = none)
    (hlt : content.length + ptr.length < 100000) (hfound : ¬ LeftOut ff fileName)
    (hprevious : (reopenedFil ff.flash.mem start chain rfil content.length).previousSector <
      diskSectorMax) (hne : ptr ≠ []) :
    AppendPreserves ff fil rfil res fileName content ptr ↔
      ptr.length < 65536 ∧ Pending ff.fileBuf content ∧
        LastTakes ff.draw.2 (reopenedFil ff.flash.mem start chain rfil content.length) chain
          content.length (content ++ ptr) ∧
        RunsOut ptr (reopenedFil ff.flash.mem start chain rfil content.length) ff.draw.2 := by
  rcases ampmFopenWin32_append hfile honly fil rfil res with ⟨hleft, -⟩ | ⟨-, as, hopen⟩
  · exact absurd hleft hfound
  · have halike : Alike ff.draw.2 (ff.draw.2.logged as) :=
      alike_logged (show ff.draw.2.flash.Faultless from hf) as
    have hfile' : StandingFile (ff.draw.2.logged as).flash.mem fileName start chain content := hfile
    have hresuming := hfile'.resuming hf hbehind hprevious
    rw [appendPreserves_found_iff hopen, ← lastTakes_alike halike, ← runsOut_alike halike]
    exact hresuming.writePreserves_iff hfile' honly hne hlt

/-- **Appending preserves the file** in these cases and in no others. -/
theorem appendWin32_preserves_iff (hf : ff.flash.Faultless)
    (hfile : StandingFile ff.flash.mem fileName start chain content)
    (honly : OnlyFile ff.flash.mem fileName start)
    (hbehind : headersOf ff.flash.mem diskSectorMax = none)
    (hlt : content.length + ptr.length < 100000) (fil rfil : AmpmFil) (res : AmpmFResult) :
    AppendPreserves ff fil rfil res fileName content ptr ↔
      AppendSafe ff rfil fileName start chain content ptr := by
  rcases ampmFopenWin32_append hfile honly fil rfil res with ⟨hleft, as, hopen⟩ | ⟨hfound, as, hopen⟩
  · exact iff_of_true (appendPreserves_of_left hopen hfile.hasFile ptr) (.leftOut hleft)
  · by_cases hprevious : (reopenedFil ff.flash.mem start chain rfil content.length).previousSector <
        diskSectorMax
    · have hnotStale := (hfile.previous_lt_iff rfil).mp hprevious
      by_cases hne : ptr = []
      · subst hne
        have hfile' : StandingFile (ff.draw.2.logged as).flash.mem fileName start chain content :=
          hfile
        have hresuming := hfile'.resuming hf hbehind hprevious
        rw [appendPreserves_found_iff hopen]
        refine (hresuming.writePreserves_nil_iff hfile' honly).trans
          ⟨fun kept => .nothing rfl kept, fun hsafe => ?_⟩
        cases hsafe with
        | leftOut left => exact absurd left hfound
        | stale short stale => exact absurd ⟨short, stale⟩ hnotStale
        | nothing nil kept => exact kept
        | runsOut short pending takes out => exact absurd ⟨trivial, trivial⟩ out
      · rw [appendPreserves_written_iff hf hfile honly hbehind hlt hfound hprevious hne]
        refine ⟨fun hall => .runsOut hall.1 hall.2.1 hall.2.2.1 hall.2.2.2, fun hsafe => ?_⟩
        cases hsafe with
        | leftOut left => exact absurd left hfound
        | stale short stale => exact absurd ⟨short, stale⟩ hnotStale
        | nothing nil kept => exact absurd nil hne
        | runsOut short pending takes out => exact ⟨short, pending, takes, out⟩
    · -- the handle is not accepted
      have hstale := not_not.mp (mt (hfile.previous_lt_iff rfil).mpr hprevious)
      have hhas : HasFile (ff.draw.2.logged as).flash.mem fileName content := hfile.hasFile
      rw [appendPreserves_found_iff hopen]
      refine iff_of_true (writePreserves_rejected (fun hok => ?_) hhas ptr)
        (.stale hstale.1 hstale.2)
      exact hprevious ((handleOk_iff _).mp hok).previous_lt

end Append

/-! ### A file of three bytes -/

/-- The file `A` with its three bytes is closed. -/
def closedA : Ff := (ampmFClose writtenA.2.2 writtenA.2.1).2.2

lemma writtenA_writing : Writing writtenA.2.2.flash.mem writtenA.2.1 [0] [1, 2, 3] ∧
    Pending writtenA.2.2.fileBuf [1, 2, 3] ∧ writtenA.2.2.flash.Faultless ∧
    ∀ s, s ≠ 0 → SameSector s erasedFf.flash.mem writtenA.2.2.flash.mem := by
  obtain ⟨hopened, hf, hother⟩ := openedA_writing
  have hempty : openedA.ff.found = [] := by decide +kernel
  have hnone : writtenA.2.2.found = [] := by decide +kernel
  have hfound : FoundInRange openedA.ff writtenA.2.2 := by
    intro s hs
    rw [hnone, List.drop_nil] at hs
    exact absurd hs List.not_mem_nil
  obtain ⟨more, hw, hbuf, hstep⟩ := writeAll_spec [[1, 2, 3]] hf hopened
    (fun j hj => absurd hj (Nat.not_lt_zero j)) (by decide) (by decide) writtenA_all hfound
  obtain rfl : more = [] := by
    have hmore := hstep.found
    rw [hnone, hempty] at hmore
    exact hmore.symm
  refine ⟨hw, hbuf, hstep.faultless, fun s hs => (hother s hs).trans (hstep.other s ?_)⟩
  rwa [List.append_nil, List.mem_singleton]

lemma closedA_standing : StandingFile closedA.flash.mem [0x41] 0 [0] [1, 2, 3] ∧
    OnlyFile closedA.flash.mem [0x41] 0 ∧ headersOf closedA.flash.mem diskSectorMax = none ∧
    closedA.flash.Faultless := by
  obtain ⟨hw, hbuf, hf, hother⟩ := writtenA_writing
  have hstart : writtenA.2.1.startSector = 0 := hw.start.symm
  have hok : (ampmFClose writtenA.2.2 writtenA.2.1).1 = .frOk := by decide +kernel
  have hbegins : Begins (headersOf writtenA.2.2.flash.mem) [0x41] writtenA.2.1.startSector := by
    rw [hstart]
    unfold Begins
    decide +kernel
  have hfile := ampmFClose_standing hf hw hbuf hok (by decide) hbegins
  have hheaders := ampmFClose_headers hf hw hok (by decide)
  have hfaultless := (ampmFClose_commanded hf writtenA.2.1).faultless
  unfold closedA
  rw [hstart] at hfile
  have halone : ∀ i, i ≠ 0 →
      headersOf (ampmFClose writtenA.2.2 writtenA.2.1).2.2.flash.mem i = none := by
    intro i hi
    rw [hheaders, (hother i hi).headersOf_eq]
    by_cases hle : i ≤ diskSectorMax
    · exact headersOf_of_erased hle fun _ _ => rfl
    · exact if_neg fun hand => hle hand.1
  exact ⟨hfile, onlyFile_of_alone halone hfile.begins, halone _ (by decide), hfaultless⟩

/-- One byte is to be appended, and the record on the stack has no sector of the partition in front
of the file: the call is refused. -/
theorem appendWin32_preserves_refused : AppendPreserves closedA (AmpmFil.ofBytes fun _ => 0)
    (AmpmFil.ofBytes fun _ => 0xFF) .frErr [0x41] [1, 2, 3] [4] := by
  obtain ⟨hfile, honly, hbehind, hf⟩ := closedA_standing
  exact (appendWin32_preserves_iff hf hfile honly hbehind (by decide) _ _ _).mpr
    (.stale (by decide) (by decide +kernel))

/-- One byte is appended: the record of the file is not taken, and the file is erased. -/
theorem appendWin32_loses : ¬ ∀ (ff : Ff) (fil rfil : AmpmFil) (res : AmpmFResult)
    (fileName content ptr : List UInt8) (start : ℕ) (chain : List ℕ), ff.flash.Faultless →
    StandingFile ff.flash.mem fileName start chain content → OnlyFile ff.flash.mem fileName start →
    headersOf ff.flash.mem diskSectorMax = none → content.length + ptr.length < 100000 →
    AppendPreserves ff fil rfil res fileName content ptr := by
  intro h
  obtain ⟨hfile, honly, hbehind, hf⟩ := closedA_standing
  have hpreserves := h closedA (AmpmFil.ofBytes fun _ => 0) (AmpmFil.ofBytes fun _ => 0) .frErr
    [0x41] [1, 2, 3] [4] 0 [0] hf hfile honly hbehind (by decide)
  have hfound : ¬ LeftOut closedA [0x41] := fun hleft =>
    absurd (hleft 0 (by decide) (by decide +kernel)) (by decide +kernel)
  obtain ⟨-, -, -, hout⟩ := (appendPreserves_written_iff hf hfile honly hbehind (by decide) hfound
    (by decide +kernel) (by decide)).mp hpreserves
  refine hout ?_
  have hpart : (reopenedFil closedA.flash.mem 0 [0] (AmpmFil.ofBytes fun _ => 0)
      [(1 : UInt8), 2, 3].length).grow.fileOffset % diskSectorSize ≠ 0 := by
    decide +kernel
  rw [lastFinds, lastFinds, if_neg hpart]
  exact ⟨trivial, trivial⟩

end Ampm
