import AmpmGsm.Flash.Effects
import AmpmGsm.Flash.Reclose
import AmpmGsm.Flash.Alike

/-!
# Sectors taken for a file that was closed

What `ampm_f_write` does on a handle that was opened again, when the last sector of the file is full.
In the sectors that are taken then the cells are erased, be they in the partition or behind it.

* `TakesSector`, `ampmFWriteSector_switches` — another sector is taken, wherever it is.
* `AppendHandle`, `Straying` — a handle of the file, and one that is in a sector that was taken.
* `Straying.byte`, `Straying.bytes`, `Straying.loop` — nothing fails there.
-/

namespace Ampm

open NorFlash Directories

/-! ## Another sector -/

/-- A free sector is linked to the one of the handle, and gets a header.  It is in the partition if
the search found one there. -/
structure TakesSector (ff : Ff) (fil : AmpmFil) (t : ℕ) (mem' : Memory) (ff' : Ff) : Prop where
  le : t ≤ diskSectorMax
  free : sectorValid ff.flash.mem t = false
  inside_iff : t < diskSectorMax ↔ FindsSector ff
  wroteLink : WroteAt fil.currentSector sizeofAmpmFil (fil.linkTo t).bytes ff.flash.mem mem'
  wroteHeader : WroteAt t 0 ((fil.linkTo t).moveTo t).bytes mem' ff'.flash.mem
  storedHeader : StoredAt t 0 ((fil.linkTo t).moveTo t).bytes ff'.flash.mem
  faultless : ff'.flash.Faultless

section Sector

variable {ff ff' : Ff} {fil : AmpmFil} {mem' : Memory} {t n : ℕ} {fileName : List UInt8}
  {chain : List ℕ}

/-- Behind the partition there is always room. -/
lemma ampmFFindFreeSector_ex (hbehind : headersOf ff.flash.mem diskSectorMax = none) :
    ∃ t ff', ampmFFindFreeSector ff = (some t, ff') ∧ t ≤ diskSectorMax ∧
      sectorValid ff.flash.mem t = false ∧ (t < diskSectorMax ↔ FindsSector ff) := by
  have hfree : sectorValid ff.flash.mem diskSectorMax = false := by
    rw [Bool.eq_false_iff]
    intro hvalid
    obtain ⟨s, n, e, hsome, -⟩ := (sectorValid_iff (Nat.le_refl _)).mp hvalid
    rw [hbehind] at hsome
    cases hsome
  have hmem : diskSectorMax ∈ scanOrder (ff.rand ff.drawn % diskSectorMax) :=
    (mem_scanOrder (rand_lt ff)).mpr ⟨Nat.le_refl _, Nat.ne_of_gt (rand_lt ff)⟩
  rcases hfind : ampmFFindFreeSector ff with ⟨_ | t, ff'⟩
  · rcases ampmFFindFreeSector_spec ff with ⟨_, _, _, -, -, -, heq⟩ | ⟨hall, -⟩
    · rw [heq] at hfind
      cases hfind
    · exact absurd (hfree.symm.trans (hall _ hmem)) Bool.false_ne_true
  · have hfst : (ampmFFindFreeSector ff).1 = some t := congrArg Prod.fst hfind
    obtain ⟨hle, ht⟩ := ampmFFindFreeSector_free hfst
    refine ⟨t, ff', rfl, hle, ht, fun hlt => findsSector_iff.mpr ⟨t, hlt, hfst⟩, fun h => ?_⟩
    exact h.found_lt hfst

/-- Another sector is taken if the cells take the link. -/
lemma ampmFWriteSector_switches (hf : ff.flash.Faultless)
    (hbehind : headersOf ff.flash.mem diskSectorMax = none)
    (hcurrent : fil.currentSector ≤ diskSectorMax)
    (htakes : ∀ t, (ampmFFindFreeSector ff).1 = some t →
      TakesBytes fil.currentSector sizeofAmpmFil (fil.linkTo t).bytes ff.flash.mem) :
    ∃ t mem' ff', TakesSector ff fil t mem' ff' ∧
      ampmFWriteSector ff fil = (.frOk, (fil.linkTo t).moveTo t, ff') := by
  obtain ⟨t, ff₁, hfind, hle, hfree, hinside⟩ := ampmFFindFreeSector_ex hbehind
  obtain ⟨hmem, hfaultless, -⟩ := ampmFFindFreeSector_some hfind
  have hlen (fil : AmpmFil) : fil.bytes.length ≤ 256 := by
    rw [length_bytes]
    decide
  rcases hl : writeFil ff₁ fil.currentSector sizeofAmpmFil (fil.linkTo t) with ⟨r, l⟩
  have hr : r = .frOk := by
    refine (congrArg Prod.fst hl).symm.trans ?_
    refine (ampmFlashWrite_ok_iff (hfaultless hf) hcurrent (hlen _) (by decide) (by decide)
      (by rw [length_bytes]; decide)).mpr ?_
    rw [hmem]
    exact htakes t (congrArg Prod.fst hfind)
  subst hr
  have hwl := writeFil_written hl (hfaultless hf) hcurrent (by decide)
  rcases hh : writeFil l t 0 ((fil.linkTo t).moveTo t) with ⟨r, h⟩
  have hr : r = .frOk := (congrArg Prod.fst hh).symm.trans
    (ampmFlashWrite_start_ok hwl.faultless hle (hlen _))
  subst hr
  have hwh := writeFil_written hh hwl.faultless hle (by decide)
  refine ⟨t, l.flash.mem, h, ⟨hle, hfree, hinside, hmem ▸ hwl.wroteAt, hwh.wroteAt,
    hwh.stored rfl, hwh.faultless⟩, ?_⟩
  simp only [ampmFWriteSector, hfind, hl, hh]

/-- A link that is not taken. -/
lemma ampmFWriteSector_refused (hf : ff.flash.Faultless)
    (hbehind : headersOf ff.flash.mem diskSectorMax = none)
    (hcurrent : fil.currentSector ≤ diskSectorMax)
    (hrefused : ¬ ∀ t, (ampmFFindFreeSector ff).1 = some t →
      TakesBytes fil.currentSector sizeofAmpmFil (fil.linkTo t).bytes ff.flash.mem) :
    ∃ t ff', ampmFWriteSector ff fil = (.frErr, (fil.linkTo t).fail, ff') ∧
      ff'.flash.Faultless ∧
      WroteAt fil.currentSector sizeofAmpmFil (fil.linkTo t).bytes ff.flash.mem ff'.flash.mem := by
  obtain ⟨t, ff₁, hfind, -⟩ := ampmFFindFreeSector_ex hbehind
  obtain ⟨hmem, hfaultless, -⟩ := ampmFFindFreeSector_some hfind
  rcases hl : writeFil ff₁ fil.currentSector sizeofAmpmFil (fil.linkTo t) with ⟨r, l⟩
  have hwl := writeFil_written hl (hfaultless hf) hcurrent (by decide)
  have hr : r = .frErr := by
    cases r with
    | frErr => rfl
    | frOk =>
        refine absurd (fun t' ht' => ?_) hrefused
        obtain rfl : t = t' := Option.some.inj ((congrArg Prod.fst hfind).symm.trans ht')
        rw [← hmem]
        exact (ampmFlashWrite_ok_iff (hfaultless hf) hcurrent (by rw [length_bytes]; decide)
          (by decide) (by decide) (by rw [length_bytes]; decide)).mp (congrArg Prod.fst hl)
  subst hr
  refine ⟨t, l, ?_, hwl.faultless, hmem ▸ hwl.wroteAt⟩
  simp only [ampmFWriteSector, hfind, hl]

namespace TakesSector

variable (h : TakesSector ff fil t mem' ff')

include h

/-- The header of the sector behind the partition does not pass the check. -/
lemma behind (hbehind : headersOf ff.flash.mem diskSectorMax = none) :
    headersOf ff'.flash.mem diskSectorMax = none := by
  have hlink := h.wroteLink.headersOf_eq (Nat.le_refl _) (by decide)
  by_cases ht : t = diskSectorMax
  · subst ht
    by_contra hsome
    obtain ⟨⟨s, n⟩, he⟩ := Option.ne_none_iff_exists'.mp hsome
    obtain ⟨-, hcheck, -, -⟩ := headersOf_eq_some.mp he
    have hlt := ((formatCheck_iff _).mp hcheck).current_lt
    have hword : (filAt ff'.flash.mem diskSectorMax 0).currentSector = diskSectorMax :=
      (h.storedHeader.holdsRecord_of_le h.le (by decide)).wordAt_eq_of_lt (j := 2)
        (by decide) (show diskSectorMax < 2 ^ 32 by decide)
    exact absurd hlt (Nat.not_lt.mpr (Nat.le_of_eq hword.symm))
  · rw [(h.wroteHeader.other _ (Ne.symm ht)).headersOf_eq, hlink]
    exact hbehind

/-- The sector is not one of the file. -/
lemma notMem (howned : Owned ff.flash.mem chain) : t ∉ chain :=
  fun hin => Bool.false_ne_true (h.free.symm.trans (howned.sectorValid hin))

lemma appendStep (howned : Owned ff.flash.mem chain) (hstart : fil.startSector ∈ chain)
    (hlast : fil.currentSector ∈ chain → fil.currentSector = chain.getD (n / diskSectorSize) 0) :
    AppendStep fileName chain n ff.flash.mem ff'.flash.mem := by
  have hword : ((fil.linkTo t).moveTo t).startSector < 2 ^ 32 :=
    Nat.lt_trans (howned _ hstart).1 (by decide)
  have hlink : AppendStep fileName chain n ff.flash.mem mem' :=
    AppendStep.of_wroteAt h.wroteLink (Nat.le_refl _) (by decide) fun hin =>
      ⟨hlast hin, Or.inl (by rw [length_bytes]; decide)⟩
  refine hlink.trans (AppendStep.of_header h.le hword h.wroteHeader h.storedHeader
    (h.notMem howned) fun heq => h.notMem howned ?_)
  exact heq ▸ hstart

/-- The sector is erased behind its header. -/
lemma erased {x : ℕ} (hx : x < 4096) (hlow : sizeofAmpmFil ≤ x) :
    ff'.flash.mem (sectorStart t + x) = 0xFF :=
  h.wroteHeader.erased rfl x hx (by rwa [length_bytes])

end TakesSector

/-- A block, and another sector with it. -/
lemma ampmFWriteBlock_switch (hw : ampmFlashWrite ff
    (ffAddr fil.currentSector (sub32 fil.fileOffset 256 % diskSectorSize + 256)) ff.buffer =
      (.frOk, ff')) (hfull : fil.fileOffset % diskSectorSize = 0) {fil' : AmpmFil} {ff'' : Ff}
    (hs : ampmFWriteSector ff' fil = (.frOk, fil', ff'')) :
    ampmFWriteBlock ff fil = (.frOk, fil', { ff'' with fileBuf := fun _ => 0xff }) := by
  simp only [ampmFWriteBlock, hw, if_pos hfull, hs]

/-- A block, and a link that is not taken. -/
lemma ampmFWriteBlock_unlinked (hw : ampmFlashWrite ff
    (ffAddr fil.currentSector (sub32 fil.fileOffset 256 % diskSectorSize + 256)) ff.buffer =
      (.frOk, ff')) (hfull : fil.fileOffset % diskSectorSize = 0) {fil' : AmpmFil} {ff'' : Ff}
    (hs : ampmFWriteSector ff' fil = (.frErr, fil', ff'')) :
    ampmFWriteBlock ff fil = (.frErr, fil', ff'') := by
  simp only [ampmFWriteBlock, hw, if_pos hfull, hs]

end Sector

/-! ## A handle that was opened again -/

/-- A handle at the end of a file that was closed with `n` bytes, after some calls of
`ampm_f_write`. -/
structure AppendHandle (mem : Memory) (fileName : List UInt8) (start : ℕ) (chain : List ℕ) (n : ℕ)
    (ff : Ff) (fil : AmpmFil) : Prop where
  faultless : ff.flash.Faultless
  behind : headersOf ff.flash.mem diskSectorMax = none
  step : AppendStep fileName chain n mem ff.flash.mem
  start_eq : fil.startSector = start
  permission_eq : fil.permission = 2
  named : fil.fileName 0 ≠ 0
  offset_eq : fil.fileOffset = fil.fileSize

/-- It is in a sector that was taken for the file, in the partition or behind it, and the cells from
its block on are erased.  The old sectors of the file hold `bs`. -/
structure Straying (mem : Memory) (fileName : List UInt8) (start : ℕ) (chain : List ℕ)
    (bs : List UInt8) (ff : Ff) (fil : AmpmFil) : Prop extends
    AppendHandle mem fileName start chain bs.length ff fil where
  offset_lt : fil.fileOffset < 2 ^ 32
  current_le : fil.currentSector ≤ diskSectorMax
  fresh : fil.currentSector ∉ chain
  link : ∀ x, sizeofAmpmFil ≤ x → x < 2 * sizeofAmpmFil →
    ff.flash.mem (sectorStart fil.currentSector + x) = 0xFF
  blank : ∀ x < 4096, 256 + fil.fileOffset / 256 * 256 % diskSectorSize ≤ x →
    ff.flash.mem (sectorStart fil.currentSector + x) = 0xFF
  data : ∀ k < bs.length, ff.flash.mem (cellOf chain k) = bs.getD k 0

/-- A block was written, or it was tried, where the file has room. -/
structure BlockPassed (mem : Memory) (fileName : List UInt8) (start : ℕ) (chain : List ℕ) (n : ℕ)
    (ff : Ff) (fil : AmpmFil) (off : ℕ) (buf : List UInt8) (ff' : Ff) : Prop where
  handle : AppendHandle mem fileName start chain n ff' fil.grow
  rand : ff'.rand = ff.rand
  drawn : ff'.drawn = ff.drawn
  headers : headersOf ff'.flash.mem = headersOf ff.flash.mem
  wroteAt : WroteAt fil.currentSector off buf ff.flash.mem ff'.flash.mem

section Handle

variable {mem mem' : Memory} {fileName content bs : List UInt8} {start n : ℕ} {chain : List ℕ}
  {ff ff' : Ff} {fil : AmpmFil}

/-- Which sector is found does not depend on what is behind the headers. -/
lemma findsSector_congr (hrand : ff'.rand = ff.rand) (hdrawn : ff'.drawn = ff.drawn)
    (hheaders : headersOf ff'.flash.mem = headersOf ff.flash.mem) :
    FindsSector ff' ↔ FindsSector ff := by
  rw [findsSector_iff, findsSector_iff, ampmFFindFreeSector_congr hrand hdrawn fun _ hs =>
    sectorValid_congr hheaders hs]

lemma AppendHandle.grow (h : AppendHandle mem fileName start chain n ff fil) (buf : ℕ → UInt8) :
    AppendHandle mem fileName start chain n { ff with fileBuf := buf } fil.grow :=
  ⟨h.faultless, h.behind, h.step, h.start_eq, h.permission_eq, h.named,
    congrArg (fun m => (m + 1) % 2 ^ 32) h.offset_eq⟩

lemma AppendHandle.fail (h : AppendHandle mem fileName start chain n ff fil) :
    AppendHandle mem fileName start chain n ff fil.fail :=
  ⟨h.faultless, h.behind, h.step, h.start_eq, h.permission_eq, h.named, h.offset_eq⟩

lemma AppendHandle.setBuf (h : AppendHandle mem fileName start chain n ff fil) (buf : ℕ → UInt8) :
    AppendHandle mem fileName start chain n { ff with fileBuf := buf } fil :=
  ⟨h.faultless, h.behind, h.step, h.start_eq, h.permission_eq, h.named, h.offset_eq⟩

/-- A block behind the bytes of the file. -/
lemma AppendHandle.block {off k : ℕ} {c : UInt8} {r : AmpmFResult}
    (h : AppendHandle mem fileName start chain n ff fil)
    (hw : ampmFlashWrite (ff.put k c) (ffAddr fil.currentSector off) (ff.put k c).buffer = (r, ff'))
    (hcurrent : fil.currentSector ≤ diskSectorMax) (hlow : 2 * sizeofAmpmFil ≤ off)
    (hfit : off + 256 ≤ 4096)
    (hin : fil.currentSector ∈ chain → fil.currentSector = chain.getD (n / diskSectorSize) 0 ∧
      256 + n / 256 * 256 % diskSectorSize ≤ off) :
    BlockPassed mem fileName start chain n ff fil off (ff.put k c).buffer ff' := by
  have hput : (ff.put k c).flash.Faultless := h.faultless
  have hbuf := length_buffer (ff.put k c)
  have hoff : off < 4096 := Nat.lt_of_lt_of_le (Nat.lt_add_of_pos_right (by decide)) hfit
  have hwritten := ampmFlashWrite_written hw hput hcurrent (Nat.le_of_eq hbuf) hoff (by rwa [hbuf])
  have hwrote : WroteAt fil.currentSector off (ff.put k c).buffer ff.flash.mem ff'.flash.mem :=
    hwritten.wroteAt
  have hheader : sizeofAmpmFil ≤ off := Nat.le_trans (by decide) hlow
  have hheaders := hwrote.headersOf_eq hheader (Nat.le_of_lt hoff)
  have hrest : ff'.rand = ff.rand ∧ ff'.drawn = ff.drawn := by
    rw [← (Prod.mk.inj hw).2]
    exact ⟨rfl, rfl⟩
  have hstep := h.step.trans (AppendStep.of_wroteAt hwrote hheader (Nat.le_of_lt hoff)
    fun hmem => (hin hmem).imp_right Or.inr)
  refine ⟨⟨hwritten.faultless, ?_, hstep, h.start_eq, h.permission_eq, h.named,
    congrArg (fun m => (m + 1) % 2 ^ 32) h.offset_eq⟩, hrest.1, hrest.2, hheaders, hwrote⟩
  rw [hheaders]
  exact h.behind

/-- The handle in a sector that is taken. -/
lemma TakesSector.straying {t : ℕ} (htakes : TakesSector ff fil t mem' ff')
    (h : AppendHandle mem fileName start chain bs.length ff fil)
    (hfile : StandingFile mem fileName start chain content) (hlen : bs.length = content.length)
    (hoffset : fil.fileOffset < 2 ^ 32)
    (hlast : fil.currentSector ∈ chain →
      fil.currentSector = chain.getD (bs.length / diskSectorSize) 0)
    (hdata : ∀ k < bs.length, ff.flash.mem (cellOf chain k) = bs.getD k 0) (buf : ℕ → UInt8) :
    Straying mem fileName start chain bs { ff' with fileBuf := buf }
      ((fil.linkTo t).moveTo t) := by
  have howned := hfile.owned_of_step (hlen ▸ h.step)
  have hstart : fil.startSector ∈ chain := by
    rw [h.start_eq]
    exact hfile.start_mem
  have hnot := htakes.notMem howned
  refine ⟨⟨htakes.faultless, htakes.behind h.behind,
    h.step.trans (htakes.appendStep howned hstart hlast), h.start_eq, h.permission_eq, h.named,
    h.offset_eq⟩, hoffset, htakes.le, hnot, fun x hx hx' => ?_, fun x hx hx' => ?_,
    fun k hk => ?_⟩
  · exact htakes.erased (Nat.lt_trans hx' (by decide)) hx
  · exact htakes.erased hx (Nat.le_trans (Nat.le_trans (by decide) (Nat.le_add_right _ _)) hx')
  · have hmem := getD_mem (hfile.index_lt (Nat.le_of_lt (Nat.lt_of_lt_of_eq hk hlen)))
    rw [← hdata k hk]
    refine (cellOf_same (htakes.wroteHeader.other _ fun heq => hnot (heq ▸ hmem))).trans ?_
    -- the link is in front of the bytes
    by_cases hsector : chain.getD (k / diskSectorSize) 0 = fil.currentSector
    · rw [cellOf, hsector]
      refine htakes.wroteLink.outside (by decide) _ (mod_add_lt k) (Or.inr ?_)
      rw [length_bytes]
      exact Nat.le_trans (by decide) (Nat.le_add_right _ _)
    · exact cellOf_same (htakes.wroteLink.other _ hsector)

end Handle

/-! ## In the sectors that are taken -/

/-- The sectors of the handle after a byte: the current one is the previous one if another is taken,
and that is in the partition if the search finds one there. -/
def NextSectors (ff : Ff) (fil fil' : AmpmFil) : Prop :=
  if fil.grow.fileOffset % diskSectorSize = 0 then
    fil'.previousSector = fil.currentSector ∧ (fil'.currentSector < diskSectorMax ↔ FindsSector ff)
  else fil'.previousSector = fil.previousSector ∧ fil'.currentSector = fil.currentSector

section Places

variable {n : ℕ}

/-- Where the block is that is full with the next byte. -/
lemma fullPlace (hn : n < 2 ^ 32) (hfull : (n + 1) % 2 ^ 32 % 256 = 0) :
    sub32 ((n + 1) % 2 ^ 32) 256 % diskSectorSize + 256 = 256 + n / 256 * 256 % diskSectorSize := by
  unfold sub32 diskSectorSize
  omega

/-- Where the one behind it is. -/
lemma nextPlace (hn : n < 2 ^ 32) (hfull : (n + 1) % 2 ^ 32 % 256 = 0)
    (hpart : (n + 1) % 2 ^ 32 % diskSectorSize ≠ 0) :
    256 + (n + 1) % 2 ^ 32 / 256 * 256 % diskSectorSize =
      256 + n / 256 * 256 % diskSectorSize + 256 := by
  unfold diskSectorSize at hpart ⊢
  have hwrap : (n + 1) % 2 ^ 32 = n + 1 := by omega
  rw [hwrap] at hfull hpart ⊢
  obtain ⟨m, hm⟩ : ∃ m, n + 1 = 256 * (m + 1) := ⟨n / 256, by omega⟩
  have hlast : n / 256 = m := by omega
  have hnext : (n + 1) / 256 = m + 1 := by omega
  rw [hlast, hnext]
  omega

lemma samePlace (hn : n < 2 ^ 32) (hpart : (n + 1) % 2 ^ 32 % 256 ≠ 0) :
    (n + 1) % 2 ^ 32 / 256 = n / 256 := by
  omega

lemma place_fits (n : ℕ) : 2 * sizeofAmpmFil ≤ 256 + n / 256 * 256 % diskSectorSize ∧
    256 + n / 256 * 256 % diskSectorSize + 256 ≤ 4096 := by
  unfold diskSectorSize sizeofAmpmFil
  omega

end Places

section Straying

variable {mem : Memory} {fileName content bs : List UInt8} {start : ℕ} {chain : List ℕ} {ff : Ff}
  {fil : AmpmFil}

section Byte

variable (h : Straying mem fileName start chain bs ff fil)
  (hfile : StandingFile mem fileName start chain content) (hlen : bs.length = content.length)

include h hfile hlen

/-- The block is taken. -/
lemma Straying.block (c : UInt8) (hblock : fil.grow.fileOffset % 256 = 0) :
    ∃ ff', ampmFlashWrite (ff.put (fil.fileOffset % 256) c)
        (ffAddr fil.grow.currentSector (sub32 fil.grow.fileOffset 256 % diskSectorSize + 256))
        (ff.put (fil.fileOffset % 256) c).buffer = (.frOk, ff') ∧
      BlockPassed mem fileName start chain bs.length ff fil
        (256 + fil.fileOffset / 256 * 256 % diskSectorSize)
        (ff.put (fil.fileOffset % 256) c).buffer ff' ∧
      ∀ k < bs.length, ff'.flash.mem (cellOf chain k) = bs.getD k 0 := by
  have hplace : sub32 fil.grow.fileOffset 256 % diskSectorSize + 256 =
      256 + fil.fileOffset / 256 * 256 % diskSectorSize := fullPlace h.offset_lt hblock
  obtain ⟨hlow, hfit⟩ := place_fits fil.fileOffset
  rw [hplace]
  rcases hw : ampmFlashWrite (ff.put (fil.fileOffset % 256) c)
    (ffAddr fil.grow.currentSector (256 + fil.fileOffset / 256 * 256 % diskSectorSize))
    (ff.put (fil.fileOffset % 256) c).buffer with ⟨r, ff'⟩
  have hput : (ff.put (fil.fileOffset % 256) c).flash.Faultless := h.faultless
  have hbuf := length_buffer (ff.put (fil.fileOffset % 256) c)
  have hr : r = .frOk := by
    refine (congrArg Prod.fst hw).symm.trans ((ampmFlashWrite_ok_iff hput h.current_le
      (Nat.le_of_eq hbuf) (Nat.lt_of_lt_of_le (by decide) hlow) (mod_add_lt _)
      (by rwa [hbuf])).mpr ?_)
    refine takesBytes_of_blank fun i hi => h.blank _ ?_ (Nat.le_add_right _ _)
    omega
  subst hr
  have hpassed := h.toAppendHandle.block hw h.current_le hlow hfit fun hin => absurd hin h.fresh
  refine ⟨ff', rfl, hpassed, fun k hk => ?_⟩
  have hmem := getD_mem (hfile.index_lt (Nat.le_of_lt (Nat.lt_of_lt_of_eq hk hlen)))
  rw [cellOf_same (hpassed.wroteAt.other _ fun heq => h.fresh (heq ▸ hmem))]
  exact h.data k hk

/-- **One byte** is taken in any case. -/
theorem Straying.byte (c : UInt8) : (ampmFWriteByte ff fil c).1 = .frOk ∧
    Straying mem fileName start chain bs (ampmFWriteByte ff fil c).2.2
      (ampmFWriteByte ff fil c).2.1 ∧
    (ampmFWriteByte ff fil c).2.1.fileSize = (fil.fileSize + 1) % 2 ^ 32 ∧
    NextSectors ff fil (ampmFWriteByte ff fil c).2.1 := by
  have hbound : fil.grow.fileOffset < 2 ^ 32 := Nat.mod_lt _ (by decide)
  rw [ampmFWriteByte_eq, NextSectors]
  by_cases hblock : fil.grow.fileOffset % 256 = 0
  · obtain ⟨ff', hw, hpassed, hdata⟩ := h.block hfile hlen c hblock
    obtain ⟨hlow, -⟩ := place_fits fil.fileOffset
    have hoff : 256 + fil.fileOffset / 256 * 256 % diskSectorSize ≠ 0 :=
      Nat.ne_of_gt (Nat.lt_of_lt_of_le (by decide) hlow)
    have hlink : ∀ x, sizeofAmpmFil ≤ x → x < 2 * sizeofAmpmFil →
        ff'.flash.mem (sectorStart fil.currentSector + x) = 0xFF := by
      intro x hx hx'
      rw [hpassed.wroteAt.outside hoff x (Nat.lt_trans hx' (by decide))
        (Or.inl (Nat.lt_of_lt_of_le hx' hlow))]
      exact h.link x hx hx'
    rw [if_pos hblock]
    by_cases hfull : fil.grow.fileOffset % diskSectorSize = 0
    · have hcurrent : fil.grow.currentSector ≤ diskSectorMax := h.current_le
      have htakesLink : ∀ t, (ampmFFindFreeSector ff').1 = some t →
          TakesBytes fil.grow.currentSector sizeofAmpmFil (fil.grow.linkTo t).bytes
            ff'.flash.mem := by
        refine fun t _ => takesBytes_of_blank fun i hi => ?_
        rw [length_bytes] at hi
        exact hlink _ (Nat.le_add_right _ _) (by omega)
      obtain ⟨t, mem', ff'', htakes, heq⟩ := ampmFWriteSector_switches hpassed.handle.faultless
        hpassed.handle.behind hcurrent htakesLink
      rw [ampmFWriteBlock_switch hw hfull heq, if_pos hfull]
      refine ⟨rfl, htakes.straying hpassed.handle hfile hlen hbound
        (fun hin => absurd hin h.fresh) hdata _, rfl, rfl, ?_⟩
      exact htakes.inside_iff.trans (findsSector_congr hpassed.rand hpassed.drawn hpassed.headers)
    · have hplace : 256 + fil.grow.fileOffset / 256 * 256 % diskSectorSize =
          256 + fil.fileOffset / 256 * 256 % diskSectorSize + 256 :=
        nextPlace h.offset_lt hblock hfull
      have hblank : ∀ x < 4096, 256 + fil.grow.fileOffset / 256 * 256 % diskSectorSize ≤ x →
          ff'.flash.mem (sectorStart fil.currentSector + x) = 0xFF := by
        rw [hplace]
        intro x hx hx'
        rw [hpassed.wroteAt.outside hoff x hx (Or.inr (by rwa [length_buffer]))]
        exact h.blank x hx (Nat.le_trans (Nat.le_add_right _ _) hx')
      rw [ampmFWriteBlock_part hw hfull, if_neg hfull]
      exact ⟨rfl, ⟨hpassed.handle.setBuf _, hbound, h.current_le, h.fresh, hlink, hblank, hdata⟩,
        rfl, rfl, rfl⟩
  · have hpart : fil.grow.fileOffset % diskSectorSize ≠ 0 := by
      unfold diskSectorSize
      omega
    have hplace : 256 + fil.fileOffset / 256 * 256 % diskSectorSize =
        256 + fil.grow.fileOffset / 256 * 256 % diskSectorSize :=
      congrArg (fun m => 256 + m * 256 % diskSectorSize) (samePlace h.offset_lt hblock).symm
    have hblank : ∀ x < 4096, 256 + fil.grow.fileOffset / 256 * 256 % diskSectorSize ≤ x →
        ff.flash.mem (sectorStart fil.currentSector + x) = 0xFF := by
      rw [← hplace]
      exact h.blank
    rw [if_neg hblock, if_neg hpart]
    exact ⟨rfl, ⟨h.toAppendHandle.grow _, hbound, h.current_le, h.fresh, h.link, hblank, h.data⟩,
      rfl, rfl, rfl⟩

end Byte

/-! ## Any number of bytes -/

/-- Whether the searches for the previous and the current sector found one in the partition. -/
def lastFinds : List UInt8 → AmpmFil → Ff → Prop × Prop → Prop × Prop
  | [], _, _, p => p
  | c :: cs, fil, ff, p =>
      lastFinds cs (ampmFWriteByte ff fil c).2.1 (ampmFWriteByte ff fil c).2.2
        (if fil.grow.fileOffset % diskSectorSize = 0 then (p.2, FindsSector ff) else p)

lemma lastFinds_alike :
    ∀ (cs : List UInt8) (fil : AmpmFil) (p : Prop × Prop) {ff ff' : Ff}, Alike ff ff' →
      lastFinds cs fil ff' p = lastFinds cs fil ff p
  | [], _, _, _, _, _ => rfl
  | c :: cs, fil, p, ff, ff', h => by
      have hbyte := ampmFWriteByte_alike h fil c
      have hfinds : FindsSector ff' = FindsSector ff := by
        unfold FindsSector
        rw [h.rand, h.drawn, h.mem]
      rw [lastFinds, lastFinds, hbyte.fil, hfinds, lastFinds_alike cs _ _ hbyte.ff]

/-- The sectors of the handle are in the partition if the searches found them there. -/
def SectorsIn (fil : AmpmFil) (p : Prop × Prop) : Prop :=
  (fil.previousSector < diskSectorMax ↔ p.1) ∧ (fil.currentSector < diskSectorMax ↔ p.2)

lemma NextSectors.sectorsIn {fil' : AmpmFil} {p : Prop × Prop} (h : NextSectors ff fil fil')
    (hin : SectorsIn fil p) : SectorsIn fil'
      (if fil.grow.fileOffset % diskSectorSize = 0 then (p.2, FindsSector ff) else p) := by
  unfold NextSectors at h
  split_ifs at h ⊢ with hfull
  · obtain ⟨hprevious, hcurrent⟩ := h
    exact ⟨hprevious ▸ hin.2, hcurrent⟩
  · obtain ⟨hprevious, hcurrent⟩ := h
    exact ⟨hprevious ▸ hin.1, hcurrent ▸ hin.2⟩

/-- **Any number of bytes** are taken. -/
theorem Straying.bytes (hfile : StandingFile mem fileName start chain content)
    (hlen : bs.length = content.length) :
    ∀ (cs : List UInt8) {ff : Ff} {fil : AmpmFil} {p : Prop × Prop},
      Straying mem fileName start chain bs ff fil → SectorsIn fil p →
      fil.fileSize + cs.length < 2 ^ 32 →
      (writeBytes cs fil ff).1 = .frOk ∧
        Straying mem fileName start chain bs (writeBytes cs fil ff).2.2 (writeBytes cs fil ff).2.1 ∧
        (writeBytes cs fil ff).2.1.fileSize = fil.fileSize + cs.length ∧
        SectorsIn (writeBytes cs fil ff).2.1 (lastFinds cs fil ff p)
  | [], _, _, _, h, hin, _ => ⟨rfl, h, rfl, hin⟩
  | c :: cs, ff, fil, p, h, hin, hlt => by
      rw [List.length_cons] at hlt ⊢
      obtain ⟨hok, h', hsize, hnext⟩ := h.byte hfile hlen c
      have hwrap : (fil.fileSize + 1) % 2 ^ 32 = fil.fileSize + 1 := Nat.mod_eq_of_lt (by omega)
      rw [hwrap] at hsize
      obtain ⟨hok', h'', hsize', hin'⟩ := Straying.bytes hfile hlen cs h' (hnext.sectorsIn hin)
        (by omega)
      rw [writeBytes, if_pos hok, lastFinds]
      exact ⟨hok', h'', by omega, hin'⟩

/-- The loop never ends with an error. -/
theorem Straying.loop (hfile : StandingFile mem fileName start chain content)
    (hlen : bs.length = content.length) (buff : List UInt8) (btr : ℕ) :
    ∀ (fuel i : ℕ) {ff : Ff} {fil : AmpmFil}, Straying mem fileName start chain bs ff fil →
      (ampmFWriteLoop buff btr fuel i fil ff).1 ≠ some .frErr
  | 0, _, _, _, _ => by
      rw [ampmFWriteLoop]
      exact (Option.some_ne_none _).symm
  | fuel + 1, i, ff, fil, h => by
      rw [ampmFWriteLoop]
      split_ifs with hi
      · obtain ⟨hok, h', -⟩ := h.byte hfile hlen (buff.getD i 0)
        simp only [hok]
        exact Straying.loop hfile hlen buff btr fuel _ h'
      · exact fun heq => AmpmFResult.noConfusion (Option.some.inj heq)

end Straying

end Ampm
