import AmpmGsm.Flash.Stray

/-!
# Appending to a file that was closed

What `ampm_f_write` does on a handle that was opened again and stands at the end of its file.  In the
last sector of the file it programs cells that were programmed before.

* `Resuming` — the handle is in the last sector of the file.
* `Spoiled` — a write has failed there.
* `ByteResumed`, `Resuming.byte` — what becomes of it with one byte.
* `BytesResumed`, `Resuming.bytes` — with any number.
* `Resuming.loop` — with more than the counter of `ampm_f_write` gets to.
-/

namespace Ampm

open NorFlash Directories

/-! ## The last sector -/

/-- The file has the bytes `bs`, and `ds` were appended. -/
structure Resuming (mem : Memory) (fileName : List UInt8) (start : ℕ) (chain : List ℕ)
    (bs ds : List UInt8) (ff : Ff) (fil : AmpmFil) : Prop where
  opened : OpenFile ff fil chain (bs ++ ds)
  handle : AppendHandle mem fileName start chain bs.length ff fil

/-- A write has failed: the handle is accepted, and has grown. -/
structure Spoiled (mem : Memory) (fileName : List UInt8) (start : ℕ) (chain : List ℕ) (n : ℕ)
    (ff : Ff) (fil : AmpmFil) : Prop extends AppendHandle mem fileName start chain n ff fil where
  previous_lt : fil.previousSector < diskSectorMax
  current_lt : fil.currentSector < diskSectorMax
  grown : n < fil.fileSize
  size_lt : fil.fileSize < 100000

/-- The cells take the bytes, and the link if the sector is full with them. -/
def LastTakes (ff : Ff) (fil : AmpmFil) (chain : List ℕ) (n : ℕ) (bs : List UInt8) : Prop :=
  BlocksTake ff.flash.mem chain n bs ∧ LinkTakes ff fil chain bs.length

section Takes

variable {mem : Memory} {chain : List ℕ} {bs : List UInt8} {c : UInt8} {n : ℕ}

lemma getD_append_cons (cs : List UInt8) {k : ℕ} (hk : k < bs.length + 1) :
    (bs ++ c :: cs).getD k 0 = (bs ++ [c]).getD k 0 := by
  have hbytes : bs ++ c :: cs = bs ++ [c] ++ cs := by simp
  rw [hbytes]
  exact List.getD_append _ _ _ _ (by simpa using hk)

/-- The blocks that are full with the first byte. -/
lemma BlocksTake.head {cs : List UInt8} (h : BlocksTake mem chain n (bs ++ c :: cs)) :
    BlocksTake mem chain n (bs ++ [c]) := by
  intro k hlow hhigh hbound
  have hk : k < bs.length + 1 := by
    rw [List.length_append, List.length_singleton] at hhigh
    exact Nat.lt_of_lt_of_le hhigh (Nat.div_mul_le_self _ _)
  rw [← getD_append_cons cs hk]
  refine h k hlow (Nat.lt_of_lt_of_le hhigh (blockStart_mono ?_)) hbound
  simp

/-- They are all if the sectors are full. -/
lemma BlocksTake.of_head {cs : List UInt8} (h : BlocksTake mem chain n (bs ++ [c]))
    (hfull : chain.length * diskSectorSize = bs.length + 1) :
    BlocksTake mem chain n (bs ++ c :: cs) := by
  intro k hlow _ hbound
  have hk : k < bs.length + 1 := hfull ▸ hbound
  have hend : (bs ++ [c]).length / 256 * 256 = bs.length + 1 := by
    rw [List.length_append, List.length_singleton, ← hfull]
    unfold diskSectorSize
    omega
  rw [getD_append_cons cs hk]
  exact h k hlow (hend.symm ▸ hk) hbound

end Takes

section Last

variable {mem : Memory} {fileName content bs ds : List UInt8} {start : ℕ} {chain : List ℕ}
  {ff : Ff} {fil : AmpmFil}

section Places

variable (h : Resuming mem fileName start chain bs ds ff fil)
  (hfile : StandingFile mem fileName start chain content) (hlen : bs.length = content.length)

include h hfile hlen

lemma Resuming.sector_eq :
    (bs ++ ds).length / diskSectorSize = bs.length / diskSectorSize := by
  have hopened := h.opened.length
  have hclosed := hfile.length
  rw [← hlen] at hclosed
  omega

lemma Resuming.current_eq : fil.currentSector = chain.getD (bs.length / diskSectorSize) 0 := by
  rw [← h.sector_eq hfile hlen]
  exact h.opened.current.symm

lemma Resuming.length_lt : (bs ++ ds).length < bs.length + diskSectorSize := by
  have hsector := h.sector_eq hfile hlen
  unfold diskSectorSize at hsector ⊢
  omega

/-- The block is behind the bytes of the file. -/
lemma Resuming.place_le : 256 + bs.length / 256 * 256 % diskSectorSize ≤
    256 + (bs ++ ds).length / 256 * 256 % diskSectorSize := by
  have hsector := h.sector_eq hfile hlen
  have hle : bs.length ≤ (bs ++ ds).length := by simp
  unfold diskSectorSize at hsector ⊢
  omega

/-- A block was written, or it was tried. -/
lemma Resuming.block {c : UInt8} {r : AmpmFResult} {ff' : Ff} (hlt : (bs ++ ds).length < 100000)
    (hfull : ((bs ++ ds).length + 1) % 256 = 0)
    (hw : ampmFlashWrite (fullBlock ff (bs ++ ds) c)
      (ffAddr fil.currentSector (sub32 ((bs ++ ds).length + 1) 256 % diskSectorSize + 256))
      (fullBlock ff (bs ++ ds) c).buffer = (r, ff')) :
    BlockPassed mem fileName start chain bs.length ff fil
      (256 + (bs ++ ds).length / 256 * 256 % diskSectorSize) (fullBlock ff (bs ++ ds) c).buffer
      ff' := by
  rw [(h.opened.place hlt hfull).1] at hw
  obtain ⟨hlow, hfit⟩ := place_fits (bs ++ ds).length
  exact h.handle.block hw (Nat.le_of_lt h.opened.current_lt) hlow hfit fun _ =>
    ⟨h.current_eq hfile hlen, h.place_le hfile hlen⟩

end Places

/-- What becomes of the handle with a byte: it stays in the last sector, another is taken, or the
byte is refused. -/
inductive ByteResumed (mem : Memory) (fileName : List UInt8) (start : ℕ) (chain : List ℕ)
    (bs ds : List UInt8) (ff : Ff) (fil : AmpmFil) (c : UInt8) :
    AmpmFResult × AmpmFil × Ff → Prop
  | stays {fil' : AmpmFil} {ff' : Ff}
      (takes : LastTakes ff fil chain (bs ++ ds).length (bs ++ ds ++ [c]))
      (part : fil.grow.fileOffset % diskSectorSize ≠ 0)
      (step : ByteStep ff fil chain (bs ++ ds).length ff' fil' [])
      (resuming : Resuming mem fileName start chain bs (ds ++ [c]) ff' fil') :
      ByteResumed mem fileName start chain bs ds ff fil c (.frOk, fil', ff')
  | strays {fil' : AmpmFil} {ff' : Ff}
      (takes : LastTakes ff fil chain (bs ++ ds).length (bs ++ ds ++ [c]))
      (full : chain.length * diskSectorSize = (bs ++ ds).length + 1)
      (straying : Straying mem fileName start chain bs ff' fil')
      (size_eq : fil'.fileSize = (bs ++ ds).length + 1) (sectors : NextSectors ff fil fil') :
      ByteResumed mem fileName start chain bs ds ff fil c (.frOk, fil', ff')
  | spoils {fil' : AmpmFil} {ff' : Ff}
      (refused : ¬ LastTakes ff fil chain (bs ++ ds).length (bs ++ ds ++ [c]))
      (spoiled : Spoiled mem fileName start chain bs.length ff' fil') :
      ByteResumed mem fileName start chain bs ds ff fil c (.frErr, fil', ff')

section Byte

variable {c : UInt8} {ff' : Ff} {r : AmpmFResult}

lemma Resuming.grow_offset (h : Resuming mem fileName start chain bs ds ff fil)
    (hlt : (bs ++ ds).length < 100000) : fil.grow.fileOffset = (bs ++ ds).length + 1 := by
  rw [h.opened.grow_eq hlt]
  rfl

lemma Resuming.grow_size (h : Resuming mem fileName start chain bs ds ff fil)
    (hlt : (bs ++ ds).length < 100000) : fil.grow.fileSize = (bs ++ ds).length + 1 := by
  rw [h.opened.grow_eq hlt]
  rfl

lemma Resuming.grown (h : Resuming mem fileName start chain bs ds ff fil)
    (hlt : (bs ++ ds).length < 100000) : bs.length < fil.grow.fileSize := by
  rw [h.grow_size hlt, List.length_append]
  omega

/-- No link is written before the sector is full. -/
lemma Resuming.link_of_part (h : Resuming mem fileName start chain bs ds ff fil)
    (hpart : ((bs ++ ds).length + 1) % diskSectorSize ≠ 0) :
    LinkTakes ff fil chain (bs ++ ds ++ [c]).length := fun hle =>
  absurd (h.opened.full_iff.mp ((List.length_append : (bs ++ ds ++ [c]).length = _) ▸ hle)) hpart

/-- A byte that fills no block. -/
lemma Resuming.byte_buffered (h : Resuming mem fileName start chain bs ds ff fil)
    (hlt : (bs ++ ds).length < 100000) (hpart : ((bs ++ ds).length + 1) % 256 ≠ 0) (c : UInt8) :
    ByteResumed mem fileName start chain bs ds ff fil c
      (.frOk, fil.grow, ff.put ((bs ++ ds).length % 256) c) := by
  have hswitch : ((bs ++ ds).length + 1) % diskSectorSize ≠ 0 := by
    unfold diskSectorSize
    omega
  obtain ⟨hopened, hstep⟩ := h.opened.byte_buffered h.handle.faultless hlt hpart c
  refine .stays ⟨fun k hlow hhigh => ?_, h.link_of_part hswitch⟩
    ((h.grow_offset hlt).symm ▸ hswitch) hstep
    ⟨List.append_assoc bs ds [c] ▸ hopened, h.handle.grow _⟩
  rw [List.length_append, List.length_singleton] at hhigh
  omega

section Block

variable (h : Resuming mem fileName start chain bs ds ff fil)
  (hfile : StandingFile mem fileName start chain content) (hlen : bs.length = content.length)
  (hlt : (bs ++ ds).length + 1 < 100000) (hfull : ((bs ++ ds).length + 1) % 256 = 0)
  (hw : ampmFlashWrite (fullBlock ff (bs ++ ds) c)
      (ffAddr fil.currentSector (sub32 ((bs ++ ds).length + 1) 256 % diskSectorSize + 256))
      (fullBlock ff (bs ++ ds) c).buffer = (r, ff'))

include h hlt hw

/-- The block, as the handle places it. -/
lemma Resuming.block_call : ampmFlashWrite (fullBlock ff (bs ++ ds) c)
      (ffAddr fil.grow.currentSector (sub32 fil.grow.fileOffset 256 % diskSectorSize + 256))
      (fullBlock ff (bs ++ ds) c).buffer = (r, ff') := by
  rw [h.grow_offset (Nat.lt_of_succ_lt hlt)]
  exact hw

include hfile hlen hfull

/-- A block that is refused. -/
lemma Resuming.byte_failed (hr : r = .frErr) : ByteResumed mem fileName start chain bs ds ff fil c
    (ampmFWriteBlock (fullBlock ff (bs ++ ds) c) fil.grow) := by
  subst hr
  have hlt' := Nat.lt_of_succ_lt hlt
  have hpassed := h.block hfile hlen hlt' hfull hw
  have hblock := h.opened.block_ok_iff (c := c) h.handle.faultless hlt' hfull
  rw [ampmFWriteBlock_err (h.block_call hlt hw)]
  refine .spoils (fun htakes => ?_) ⟨hpassed.handle.fail, h.opened.previous_lt,
    h.opened.current_lt, h.grown hlt', (h.grow_size hlt').trans_lt hlt⟩
  exact AmpmFResult.noConfusion ((congrArg Prod.fst hw).symm.trans (hblock.mpr htakes.1))

/-- A block behind which there is room in the sector. -/
lemma Resuming.byte_part (hr : r = .frOk)
    (hpart : ((bs ++ ds).length + 1) % diskSectorSize ≠ 0) :
    ByteResumed mem fileName start chain bs ds ff fil c
      (ampmFWriteBlock (fullBlock ff (bs ++ ds) c) fil.grow) := by
  subst hr
  have hlt' := Nat.lt_of_succ_lt hlt
  have hpassed := h.block hfile hlen hlt' hfull hw
  have hwritten := h.opened.block_written h.handle.faultless hlt' hfull hw
  have htaken := (h.opened.block_ok_iff h.handle.faultless hlt' hfull).mp (congrArg Prod.fst hw)
  have hoffset := h.grow_offset hlt'
  rw [ampmFWriteBlock_part (h.block_call hlt hw) (hoffset.symm ▸ hpart)]
  obtain ⟨hopened, hstep⟩ := h.opened.byte_block hlt' hfull hpart hwritten fun _ => 0xff
  exact .stays ⟨htaken, h.link_of_part hpart⟩ (hoffset.symm ▸ hpart) hstep
    ⟨List.append_assoc bs ds [c] ▸ hopened, hpassed.handle.setBuf _⟩

/-- The last block of the sector, and the cells take the link. -/
lemma Resuming.byte_linked (hr : r = .frOk)
    (hswitch : ((bs ++ ds).length + 1) % diskSectorSize = 0)
    (htakesLink : ∀ t, (ampmFFindFreeSector ff').1 = some t →
      TakesBytes fil.grow.currentSector sizeofAmpmFil (fil.grow.linkTo t).bytes ff'.flash.mem) :
    ByteResumed mem fileName start chain bs ds ff fil c
      (ampmFWriteBlock (fullBlock ff (bs ++ ds) c) fil.grow) := by
  subst hr
  have hlt' := Nat.lt_of_succ_lt hlt
  have hpassed := h.block hfile hlen hlt' hfull hw
  have hwritten := h.opened.block_written h.handle.faultless hlt' hfull hw
  have htaken := (h.opened.block_ok_iff h.handle.faultless hlt' hfull).mp (congrArg Prod.fst hw)
  have hlink := (hwritten.linkTakes_full_iff h.opened hlt' hswitch).mpr htakesLink
  have hoffset := h.grow_offset hlt'
  have hnext : (bs ++ ds ++ [c]).length = (bs ++ ds).length + 1 := List.length_append
  have hcurrent : fil.grow.currentSector ≤ diskSectorMax := Nat.le_of_lt h.opened.current_lt
  obtain ⟨t, mem', ff'', htakes, heq⟩ := ampmFWriteSector_switches hpassed.handle.faultless
    hpassed.handle.behind hcurrent htakesLink
  have hdata : ∀ k < bs.length, ff'.flash.mem (cellOf chain k) = bs.getD k 0 := by
    intro k hk
    have hk' : k < (bs ++ ds).length := by
      rw [List.length_append]
      exact Nat.lt_of_lt_of_le hk (Nat.le_add_right _ _)
    rw [hwritten.data k (Nat.lt_succ_of_lt hk'), List.getD_append _ _ _ _ hk',
      List.getD_append _ _ _ _ hk]
  have hsectors : NextSectors ff fil ((fil.grow.linkTo t).moveTo t) := by
    rw [NextSectors, hoffset, if_pos hswitch]
    exact ⟨rfl, htakes.inside_iff.trans
      (findsSector_congr hpassed.rand hpassed.drawn hpassed.headers)⟩
  have hstraying := htakes.straying hpassed.handle hfile hlen
    (hoffset.symm ▸ Nat.lt_trans hlt (by decide)) (fun _ => h.current_eq hfile hlen) hdata
    fun _ => 0xff
  rw [ampmFWriteBlock_switch (h.block_call hlt hw) (hoffset.symm ▸ hswitch) heq]
  exact .strays ⟨htaken, hnext.symm ▸ hlink⟩ (h.opened.full_eq hswitch) hstraying
    (h.grow_size hlt') hsectors

/-- The last block of the sector, and the cells do not take the link. -/
lemma Resuming.byte_unlinked (hr : r = .frOk)
    (hswitch : ((bs ++ ds).length + 1) % diskSectorSize = 0)
    (hrefused : ¬ ∀ t, (ampmFFindFreeSector ff').1 = some t →
      TakesBytes fil.grow.currentSector sizeofAmpmFil (fil.grow.linkTo t).bytes ff'.flash.mem) :
    ByteResumed mem fileName start chain bs ds ff fil c
      (ampmFWriteBlock (fullBlock ff (bs ++ ds) c) fil.grow) := by
  subst hr
  have hlt' := Nat.lt_of_succ_lt hlt
  have hpassed := h.block hfile hlen hlt' hfull hw
  have hwritten := h.opened.block_written h.handle.faultless hlt' hfull hw
  have hlink := hwritten.linkTakes_full_iff h.opened hlt' hswitch
  have hnext : (bs ++ ds ++ [c]).length = (bs ++ ds).length + 1 := List.length_append
  have hcurrent : fil.grow.currentSector ≤ diskSectorMax := Nat.le_of_lt h.opened.current_lt
  obtain ⟨t, ff'', heq, hfaultless, hwrote⟩ := ampmFWriteSector_refused
    hpassed.handle.faultless hpassed.handle.behind hcurrent hrefused
  have hstep := hpassed.handle.step.trans (AppendStep.of_wroteAt hwrote (Nat.le_refl _)
    (by decide) fun _ => ⟨h.current_eq hfile hlen, Or.inl (by rw [length_bytes]; decide)⟩)
  have hbehind : headersOf ff''.flash.mem diskSectorMax = none := by
    rw [hwrote.headersOf_eq (Nat.le_refl _) (by decide)]
    exact hpassed.handle.behind
  rw [ampmFWriteBlock_unlinked (h.block_call hlt hw) ((h.grow_offset hlt').symm ▸ hswitch) heq]
  exact .spoils (fun htakes => hrefused (hlink.mp (hnext ▸ htakes.2)))
    ⟨⟨hfaultless, hbehind, hstep, hpassed.handle.start_eq, hpassed.handle.permission_eq,
      hpassed.handle.named, hpassed.handle.offset_eq⟩, h.opened.previous_lt, h.opened.current_lt,
      h.grown hlt', (h.grow_size hlt').trans_lt hlt⟩

end Block

/-- **One byte** in the last sector. -/
theorem Resuming.byte (h : Resuming mem fileName start chain bs ds ff fil)
    (hfile : StandingFile mem fileName start chain content) (hlen : bs.length = content.length)
    (hlt : (bs ++ ds).length + 1 < 100000) (c : UInt8) :
    ByteResumed mem fileName start chain bs ds ff fil c (ampmFWriteByte ff fil c) := by
  have hlt' := Nat.lt_of_succ_lt hlt
  rw [ampmFWriteByte_eq, h.grow_offset hlt', h.opened.offset]
  by_cases hfull : ((bs ++ ds).length + 1) % 256 = 0
  swap
  · rw [if_neg hfull]
    exact h.byte_buffered hlt' hfull c
  rw [if_pos hfull]
  rcases hw : ampmFlashWrite (fullBlock ff (bs ++ ds) c)
      (ffAddr fil.currentSector (sub32 ((bs ++ ds).length + 1) 256 % diskSectorSize + 256))
      (fullBlock ff (bs ++ ds) c).buffer with ⟨r, ff'⟩
  cases r with
  | frErr => exact h.byte_failed hfile hlen hlt hfull hw rfl
  | frOk =>
      by_cases hswitch : ((bs ++ ds).length + 1) % diskSectorSize = 0
      swap
      · exact h.byte_part hfile hlen hlt hfull hw rfl hswitch
      by_cases htakesLink : ∀ t, (ampmFFindFreeSector ff').1 = some t →
          TakesBytes fil.grow.currentSector sizeofAmpmFil (fil.grow.linkTo t).bytes ff'.flash.mem
      · exact h.byte_linked hfile hlen hlt hfull hw rfl hswitch htakesLink
      · exact h.byte_unlinked hfile hlen hlt hfull hw rfl hswitch htakesLink

end Byte

/-! ## Any number of bytes -/

/-- What becomes of the handle with bytes of which the cells take what the last sector has room for
if `takes`, and with searches that end as `p` says. -/
inductive BytesResumed (mem : Memory) (fileName : List UInt8) (start : ℕ) (chain : List ℕ)
    (bs ds : List UInt8) (takes : Prop) (p : Prop × Prop) : AmpmFResult × AmpmFil × Ff → Prop
  | stays {fil' : AmpmFil} {ff' : Ff} (taken : takes) (p_eq : p = (True, True))
      (resuming : Resuming mem fileName start chain bs ds ff' fil') :
      BytesResumed mem fileName start chain bs ds takes p (.frOk, fil', ff')
  | strays {fil' : AmpmFil} {ff' : Ff} (taken : takes)
      (straying : Straying mem fileName start chain bs ff' fil')
      (size_eq : fil'.fileSize = (bs ++ ds).length) (sectors : SectorsIn fil' p) :
      BytesResumed mem fileName start chain bs ds takes p (.frOk, fil', ff')
  | spoils {fil' : AmpmFil} {ff' : Ff} (refused : ¬ takes)
      (spoiled : Spoiled mem fileName start chain bs.length ff' fil') :
      BytesResumed mem fileName start chain bs ds takes p (.frErr, fil', ff')

lemma BytesResumed.congr {takes takes' : Prop} {p : Prop × Prop} {r : AmpmFResult × AmpmFil × Ff}
    (h : BytesResumed mem fileName start chain bs ds takes p r) (hiff : takes' ↔ takes) :
    BytesResumed mem fileName start chain bs ds takes' p r := by
  rwa [propext hiff]

/-- **Any number of bytes** behind those of the file. -/
theorem Resuming.bytes (hfile : StandingFile mem fileName start chain content)
    (hlen : bs.length = content.length) :
    ∀ (cs : List UInt8) {ds : List UInt8} {ff : Ff} {fil : AmpmFil},
      Resuming mem fileName start chain bs ds ff fil → (bs ++ ds ++ cs).length < 100000 →
      BytesResumed mem fileName start chain bs (ds ++ cs)
        (LastTakes ff fil chain (bs ++ ds).length (bs ++ ds ++ cs))
        (lastFinds cs fil ff (True, True)) (writeBytes cs fil ff)
  | [], ds, ff, fil, h, _ => by
      have htakes : LastTakes ff fil chain (bs ++ ds).length (bs ++ ds) := by
        refine ⟨fun k hlow hhigh => absurd hhigh (Nat.not_lt.mpr hlow), fun hfull => ?_⟩
        have hlength := h.opened.length
        unfold diskSectorSize at hlength hfull
        omega
      rw [List.append_nil, List.append_nil]
      exact .stays htakes rfl h
  | c :: cs, ds, ff, fil, h, hlt => by
      have hbytes : bs ++ ds ++ c :: cs = bs ++ (ds ++ [c]) ++ cs := by simp
      have hds : ds ++ c :: cs = ds ++ [c] ++ cs := by simp
      have hlength : (bs ++ ds ++ c :: cs).length = (bs ++ ds).length + (cs.length + 1) :=
        List.length_append
      have hnext : (bs ++ ds).length + 1 ≤ (bs ++ ds ++ c :: cs).length := by omega
      have hone : (bs ++ ds ++ [c]).length = (bs ++ ds).length + 1 := List.length_append
      rw [writeBytes, lastFinds]
      have hbyte := h.byte hfile hlen (Nat.lt_of_le_of_lt hnext hlt) c
      revert hbyte
      generalize ampmFWriteByte ff fil c = r
      intro hbyte
      cases hbyte with
      | stays takes part step resuming =>
          rw [if_neg part, hds]
          refine (Resuming.bytes hfile hlen cs resuming (hbytes ▸ hlt)).congr ?_
          have hlink : LinkTakes ff fil chain ((bs ++ ds).length + 1) := hone ▸ takes.2
          rw [LastTakes, LastTakes, step.blocksTake_iff, and_iff_right takes.1, step.link _ hnext,
            and_iff_right hlink, List.append_nil, ← hone, List.append_assoc bs ds [c], hbytes]
      | @strays fil' ff' takes full straying size_eq sectors =>
          have hall : LastTakes ff fil chain (bs ++ ds).length (bs ++ ds ++ c :: cs) :=
            ⟨takes.1.of_head full, fun _ => takes.2 (full.trans_le (Nat.le_of_eq hone.symm))⟩
          have hin : SectorsIn fil (True, True) :=
            ⟨iff_true_intro h.opened.previous_lt, iff_true_intro h.opened.current_lt⟩
          have hsize : fil'.fileSize + cs.length = (bs ++ (ds ++ c :: cs)).length := by
            rw [size_eq, ← List.append_assoc, hlength]
            omega
          obtain ⟨hok, hstraying, hsize', hin'⟩ := Straying.bytes hfile hlen cs straying
            (sectors.sectorsIn hin) (by rw [hsize, ← List.append_assoc]; omega)
          have heq : writeBytes cs fil' ff' = (.frOk, (writeBytes cs fil' ff').2) :=
            Prod.ext hok rfl
          rw [if_pos rfl, heq]
          exact .strays hall hstraying (hsize'.trans hsize) hin'
      | spoils refused spoiled =>
          refine .spoils (fun htakes => refused ⟨htakes.1.head, ?_⟩) spoiled
          exact htakes.2.mono (hone.trans_le hnext)

/-- The loop, whatever its counter does: it ends with an error in the last sector only. -/
theorem Resuming.loop (hfile : StandingFile mem fileName start chain content)
    (hlen : bs.length = content.length) (hlt : bs.length + diskSectorSize < 100000)
    (buff : List UInt8) (btr : ℕ) :
    ∀ (fuel i : ℕ) {ds : List UInt8} {ff : Ff} {fil : AmpmFil},
      Resuming mem fileName start chain bs ds ff fil →
      (ampmFWriteLoop buff btr fuel i fil ff).1 = some .frErr →
      Spoiled mem fileName start chain bs.length (ampmFWriteLoop buff btr fuel i fil ff).2.2
        (ampmFWriteLoop buff btr fuel i fil ff).2.1
  | 0, _, _, _, _, _, herr => by cases herr
  | fuel + 1, i, ds, ff, fil, h, herr => by
      have hroom := h.length_lt hfile hlen
      rw [ampmFWriteLoop] at herr ⊢
      split_ifs at herr ⊢ with hi
      · have hbyte := h.byte hfile hlen (by omega) (buff.getD i 0)
        revert hbyte herr
        generalize ampmFWriteByte ff fil (buff.getD i 0) = r
        intro herr hbyte
        cases hbyte with
        | stays takes part step resuming =>
            exact Resuming.loop hfile hlen hlt buff btr fuel _ resuming herr
        | strays takes full straying size_eq sectors =>
            exact absurd herr (straying.loop hfile hlen buff btr fuel _)
        | spoils refused spoiled => exact spoiled
      · cases herr

end Last

end Ampm
