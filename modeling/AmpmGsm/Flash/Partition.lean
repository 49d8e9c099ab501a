import AmpmGsm.Flash.Stored
import AmpmGsm.Lib.Traces

/-!
# Staying in the partition

The file system has the sectors from `AMPM_FLASH_START_ADDR` to `AMPM_FLASH_SIZE_MAX`; the firmware
and the settings are in front of them.

* `FlashAccess.Touches`, `FlashAccess.Inside` — the cells that a command is about.
* `Stays` — all that was done from one state to another was done inside the partition.
* `ampmFFindFreeSector_stays_iff` — a search stays there exactly if it stops there.
* `ampmFDiskCleanup_stays`, `ampmFUnlink_stays`, … — functions that never leave it.
-/

namespace Ampm

open NorFlash Traces

/-! ## Commands -/

/-- The cells that the command reads, erases or writes. -/
def FlashAccess.Touches : FlashAccess → ℕ → Prop
  | .erase addr, x => x / 4096 = devAddr addr / 4096
  | .program addr count, x => devAddr addr ≤ x ∧ x < devAddr addr + count
  | .read addr count, x => devAddr addr ≤ x ∧ x < devAddr addr + count

/-- A cell of the partition. -/
def InPartition (x : ℕ) : Prop := 0x92000 ≤ x ∧ x < 0x100000

/-- The command stays in the partition. -/
def FlashAccess.Inside (a : FlashAccess) : Prop := ∀ x, a.Touches x → InPartition x

/-- The number of a sector of the partition, of which the device gets 12 bits. -/
def OnDisk (sector : ℕ) : Prop := sector % 4096 < diskSectorMax

section Inside

variable {sector offset count : ℕ}

lemma onDisk_of_lt (h : sector < diskSectorMax) : OnDisk sector := by
  have hmax : diskSectorMax = 110 := rfl
  rw [OnDisk]
  omega

lemma devAddr_ffAddr_mod (sector offset : ℕ) :
    devAddr (ffAddr sector offset) = (0x92000 + sector * 4096 + offset) % 2 ^ 24 := by
  rw [devAddr, ffAddr]
  omega

/-- A part of a sector, in front of another address or not. -/
lemma range_inside_iff (hpos : 0 < count) (hfit : offset + count ≤ 4096) :
    (∀ x, devAddr (ffAddr sector offset) ≤ x ∧ x < devAddr (ffAddr sector offset) + count →
      InPartition x) ↔ OnDisk sector := by
  have hmax : diskSectorMax = 110 := rfl
  rw [devAddr_ffAddr_mod, OnDisk, hmax]
  constructor
  · intro h
    have hfirst := h _ ⟨Nat.le_refl _, Nat.lt_add_of_pos_right hpos⟩
    rw [InPartition] at hfirst
    omega
  · intro h x hx
    rw [InPartition]
    omega

lemma read_inside_iff (hpos : 0 < count) (hfit : offset + count ≤ 4096) :
    (FlashAccess.read (ffAddr sector offset) count).Inside ↔ OnDisk sector :=
  range_inside_iff hpos hfit

lemma program_inside_iff (hpos : 0 < count) (hfit : offset + count ≤ 4096) :
    (FlashAccess.program (ffAddr sector offset) count).Inside ↔ OnDisk sector :=
  range_inside_iff hpos hfit

lemma erase_inside_iff (hoffset : offset < 4096) :
    (FlashAccess.erase (ffAddr sector offset)).Inside ↔ OnDisk sector := by
  have hmax : diskSectorMax = 110 := rfl
  rw [FlashAccess.Inside, OnDisk, hmax]
  simp only [FlashAccess.Touches, devAddr_ffAddr_mod]
  constructor
  · intro h
    have hfirst := h _ rfl
    rw [InPartition] at hfirst
    omega
  · intro h x hx
    rw [InPartition]
    omega

end Inside

/-! ## Operations -/

/-- What was done with the flash. -/
def Ff.trace (ff : Ff) : List FlashAccess := ff.flash.log

/-- All that was done in between was done inside the partition. -/
abbrev Stays (ff ff' : Ff) : Prop := AddsOnly Ff.trace FlashAccess.Inside ff ff'

section Reads

variable {mem : Memory} {ff ff' ff'' : Ff} {i : ℕ} {as : List FlashAccess}

lemma stays_iff (h : ff'.trace = ff.trace ++ as) : Stays ff ff' ↔ ∀ a ∈ as, a.Inside :=
  addsOnly_iff h

lemma stays_trans_iff (h : Extends Ff.trace ff ff') (h' : Extends Ff.trace ff' ff'') :
    Stays ff ff'' ↔ Stays ff ff' ∧ Stays ff' ff'' := addsOnly_trans_iff h h'

lemma stays_logged_iff : Stays ff (ff.logged as) ↔ ∀ a ∈ as, a.Inside := stays_iff rfl

lemma headerAt_start_lt (h : sectorValid mem i = true) :
    (headerAt mem i).startSector < diskSectorMax := by
  obtain ⟨hcheck, hstart⟩ := Bool.and_eq_true_iff.mp h
  rw [headerAt, if_pos hcheck]
  exact ((formatCheck_iff _).mp hstart).start_lt

lemma headerReads_inside_iff (mem : Memory) (i : ℕ) :
    (∀ a ∈ headerReads mem i, a.Inside) ↔ OnDisk i := by
  rw [headerReads, List.forall_mem_cons, read_inside_iff (by decide) (by decide),
    and_iff_left_iff_imp]
  intro _ a ha
  split_ifs at ha with hcheck
  · obtain rfl := List.mem_singleton.mp ha
    have hstart := ((formatCheck_iff _).mp hcheck).start_lt
    exact (read_inside_iff (by decide) (by decide)).mpr (onDisk_of_lt hstart)
  · exact absurd ha List.not_mem_nil

lemma openReads_inside_iff (mem : Memory) (fileName : List UInt8) (mode : UInt8) (i : ℕ) :
    (∀ a ∈ openReads mem fileName mode i, a.Inside) ↔ OnDisk i := by
  rw [openReads, List.forall_mem_append, headerReads_inside_iff, and_iff_left_iff_imp]
  intro _ a ha
  split_ifs at ha with hfile
  · obtain rfl := List.mem_singleton.mp ha
    exact (read_inside_iff (by decide) (by decide)).mpr (onDisk_of_lt (headerAt_start_lt hfile.1))
  · exact absurd ha List.not_mem_nil

/-- A search stays in the partition exactly if it stops before the sector behind it. -/
lemma scan_inside_iff {reads : ℕ → List FlashAccess}
    (hreads : ∀ j, (∀ a ∈ reads j, a.Inside) ↔ OnDisk j) {js : List ℕ}
    (hle : ∀ j ∈ js, j ≤ diskSectorMax) :
    (∀ a ∈ js.flatMap reads, a.Inside) ↔ ∀ j ∈ js, j < diskSectorMax := by
  rw [List.forall_mem_flatMap]
  refine forall₂_congr fun j hj => (hreads j).trans ?_
  have hmax : diskSectorMax = 110 := rfl
  have hj' := hle j hj
  rw [OnDisk]
  omega

end Reads

section Scans

variable {r t : ℕ} {pre post : List ℕ} {P : ℕ → Prop}

/-- Where a search stops. -/
lemma stop_lt_iff (hr : r < diskSectorMax) (horder : scanOrder r = pre ++ t :: post)
    (hpre : ∀ j ∈ pre, ¬ P j) (ht : P t) :
    t < diskSectorMax ↔ ∃ i < diskSectorMax, i ≠ r ∧ P i := by
  rcases scanOrder_stop hr horder with ⟨hlt, hne, -⟩ | ⟨rfl, hall⟩
  · exact iff_of_true hlt ⟨t, hlt, hne, ht⟩
  · refine iff_of_false (Nat.lt_irrefl _) ?_
    rintro ⟨i, hi, hne, hP⟩
    exact hpre i (hall i hi hne) hP

/-- The sectors before it. -/
lemma before_stop_lt (hr : r < diskSectorMax) (horder : scanOrder r = pre ++ t :: post)
    (ht : t < diskSectorMax) : ∀ j ∈ pre, j < diskSectorMax := by
  rcases scanOrder_stop hr horder with ⟨-, -, hpre⟩ | ⟨rfl, -⟩
  · exact hpre
  · exact absurd ht (Nat.lt_irrefl _)

lemma scan_stops_inside_iff (hr : r < diskSectorMax) (horder : scanOrder r = pre ++ t :: post)
    {reads : ℕ → List FlashAccess} (hreads : ∀ j, (∀ a ∈ reads j, a.Inside) ↔ OnDisk j) {Q : Prop}
    (hQ : Q ↔ OnDisk t) :
    ((∀ a ∈ pre.flatMap reads, a.Inside) ∧ Q) ↔ t < diskSectorMax := by
  have hle : ∀ j ∈ scanOrder r, j ≤ diskSectorMax := fun j hj => ((mem_scanOrder hr).mp hj).1
  have hmax : diskSectorMax = 110 := rfl
  have ht := hle t (horder ▸ List.mem_append_right _ List.mem_cons_self)
  have hon : OnDisk t ↔ t < diskSectorMax := by
    rw [OnDisk]
    omega
  rw [scan_inside_iff hreads fun j hj => hle j (horder ▸ List.mem_append_left _ hj), hQ, hon,
    and_iff_right_iff_imp]
  exact before_stop_lt hr horder

/-- A search that does not stop leaves the partition. -/
lemma scan_not_inside (hr : r < diskSectorMax) {reads : ℕ → List FlashAccess}
    (hreads : ∀ j, (∀ a ∈ reads j, a.Inside) ↔ OnDisk j) :
    ¬ ∀ a ∈ (scanOrder r).flatMap reads, a.Inside := by
  rw [scan_inside_iff hreads fun j hj => ((mem_scanOrder hr).mp hj).1]
  exact fun h => Nat.lt_irrefl _
    (h diskSectorMax ((mem_scanOrder hr).mpr ⟨Nat.le_refl _, (Nat.ne_of_lt hr).symm⟩))

end Scans

lemma rand_lt (ff : Ff) : ff.rand ff.drawn % diskSectorMax < diskSectorMax :=
  Nat.mod_lt _ (by decide)

section Steps

variable {ff : Ff} {sector offset : ℕ} {fil : AmpmFil} {buf : List UInt8}

lemma readFil_stays (h : OnDisk sector) (hfit : offset + sizeofAmpmFil ≤ 4096) :
    Stays ff (readFil ff sector offset).2 := by
  rw [readFil_eq]
  exact stays_logged_iff.mpr
    (List.forall_mem_singleton.mpr ((read_inside_iff (by decide) hfit).mpr h))

lemma readHeader_stays (ff : Ff) (h : sector < diskSectorMax) :
    Stays ff (readHeader ff sector).2.2 := by
  rw [readHeader_eq]
  exact stays_logged_iff.mpr ((headerReads_inside_iff _ _).mpr (onDisk_of_lt h))

lemma readHeader_start_lt (h : (readHeader ff sector).1 = true) :
    (readHeader ff sector).2.1.startSector < diskSectorMax := by
  rw [readHeader_eq] at h ⊢
  exact headerAt_start_lt h

lemma ampmFlashEraseSector_stays (h : OnDisk sector) :
    Stays ff (ampmFlashEraseSector ff (ffAddr sector 0)) :=
  (stays_iff rfl).mpr
    (List.forall_mem_singleton.mpr ((erase_inside_iff (by decide)).mpr h))

lemma ffAddr_mod_block (sector : ℕ) (h : offset < 4096) : ffAddr sector offset % 4096 = offset := by
  rw [ffAddr]
  omega

lemma pageLog_of_fits {addr count : ℕ} (h : addr % 4096 + count ≤ 4096) :
    pageLog addr count =
      (if addr % 4096 = 0 then [.erase addr] else []) ++ [.program addr count, .read addr count] := by
  simp [pageLog, overlapCount_of_fits h]

/-- A write of a page into a sector. -/
lemma pageLog_inside {count : ℕ} (h : OnDisk sector) (hpos : 0 < count)
    (hfit : offset + count ≤ 4096) : ∀ a ∈ pageLog (ffAddr sector offset) count, a.Inside := by
  have hoffset : offset < 4096 := by omega
  rw [pageLog_of_fits ((ffAddr_mod_block sector hoffset).symm ▸ hfit), List.forall_mem_append,
    List.forall_mem_cons,
    List.forall_mem_singleton]
  refine ⟨fun a ha => ?_, (program_inside_iff hpos hfit).mpr h,
    (read_inside_iff hpos hfit).mpr h⟩
  split_ifs at ha
  · obtain rfl := List.mem_singleton.mp ha
    exact (erase_inside_iff hoffset).mpr h
  · exact absurd ha List.not_mem_nil

lemma ampmFlashWrite_trace {addr : ℕ} (hlen : buf.length ≤ 256) :
    (ampmFlashWrite ff addr buf).2.trace = ff.trace ++ pageLog addr buf.length :=
  sst25Write_log ff.flash addr hlen

lemma ampmFlashWrite_extends (addr : ℕ) (hlen : buf.length ≤ 256) :
    Extends Ff.trace ff (ampmFlashWrite ff addr buf).2 := ⟨_, ampmFlashWrite_trace hlen⟩

lemma writeFil_extends (ff : Ff) (sector offset : ℕ) (fil : AmpmFil) :
    Extends Ff.trace ff (writeFil ff sector offset fil).2 :=
  ampmFlashWrite_extends _ (length_bytes fil ▸ by decide)

lemma ampmFlashWrite_stays (h : OnDisk sector) (hpos : 0 < buf.length)
    (hlen : buf.length ≤ 256) (hfit : offset + buf.length ≤ 4096) :
    Stays ff (ampmFlashWrite ff (ffAddr sector offset) buf).2 :=
  (stays_iff (ampmFlashWrite_trace hlen)).mpr (pageLog_inside h hpos hfit)

lemma writeFil_stays (h : OnDisk sector) (hfit : offset + sizeofAmpmFil ≤ 4096) :
    Stays ff (writeFil ff sector offset fil).2 := by
  have hlen := length_bytes fil
  have hsize : sizeofAmpmFil = 68 := rfl
  exact ampmFlashWrite_stays h (by omega) (by omega) (by omega)

end Steps

section FindFreeSector

variable {ff : Ff}

lemma ampmFFindFreeSector_extends (ff : Ff) : Extends Ff.trace ff (ampmFFindFreeSector ff).2 := by
  rcases ampmFFindFreeSector_spec ff with ⟨pre, t, post, -, -, -, heq⟩ | ⟨-, heq⟩
  · rw [heq]
    exact ⟨_, rfl⟩
  · rw [heq]
    exact ⟨_, rfl⟩

/-- `ampm_f_find_free_sector` stays in the partition exactly if it finds something there. -/
lemma ampmFFindFreeSector_stays_iff (ff : Ff) :
    Stays ff (ampmFFindFreeSector ff).2 ↔ FindsSector ff := by
  rcases ampmFFindFreeSector_spec ff with ⟨pre, t, post, horder, hpre, ht, heq⟩ | ⟨hall, heq⟩
  · have hpre' : ∀ j ∈ pre, ¬ sectorValid ff.flash.mem j = false := fun j hj =>
      Bool.not_eq_false _ ▸ hpre j hj
    have hlog : (ampmFFindFreeSector ff).2.trace = ff.trace ++
        (pre.flatMap (headerReads ff.flash.mem) ++ headerReads ff.flash.mem t) := by
      rw [heq, List.flatMap_append, List.flatMap_singleton]
      rfl
    rw [FindsSector, ← stop_lt_iff (rand_lt ff) horder hpre' ht,
      ← scan_stops_inside_iff (rand_lt ff) horder (headerReads_inside_iff ff.flash.mem)
        (headerReads_inside_iff ff.flash.mem t), ← List.forall_mem_append]
    exact stays_iff hlog
  · have hnot := scan_not_inside (rand_lt ff) (headerReads_inside_iff ff.flash.mem)
    rw [heq]
    refine iff_of_false (fun hstays => hnot ((stays_iff rfl).mp hstays)) ?_
    rintro ⟨i, hi, hne, hfree⟩
    have hvalid := hall i ((mem_scanOrder (rand_lt ff)).mpr ⟨Nat.le_of_lt hi, hne⟩)
    exact Bool.false_ne_true (hfree.symm.trans hvalid)

lemma ampmFFindFreeSector_found (h : FindsSector ff) :
    ∃ t < diskSectorMax, (ampmFFindFreeSector ff).1 = some t ∧
      sectorValid ff.flash.mem t = false := by
  rcases ampmFFindFreeSector_spec ff with ⟨pre, t, post, horder, hpre, ht, heq⟩ | ⟨hall, heq⟩
  · have hpre' : ∀ j ∈ pre, ¬ sectorValid ff.flash.mem j = false := fun j hj =>
      Bool.not_eq_false _ ▸ hpre j hj
    exact ⟨t, (stop_lt_iff (rand_lt ff) horder hpre' ht).mpr h, by rw [heq], ht⟩
  · obtain ⟨i, hi, hne, hfree⟩ := h
    have hvalid := hall i ((mem_scanOrder (rand_lt ff)).mpr ⟨Nat.le_of_lt hi, hne⟩)
    exact absurd (hfree.symm.trans hvalid) Bool.false_ne_true

end FindFreeSector

/-! ## The operations that never leave the partition -/

section Whole

/-- A loop that goes on while its body returns nothing. -/
lemma untilSome_stays {σ ρ : Type*} {body : ℕ → σ → Option ρ × σ} {f : σ → Ff} :
    ∀ (is : List ℕ) (s : σ), (∀ i ∈ is, ∀ t, Stays (f t) (f (body i t).2)) →
      Stays (f s) (f (untilSome body is s).2)
  | [], s, _ => addsOnly_refl (f s)
  | i :: is, s, h => by
      have hfirst := h i List.mem_cons_self s
      rw [untilSome]
      split_ifs
      · exact hfirst
      · exact hfirst.trans (untilSome_stays is _ fun j hj => h j (List.mem_cons_of_mem _ hj))

variable (ff : Ff)

lemma ampmFDiskFormat_stays : Stays ff (ampmFDiskFormat ff) :=
  addsOnly_foldl _ fun _ hi _ => ampmFlashEraseSector_stays (onDisk_of_lt (List.mem_range.mp hi))

lemma ampmFDiskCleanup_stays : Stays ff (ampmFDiskCleanup ff) := by
  refine addsOnly_foldl _ fun i hi t => ?_
  have hheader := readHeader_stays t (List.mem_range.mp hi)
  simp only
  split_ifs with hvalid hfirst hclosed
  · have hstart := onDisk_of_lt (readHeader_start_lt hvalid)
    have hagain := ((formatCheck_iff _).mp hfirst).start_lt
    exact (hheader.trans (readFil_stays hstart (by decide))).trans
      (readFil_stays (onDisk_of_lt hagain) (by decide))
  · have hstart := onDisk_of_lt (readHeader_start_lt hvalid)
    have hagain := ((formatCheck_iff _).mp hfirst).start_lt
    exact ((hheader.trans (readFil_stays hstart (by decide))).trans
      (readFil_stays (onDisk_of_lt hagain) (by decide))).trans (ampmFlashEraseSector_stays hstart)
  · exact hheader.trans
      (readFil_stays (onDisk_of_lt (readHeader_start_lt hvalid)) (by decide))
  · exact hheader

lemma ampmFSearchfile_stays (fil : AmpmFil) : Stays ff (ampmFSearchfile ff fil).2.2 := by
  refine untilSome_stays (f := Prod.snd) _ (fil, ff) fun i hi t => ?_
  have hheader := readHeader_stays t.2 (List.mem_range.mp hi)
  simp only
  by_cases hvalid : (readHeader t.2 i).1 = true
  · rw [if_pos hvalid]
    exact hheader.trans
      (readFil_stays (onDisk_of_lt (readHeader_start_lt hvalid)) (by decide))
  · rw [if_neg hvalid]
    exact hheader

lemma ampmFUnlink_stays (fileName : List UInt8) : Stays ff (ampmFUnlink ff fileName).2 := by
  refine untilSome_stays (f := id) _ ff fun i hi t => ?_
  have hlt := List.mem_range.mp hi
  have hheader := readHeader_stays t hlt
  simp only [id]
  split_ifs with hvalid
  · have hstart := readHeader_start_lt (Bool.and_eq_true_iff.mp hvalid).1
    exact (hheader.trans (ampmFlashEraseSector_stays (onDisk_of_lt hstart))).trans
      (ampmFlashEraseSector_stays (onDisk_of_lt hlt))
  · exact hheader

/-- The number of free sectors. -/
lemma ampmFGetfree_eq :
    ampmFGetfree ff = ((List.range diskSectorMax).countP fun i => !sectorValid ff.flash.mem i,
      ff.logged ((List.range diskSectorMax).flatMap (headerReads ff.flash.mem))) := by
  have hloop : ∀ (is : List ℕ) (n : ℕ) (t : Ff), t.flash.mem = ff.flash.mem →
      is.foldl (fun s i => (if (readHeader s.2 i).1 = true then s.1 else s.1 + 1,
        (readHeader s.2 i).2.2)) (n, t) =
        (n + is.countP fun i => !sectorValid ff.flash.mem i,
          t.logged (is.flatMap (headerReads ff.flash.mem))) := by
    intro is
    induction is with
    | nil => simp
    | cons i is ih =>
        intro n t ht
        rw [List.foldl_cons, ih _ _ (by rw [readHeader_eq]; exact ht), readHeader_eq, ht,
          logged_logged, List.flatMap_cons, List.countP_cons]
        cases sectorValid ff.flash.mem i <;> simp [Nat.add_comm, Nat.add_assoc]
  exact (hloop _ 0 ff rfl).trans (by rw [Nat.zero_add])

lemma ampmFGetfree_pos_iff :
    0 < (ampmFGetfree ff).1 ↔ ∃ i < diskSectorMax, sectorValid ff.flash.mem i = false := by
  rw [ampmFGetfree_eq, List.countP_pos_iff]
  simp only [List.mem_range, Bool.not_eq_true']

lemma ampmFGetfree_stays : Stays ff (ampmFGetfree ff).2 := by
  rw [ampmFGetfree_eq, stays_logged_iff, List.forall_mem_flatMap]
  exact fun i hi => (headerReads_inside_iff _ _).mpr (onDisk_of_lt (List.mem_range.mp hi))

end Whole

end Ampm
