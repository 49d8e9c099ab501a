import AmpmGsm.Flash.Headers
import AmpmGsm.Flash.Allocation

/-!
# What the functions do to the headers

After every command that a function gives, and so also if the power goes before the next one.

* `Tidies` — there are no new files, and the headers are rooted if they were.
* `Spares` — the sectors of other files than one are as they were.
* `TakesFor`, `EachTakes` — what is asked of the sectors that `ampm_f_write` takes.
* `ClosesInside` — what is asked of the last block.
* `writeCommands_tidies`, `closeCommands_tidies`, `unlinkCommands_tidies` — the functions, and under
  which conditions.
-/

namespace Ampm

open NorFlash Runs Directories

/-! ## Relations between images -/

/-- There are no new files, and the headers are rooted if they were. -/
def Tidies (mem mem' : Memory) : Prop := Tidy (headersOf mem) (headersOf mem')

/-- The sector is one of a file that does not begin at `s`. -/
def OtherFile (s : ℕ) (mem : Memory) (u : ℕ) : Prop :=
  ∃ s' n n', headersOf mem u = some (s', n) ∧ Begins (headersOf mem) n' s' ∧ s' ≠ s

/-- The sectors of all files but the one that begins at `s` are as they were. -/
def Spares (s : ℕ) (mem mem' : Memory) : Prop := ∀ u, OtherFile s mem u → SameSector u mem mem'

section Relations

variable {mem mem' mem'' : Memory} {s t off u : ℕ} {bytes : List UInt8}

lemma Tidies.trans (h : Tidies mem mem') (h' : Tidies mem' mem'') : Tidies mem mem'' :=
  Tidy.trans h h'

lemma tidies_of_eq (h : headersOf mem' = headersOf mem) : Tidies mem mem' := by
  rw [Tidies, h]
  exact Tidy.refl _

lemma tidies_append {cs cs' : List FlashCommand} (h : Along FlashCommand.apply Tidies mem cs)
    (h' : Along FlashCommand.apply Tidies (run FlashCommand.apply mem cs) cs') :
    Along FlashCommand.apply Tidies mem (cs ++ cs') :=
  h.append Tidies.trans h'

lemma OtherFile.start (h : OtherFile s mem u) :
    ∃ s' n n', headersOf mem u = some (s', n) ∧ Begins (headersOf mem) n' s' ∧ s' ≠ s ∧
      OtherFile s mem s' := by
  obtain ⟨s', n, n', hu, hs', hne⟩ := h
  exact ⟨s', n, n', hu, hs', hne, s', n', n', hs', hs', hne⟩

lemma OtherFile.valid (h : OtherFile s mem u) : sectorValid mem u = true := by
  obtain ⟨s', n, n', hu, hs', -⟩ := h
  exact (sectorValid_iff (headersOf_le hu)).mpr ⟨s', n, _, hu, hs'⟩

lemma Spares.refl (s : ℕ) (mem : Memory) : Spares s mem mem := fun u _ => SameSector.refl u mem

lemma Spares.otherFile (h : Spares s mem mem') (hu : OtherFile s mem u) : OtherFile s mem' u := by
  obtain ⟨s', n, n', hu', hs', hne, hother⟩ := hu.start
  refine ⟨s', n, n', ?_, ?_, hne⟩
  · rw [(h u hu).headersOf_eq, hu']
  · rw [Begins, (h s' hother).headersOf_eq]
    exact hs'

lemma Spares.trans (h : Spares s mem mem') (h' : Spares s mem' mem'') : Spares s mem mem'' :=
  fun u hu => (h u hu).trans (h' u (h.otherFile hu))

end Relations

/-! ## Pages -/

section Pages

variable {mem : Memory} {s t off : ℕ} {buf : List UInt8} {fil : AmpmFil}

/-- A page behind the header is one command. -/
lemma pageCommands_behind (s : ℕ) (hlow : 0 < off) (hoff : off < 4096)
    (hfit : off + buf.length ≤ 4096) :
    pageCommands (ffAddr s off) buf = [.program (ffAddr s off) buf] := by
  have hmod : ffAddr s off % 4096 = off := ffAddr_mod_block s hoff
  have hover : overlapCount (ffAddr s off) buf.length = 0 := overlapCount_of_fits (hmod.symm ▸ hfit)
  simp [pageCommands, hover, hmod, Nat.ne_of_gt hlow]

/-- A header is two. -/
lemma pageCommands_header (s : ℕ) (fil : AmpmFil) : pageCommands (ffAddr s 0) fil.bytes =
    [.erase (ffAddr s 0), .program (ffAddr s 0) fil.bytes] := by
  have hmod : ffAddr s 0 % 4096 = 0 := ffAddr_mod_block s (by decide)
  have hlen : fil.bytes.length ≤ 4096 := by
    rw [length_bytes]
    decide
  have hover : overlapCount (ffAddr s 0) fil.bytes.length = 0 := by
    refine overlapCount_of_fits ?_
    rwa [hmod, Nat.zero_add]
  simp only [pageCommands, hover, hmod, Nat.sub_zero, List.take_length]
  rfl

lemma headersOf_page (hs : s ≤ diskSectorMax) (hlow : sizeofAmpmFil ≤ off) (hoff : off < 4096)
    (hfit : off + buf.length ≤ 4096) :
    headersOf (run FlashCommand.apply mem (pageCommands (ffAddr s off) buf)) = headersOf mem := by
  rw [pageCommands_behind s (Nat.lt_of_lt_of_le (by decide) hlow) hoff hfit]
  exact headersOf_program hs hlow hfit hoff

/-- Behind the header nothing changes for the directory. -/
lemma page_tidies (mem : Memory) (buf : List UInt8) (hs : s ≤ diskSectorMax)
    (hlow : sizeofAmpmFil ≤ off)
    (hoff : off < 4096) (hfit : off + buf.length ≤ 4096) :
    Along FlashCommand.apply Tidies mem (pageCommands (ffAddr s off) buf) := by
  rw [pageCommands_behind s (Nat.lt_of_lt_of_le (by decide) hlow) hoff hfit]
  exact ⟨tidies_of_eq rfl, tidies_of_eq (headersOf_program hs hlow hfit hoff)⟩

/-- Another sector of a file gets its header. -/
lemma header_tidies (ht : t ≤ diskSectorMax) (hlt : fil.startSector < diskSectorMax)
    (hs : ∀ e, headersOf mem fil.startSector = some e → e.1 = fil.startSector)
    (hne : fil.startSector ≠ t) (hunnamed : Unnamed (headersOf mem) t) :
    Along FlashCommand.apply Tidies mem (pageCommands (ffAddr t 0) fil.bytes) := by
  have herased := headersOf_erase mem ht
  have hword : fil.startSector < 2 ^ 32 := Nat.lt_trans hlt (by decide)
  rw [pageCommands_header]
  exact ⟨tidies_of_eq rfl, tidy_of_erased herased.2 herased.1,
    (headersOf_header mem ht hword).tidy hs hne hunnamed⟩

end Pages

/-! ## Writing -/

/-- What is asked of a sector that is taken for the file that begins at `start`: it is not that one
and no other header names it, and `start` is not a sector of another file by now. -/
def TakesFor (mem : Memory) (start t : ℕ) : Prop :=
  (∀ e, headersOf mem start = some e → e.1 = start) ∧ start ≠ t ∧ Unnamed (headersOf mem) t

/-- If the byte fills a sector, and the last block of it is written, the sector that is found then
is as `P` asks. -/
def Takes (P : Memory → ℕ → ℕ → Prop) (ff : Ff) (fil : AmpmFil) (c : UInt8) : Prop :=
  let put := ff.put (fil.fileOffset % 256) c
  let w := ampmFlashWrite put
    (ffAddr fil.grow.currentSector (sub32 fil.grow.fileOffset 256 % diskSectorSize + 256))
    put.buffer
  fil.grow.fileOffset % diskSectorSize = 0 → w.1 = .frOk →
    ∀ t, (ampmFFindFreeSector w.2).1 = some t → P w.2.flash.mem fil.startSector t

/-- That is so at each byte that `ampm_f_write` takes. -/
def EachTakes (P : Memory → ℕ → ℕ → Prop) (buff : List UInt8) (btr : ℕ) :
    ℕ → ℕ → AmpmFil → Ff → Prop
  | 0, _, _, _ => True
  | fuel + 1, i, fil, ff =>
      i < btr →
        let r := ampmFWriteByte ff fil (buff.getD i 0)
        Takes P ff fil (buff.getD i 0) ∧
          (r.1 = .frOk → EachTakes P buff btr fuel ((i + 1) % 2 ^ 16) r.2.1 r.2.2)

section Write

variable {R : Memory → Memory → Prop} {ff : Ff} {fil : AmpmFil}

lemma ampmFFindFreeSector_free {t : ℕ} (h : (ampmFFindFreeSector ff).1 = some t) :
    t ≤ diskSectorMax ∧ sectorValid ff.flash.mem t = false := by
  rcases ampmFFindFreeSector_spec ff with ⟨pre, t', post, horder, -, hfree, heq⟩ | ⟨-, heq⟩
  · rw [heq] at h
    obtain rfl := Option.some.inj h
    have hmem : t' ∈ scanOrder (ff.rand ff.drawn % diskSectorMax) :=
      horder ▸ List.mem_append_right _ List.mem_cons_self
    exact ⟨((mem_scanOrder (rand_lt ff)).mp hmem).1, hfree⟩
  · rw [heq] at h
    cases h

/-- The link and the header of another sector. -/
lemma sectorCommands_along (hrefl : ∀ mem, R mem mem)
    (htrans : ∀ {a b c}, R a b → R b c → R a c)
    (hpages : ∀ t, (ampmFFindFreeSector ff).1 = some t →
      Along FlashCommand.apply R ff.flash.mem
          (pageCommands (ffAddr fil.currentSector sizeofAmpmFil) (fil.linkTo t).bytes) ∧
        Along FlashCommand.apply R (run FlashCommand.apply ff.flash.mem
            (pageCommands (ffAddr fil.currentSector sizeofAmpmFil) (fil.linkTo t).bytes))
          (pageCommands (ffAddr t 0) ((fil.linkTo t).moveTo t).bytes)) :
    Along FlashCommand.apply R ff.flash.mem (sectorCommands ff fil) := by
  simp only [sectorCommands]
  rcases hfind : ampmFFindFreeSector ff with ⟨_ | t, ff'⟩
  · exact along_nil (hrefl _)
  · obtain ⟨hlink, hheader⟩ := hpages t (by rw [hfind])
    refine hlink.append htrans ?_
    split
    · exact along_nil (hrefl _)
    · exact hheader

/-- A block, and then perhaps another sector. -/
lemma blockCommands_along (fil : AmpmFil) {addr : ℕ} (hf : ff.flash.Faultless)
    (hrefl : ∀ mem, R mem mem)
    (htrans : ∀ {a b c}, R a b → R b c → R a c)
    (haddr : ffAddr fil.currentSector (sub32 fil.fileOffset 256 % diskSectorSize + 256) = addr)
    (hdata : Along FlashCommand.apply R ff.flash.mem (pageCommands addr ff.buffer))
    (hsector : ∀ ff', ampmFlashWrite ff addr ff.buffer = (.frOk, ff') →
      fil.fileOffset % diskSectorSize = 0 →
      Along FlashCommand.apply R ff'.flash.mem (sectorCommands ff' fil)) :
    Along FlashCommand.apply R ff.flash.mem (blockCommands ff fil) := by
  have hmem := (ampmFlashWrite_commanded hf addr (Nat.le_of_eq (length_buffer ff))).mem
  simp only [blockCommands, haddr]
  rcases hw : ampmFlashWrite ff addr ff.buffer with ⟨_ | _, ff'⟩
  · rw [hw] at hmem
    refine hdata.append htrans ?_
    simp only
    rw [← hmem]
    split_ifs with hfull
    · exact hsector ff' hw hfull
    · exact along_nil (hrefl _)
  · exact hdata.append htrans (along_nil (hrefl _))

/-- All bytes, if `J` holds of the handle all the time. -/
lemma loopCommands_along (J : AmpmFil → Memory → Prop) {P : Memory → ℕ → ℕ → Prop}
    (hrefl : ∀ mem, R mem mem) (htrans : ∀ {a b c}, R a b → R b c → R a c)
    (hbyte : ∀ {ff : Ff} {fil : AmpmFil} {c : UInt8}, ff.flash.Faultless → J fil ff.flash.mem →
      Takes P ff fil c → Along FlashCommand.apply R ff.flash.mem (byteCommands ff fil c) ∧
        ((ampmFWriteByte ff fil c).1 = .frOk →
          J (ampmFWriteByte ff fil c).2.1 (ampmFWriteByte ff fil c).2.2.flash.mem))
    (buff : List UInt8) (btr : ℕ) :
    ∀ (fuel i : ℕ) (fil : AmpmFil) (ff : Ff), ff.flash.Faultless → J fil ff.flash.mem →
      EachTakes P buff btr fuel i fil ff →
      Along FlashCommand.apply R ff.flash.mem (loopCommands buff btr fuel i fil ff)
  | 0, _, _, _, _, _, _ => along_nil (hrefl _)
  | fuel + 1, i, fil, ff, hf, hJ, htakes => by
      rw [loopCommands]
      split_ifs with hi
      · obtain ⟨hfirst, hrest⟩ := htakes hi
        obtain ⟨halong, hnext⟩ := hbyte hf hJ hfirst
        have hcommanded := ampmFWriteByte_commanded hf fil (buff.getD i 0)
        refine halong.append htrans ?_
        rw [← hcommanded.mem]
        rcases hr : ampmFWriteByte ff fil (buff.getD i 0) with ⟨_ | _, fil', ff'⟩
        · rw [hr] at hrest hnext hcommanded
          exact loopCommands_along J hrefl htrans hbyte buff btr fuel _ fil' ff'
            hcommanded.faultless (hnext rfl) (hrest rfl)
        · exact along_nil (hrefl _)
      · exact along_nil (hrefl _)

lemma sectorValid_congr {mem mem' : Memory} {t : ℕ} (h : headersOf mem' = headersOf mem)
    (ht : t ≤ diskSectorMax) : sectorValid mem' t = sectorValid mem t := by
  rw [Bool.eq_iff_iff, sectorValid_iff ht, sectorValid_iff ht, h]

/-- A full block lies behind the header, and ends in the sector in which it begins. -/
lemma block_fits {n : ℕ} (h : n % 256 = 0) : sizeofAmpmFil ≤ sub32 n 256 % diskSectorSize + 256 ∧
    sub32 n 256 % diskSectorSize + 256 < 4096 ∧
      sub32 n 256 % diskSectorSize + 256 + 256 ≤ 4096 := by
  unfold sub32 diskSectorSize sizeofAmpmFil
  omega

lemma byteCommands_eq (ff : Ff) (fil : AmpmFil) (c : UInt8) :
    byteCommands ff fil c =
      if fil.grow.fileOffset % 256 = 0 then
        blockCommands (ff.put (fil.fileOffset % 256) c) fil.grow
      else [] := rfl

/-- The link is written behind the header. -/
lemma headersOf_link {mem : Memory} {s : ℕ} (hs : s ≤ diskSectorMax) (link : AmpmFil) :
    headersOf (run FlashCommand.apply mem (pageCommands (ffAddr s sizeofAmpmFil) link.bytes)) =
      headersOf mem :=
  headersOf_page hs (Nat.le_refl _) (by decide) (by rw [length_bytes]; decide)

/-- The sectors of the handle after a byte. -/
lemma ampmFWriteByte_sectors {c : UInt8} (hcurrent : fil.currentSector ≤ diskSectorMax)
    (hok : (ampmFWriteByte ff fil c).1 = .frOk) :
    (ampmFWriteByte ff fil c).2.1.currentSector ≤ diskSectorMax ∧
      (ampmFWriteByte ff fil c).2.1.startSector = fil.startSector := by
  rw [ampmFWriteByte_eq] at hok ⊢
  split_ifs at hok ⊢
  · obtain ⟨ff', -, ⟨-, heq⟩ | ⟨-, hok', heq⟩⟩ := ampmFWriteBlock_ok hok
    · rw [heq]
      exact ⟨hcurrent, rfl⟩
    · obtain ⟨t, ff'', l, h, hfind, -, -, heq'⟩ := ampmFWriteSector_ok hok'
      rw [heq, heq']
      exact ⟨(ampmFFindFreeSector_free (congrArg Prod.fst hfind)).1, rfl⟩
  · exact ⟨hcurrent, rfl⟩

/-- Another sector for the file of the handle. -/
lemma sectorCommands_tidies (hcurrent : fil.currentSector ≤ diskSectorMax)
    (hstart : fil.startSector < diskSectorMax)
    (htakes : ∀ t, (ampmFFindFreeSector ff).1 = some t → TakesFor ff.flash.mem fil.startSector t) :
    Along FlashCommand.apply Tidies ff.flash.mem (sectorCommands ff fil) := by
  refine sectorCommands_along (fun _ => tidies_of_eq rfl) Tidies.trans fun t hfind => ?_
  obtain ⟨hle, -⟩ := ampmFFindFreeSector_free hfind
  obtain ⟨hs, hne, hunnamed⟩ := htakes t hfind
  refine ⟨page_tidies _ _ hcurrent (Nat.le_refl _) (by decide) (by rw [length_bytes]; decide), ?_⟩
  rw [← headersOf_link hcurrent (fil.linkTo t)] at hs hunnamed
  exact header_tidies hle hstart hs hne hunnamed

/-- One byte. -/
lemma byteCommands_tidies {c : UInt8} (hf : ff.flash.Faultless)
    (hcurrent : fil.currentSector ≤ diskSectorMax) (hstart : fil.startSector < diskSectorMax)
    (htakes : Takes TakesFor ff fil c) :
    Along FlashCommand.apply Tidies ff.flash.mem (byteCommands ff fil c) := by
  rw [byteCommands_eq]
  split_ifs with hblock
  · have hfits := block_fits hblock
    have hf' : (ff.put (fil.fileOffset % 256) c).flash.Faultless := hf
    have hcurrent' : fil.grow.currentSector ≤ diskSectorMax := hcurrent
    have hpage := page_tidies ff.flash.mem (ff.put (fil.fileOffset % 256) c).buffer
      hcurrent' hfits.1 hfits.2.1 (by rw [length_buffer]; exact hfits.2.2)
    refine blockCommands_along fil.grow hf' (fun _ => tidies_of_eq rfl) Tidies.trans rfl hpage
      fun ff' hw hfull => ?_
    refine sectorCommands_tidies hcurrent' hstart fun t hfind => ?_
    have htake := htakes hfull
    simp only [hw] at htake
    exact htake trivial t hfind
  · exact along_nil (tidies_of_eq rfl)

/-- `ampm_f_write` makes no files, as long as the first sector of its file is not taken again and no
header names the sectors that it takes. -/
lemma writeCommands_tidies (hf : ff.flash.Faultless) (fuel : ℕ) (buff : List UInt8)
    (htakes : handleOk fil = true → fil.permission = 2 →
      EachTakes TakesFor buff buff.length fuel 0 fil ff) :
    Along FlashCommand.apply Tidies ff.flash.mem (writeCommands fuel ff fil buff) := by
  rw [writeCommands]
  split_ifs with hok
  · obtain ⟨hhandle, hpermission⟩ := Bool.and_eq_true_iff.mp hok
    have hpasses := (handleOk_iff fil).mp hhandle
    refine loopCommands_along
      (fun fil _ => fil.currentSector ≤ diskSectorMax ∧ fil.startSector < diskSectorMax)
      (fun _ => tidies_of_eq rfl) Tidies.trans (fun {ff fil c} hf hle htakes => ?_)
      buff buff.length fuel 0 fil ff hf ⟨Nat.le_of_lt hpasses.current_lt, hpasses.start_lt⟩
      (htakes hhandle (of_decide_eq_true hpermission))
    refine ⟨byteCommands_tidies hf hle.1 hle.2 htakes, fun hok => ?_⟩
    obtain ⟨hcurrent, hstart⟩ := ampmFWriteByte_sectors hle.1 hok
    exact ⟨hcurrent, hstart ▸ hle.2⟩
  · exact along_nil (tidies_of_eq rfl)

end Write

/-! ## Closing, unlinking, opening -/

section Calls

variable {mem : Memory} {ff : Ff} {fil : AmpmFil} {fileName : List UInt8} {s : ℕ}

/-- An entry is gone. -/
lemma erase_tidies (mem : Memory) (hs : s ≤ diskSectorMax) :
    Along FlashCommand.apply Tidies mem [.erase (ffAddr s 0)] := by
  obtain ⟨hnone, hother⟩ := headersOf_erase mem hs
  exact ⟨tidies_of_eq rfl, tidy_of_erased hother hnone⟩

/-- The last block ends in the sector of the handle. -/
def ClosesInside (fil : AmpmFil) : Prop :=
  handleOk fil = true → fil.permission = 2 → closeBlock fil ≤ diskSectorSize - 256

/-- `ampm_f_close` makes no files, as long as the last block ends in the sector where it begins. -/
lemma closeCommands_tidies (ff : Ff) (hfit : ClosesInside fil) :
    Along FlashCommand.apply Tidies ff.flash.mem (closeCommands ff fil) := by
  simp only [closeCommands]
  rw [← closeBlock]
  split_ifs with hok
  · obtain ⟨hhandle, hpermission⟩ := Bool.and_eq_true_iff.mp hok
    have hpasses := (handleOk_iff fil).mp hhandle
    have hblock := hfit hhandle (of_decide_eq_true hpermission)
    have hsize : diskSectorSize - 256 = 3584 := rfl
    have hdata : Along FlashCommand.apply Tidies ff.flash.mem
        (pageCommands (ffAddr fil.currentSector (closeBlock fil + 256)) ff.buffer) :=
      page_tidies ff.flash.mem ff.buffer (Nat.le_of_lt hpasses.current_lt)
        (by rw [sizeofAmpmFil]; omega) (by omega) (by rw [length_buffer]; omega)
    have hrecord : ∀ mem fil', Along FlashCommand.apply Tidies mem
        (pageCommands (ffAddr fil.startSector (2 * sizeofAmpmFil)) (AmpmFil.bytes fil')) :=
      fun mem fil' => page_tidies mem _ (Nat.le_of_lt hpasses.start_lt) (by decide) (by decide)
        (by rw [length_bytes]; decide)
    refine tidies_append (tidies_append hdata (hrecord _ _)) ?_
    split
    · exact along_nil (tidies_of_eq rfl)
    · exact erase_tidies _ (Nat.le_of_lt hpasses.start_lt)
  · exact along_nil (tidies_of_eq rfl)

/-- `ampm_f_unlink` makes no files. -/
lemma unlinkCommands_tidies (mem : Memory) (fileName : List UInt8) :
    Along FlashCommand.apply Tidies mem (unlinkCommands mem fileName) := by
  rcases Option.eq_none_or_eq_some (unlinkSector mem fileName) with hfind | ⟨i, hfind⟩
  · have hcommands : unlinkCommands mem fileName = [] := by
      unfold unlinkCommands
      simp only [hfind]
    rw [hcommands]
    exact along_nil (tidies_of_eq rfl)
  · have hcommands : unlinkCommands mem fileName =
        [.erase (ffAddr (headerAt mem i).startSector 0)] ++ [.erase (ffAddr i 0)] := by
      unfold unlinkCommands
      simp only [hfind]
      rfl
    rw [unlinkSector] at hfind
    have hi : i < diskSectorMax := List.mem_range.mp (List.mem_of_find?_eq_some hfind)
    have hat : UnlinksAt mem fileName i :=
      of_decide_eq_true (List.find?_some (p := fun j => decide (UnlinksAt mem fileName j)) hfind)
    have hstart := erase_tidies mem (Nat.le_of_lt (headerAt_start_lt hat.1))
    rw [hcommands]
    exact tidies_append hstart (erase_tidies _ (Nat.le_of_lt hi))

end Calls

end Ampm
