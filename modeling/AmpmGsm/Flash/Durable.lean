import AmpmGsm.Flash.Accounting
import AmpmGsm.Flash.Recovery
import AmpmGsm.Flash.Reader

/-!
# A closed file stays

What is written, closed, and read later.  In between other files are created, written, closed and
unlinked, and the power may go during any of these calls.

* `page_keeps`, `writeCommands_keeps`, `closeCommands_keeps`, `unlinkCommands_keeps` — the commands
  of a call leave the sectors of a file alone that the handle has not to do with.
* `LedFile`, `KeptFile` — the sectors of a file with their headers, and a closed file.
* `VolumeOp.Apart`, `VolumeEvent.Apart` — a call on another file.
* **`volume_keepsFile`** — every run of these, with losses of power.
* **`volume_roundTrip`** — a file is written and closed, and read after such a run.
-/

namespace Ampm

open NorFlash Runs Directories Function

/-! ## Commands -/

section Pages

variable {mem mem' mem'' : Memory} {chain : List ℕ} {s off : ℕ} {buf : List UInt8} {fil : AmpmFil}

lemma SameSectors.refl (chain : List ℕ) (mem : Memory) : SameSectors chain mem mem :=
  fun s _ => SameSector.refl s mem

lemma SameSectors.trans (h : SameSectors chain mem mem') (h' : SameSectors chain mem' mem'') :
    SameSectors chain mem mem'' := fun s hs => (h s hs).trans (h' s hs)

lemma keeps_append {cs cs' : List FlashCommand}
    (h : Along FlashCommand.apply (SameSectors chain) mem cs)
    (h' : Along FlashCommand.apply (SameSectors chain) (run FlashCommand.apply mem cs) cs') :
    Along FlashCommand.apply (SameSectors chain) mem (cs ++ cs') :=
  h.append SameSectors.trans h'

/-- A page of a sector that is not in the chain. -/
lemma page_keeps (hs : s ≤ diskSectorMax) (hout : s ∉ chain) (hlow : 0 < off) (hoff : off < 4096)
    (hfit : off + buf.length ≤ 4096) :
    Along FlashCommand.apply (SameSectors chain) mem (pageCommands (ffAddr s off) buf) := by
  rw [pageCommands_behind s hlow hoff hfit]
  refine ⟨SameSectors.refl chain mem, fun u hu => sameSector_program hs hoff hfit ?_⟩
  exact fun heq => hout (heq ▸ hu)

/-- The sector is erased. -/
lemma erase_keeps (hs : s ≤ diskSectorMax) (hout : s ∉ chain) :
    SameSectors chain mem (FlashCommand.apply mem (.erase (ffAddr s 0))) :=
  fun _ hu => sameSector_erase hs (by decide) fun heq => hout (heq ▸ hu)

/-- It gets a header. -/
lemma header_keeps (hs : s ≤ diskSectorMax) (hout : s ∉ chain) :
    Along FlashCommand.apply (SameSectors chain) mem (pageCommands (ffAddr s 0) fil.bytes) := by
  have hlen : 0 + fil.bytes.length ≤ 4096 := by
    rw [length_bytes]
    decide
  have herased : SameSectors chain mem (FlashCommand.apply mem (.erase (ffAddr s 0))) :=
    erase_keeps hs hout
  rw [pageCommands_header]
  refine ⟨SameSectors.refl chain mem, herased, herased.trans fun u hu => ?_⟩
  exact sameSector_program hs (by decide) hlen fun heq => hout (heq ▸ hu)

end Pages

/-! ## Writing -/

section Write

variable {ff : Ff} {fil : AmpmFil} {chain : List ℕ}

lemma eachTakes_true (buff : List UInt8) (btr : ℕ) :
    ∀ (fuel i : ℕ) (fil : AmpmFil) (ff : Ff), EachTakes (fun _ _ _ => True) buff btr fuel i fil ff
  | 0, _, _, _ => trivial
  | fuel + 1, _, _, _ => fun _ =>
      ⟨fun _ _ _ _ => trivial, fun _ => eachTakes_true buff btr fuel _ _ _⟩

/-- A sector that was free is not in the chain. -/
lemma notMem_of_free {mem : Memory} {t : ℕ} (h : Owned mem chain)
    (ht : sectorValid mem t = false) : t ∉ chain :=
  fun hmem => Bool.false_ne_true (ht.symm.trans (h.sectorValid hmem))

lemma sectorCommands_keeps (hcurrent : fil.currentSector ≤ diskSectorMax)
    (hout : fil.currentSector ∉ chain) (howned : Owned ff.flash.mem chain) :
    Along FlashCommand.apply (SameSectors chain) ff.flash.mem (sectorCommands ff fil) := by
  refine sectorCommands_along (SameSectors.refl chain) SameSectors.trans fun t hfind => ?_
  obtain ⟨hle, hfree⟩ := ampmFFindFreeSector_free hfind
  exact ⟨page_keeps hcurrent hout (by decide) (by decide) (by rw [length_bytes]; decide),
    header_keeps hle (notMem_of_free howned hfree)⟩

/-- A full block, and the disk behind it. -/
lemma block_keeps (hf : ff.flash.Faultless) (hcurrent : fil.currentSector ≤ diskSectorMax)
    (hout : fil.currentSector ∉ chain) (howned : Owned ff.flash.mem chain)
    (hblock : fil.fileOffset % 256 = 0) {r : AmpmFResult} {ff' : Ff}
    (hw : ampmFlashWrite ff
      (ffAddr fil.currentSector (sub32 fil.fileOffset 256 % diskSectorSize + 256)) ff.buffer =
        (r, ff')) :
    Along FlashCommand.apply (SameSectors chain) ff.flash.mem (pageCommands
        (ffAddr fil.currentSector (sub32 fil.fileOffset 256 % diskSectorSize + 256)) ff.buffer) ∧
      Owned ff'.flash.mem chain := by
  have hfits := block_fits hblock
  have hdata := (ampmFlashWrite_commanded hf
    (ffAddr fil.currentSector (sub32 fil.fileOffset 256 % diskSectorSize + 256))
      (Nat.le_of_eq (length_buffer ff))).mem
  have hpage : Along FlashCommand.apply (SameSectors chain) ff.flash.mem (pageCommands
      (ffAddr fil.currentSector (sub32 fil.fileOffset 256 % diskSectorSize + 256)) ff.buffer) :=
    page_keeps hcurrent hout (Nat.lt_of_lt_of_le (by decide) hfits.1) hfits.2.1
      (by rw [length_buffer]; exact hfits.2.2)
  rw [hw] at hdata
  exact ⟨hpage, howned.congr (hdata ▸ hpage.last)⟩

lemma byteCommands_keeps {c : UInt8} (hf : ff.flash.Faultless)
    (hcurrent : fil.currentSector ≤ diskSectorMax) (hout : fil.currentSector ∉ chain)
    (howned : Owned ff.flash.mem chain) :
    Along FlashCommand.apply (SameSectors chain) ff.flash.mem (byteCommands ff fil c) := by
  rw [byteCommands_eq]
  split_ifs with hblock
  · have hf' : (ff.put (fil.fileOffset % 256) c).flash.Faultless := hf
    have hcurrent' : fil.grow.currentSector ≤ diskSectorMax := hcurrent
    have hout' : fil.grow.currentSector ∉ chain := hout
    have howned' : Owned (ff.put (fil.fileOffset % 256) c).flash.mem chain := howned
    exact blockCommands_along fil.grow hf' (SameSectors.refl chain) SameSectors.trans rfl
      (block_keeps hf' hcurrent' hout' howned' hblock rfl).1 fun ff' hw _ =>
        sectorCommands_keeps hcurrent' hout' (block_keeps hf' hcurrent' hout' howned' hblock hw).2
  · exact along_nil (SameSectors.refl chain _)

/-- The next sector of the handle is not in the chain. -/
lemma ampmFWriteByte_current_notMem {c : UInt8} (hf : ff.flash.Faultless)
    (hcurrent : fil.currentSector ≤ diskSectorMax) (hout : fil.currentSector ∉ chain)
    (howned : Owned ff.flash.mem chain) (hok : (ampmFWriteByte ff fil c).1 = .frOk) :
    (ampmFWriteByte ff fil c).2.1.currentSector ∉ chain := by
  have hf' : (ff.put (fil.fileOffset % 256) c).flash.Faultless := hf
  have hcurrent' : fil.grow.currentSector ≤ diskSectorMax := hcurrent
  have hout' : fil.grow.currentSector ∉ chain := hout
  have howned' : Owned (ff.put (fil.fileOffset % 256) c).flash.mem chain := howned
  rw [ampmFWriteByte_eq] at hok ⊢
  split_ifs at hok ⊢ with hblock
  · obtain ⟨ff', hw, ⟨-, heq⟩ | ⟨-, hok', heq⟩⟩ := ampmFWriteBlock_ok hok
    · rw [heq]
      exact hout
    · obtain ⟨t, ff'', l, h, hfind, -, -, heq'⟩ := ampmFWriteSector_ok hok'
      have howned'' := (block_keeps hf' hcurrent' hout' howned' hblock hw).2
      rw [heq, heq']
      exact notMem_of_free howned'' (ampmFFindFreeSector_free (congrArg Prod.fst hfind)).2
  · exact hout

/-- `ampm_f_write` leaves the sectors alone that its handle is not in. -/
lemma writeCommands_keeps (hf : ff.flash.Faultless) (fuel : ℕ) (buff : List UInt8)
    (howned : Owned ff.flash.mem chain)
    (hout : handleOk fil = true → fil.permission = 2 → fil.currentSector ∉ chain) :
    Along FlashCommand.apply (SameSectors chain) ff.flash.mem (writeCommands fuel ff fil buff) := by
  rw [writeCommands]
  split_ifs with hok
  · obtain ⟨hhandle, hpermission⟩ := Bool.and_eq_true_iff.mp hok
    have hpasses := (handleOk_iff fil).mp hhandle
    refine loopCommands_along
      (fun fil mem => fil.currentSector ≤ diskSectorMax ∧ fil.currentSector ∉ chain ∧
        Owned mem chain)
      (SameSectors.refl chain) SameSectors.trans (fun {ff fil c} hf hJ _ => ?_)
      buff buff.length fuel 0 fil ff hf ⟨Nat.le_of_lt hpasses.current_lt,
        hout hhandle (of_decide_eq_true hpermission), howned⟩ (eachTakes_true _ _ _ _ _ _)
    obtain ⟨hcurrent, hout, howned⟩ := hJ
    have hbyte : Along FlashCommand.apply (SameSectors chain) ff.flash.mem
        (byteCommands ff fil c) := byteCommands_keeps hf hcurrent hout howned
    refine ⟨hbyte, fun hok => ⟨(ampmFWriteByte_sectors hcurrent hok).1,
      ampmFWriteByte_current_notMem hf hcurrent hout howned hok, howned.congr ?_⟩⟩
    rw [(ampmFWriteByte_commanded hf fil c).mem]
    exact hbyte.last
  · exact along_nil (SameSectors.refl chain _)

/-- So does `ampm_f_close`, if it is not the first sector of the handle either. -/
lemma closeCommands_keeps (ff : Ff) (hfit : ClosesInside fil)
    (hout : handleOk fil = true → fil.permission = 2 →
      fil.currentSector ∉ chain ∧ fil.startSector ∉ chain) :
    Along FlashCommand.apply (SameSectors chain) ff.flash.mem (closeCommands ff fil) := by
  simp only [closeCommands]
  rw [← closeBlock]
  split_ifs with hok
  · obtain ⟨hhandle, hpermission⟩ := Bool.and_eq_true_iff.mp hok
    have hpasses := (handleOk_iff fil).mp hhandle
    obtain ⟨hcurrent, hstart⟩ := hout hhandle (of_decide_eq_true hpermission)
    have hblock := hfit hhandle (of_decide_eq_true hpermission)
    have hsize : diskSectorSize - 256 = 3584 := rfl
    have hdata : Along FlashCommand.apply (SameSectors chain) ff.flash.mem
        (pageCommands (ffAddr fil.currentSector (closeBlock fil + 256)) ff.buffer) :=
      page_keeps (Nat.le_of_lt hpasses.current_lt) hcurrent (by omega) (by omega)
        (by rw [length_buffer]; omega)
    have hrecord : ∀ mem fil', Along FlashCommand.apply (SameSectors chain) mem
        (pageCommands (ffAddr fil.startSector (2 * sizeofAmpmFil)) (AmpmFil.bytes fil')) :=
      fun mem fil' => page_keeps (Nat.le_of_lt hpasses.start_lt) hstart (by decide) (by decide)
        (by rw [length_bytes]; decide)
    refine keeps_append (keeps_append hdata (hrecord _ _)) ?_
    split
    · exact along_nil (SameSectors.refl chain _)
    · exact ⟨SameSectors.refl chain _, erase_keeps (Nat.le_of_lt hpasses.start_lt) hstart⟩
  · exact along_nil (SameSectors.refl chain _)

end Write

/-! ## Closed files -/

/-- The sectors of a file: their headers lead to the first one, which has the name. -/
structure LedFile (mem : Memory) (n : List UInt8) (start : ℕ) (chain : List ℕ) : Prop where
  start_mem : start ∈ chain
  lt : ∀ s ∈ chain, s < diskSectorMax
  first : Begins (headersOf mem) n start
  headers : ∀ s ∈ chain, ∃ m, headersOf mem s = some (start, m)

/-- A closed file with a name.  The headers of its sectors lead to the first one. -/
structure KeptFile (mem : Memory) (n : List UInt8) (start : ℕ) (chain : List ℕ)
    (content : List UInt8) : Prop extends ReadableFile mem start chain content where
  first : Begins (headersOf mem) n start
  headers : ∀ s ∈ chain, ∃ m, headersOf mem s = some (start, m)

section Led

variable {mem mem' : Memory} {n : List UInt8} {start s : ℕ} {chain more : List ℕ}

lemma LedFile.owned (h : LedFile mem n start chain) : Owned mem chain := by
  intro s hs
  obtain ⟨m, hm⟩ := h.headers s hs
  obtain ⟨-, hcheck, hstart, -⟩ := headersOf_eq_some.mp hm
  exact ⟨h.lt s hs, hcheck, hstart ▸ h.start_mem⟩

lemma LedFile.congr (h : LedFile mem n start chain) (hsame : SameSectors chain mem mem') :
    LedFile mem' n start chain := by
  refine ⟨h.start_mem, h.lt, ?_, fun s hs => ?_⟩
  · rw [Begins, (hsame start h.start_mem).headersOf_eq]
    exact h.first
  · rw [(hsame s hs).headersOf_eq]
    exact h.headers s hs

/-- A sector of the file where a file begins is its first one. -/
lemma LedFile.eq_of_begins (h : LedFile mem n start chain) (hs : s ∈ chain)
    {m : List UInt8} (hm : Begins (headersOf mem) m s) : s = start := by
  obtain ⟨m', hm'⟩ := h.headers s hs
  exact (Prod.mk.inj (Option.some.inj (hm.symm.trans hm'))).1

lemma LedFile.notMem (h : LedFile mem n start chain) (hs : leadsTo mem start s = false) :
    s ∉ chain := fun hmem =>
  Bool.false_ne_true (hs.symm.trans (leadsTo_iff.mpr (h.headers s hmem)))

/-- The file takes free sectors, and no files are made. -/
lemma LedFile.grow (h : LedFile mem n start chain) (htidies : Tidies mem mem')
    (hroot : Rooted (headersOf mem')) (howned : Owned mem' (chain ++ more))
    (hapart : ∀ ds, Owned mem ds → List.Disjoint chain ds → List.Disjoint (chain ++ more) ds) :
    LedFile mem' n start (chain ++ more) := by
  -- a file that begins in another sector of the chain was there before, and its sector was not free
  have hbegins : ∀ s ∈ chain ++ more, ∀ m, Begins (headersOf mem') m s → s = start := by
    intro s hs m hm
    have hold := htidies.begins m s hm
    by_cases hin : s ∈ chain
    · exact h.eq_of_begins hin hold
    · have hentry := headersOf_eq_some.mp hold
      have hother : Owned mem [s] := by
        intro t ht
        obtain rfl := List.mem_singleton.mp ht
        exact ⟨(howned t hs).1, hentry.2.1, List.mem_singleton.mpr hentry.2.2.1⟩
      exact absurd (List.mem_singleton.mpr rfl)
        (hapart [s] hother (List.disjoint_singleton.mpr hin) hs)
  have hheaders : ∀ s ∈ chain ++ more, ∃ m, headersOf mem' s = some (start, m) := by
    intro s hs
    obtain ⟨hs', hcheck, hin⟩ := howned s hs
    obtain ⟨hr, hcheck', -⟩ := howned _ hin
    have hentry : headersOf mem' s = some ((filAt mem' s 0).startSector, (filAt mem' s 0).name) :=
      headersOf_eq_some.mpr ⟨Nat.le_of_lt hs', hcheck, rfl, rfl⟩
    have hfirst := hroot.begins hentry
      (headersOf_eq_some.mpr ⟨Nat.le_of_lt hr, hcheck', rfl, rfl⟩)
    rw [hbegins _ hin _ hfirst] at hentry
    exact ⟨_, hentry⟩
  have hstart := List.mem_append_left more h.start_mem
  obtain ⟨m, hm⟩ := hheaders start hstart
  have hname : m = n := (htidies.begins m start hm).name_eq h.first
  exact ⟨hstart, fun s hs => (howned s hs).1, hname ▸ hm, hheaders⟩

lemma unlinkCommands_cases (mem : Memory) (fileName : List UInt8) :
    unlinkCommands mem fileName = [] ∨ ∃ i < diskSectorMax, UnlinksAt mem fileName i ∧
      unlinkCommands mem fileName =
        [.erase (ffAddr (headerAt mem i).startSector 0), .erase (ffAddr i 0)] := by
  unfold unlinkCommands
  rcases Option.eq_none_or_eq_some (unlinkSector mem fileName) with hfind | ⟨i, hfind⟩
  · exact Or.inl (by simp only [hfind])
  · refine Or.inr ⟨i, ?_, ?_, by simp only [hfind]⟩
    · rw [unlinkSector] at hfind
      exact List.mem_range.mp (List.mem_of_find?_eq_some hfind)
    · rw [unlinkSector] at hfind
      exact of_decide_eq_true
        (List.find?_some (p := fun j => decide (UnlinksAt mem fileName j)) hfind)

/-- Unlinking another name. -/
lemma unlinkCommands_keeps (h : LedFile mem n start chain) (hroot : Rooted (headersOf mem))
    {fileName : List UInt8} (hne : fileName ≠ n) :
    Along FlashCommand.apply (SameSectors chain) mem (unlinkCommands mem fileName) := by
  rcases unlinkCommands_cases mem fileName with heq | ⟨i, hi, hat, heq⟩
  · rw [heq]
    exact along_nil (SameSectors.refl chain mem)
  · rw [heq]
    obtain ⟨m, hleads, hbegins⟩ := headerAt_begins hroot (Nat.le_of_lt hi) hat.1
    have hlt := headerAt_start_lt hat.1
    have hout : (headerAt mem i).startSector ∉ chain := by
      intro hmem
      have heq := h.eq_of_begins hmem hbegins
      rw [heq, ← hat.2] at hbegins
      exact hne (hbegins.name_eq h.first)
    have hout' : i ∉ chain := by
      intro hmem
      obtain ⟨m', hm'⟩ := h.headers i hmem
      have heq := (Prod.mk.inj (Option.some.inj (hleads.symm.trans hm'))).1
      exact hout (heq ▸ h.start_mem)
    have hfirst : SameSectors chain mem
        (FlashCommand.apply mem (.erase (ffAddr (headerAt mem i).startSector 0))) :=
      erase_keeps (Nat.le_of_lt hlt) hout
    exact ⟨SameSectors.refl chain mem, hfirst,
      hfirst.trans (erase_keeps (Nat.le_of_lt hi) hout')⟩

/-- What `ampm_f_disk_cleanup` erases is not a sector of a closed file. -/
lemma LedFile.wiped (h : LedFile mem n start chain)
    (hclosed : formatCheck (filAt mem start (2 * sizeofAmpmFil)) = true)
    (hwiped : Wiped {s | Unclosed mem s} mem mem') : SameSectors chain mem mem' := by
  refine fun s hs => hwiped.sameSector ?_
  rintro ⟨⟨m, hm⟩, hopen⟩
  rw [h.eq_of_begins hs hm, hclosed] at hopen
  cases hopen

end Led

section Kept

variable {mem mem' : Memory} {n : List UInt8} {start : ℕ} {chain : List ℕ} {content : List UInt8}

lemma KeptFile.led (h : KeptFile mem n start chain content) : LedFile mem n start chain :=
  ⟨h.start_mem, h.lt, h.first, h.headers⟩

lemma KeptFile.congr (h : KeptFile mem n start chain content) (hsame : SameSectors chain mem mem') :
    KeptFile mem' n start chain content := by
  have hclose : filAt mem' start (2 * sizeofAmpmFil) = filAt mem start (2 * sizeofAmpmFil) :=
    (hsame start h.start_mem).filAt_eq (h.lt _ h.start_mem) (by decide)
  have hled := h.led.congr hsame
  refine ⟨⟨h.toClosedFile.congr hsame, ?_, ?_, ?_⟩, hled.first, hled.headers⟩
  · rw [hclose, h.valid]
  · rw [hclose, h.start_eq]
  · rw [hclose, h.current_eq]

/-- Where a file with the name is found, the headers lead to this one. -/
lemma KeptFile.start_of_holds (h : KeptFile mem n start chain content)
    (hroot : Rooted (headersOf mem)) (hunique : NamesUnique (headersOf mem)) {i : ℕ}
    (hi : i ≤ diskSectorMax) (hholds : HoldsFile mem n i) :
    (headerAt mem i).startSector = start := by
  obtain ⟨-, -, hbegins⟩ := headerAt_begins hroot hi hholds.1
  rw [← hholds.2.1] at hbegins
  exact hunique _ _ _ hbegins h.first

lemma KeptFile.holds (h : KeptFile mem n start chain content) : HoldsFile mem n start := by
  obtain ⟨hle, -, hstart, hname⟩ := headersOf_eq_some.mp h.first
  refine ⟨(sectorValid_iff hle).mpr ⟨_, _, _, h.first, h.first⟩, ?_, ?_⟩
  · rw [headerAt_eq h.first, hname]
  · rw [headerAt_eq h.first, hstart, h.valid]

/-- A file that is created. -/
lemma openCommands_keeps {ff : Ff} (fil : AmpmFil) (fileName : List UInt8) (mode : UInt8)
    (howned : Owned ff.flash.mem chain) :
    Along FlashCommand.apply (SameSectors chain) ff.flash.mem
      (openCommands ff fil fileName mode) := by
  simp only [openCommands]
  cases hcreated : (ampmFOpen ff fil fileName mode).created with
  | true =>
      obtain ⟨i, as, r, ff', hi, hfree, -, heq⟩ := ampmFOpen_created hcreated
      have hle : i ≤ diskSectorMax := ((mem_scanOrder (rand_lt ff)).mp hi).1
      rw [heq]
      exact header_keeps hle (notMem_of_free howned hfree)
  | false => exact along_nil (SameSectors.refl chain _)

end Kept

/-! ## Calls on other files -/

/-- The call is on another file than the one with the name `n` that begins at `start`: the handle is
not in a sector of that. -/
def VolumeOp.Apart (n : List UInt8) (start : ℕ) (v : Volume) : VolumeOp → Prop
  | .fOpen _ _ _ => True
  | .fWrite h _ _ => handleOk (v.fils h) = true → (v.fils h).permission = 2 →
      leadsTo v.ff.flash.mem start (v.fils h).currentSector = false
  | .fClose h => handleOk (v.fils h) = true → (v.fils h).permission = 2 →
      leadsTo v.ff.flash.mem start (v.fils h).currentSector = false ∧
        leadsTo v.ff.flash.mem start (v.fils h).startSector = false
  | .fUnlink fileName => fileName.1 ≠ n

/-- So is the one that the power ends. -/
def VolumeEvent.Apart (n : List UInt8) (start : ℕ) (v : Volume) : VolumeEvent → Prop
  | .call op => op.Apart n start v
  | .powerLoss op _ _ _ => op.Apart n start v

section Events

variable {v : Volume} {n : List UInt8} {start : ℕ} {chain : List ℕ} {content : List UInt8}

lemma step_mem (hf : v.ff.flash.Faultless) (op : VolumeOp) :
    (v.step op).ff.flash.mem = run FlashCommand.apply v.ff.flash.mem (op.commands v) := by
  cases op with
  | fOpen k fileName mode => exact (ampmFOpen_commanded hf (v.fils k) fileName.1 mode).mem
  | fWrite k fuel buff => exact (ampmFWrite_commanded hf fuel (v.fils k) buff).mem
  | fClose k => exact (ampmFClose_commanded hf (v.fils k)).mem
  | fUnlink fileName => exact (ampmFUnlink_commanded hf fileName.1).mem

/-- **A call on another file** leaves the sectors alone after each of its commands. -/
lemma LedFile.commands (h : LedFile v.ff.flash.mem n start chain) (hv : Consistent v)
    {op : VolumeOp} (hop : op.Sane v) (hapart : op.Apart n start v) :
    Along FlashCommand.apply (SameSectors chain) v.ff.flash.mem (op.commands v) := by
  obtain ⟨hf, hkeeps⟩ := hop
  cases op with
  | fOpen k fileName mode => exact openCommands_keeps (v.fils k) fileName.1 mode h.owned
  | fWrite k fuel buff =>
      exact writeCommands_keeps hf fuel buff h.owned fun hok hpermission =>
        h.notMem (hapart hok hpermission)
  | fClose k =>
      refine closeCommands_keeps v.ff hkeeps fun hok hpermission => ?_
      obtain ⟨hcurrent, hstart⟩ := hapart hok hpermission
      exact ⟨h.notMem hcurrent, h.notMem hstart⟩
  | fUnlink fileName => exact unlinkCommands_keeps h hv.rooted hapart

lemma LedFile.step (h : LedFile v.ff.flash.mem n start chain) (hv : Consistent v)
    {op : VolumeOp} (hop : op.Sane v) (hapart : op.Apart n start v) :
    SameSectors chain v.ff.flash.mem (v.step op).ff.flash.mem := by
  rw [step_mem hop.1]
  exact (h.commands hv hop hapart).last

/-- Neither the call nor a loss of power in it changes a closed file. -/
lemma KeptFile.sameSectors (h : KeptFile v.ff.flash.mem n start chain content) (hv : Consistent v)
    {e : VolumeEvent} (he : e.Sane v) (hapart : e.Apart n start v) :
    SameSectors chain v.ff.flash.mem (v.event e).ff.flash.mem := by
  cases e with
  | call op => exact h.led.step hv he hapart
  | powerLoss op k fils fileBuf =>
      have hcut : SameSectors chain v.ff.flash.mem (v.cutOff op k fils fileBuf).ff.flash.mem :=
        (h.led.commands hv he hapart).take k
      have hrecovers : (VolumeEvent.powerLoss op k fils fileBuf).Recovers v :=
        VolumeEvent.recovers hv he
      have hkept := h.congr hcut
      exact hcut.trans (hkept.led.wiped hkept.valid hrecovers.1)

lemma KeptFile.event (h : KeptFile v.ff.flash.mem n start chain content) (hv : Consistent v)
    {e : VolumeEvent} (he : e.Sane v) (hapart : e.Apart n start v) :
    KeptFile (v.event e).ff.flash.mem n start chain content :=
  h.congr (h.sameSectors hv he hapart)

end Events

/-- A file is created, written, and closed. -/
def storing (k : ℕ) (fileName : CString) (mode : UInt8) (chunks : List (List UInt8)) :
    List VolumeOp :=
  .fOpen k fileName mode :: (chunks.map (.fWrite k (2 ^ 16)) ++ [.fClose k])

/-- All these calls return `FR_OK`, and the sectors that are found are sectors of the partition. -/
structure StoresAll (v : Volume) (k : ℕ) (fileName : CString) (mode : UInt8)
    (chunks : List (List UInt8)) : Prop where
  opened : (ampmFOpen v.ff (v.fils k) fileName.1 mode).ret = .frOk
  created : (ampmFOpen v.ff (v.fils k) fileName.1 mode).created = true
  written : ∃ fil ff, writeAll chunks (ampmFOpen v.ff (v.fils k) fileName.1 mode).fil
      (ampmFOpen v.ff (v.fils k) fileName.1 mode).ff = some (fil, ff) ∧
    (ampmFClose ff fil).1 = .frOk ∧ FoundInRange v.ff (ampmFClose ff fil).2.2

section Store

variable {v : Volume} {k : ℕ} {chunks : List (List UInt8)}

/-- The calls of `ampm_f_write`. -/
lemma run_writes (chunks : List (List UInt8)) {fil : AmpmFil} {ff : Ff} :
    ∀ {v : Volume}, writeAll chunks (v.fils k) v.ff = some (fil, ff) →
      (run Volume.step v (chunks.map (.fWrite k (2 ^ 16)))).ff = ff ∧
        (run Volume.step v (chunks.map (.fWrite k (2 ^ 16)))).fils k = fil := by
  induction chunks with
  | nil =>
      intro v h
      obtain ⟨rfl, rfl⟩ := Prod.mk.inj (Option.some.inj h)
      exact ⟨rfl, rfl⟩
  | cons c cs ih =>
      intro v h
      rw [writeAll] at h
      split_ifs at h
      rw [List.map_cons, run_cons]
      refine ih ?_
      simp only [Volume.step, update_self]
      exact h

lemma run_writes_tidies (chunks : List (List UInt8)) :
    ∀ {v : Volume}, StepsMeet Volume.step (fun v op => op.Sane v) v
        (chunks.map (.fWrite k (2 ^ 16))) →
      Tidies v.ff.flash.mem (run Volume.step v (chunks.map (.fWrite k (2 ^ 16)))).ff.flash.mem := by
  induction chunks with
  | nil => exact fun _ => tidies_of_eq rfl
  | cons c cs ih =>
      intro v h
      rw [List.map_cons] at h
      have hfirst : Tidies v.ff.flash.mem (v.step (.fWrite k (2 ^ 16) c)).ff.flash.mem := by
        rw [step_mem h.1.1]
        exact (writeCommands_tidies h.1.1 (2 ^ 16) c h.1.2).last
      exact hfirst.trans (ih h.2)

/-- A file that is created gets one header. -/
lemma ampmFOpen_changedAt {ff : Ff} {fil : AmpmFil} {fileName : List UInt8} {mode : UInt8}
    (hf : ff.flash.Faultless) (h : 0 ∉ fileName)
    (hcreated : (ampmFOpen ff fil fileName mode).created = true) :
    ChangedAt (ampmFOpen ff fil fileName mode).fil.startSector
      ((ampmFOpen ff fil fileName mode).fil.startSector, fileName) (headersOf ff.flash.mem)
        (headersOf (ampmFOpen ff fil fileName mode).ff.flash.mem) := by
  have hcommands := (ampmFOpen_commanded hf fil fileName mode).mem
  obtain ⟨i, as, r, ff', hi, -, -, heq⟩ := ampmFOpen_created hcreated
  have hle : i ≤ diskSectorMax := ((mem_scanOrder (rand_lt ff)).mp hi).1
  rw [hcommands]
  simp only [openCommands, heq, if_true]
  exact headersOf_newFil ff.flash.mem h hle

/-- A file that was created has one sector. -/
lemma ampmFOpen_led {ff : Ff} {fil : AmpmFil} {fileName : List UInt8} {mode : UInt8} {start : ℕ}
    (hf : ff.flash.Faultless) (h : 0 ∉ fileName)
    (hcreated : (ampmFOpen ff fil fileName mode).created = true)
    (hw : Writing (ampmFOpen ff fil fileName mode).ff.flash.mem (ampmFOpen ff fil fileName mode).fil
      [start] []) :
    LedFile (ampmFOpen ff fil fileName mode).ff.flash.mem fileName start [start] := by
  obtain ⟨hlt, hcheck, hin⟩ := hw.cells.owned start List.mem_cons_self
  have hentry : Begins (headersOf (ampmFOpen ff fil fileName mode).ff.flash.mem) fileName start := by
    have hheader := headersOf_eq_some.mpr ⟨Nat.le_of_lt hlt, hcheck, rfl, rfl⟩
    have hchanged := ampmFOpen_changedAt hf h hcreated
    rw [← hw.start, List.getD_cons_zero] at hchanged
    rwa [hchanged.entry _ hheader] at hheader
  refine ⟨List.mem_cons_self, hw.cells.lt, hentry, fun s hs => ⟨fileName, ?_⟩⟩
  rw [List.mem_singleton.mp hs]
  exact hentry

/-- A handle that was created and closed has its first sector in the partition. -/
lemma StoresAll.start_lt {fileName : CString} {mode : UInt8}
    (h : StoresAll v k fileName mode chunks) (hlen : ∀ c ∈ chunks, c.length < 65536) :
    (ampmFOpen v.ff (v.fils k) fileName.1 mode).fil.startSector < diskSectorMax := by
  obtain ⟨fil, ff, hwrites, hclose, -⟩ := h.written
  have hclosed : handleOk fil = true := by
    by_contra hno
    rw [ampmFClose, if_neg hno] at hclose
    cases hclose
  cases chunks with
  | nil =>
      obtain ⟨rfl, rfl⟩ := Prod.mk.inj (Option.some.inj hwrites)
      exact ((handleOk_iff _).mp hclosed).start_lt
  | cons c cs =>
      rw [writeAll] at hwrites
      split_ifs at hwrites with hok
      have hc := hlen c List.mem_cons_self
      exact ((handleOk_iff _).mp (ampmFWrite_ok hc hc hok).1).start_lt

/-- After the calls of `ampm_f_write`. -/
lemma run_opened_writes {fileName : CString} {mode : UInt8} {fil : AmpmFil} {ff : Ff}
    (hwrites : writeAll chunks (ampmFOpen v.ff (v.fils k) fileName.1 mode).fil
      (ampmFOpen v.ff (v.fils k) fileName.1 mode).ff = some (fil, ff)) :
    (run Volume.step (v.step (.fOpen k fileName mode)) (chunks.map (.fWrite k (2 ^ 16)))).ff = ff ∧
      (run Volume.step (v.step (.fOpen k fileName mode))
        (chunks.map (.fWrite k (2 ^ 16)))).fils k = fil := by
  refine run_writes chunks ?_
  rw [Volume.step]
  simp only [update_self]
  exact hwrites

/-- After `ampm_f_close`. -/
lemma run_storing {fileName : CString} {mode : UInt8} {fil : AmpmFil} {ff : Ff}
    (hwrites : writeAll chunks (ampmFOpen v.ff (v.fils k) fileName.1 mode).fil
      (ampmFOpen v.ff (v.fils k) fileName.1 mode).ff = some (fil, ff)) :
    (run Volume.step v (storing k fileName mode chunks)).ff = (ampmFClose ff fil).2.2 := by
  obtain ⟨hff, hfil⟩ := run_opened_writes hwrites
  rw [storing, run_cons, run_append, run_cons, run_nil]
  show (ampmFClose _ _).2.2 = _
  rw [hff, hfil]

/-- Between the two no files are made. -/
lemma storing_tidies {fileName : CString} {mode : UInt8} {fil : AmpmFil} {ff : Ff}
    (hwrites : writeAll chunks (ampmFOpen v.ff (v.fils k) fileName.1 mode).fil
      (ampmFOpen v.ff (v.fils k) fileName.1 mode).ff = some (fil, ff))
    (hsane : StepsMeet Volume.step (fun v op => op.Sane v) v (storing k fileName mode chunks)) :
    Tidies (ampmFOpen v.ff (v.fils k) fileName.1 mode).ff.flash.mem
      (ampmFClose ff fil).2.2.flash.mem := by
  obtain ⟨hff, hfil⟩ := run_opened_writes hwrites
  obtain ⟨hwritesane, ⟨hf, hfit⟩, -⟩ := stepsMeet_append.mp hsane.2
  rw [VolumeOp.Keeps, hfil] at hfit
  rw [hff] at hf
  have hfirst : Tidies (ampmFOpen v.ff (v.fils k) fileName.1 mode).ff.flash.mem ff.flash.mem := by
    have hrun := run_writes_tidies chunks hwritesane
    rwa [hff] at hrun
  refine hfirst.trans ?_
  rw [(ampmFClose_commanded hf fil).mem]
  exact (closeCommands_tidies ff hfit).last

/-- **What is written and closed is a closed file** with that name. -/
theorem StoresAll.keptFile {fileName : CString} {mode : UInt8}
    (h : StoresAll v k fileName mode chunks) (hv : Consistent v) (hname : FileName fileName.1)
    (hlen : ∀ c ∈ chunks, c.length < 65536) (htotal : chunks.flatten.length < 100000)
    (hsane : StepsMeet Volume.step (fun v op => op.Sane v) v (storing k fileName mode chunks)) :
    ∃ chain, KeptFile (run Volume.step v (storing k fileName mode chunks)).ff.flash.mem fileName.1
      (ampmFOpen v.ff (v.fils k) fileName.1 mode).fil.startSector chain chunks.flatten := by
  have hlt := h.start_lt hlen
  have hf : v.ff.flash.Faultless := hsane.1.1
  obtain ⟨hw, hf', hfound', -, -⟩ := ampmFOpen_writing hf hname h.opened h.created hlt
  obtain ⟨fil, ff, hwrites, hclose, hfound⟩ := h.written
  have hlast := run_storing hwrites
  have htidies := storing_tidies hwrites hsane
  have hend : Consistent (run Volume.step v (storing k fileName mode chunks)) :=
    (throughout_of_stepsMeet (fun _ _ hv hop => hv.step hop) hv hsane).last
  have hfound'' : FoundInRange (ampmFOpen v.ff (v.fils k) fileName.1 mode).ff ff := by
    unfold FoundInRange at hfound ⊢
    rwa [hfound', ← ampmFClose_found ff fil]
  have hnone : Pending (ampmFOpen v.ff (v.fils k) fileName.1 mode).ff.fileBuf [] := fun j hj =>
    absurd hj (Nat.not_lt_zero j)
  obtain ⟨more, hw', hbuf', hstep⟩ :=
    writeAll_spec chunks hf' hw hnone hlen (Nat.le_of_lt htotal) hwrites hfound''
  have hstart : fil.startSector = (ampmFOpen v.ff (v.fils k) fileName.1 mode).fil.startSector := by
    rw [← hw'.start]
    rfl
  have hreadable := ampmFClose_readable hstep.faultless hw' hbuf' hclose htotal
  have howned := (ampmFClose_spec hstep.faultless hw' hbuf' hclose).2.1
  have hled := ampmFOpen_led hf fileName.2 h.created hw
  have hrooted := hend.rooted
  rw [Volume.headers, hlast] at hrooted
  have hkept := hled.grow htidies hrooted howned hstep.apart
  rw [hlast]
  exact ⟨_, hstart ▸ hreadable, hkept.first, hkept.headers⟩

end Store

/-! ### Reading -/

section Read

variable {n : List UInt8} {start : ℕ} {chain : List ℕ} {content : List UInt8}

/-- Opening finds the file, unless its first sector is the one that the search leaves out. -/
lemma KeptFile.opens {ff : Ff} (h : KeptFile ff.flash.mem n start chain content) (fil : AmpmFil)
    (hrand : ff.rand ff.drawn % diskSectorMax ≠ start) : (ampmFOpen ff fil n 0x01).ret = .frOk := by
  refine (ampmFOpen_read_ret ff fil n).mpr ⟨start, ?_, h.holds⟩
  exact (mem_scanOrder (rand_lt ff)).mpr ⟨Nat.le_of_lt (h.lt _ h.start_mem), hrand.symm⟩

/-- Calls that find the handle in the right sector read the file. -/
lemma KeptFile.reads {ff : Ff} (h : KeptFile ff.flash.mem n start chain content)
    (hroot : Rooted (headersOf ff.flash.mem)) (hunique : NamesUnique (headersOf ff.flash.mem))
    {o : AmpmFOpened} {fil : AmpmFil} (ho : ampmFOpen ff fil n 0x01 = o) (hok : o.ret = .frOk)
    (hold : o.created = false) {calls : List ReadCall}
    (hcalls : StepsMeet readerStep (ReadsCurrent chain content) (o.ff, o.fil) calls) :
    StepsMeet readerStep (CallMeets content) (o.ff, o.fil) calls := by
  subst ho
  have hfile := h.toReadableFile
  have hstep : ∀ s call, Reading ff.flash.mem start chain content s →
      ReadsCurrent chain content s call →
      Reading ff.flash.mem start chain content (readerStep s call) ∧ CallMeets content s call := by
    intro s call hs hcall
    cases call with
    | read btr => exact hs.read hfile hcall
    | lseek seek rfil => exact hs.lseek hfile hcall rfil
  exact stepsMeet_of_invariant (fun s call hs hcall => (hstep s call hs hcall).1)
    (fun s call hs hcall => (hstep s call hs hcall).2)
    (Reading.opened hfile rfl (fun i hi => h.start_of_holds hroot hunique hi) hok hold) hcalls

lemma ClosedFile.chain_eq {mem : Memory} (h : ClosedFile mem start chain content) :
    chainFrom mem (content.length / diskSectorSize + 1) start = chain := by
  have hdrop := chainFrom_eq_drop h.linked chain.length 0 (Nat.zero_add _)
  rwa [h.head, h.length, List.drop_zero] at hdrop

end Read

/-- Nothing is created for reading. -/
lemma ampmFOpen_read_created {ff : Ff} (hf : ff.flash.Faultless) (fil : AmpmFil)
    {fileName : List UInt8} (h : 0 ∉ fileName) :
    (ampmFOpen ff fil fileName 0x01).created = false := by
  rcases ampmFOpen_changes hf fil h 0x01 with ⟨i, -, hcreates, -, -⟩ | ⟨hquiet, -⟩
  · exact absurd hcreates.1 (by decide)
  · exact hquiet

lemma event_faultless {v : Volume} (hf : v.ff.flash.Faultless) (e : VolumeEvent) :
    (v.event e).ff.flash.Faultless := by
  cases e with
  | call op => exact step_faultless hf op
  | powerLoss op k fils fileBuf =>
      have hcut : (v.cutOff op k fils fileBuf).ff.flash.Faultless := hf
      have hinit : ∀ ff : Ff, (ampmFInit ff).2 = ampmFDiskCleanup ff :=
        fun ff => by rw [ampmFInit, sst25Init, if_pos rfl]
      rw [Volume.event, hinit]
      exact (ampmFDiskCleanup_commanded hcut).faultless

/-- **What was written is read later.**  On a formatted disk, after any run: a file is created,
written in pieces, and closed, all with `FR_OK`.  Then come calls on other files, any of which may be
ended by a loss of power.  Then the file is opened for reading, and all reads and seeks that find the
handle in the right sector give what was written. -/
theorem volume_roundTrip {u : Volume} (hu : Formatted u) {before : List VolumeEvent}
    (hbefore : StepsMeet Volume.event (fun v e => e.Sane v) u before)
    {v : Volume} (hv : run Volume.event u before = v)
    {k : ℕ} {fileName : CString} {mode : UInt8} {chunks : List (List UInt8)}
    (hname : FileName fileName.1) (hlen : ∀ c ∈ chunks, c.length < 65536)
    (htotal : chunks.flatten.length < 100000)
    (hsane : StepsMeet Volume.step (fun v op => op.Sane v) v (storing k fileName mode chunks))
    (hstores : StoresAll v k fileName mode chunks) {start : ℕ}
    (hstart : (ampmFOpen v.ff (v.fils k) fileName.1 mode).fil.startSector = start)
    {after : List VolumeEvent}
    (hafter : StepsMeet Volume.event (fun v e => e.Sane v ∧ e.Apart fileName.1 start v)
      (run Volume.step v (storing k fileName mode chunks)) after)
    {w : Volume}
    (hw : run Volume.event (run Volume.step v (storing k fileName mode chunks)) after = w)
    (hrand : w.ff.rand w.ff.drawn % diskSectorMax ≠ start) (fil : AmpmFil) {o : AmpmFOpened}
    (ho : ampmFOpen w.ff fil fileName.1 0x01 = o) :
    o.ret = .frOk ∧ ∀ calls,
      StepsMeet readerStep (ReadsCurrent (chainFrom w.ff.flash.mem
        (chunks.flatten.length / diskSectorSize + 1) start) chunks.flatten) (o.ff, o.fil) calls →
      StepsMeet readerStep (CallMeets chunks.flatten) (o.ff, o.fil) calls := by
  subst hv hstart hw ho
  have hmiddle : Consistent (run Volume.event u before) :=
    (throughout_of_stepsMeet (fun _ _ hv he => hv.event he) hu.consistent hbefore).last
  have hclosed := (throughout_of_stepsMeet (fun _ _ hv hop => hv.step hop) hmiddle hsane).last
  obtain ⟨chain, hfile⟩ := hstores.keptFile hmiddle hname hlen htotal hsane
  have hfaultless : (run Volume.step (run Volume.event u before)
      (storing k fileName mode chunks)).ff.flash.Faultless :=
    run_invariant (I := fun v : Volume => v.ff.flash.Faultless)
      (fun _ op hf => step_faultless hf op) _ hsane.1.1
  obtain ⟨⟨hend, hkept⟩, hf⟩ := (throughout_of_stepsMeet
    (I := fun v => (Consistent v ∧ KeptFile v.ff.flash.mem fileName.1
      (ampmFOpen (run Volume.event u before).ff ((run Volume.event u before).fils k)
        fileName.1 mode).fil.startSector chain chunks.flatten) ∧ v.ff.flash.Faultless)
    (fun v e hI he => ⟨⟨hI.1.1.event he.1, hI.1.2.event hI.1.1 he.1 he.2⟩,
      event_faultless hI.2 e⟩) ⟨⟨hclosed, hfile⟩, hfaultless⟩ hafter).last
  have hok := hkept.opens fil hrand
  refine ⟨hok, fun calls hcalls => ?_⟩
  rw [hkept.toClosedFile.chain_eq] at hcalls
  exact hkept.reads hend.rooted hend.unique rfl hok
    (ampmFOpen_read_created hf fil fileName.2) hcalls

/-! ### Three bytes -/

/-- The file `A` with three bytes. -/
abbrev threeBytes : List VolumeOp := storing 0 nameA 0x08 [[1, 2, 3]]

lemma threeBytes_sane : StepsMeet Volume.step (fun v op => op.Sane v) blankVolume threeBytes := by
  have hf : blankVolume.ff.flash.Faultless := fun _ => rfl
  have hopened := step_faultless hf (.fOpen 0 nameA 0x08)
  have hwritten := step_faultless hopened (.fWrite 0 (2 ^ 16) [1, 2, 3])
  have hinside : ClosesInside ((run Volume.step blankVolume
      [.fOpen 0 nameA 0x08, .fWrite 0 (2 ^ 16) [1, 2, 3]]).fils 0) := by
    refine fun _ _ => ?_
    decide +kernel
  refine ⟨⟨hf, fun i _ _ j => blankVolume_formatted.not_begins _ j⟩, ⟨hopened, fun _ _ => ?_⟩,
    ⟨hwritten, hinside⟩, trivial⟩
  -- no byte fills the sector
  refine fun _ => ⟨fun h => absurd h (by decide +kernel), fun _ _ =>
    ⟨fun h => absurd h (by decide +kernel), fun _ _ =>
      ⟨fun h => absurd h (by decide +kernel), fun _ h => absurd h (by decide)⟩⟩⟩

/-- It is created. -/
def openedThree : AmpmFOpened := ampmFOpen blankVolume.ff (blankVolume.fils 0) nameA.1 0x08

/-- It is written. -/
def writtenThree : Option AmpmFResult × AmpmFil × Ff :=
  ampmFWrite (2 ^ 16) openedThree.ff openedThree.fil [1, 2, 3]

lemma writtenThree_all : writeAll [[1, 2, 3]] openedThree.fil openedThree.ff =
    some (writtenThree.2.1, writtenThree.2.2) := by
  have hok : (ampmFWrite (2 ^ 16) openedThree.ff openedThree.fil [1, 2, 3]).1 = some .frOk := by
    decide +kernel
  rw [writeAll, if_pos hok]
  rfl

lemma threeBytes_stores : StoresAll blankVolume 0 nameA 0x08 [[1, 2, 3]] where
  opened := by decide +kernel
  created := by decide +kernel
  written := by
    have hnone : (ampmFClose writtenThree.2.2 writtenThree.2.1).2.2.found = [] := by decide +kernel
    have hclosed : (ampmFClose writtenThree.2.2 writtenThree.2.1).1 = .frOk := by decide +kernel
    have hfound : FoundInRange blankVolume.ff
        (ampmFClose writtenThree.2.2 writtenThree.2.1).2.2 := by
      intro s hs
      rw [hnone, List.drop_nil] at hs
      exact absurd hs List.not_mem_nil
    exact ⟨_, _, writtenThree_all, hclosed, hfound⟩

lemma threeBytes_faultless : (run Volume.step blankVolume threeBytes).ff.flash.Faultless :=
  run_invariant (I := fun v : Volume => v.ff.flash.Faultless)
    (fun _ op hf => step_faultless hf op) threeBytes threeBytes_sane.1.1

/-- The file is opened twice. -/
def openAgain : List VolumeEvent := [.call (.fOpen 1 nameA 0x01)]

lemma openAgain_apart {v : Volume} (hf : v.ff.flash.Faultless) :
    StepsMeet Volume.event (fun v e => e.Sane v ∧ e.Apart nameA.1 0 v) v openAgain :=
  ⟨⟨⟨hf, fun _ _ hcreates => absurd hcreates.1 (by decide)⟩, trivial⟩, trivial⟩

/-- The second handle. -/
def openedAfter : AmpmFOpened :=
  ampmFOpen (run Volume.event (run Volume.step blankVolume threeBytes) openAgain).ff
    (AmpmFil.ofBytes fun _ => 0) nameA.1 0x01

theorem volume_roundTrip_three : openedAfter.ret = .frOk ∧
    StepsMeet readerStep (CallMeets [1, 2, 3]) (openedAfter.ff, openedAfter.fil) [.read 2, .read 5] := by
  have hstart : (ampmFOpen blankVolume.ff (blankVolume.fils 0) nameA.1 0x08).fil.startSector =
      0 := by
    decide +kernel
  have hrand : (run Volume.event (run Volume.step blankVolume threeBytes) openAgain).ff.rand
      (run Volume.event (run Volume.step blankVolume threeBytes) openAgain).ff.drawn %
        diskSectorMax ≠ 0 := by
    decide +kernel
  have hopened : ampmFOpen (run Volume.event (run Volume.step blankVolume threeBytes) openAgain).ff
      (AmpmFil.ofBytes fun _ => 0) nameA.1 0x01 = openedAfter := rfl
  have hnothing : StepsMeet Volume.event (fun v e => e.Sane v) blankVolume [] := trivial
  have hflat : [[1, 2, 3]].flatten = ([1, 2, 3] : List UInt8) := rfl
  have hcalls : StepsMeet readerStep (ReadsCurrent (chainFrom
      (run Volume.event (run Volume.step blankVolume threeBytes) openAgain).ff.flash.mem
        ([1, 2, 3].length / diskSectorSize + 1) 0) [1, 2, 3])
          (openedAfter.ff, openedAfter.fil) [.read 2, .read 5] := by
    decide +kernel
  generalize hw : run Volume.event (run Volume.step blankVolume threeBytes) openAgain = w
    at hrand hopened hcalls
  have hround := volume_roundTrip blankVolume_formatted hnothing (run_nil _ _)
    ⟨by decide, by decide, by decide⟩ (by decide) (by decide) threeBytes_sane threeBytes_stores hstart
    (openAgain_apart threeBytes_faultless) hw hrand (AmpmFil.ofBytes fun _ => 0) hopened
  rw [hflat] at hround
  exact ⟨hround.1, hround.2 _ hcalls⟩

end Ampm
