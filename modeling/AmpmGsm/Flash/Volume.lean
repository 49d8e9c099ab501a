import AmpmGsm.Flash.Effects
import Mathlib.Logic.Function.Basic

/-!
# Runs of the file system

Files are opened, written, closed and unlinked on a disk that was formatted, in any order and with
any handles.  No two files are to have one name, and a name that was unlinked is not to be found
until it is created again.

* `Volume`, `VolumeOp`, `Volume.step` — the disk, the handles, and the names that were unlinked.
* `NamesKept` — what is asked of every state.
* `CreatesAt`, `VolumeOp.Keeps` — the condition on a call.
* `Consistent` — the invariant.
* `volume_namesKept` — the runs in which what is asked for holds.
* `volume_twice` — a file that is created twice, and unlinked once.
-/

namespace Ampm

open NorFlash Runs Directories Function

/-! ## Runs -/

/-- A string without its terminating zero. -/
abbrev CString := { s : List UInt8 // 0 ∉ s }

/-- The disk, the handles, and the names that were unlinked and not created since. -/
structure Volume where
  ff : Ff
  fils : ℕ → AmpmFil
  gone : List (List UInt8)

/-- A call, with the number of its handle.  A write goes on for `fuel` rounds of its loop at
most. -/
inductive VolumeOp
  | fOpen (h : ℕ) (fileName : CString) (mode : UInt8)
  | fWrite (h fuel : ℕ) (buff : List UInt8)
  | fClose (h : ℕ)
  | fUnlink (fileName : CString)

/-- One call. -/
def Volume.step (v : Volume) : VolumeOp → Volume
  | .fOpen h fileName mode =>
      let o := ampmFOpen v.ff (v.fils h) fileName.1 mode
      ⟨o.ff, update v.fils h o.fil,
        if o.created then v.gone.filter fun n => n ≠ fileName.1 else v.gone⟩
  | .fWrite h fuel buff =>
      let w := ampmFWrite fuel v.ff (v.fils h) buff
      ⟨w.2.2, update v.fils h w.2.1, v.gone⟩
  | .fClose h =>
      let c := ampmFClose v.ff (v.fils h)
      ⟨c.2.2, update v.fils h c.2.1, v.gone⟩
  | .fUnlink fileName =>
      let u := ampmFUnlink v.ff fileName.1
      ⟨u.2, v.fils, if u.1 = .frOk then fileName.1 :: v.gone else v.gone⟩

/-- The headers on the disk. -/
def Volume.headers (v : Volume) : Directory (List UInt8) := headersOf v.ff.flash.mem

/-- At most one file has a name, and no name that is gone can be opened for reading. -/
structure NamesKept (v : Volume) : Prop where
  unique : NamesUnique v.headers
  gone : ∀ n ∈ v.gone, ∀ fil, (ampmFOpen v.ff fil n 0x01).ret = .frErr

/-- The disk was formatted, and nothing was unlinked yet. -/
structure Formatted (v : Volume) : Prop where
  format : ∃ ff, v.ff = ampmFDiskFormat ff
  gone : v.gone = []

/-! ## The condition -/

/-- The search of `ampm_f_open` comes to the free sector before it finds the file. -/
def CreatesAt (ff : Ff) (fileName : List UInt8) (mode : UInt8) (i : ℕ) : Prop :=
  createsFiles mode = true ∧ sectorValid ff.flash.mem i = false ∧
    ∃ pre post, scanOrder (ff.rand ff.drawn % diskSectorMax) = pre ++ i :: post ∧
      ∀ j ∈ pre, ¬ OpensAt ff.flash.mem fileName mode j

/-- A call that keeps the names apart: what it creates is new, what it writes is still its own file,
and the last block ends where it should. -/
def VolumeOp.Keeps (v : Volume) : VolumeOp → Prop
  | .fOpen _ fileName mode => ∀ i < diskSectorMax, CreatesAt v.ff fileName.1 mode i →
      ∀ j, ¬ Begins v.headers fileName.1 j
  | .fWrite h fuel buff => handleOk (v.fils h) = true → (v.fils h).permission = 2 →
      EachTakes TakesFor buff buff.length fuel 0 (v.fils h) v.ff
  | .fClose h => ClosesInside (v.fils h)
  | .fUnlink _ => True

/-- No write fails of itself, and the call keeps the names apart. -/
def VolumeOp.Sane (v : Volume) (op : VolumeOp) : Prop := v.ff.flash.Faultless ∧ op.Keeps v

/-! ## The names of new files -/

section Names

variable {fil : AmpmFil} {fileName : List UInt8}

lemma setName_lt (fil : AmpmFil) {k : ℕ} (hk : k < fileName.length) :
    (fil.setName fileName).fileName k = fileName[k] := by
  show (if k ≤ fileName.length then fileName.getD k 0 else _) = _
  rw [if_pos (Nat.le_of_lt hk), List.getD_eq_getElem _ _ hk]

lemma setName_end (fil : AmpmFil) (fileName : List UInt8) :
    (fil.setName fileName).fileName fileName.length = 0 := by
  show (if fileName.length ≤ fileName.length then fileName.getD fileName.length 0 else _) = _
  rw [if_pos (Nat.le_refl _), List.getD_eq_default _ _ (Nat.le_refl _)]

/-- The first cells of the name hold the string. -/
lemma map_setName (fil : AmpmFil) {n : ℕ} (hn : n ≤ fileName.length) :
    (List.range n).map (fil.setName fileName).fileName = fileName.take n := by
  refine List.ext_getElem (by simp [hn]) fun k hk hk' => ?_
  have hlt : k < fileName.length := Nat.lt_of_lt_of_le (by simpa using hk) hn
  rw [List.getElem_map, List.getElem_range, List.getElem_take, setName_lt fil hlt]

lemma takeWhile_of_nonzero {l : List UInt8} (h : 0 ∉ l) : l.takeWhile (· ≠ 0) = l :=
  List.takeWhile_eq_self_iff.mpr fun _ hc => decide_eq_true fun hzero => h (hzero ▸ hc)

/-- More cells than the string has hold it and its terminating zero. -/
lemma takeWhile_setName (h : 0 ∉ fileName) (fil : AmpmFil) {n : ℕ} (hn : fileName.length < n) :
    ((List.range n).map (fil.setName fileName).fileName).takeWhile (· ≠ 0) = fileName := by
  obtain ⟨m, rfl⟩ : ∃ m, n = fileName.length + (m + 1) := ⟨n - fileName.length - 1, by omega⟩
  have hnonzero : ∀ c ∈ fileName, decide (c ≠ 0) = true :=
    fun c hc => decide_eq_true fun hzero => h (hzero ▸ hc)
  rw [List.range_add, List.map_append, map_setName fil (Nat.le_refl _), List.take_length,
    List.takeWhile_append_of_pos hnonzero, List.range_succ_eq_map, List.map_cons, List.map_cons,
    Nat.add_zero, setName_end, List.takeWhile_cons_of_neg (by simp), List.append_nil]

/-- A name that passes the check was not cut off. -/
lemma length_le_of_nameLength (h : 0 ∉ fileName)
    (hlen : (fil.setName fileName).nameLength < 32 - 3) : fileName.length ≤ 28 := by
  rw [AmpmFil.nameLength] at hlen
  rcases Nat.lt_or_ge fileName.length 31 with hshort | hlong
  · rw [takeWhile_setName h fil hshort] at hlen
    omega
  · have hnonzero : 0 ∉ fileName.take 31 := fun hmem => h (List.mem_of_mem_take hmem)
    rw [map_setName fil hlong, takeWhile_of_nonzero hnonzero, List.length_take,
      Nat.min_eq_left hlong] at hlen
    omega

/-- The name of a new file. -/
lemma name_newFil (h : 0 ∉ fileName) (hlen : fileName.length ≤ 28) (i : ℕ) :
    (newFil fil fileName i).name = fileName :=
  takeWhile_setName h fil (Nat.lt_of_le_of_lt hlen (by decide))

/-- The header of a new file. -/
lemma headersOf_newFil (mem : Memory) (h : 0 ∉ fileName) {i : ℕ} (hi : i ≤ diskSectorMax) :
    ChangedAt i (i, fileName) (headersOf mem)
      (headersOf (run FlashCommand.apply mem
        (pageCommands (ffAddr i 0) (newFil fil fileName i).bytes))) := by
  have hword : i < 2 ^ 32 := Nat.lt_of_le_of_lt hi (by decide)
  have hchanged := headersOf_header mem hi
    (show (newFil fil fileName i).startSector < 2 ^ 32 from hword)
  have hrecord := (storedAt_header mem (newFil fil fileName i) hi).holdsRecord_of_le hi (by decide)
  rw [pageCommands_header]
  refine ⟨hchanged.other, fun e he => ?_⟩
  rw [hchanged.entry e he]
  obtain ⟨s, n⟩ := e
  obtain ⟨-, hcheck, -, -⟩ := headersOf_eq_some.mp he
  have hname : (newFil fil fileName i).nameLength < 32 - 3 := by
    rw [← hrecord.nameLength_eq]
    exact ((formatCheck_iff _).mp hcheck).nameLength_lt
  exact Prod.ext rfl (name_newFil h (length_le_of_nameLength h hname) i)

end Names

/-! ## Formatting -/

/-- The sectors that are erased have no headers. -/
lemma headersOf_format (is : List ℕ) (his : ∀ i ∈ is, i ≤ diskSectorMax) :
    ∀ (ff : Ff) (s : ℕ), s ∈ is ∨ headersOf ff.flash.mem s = none →
      headersOf (is.foldl (fun ff i => ampmFlashEraseSector ff (ffAddr i 0)) ff).flash.mem s
        = none := by
  induction is with
  | nil =>
      rintro ff s (hs | hs)
      · exact absurd hs List.not_mem_nil
      · exact hs
  | cons i is ih =>
      intro ff s hs
      obtain ⟨hnone, hother⟩ := headersOf_erase ff.flash.mem (his i List.mem_cons_self)
      refine ih (fun j hj => his j (List.mem_cons_of_mem i hj)) _ s ?_
      by_cases hsi : s = i
      · subst hsi
        exact Or.inr hnone
      · rcases hs with hs | hs
        · exact Or.inl (List.mem_of_ne_of_mem hsi hs)
        · exact Or.inr ((hother s hsi).trans hs)

/-! ## The invariant -/

/-- The names are unique, every header leads to a file or to nothing, and no file has a name that is
gone. -/
structure Consistent (v : Volume) : Prop where
  unique : NamesUnique v.headers
  rooted : Rooted v.headers
  gone : ∀ n ∈ v.gone, ∀ i, ¬ Begins v.headers n i

section Invariant

variable {v : Volume}

lemma Formatted.headers_none (h : Formatted v) {s : ℕ} (hs : s < diskSectorMax) :
    v.headers s = none := by
  obtain ⟨ff, hff⟩ := h.format
  rw [Volume.headers, hff]
  exact headersOf_format _ (fun i hi => Nat.le_of_lt (List.mem_range.mp hi)) ff s
    (Or.inl (List.mem_range.mpr hs))

lemma Formatted.not_begins (h : Formatted v) (n : List UInt8) (i : ℕ) :
    ¬ Begins v.headers n i := by
  intro hi
  have hlt : i < diskSectorMax := headersOf_lt hi
  exact absurd (hi.symm.trans (h.headers_none hlt)) (Option.some_ne_none _)

lemma Formatted.consistent (h : Formatted v) : Consistent v := by
  refine ⟨fun n i j hi => absurd hi (h.not_begins n i), fun i s n hi e hs => ?_, fun n hn => ?_⟩
  · have hlt : s < diskSectorMax := headersOf_lt hi
    exact absurd (hs.symm.trans (h.headers_none hlt)) (Option.some_ne_none _)
  · rw [h.gone] at hn
    exact absurd hn List.not_mem_nil

/-- A sector where a file is found leads to one with the name. -/
lemma Consistent.namesKept (h : Consistent v) : NamesKept v := by
  refine ⟨h.unique, fun n hn fil => ?_⟩
  by_contra hret
  have hok : (ampmFOpen v.ff fil n 0x01).ret = .frOk := by
    cases hr : (ampmFOpen v.ff fil n 0x01).ret with
    | frOk => rfl
    | frErr => exact absurd hr hret
  obtain ⟨i, hi, hvalid, hname, -⟩ := (ampmFOpen_read_ret v.ff fil n).mp hok
  have hle := ((mem_scanOrder (rand_lt v.ff)).mp hi).1
  obtain ⟨-, -, hbegins⟩ := headerAt_begins h.rooted hle hvalid
  exact h.gone n hn _ (hname ▸ hbegins)

/-- The disk changed, and there are no new files. -/
lemma Consistent.of_tidy (h : Consistent v) {v' : Volume} (ht : Tidy v.headers v'.headers)
    (hgone : ∀ n ∈ v'.gone, n ∈ v.gone) : Consistent v' :=
  ⟨ht.namesUnique h.unique, ht.rooted h.rooted,
    fun n hn i hi => h.gone n (hgone n hn) i (ht.begins n i hi)⟩

/-- A file is created, or the disk is as it was. -/
lemma ampmFOpen_changes {ff : Ff} (hf : ff.flash.Faultless) (fil : AmpmFil) {fileName : List UInt8}
    (h : 0 ∉ fileName) (mode : UInt8) :
    (∃ i ≤ diskSectorMax, CreatesAt ff fileName mode i ∧
        (ampmFOpen ff fil fileName mode).created = true ∧
        ChangedAt i (i, fileName) (headersOf ff.flash.mem)
          (headersOf (ampmFOpen ff fil fileName mode).ff.flash.mem)) ∨
      ((ampmFOpen ff fil fileName mode).created = false ∧
        headersOf (ampmFOpen ff fil fileName mode).ff.flash.mem = headersOf ff.flash.mem) := by
  cases hcreated : (ampmFOpen ff fil fileName mode).created with
  | false =>
      obtain ⟨as, heq⟩ := ampmFOpen_quiet hcreated
      rw [heq]
      exact Or.inr ⟨rfl, rfl⟩
  | true =>
      refine Or.inl ?_
      rcases ampmFOpen_spec ff fil fileName mode with
        ⟨pre, i, post, horder, hpre, hi, heq⟩ | ⟨-, fil', heq⟩
      · have hin : i ∈ scanOrder (ff.rand ff.drawn % diskSectorMax) := by
          rw [horder]
          exact List.mem_append_right _ List.mem_cons_self
        have hle := ((mem_scanOrder (rand_lt ff)).mp hin).1
        have hmem : (ff.draw.2.logged
            (pre.flatMap (openReads ff.flash.mem fileName mode))).flash.mem = ff.flash.mem := rfl
        cases hvalid : sectorValid ff.flash.mem i with
        | true =>
            rw [heq, openedAt, hmem, if_pos hvalid] at hcreated
            exact absurd hcreated Bool.false_ne_true
        | false =>
            have hmode : createsFiles mode = true := by
              rcases hi with ⟨hfile, -⟩ | ⟨-, hmode⟩
              · exact absurd (hvalid.symm.trans hfile.1) Bool.false_ne_true
              · exact hmode
            refine ⟨i, hle, ⟨hmode, hvalid, pre, post, horder, hpre⟩, rfl, ?_⟩
            rw [heq, openedAt, hmem, if_neg (Bool.eq_false_iff.mp hvalid)]
            have hf' : ((ff.draw.2.logged (pre.flatMap
                (openReads ff.flash.mem fileName mode))).logged
                  (headerReads ff.flash.mem i)).flash.Faultless := hf
            have hwrite := (writeFil_commanded hf' i 0
              (newFil (headerAt ff.flash.mem i) fileName i)).mem
            simp only [hwrite]
            exact headersOf_newFil ff.flash.mem h hle
      · rw [heq] at hcreated
        exact absurd hcreated Bool.false_ne_true

/-- The first sector of the file has no header. -/
lemma ampmFUnlink_erases {ff : Ff} {fileName : List UInt8} {i : ℕ} {as : List FlashAccess}
    (hi : i < diskSectorMax) (hat : UnlinksAt ff.flash.mem fileName i)
    (heq : ampmFUnlink ff fileName = (.frOk, ampmFlashEraseSector
      (ampmFlashEraseSector (ff.logged as) (ffAddr (headerAt ff.flash.mem i).startSector 0))
        (ffAddr i 0))) :
    headersOf (ampmFUnlink ff fileName).2.flash.mem
      (headerAt ff.flash.mem i).startSector = none := by
  have hlt := headerAt_start_lt hat.1
  generalize (headerAt ff.flash.mem i).startSector = s at heq hlt ⊢
  obtain ⟨hnone, -⟩ := headersOf_erase ff.flash.mem (Nat.le_of_lt hlt)
  obtain ⟨hnone', hother⟩ := headersOf_erase
    (FlashCommand.apply ff.flash.mem (.erase (ffAddr s 0))) (Nat.le_of_lt hi)
  rw [heq]
  by_cases hsi : s = i
  · rw [hsi] at hnone' ⊢
    exact hnone'
  · exact (hother s hsi).trans hnone

/-- **A call keeps the invariant.** -/
lemma Consistent.step (h : Consistent v) {op : VolumeOp} (hop : op.Sane v) :
    Consistent (v.step op) := by
  obtain ⟨hf, hkeeps⟩ := hop
  cases op with
  | fOpen k fileName mode =>
      rcases ampmFOpen_changes hf (v.fils k) fileName.2 mode with
        ⟨i, hi, hcreates, hcreated, hchanged⟩ | ⟨hcreated, hsame⟩
      · have hgone : ∀ n, n ∈ (v.step (.fOpen k fileName mode)).gone ↔
            n ∈ v.gone ∧ n ≠ fileName.1 := by
          intro n
          simp [Volume.step, hcreated]
        rcases Nat.lt_or_ge i diskSectorMax with hlt | hbehind
        · refine ⟨hchanged.namesUnique_of_new h.unique (hkeeps i hlt hcreates),
            hchanged.rooted_of_new h.rooted, fun n hn j hj => ?_⟩
          obtain ⟨hn, hne⟩ := (hgone n).mp hn
          rcases hchanged.begins_of_new hj with ⟨-, heq⟩ | hold
          · exact hne heq
          · exact h.gone n hn j hold
        · -- a header in the sector behind the partition is not valid
          refine h.of_tidy (tidy_of_erased hchanged.other ?_) fun n hn => ((hgone n).mp hn).1
          by_contra hsome
          obtain ⟨e, he⟩ := Option.ne_none_iff_exists'.mp hsome
          rw [hchanged.entry e he] at he
          exact absurd (headersOf_lt he) (Nat.not_lt.mpr hbehind)
      · refine h.of_tidy ?_ fun n hn => ?_
        · rw [Volume.headers, Volume.headers]
          show Tidy _ (headersOf (ampmFOpen v.ff (v.fils k) fileName.1 mode).ff.flash.mem)
          rw [hsame]
          exact Tidy.refl _
        · simpa [Volume.step, hcreated] using hn
  | fWrite k fuel buff =>
      refine h.of_tidy ?_ fun _ => id
      have htidies := (writeCommands_tidies hf fuel buff hkeeps).last
      rw [← (ampmFWrite_commanded hf fuel (v.fils k) buff).mem] at htidies
      exact htidies
  | fClose k =>
      refine h.of_tidy ?_ fun _ => id
      have htidies := (closeCommands_tidies v.ff hkeeps).last
      rw [← (ampmFClose_commanded hf (v.fils k)).mem] at htidies
      exact htidies
  | fUnlink fileName =>
      have htidies := (unlinkCommands_tidies v.ff.flash.mem fileName.1).last
      rw [← (ampmFUnlink_commanded hf fileName.1).mem] at htidies
      rcases ampmFUnlink_spec v.ff fileName.1 with ⟨i, as, hi, hat, -, heq⟩ | ⟨-, as, heq⟩
      · obtain ⟨n, -, hbegins⟩ := headerAt_begins h.rooted (Nat.le_of_lt hi) hat.1
        have hnone := ampmFUnlink_erases hi hat heq
        have hkept : Consistent { v.step (.fUnlink fileName) with gone := v.gone } :=
          h.of_tidy htidies fun _ => id
        refine ⟨hkept.unique, hkept.rooted, fun m hm j hj => ?_⟩
        have hm' : m = fileName.1 ∨ m ∈ v.gone := by
          simpa [Volume.step, heq] using hm
        rcases hm' with rfl | hm'
        · -- there was one file with the name, and its header was erased
          rw [← hat.2] at hbegins
          obtain rfl := h.unique _ _ _ (htidies.begins _ j hj) hbegins
          exact absurd (hj.symm.trans hnone) (Option.some_ne_none _)
        · exact hkept.gone m hm' j hj
      · refine h.of_tidy htidies fun n hn => ?_
        simpa [Volume.step, heq] using hn

lemma step_faultless (hf : v.ff.flash.Faultless) (op : VolumeOp) :
    (v.step op).ff.flash.Faultless := by
  cases op with
  | fOpen k fileName mode => exact (ampmFOpen_commanded hf (v.fils k) fileName.1 mode).faultless
  | fWrite k fuel buff => exact (ampmFWrite_commanded hf fuel (v.fils k) buff).faultless
  | fClose k => exact (ampmFClose_commanded hf (v.fils k)).faultless
  | fUnlink fileName => exact (ampmFUnlink_commanded hf fileName.1).faultless

end Invariant

/-! ## Every run -/

/-- **Names are unique.**  From a formatted disk, in every run of which no write fails of itself and
every call keeps the names apart, at most one file has a name in every state, and a name that was
unlinked cannot be opened for reading until it is created again. -/
theorem volume_namesKept {v : Volume} (hv : Formatted v) {ops : List VolumeOp}
    (h : StepsMeet Volume.step (fun v op => op.Sane v) v ops) :
    Throughout Volume.step NamesKept v ops :=
  (throughout_of_stepsMeet (fun _ _ hv hop => hv.step hop) hv.consistent h).mono
    fun _ hv => hv.namesKept

/-! ## A file that is created twice -/

lemma ampmFlashEraseSector_erased {ff : Ff} (hmem : ff.flash.mem = fun _ => 0xFF) (addr : ℕ) :
    ampmFlashEraseSector ff addr = ff.logged [.erase addr] := by
  have hsame : erase 4096 (devAddr addr) ff.flash.mem = ff.flash.mem := by
    funext x
    rw [hmem, erase, ite_self]
  rw [ampmFlashEraseSector, sst25Erase, hsame]
  rfl

/-- A flash that was erased before it is formatted. -/
lemma format_erased (is : List ℕ) : ∀ ff : Ff, ff.flash.mem = (fun _ => 0xFF) →
    is.foldl (fun ff i => ampmFlashEraseSector ff (ffAddr i 0)) ff =
      ff.logged (is.map fun i => .erase (ffAddr i 0)) := by
  induction is with
  | nil => exact fun ff _ => (logged_nil ff).symm
  | cons i is ih =>
      intro ff hmem
      have hmem' : (ff.logged [.erase (ffAddr i 0)]).flash.mem = fun _ => 0xFF := hmem
      rw [List.foldl_cons, ampmFlashEraseSector_erased hmem, ih _ hmem', logged_logged]
      rfl

/-- `rand()` returns 1, and the flash was erased before it was formatted. -/
def blankVolume : Volume :=
  ⟨erasedFf.logged ((List.range diskSectorMax).map fun i => .erase (ffAddr i 0)),
    fun _ => AmpmFil.ofBytes fun _ => 0, []⟩

lemma blankVolume_formatted : Formatted blankVolume :=
  ⟨⟨erasedFf, (format_erased _ erasedFf rfl).symm⟩, rfl⟩

/-- The name `A`. -/
def nameA : CString := ⟨[0x41], by decide⟩

/-- It is created, closed, and unlinked. -/
theorem volume_namesKept_one : Throughout Volume.step NamesKept blankVolume
    [.fOpen 0 nameA 0x08, .fClose 0, .fUnlink nameA] := by
  have hf : blankVolume.ff.flash.Faultless := fun _ => rfl
  have hopened := step_faultless hf (.fOpen 0 nameA 0x08)
  have hclosed := step_faultless hopened (.fClose 0)
  have hinside : ClosesInside ((blankVolume.step (.fOpen 0 nameA 0x08)).fils 0) := by
    refine fun _ _ => ?_
    decide +kernel
  exact volume_namesKept blankVolume_formatted
    ⟨⟨hf, fun i _ _ j => blankVolume_formatted.not_begins _ j⟩, ⟨hopened, hinside⟩,
      ⟨hclosed, trivial⟩, trivial⟩

/-- It is created and closed, and created again and closed again. -/
def createTwice : List VolumeOp :=
  [.fOpen 0 nameA 0x08, .fClose 0, .fOpen 1 nameA 0x08, .fClose 1]

lemma createTwice_evaluated :
    (run Volume.step blankVolume createTwice).headers 0 = some (0, [0x41]) ∧
    (run Volume.step blankVolume createTwice).headers 2 = some (2, [0x41]) ∧
    [0x41] ∈ (run Volume.step blankVolume (createTwice ++ [.fUnlink nameA])).gone ∧
    (ampmFOpen (run Volume.step blankVolume (createTwice ++ [.fUnlink nameA])).ff
      (AmpmFil.ofBytes fun _ => 0) [0x41] 0x01).ret = .frOk := by
  decide +kernel

/-- A file that is created twice is there twice; unlinked once, it is still found. -/
theorem volume_twice :
    (¬ ∀ (v : Volume) (ops : List VolumeOp), Formatted v →
      Throughout Volume.step NamesKept v ops) ∧
    [0x41] ∈ (run Volume.step blankVolume (createTwice ++ [.fUnlink nameA])).gone ∧
    (ampmFOpen (run Volume.step blankVolume (createTwice ++ [.fUnlink nameA])).ff
      (AmpmFil.ofBytes fun _ => 0) [0x41] 0x01).ret = .frOk := by
  obtain ⟨hfirst, hsecond, hgone, hfound⟩ := createTwice_evaluated
  refine ⟨fun h => ?_, hgone, hfound⟩
  have hkept := (h blankVolume createTwice blankVolume_formatted).last
  exact absurd (hkept.unique _ 0 2 hfirst hsecond) (by decide)

end Ampm
