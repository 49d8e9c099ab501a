import AmpmGsm.Flash.Volume
import Mathlib.Data.Set.Insert

/-!
# Recovery from a loss of power

`ampm_f_init` calls `ampm_f_disk_cleanup`, which is to erase what was created and not closed.  The
power may go between any two commands to the flash; then the RAM is lost, and the next call is
`ampm_f_init`.

* `ampmFInit` — the function.
* `Unclosed`, `Wiped` — the first sectors that are erased, and that the other cells stay.
* **`cleanup_wipes`** — what the loop of `ampm_f_disk_cleanup` does, although it looks at sectors
  whose files it has erased meanwhile.
* `VolumeEvent`, `Volume.event` — calls, and calls that the power ends.
* **`volume_recovers`** — every run of these.
-/

namespace Ampm

open NorFlash Runs Directories Function

/-! ## The code -/

/-- `SST25_Init`: whether it returns `SST25_OK`. -/
def sst25Init : Bool := true

/-- `ampm_f_init`. -/
def ampmFInit (ff : Ff) : AmpmFResult × Ff :=
  if sst25Init then (.frOk, ampmFDiskCleanup ff) else (.frErr, ff)

/-! ## What is erased -/

/-- A file begins at the sector, and it has no valid close record. -/
def Unclosed (mem : Memory) (s : ℕ) : Prop :=
  (∃ n, Begins (headersOf mem) n s) ∧ formatCheck (filAt mem s (2 * sizeofAmpmFil)) = false

/-- Every sector that is not free is one of a file that was closed. -/
def AllClosed (mem : Memory) : Prop :=
  ∀ i ≤ diskSectorMax, sectorValid mem i = true →
    formatCheck (filAt mem (headerAt mem i).startSector (2 * sizeofAmpmFil)) = true

/-- The sectors of the set are erased, and all other cells are as they were. -/
structure Wiped (E : Set ℕ) (mem mem' : Memory) : Prop where
  gone : ∀ s ∈ E, ∀ x < 4096, mem' (sectorStart s + x) = 0xFF
  kept : ∀ x, (∀ s ∈ E, x / 4096 ≠ sectorStart s / 4096) → mem' x = mem x

section Wiped

variable {E : Set ℕ} {mem mem' : Memory} {s t i : ℕ} {n : List UInt8}

lemma wiped_empty (mem : Memory) : Wiped ∅ mem mem :=
  ⟨fun _ hs => absurd hs (Set.notMem_empty _), fun _ _ => rfl⟩

/-- One more sector. -/
lemma Wiped.erase (h : Wiped E mem mem') (hs : s < diskSectorMax) :
    Wiped (insert s E) mem (FlashCommand.apply mem' (.erase (ffAddr s 0))) := by
  have hdev : devAddr (ffAddr s 0) = sectorStart s := devAddr_ffAddr hs (by decide)
  constructor
  · intro t ht x hx
    rw [FlashCommand.apply, hdev]
    by_cases hblock : (sectorStart t + x) / 4096 = sectorStart s / 4096
    · exact erase_of_eq hblock
    · rw [erase_of_ne hblock]
      rcases Set.mem_insert_iff.mp ht with rfl | ht
      · rw [sectorStart] at hblock
        omega
      · exact h.gone t ht x hx
  · intro x hx
    rw [FlashCommand.apply, hdev, erase_of_ne (hx s (Set.mem_insert s E))]
    exact h.kept x fun t ht => hx t (Set.mem_insert_of_mem s ht)

lemma Wiped.sameSector (h : Wiped E mem mem') (ht : t ∉ E) : SameSector t mem mem' := by
  intro x hx
  refine h.kept _ fun s hs hblock => ht ?_
  have heq : t = s := by
    rw [sectorStart, sectorStart] at hblock
    omega
  exact heq ▸ hs

/-- The headers of the others are as they were. -/
lemma Wiped.headersOf_of_notMem (h : Wiped E mem mem') (ht : t ∉ E) :
    headersOf mem' t = headersOf mem t := (h.sameSector ht).headersOf_eq

lemma Wiped.headersOf_of_mem (h : Wiped E mem mem') (ht : t ∈ E) : headersOf mem' t = none := by
  by_cases hle : t ≤ diskSectorMax
  · exact headersOf_of_erased hle fun x hx => h.gone t ht x (Nat.lt_trans hx (by decide))
  · rw [headersOf, if_neg fun hand => hle hand.1]

lemma Wiped.headersOf_eq_some (h : Wiped E mem mem') {e : ℕ × List UInt8}
    (he : headersOf mem' t = some e) : t ∉ E ∧ headersOf mem t = some e := by
  have ht : t ∉ E := fun hmem => Option.some_ne_none _ (he.symm.trans (h.headersOf_of_mem hmem))
  exact ⟨ht, (h.headersOf_of_notMem ht).symm.trans he⟩

/-- No file is new. -/
lemma Wiped.tidies (h : Wiped E mem mem') : Tidies mem mem' := by
  constructor
  · exact fun n i hi => (h.headersOf_eq_some hi).2
  · intro hroot i s n hi e hs
    exact hroot i s n (h.headersOf_eq_some hi).2 e (h.headersOf_eq_some hs).2

end Wiped

/-! ## The loop -/

/-- The sectors of the list lead to these files that were not closed. -/
def LedTo (mem : Memory) (is : List ℕ) : Set ℕ :=
  {s | Unclosed mem s ∧ ∃ i ∈ is, ∃ n, headersOf mem i = some (s, n)}

section Loop

variable {E : Set ℕ} {mem mem' : Memory} {i : ℕ} {is : List ℕ}

lemma mem_ledTo_singleton {s : ℕ} :
    s ∈ LedTo mem [i] ↔ Unclosed mem s ∧ ∃ n, headersOf mem i = some (s, n) := by
  simp [LedTo]

lemma ledTo_cons (mem : Memory) (i : ℕ) (is : List ℕ) :
    LedTo mem (i :: is) = LedTo mem [i] ∪ LedTo mem is := by
  ext s
  simp only [LedTo, Set.mem_union, Set.mem_ofPred_eq, List.mem_cons, List.not_mem_nil, or_false]
  grind

/-- The command of a round, if the sector is not free. -/
lemma cleanupCommand_of_begins {s : ℕ} {n n' : List UInt8} (hi : headersOf mem i = some (s, n))
    (hs : Begins (headersOf mem) n' s) : cleanupCommand mem i =
      if formatCheck (filAt mem s (2 * sizeofAmpmFil)) = true then [] else [.erase (ffAddr s 0)] := by
  obtain ⟨-, hcheck, hstart, -⟩ := headersOf_eq_some.mp hs
  have hvalid : sectorValid mem i = true :=
    (sectorValid_iff (headersOf_le hi)).mpr ⟨s, n, _, hi, hs⟩
  simp only [cleanupCommand, headerAt_eq hi, hstart, hvalid, hcheck]
  cases formatCheck (filAt mem s (2 * sizeofAmpmFil)) <;> rfl

/-- One round: the file that the sector leads to is erased, if it is still there and was not
closed. -/
lemma cleanupCommand_wipes (hroot : Rooted (headersOf mem)) (hi : i < diskSectorMax)
    (hE : ∀ s ∈ E, Unclosed mem s) (h : Wiped E mem mem') :
    Wiped (E ∪ LedTo mem [i]) mem (run FlashCommand.apply mem' (cleanupCommand mem' i)) := by
  cases hvalid : sectorValid mem' i with
  | true =>
      obtain ⟨s, n, e, hi', hs'⟩ := (sectorValid_iff (Nat.le_of_lt hi)).mp hvalid
      obtain ⟨hiE, him⟩ := h.headersOf_eq_some hi'
      obtain ⟨hsE, hsm⟩ := h.headersOf_eq_some hs'
      have hbegins := hroot.begins him hsm
      have hbegins' : Begins (headersOf mem') e.2 s := (h.headersOf_of_notMem hsE).trans hbegins
      have hlt : s < diskSectorMax := headersOf_lt hi'
      have hclose : filAt mem' s (2 * sizeofAmpmFil) = filAt mem s (2 * sizeofAmpmFil) :=
        (h.sameSector hsE).filAt_eq hlt (by decide)
      have hled : ∀ s', s' ∈ LedTo mem [i] ↔ s' = s ∧ Unclosed mem s := by
        intro s'
        rw [mem_ledTo_singleton, him]
        constructor
        · rintro ⟨hopen, n', heq⟩
          obtain ⟨rfl, -⟩ := Prod.mk.inj (Option.some.inj heq)
          exact ⟨rfl, hopen⟩
        · rintro ⟨rfl, hopen⟩
          exact ⟨hopen, n, rfl⟩
      rw [cleanupCommand_of_begins hi' hbegins', hclose]
      split_ifs with hclosed
      · have hsame : E ∪ LedTo mem [i] = E := by
          refine Set.union_eq_self_of_subset_right fun s' hs' => ?_
          exact absurd hclosed (by simp [((hled s').mp hs').2.2])
        rw [hsame]
        exact h
      · have hunclosed : Unclosed mem s := ⟨⟨_, hbegins⟩, by simpa using hclosed⟩
        have hmore : E ∪ LedTo mem [i] = insert s E := by
          ext s'
          rw [Set.mem_union, hled, Set.mem_insert_iff]
          grind
        rw [hmore]
        exact h.erase hlt
  | false =>
      have hquiet : cleanupCommand mem' i = [] := by
        simp [cleanupCommand, hvalid]
      have hsame : E ∪ LedTo mem [i] = E := by
        refine Set.union_eq_self_of_subset_right fun s hs => ?_
        obtain ⟨⟨⟨n', hbegins⟩, -⟩, n, him⟩ := mem_ledTo_singleton.mp hs
        by_contra hsE
        -- the file is still there, so the sector itself was erased, and it is the first one
        have hiE : i ∈ E := by
          by_contra hiE
          have hled := (sectorValid_iff (Nat.le_of_lt hi)).mpr ⟨s, n, _,
            (h.headersOf_of_notMem hiE).trans him, (h.headersOf_of_notMem hsE).trans hbegins⟩
          exact Bool.false_ne_true (hvalid.symm.trans hled)
        obtain ⟨⟨n'', hfirst⟩, -⟩ := hE i hiE
        rw [Begins, him] at hfirst
        obtain ⟨rfl, -⟩ := Prod.mk.inj (Option.some.inj hfirst)
        exact hsE hiE
      rw [hquiet, hsame]
      exact h

lemma cleanupCommands_wipes (hroot : Rooted (headersOf mem)) (his : ∀ i ∈ is, i < diskSectorMax)
    (hE : ∀ s ∈ E, Unclosed mem s) (h : Wiped E mem mem') :
    Wiped (E ∪ LedTo mem is) mem (run FlashCommand.apply mem' (cleanupCommands is mem')) := by
  induction is generalizing E mem' with
  | nil =>
      have hnone : E ∪ LedTo mem [] = E := by simp [LedTo]
      rw [hnone]
      exact h
  | cons i is ih =>
      have hround := cleanupCommand_wipes hroot (his i List.mem_cons_self) hE h
      have hmore : ∀ s ∈ E ∪ LedTo mem [i], Unclosed mem s := by
        rintro s (hs | hs)
        · exact hE s hs
        · exact hs.1
      rw [cleanupCommands, run_append, ledTo_cons, ← Set.union_assoc]
      exact ih (fun j hj => his j (List.mem_cons_of_mem i hj)) hmore hround

/-- **What `ampm_f_disk_cleanup` does**: the first sectors of all files that were not closed are
erased, nothing else changes, and what is left was closed. -/
theorem cleanup_wipes (hroot : Rooted (headersOf mem)) :
    let mem' := run FlashCommand.apply mem (cleanupCommands (List.range diskSectorMax) mem)
    Wiped {s | Unclosed mem s} mem mem' ∧ AllClosed mem' := by
  intro mem'
  have hall : ∅ ∪ LedTo mem (List.range diskSectorMax) = {s | Unclosed mem s} := by
    ext s
    rw [Set.empty_union]
    constructor
    · exact fun hs => hs.1
    · intro hs
      obtain ⟨n, hbegins⟩ := hs.1
      exact ⟨hs, s, List.mem_range.mpr (headersOf_lt hbegins), n, hbegins⟩
  have hwiped := cleanupCommands_wipes hroot (fun i hi => List.mem_range.mp hi)
    (fun _ hs => absurd hs (Set.notMem_empty _)) (wiped_empty mem)
  rw [hall] at hwiped
  refine ⟨hwiped, fun i hi hvalid => ?_⟩
  obtain ⟨s, n, e, hi', hs'⟩ := (sectorValid_iff hi).mp hvalid
  obtain ⟨hsE, hsm⟩ := hwiped.headersOf_eq_some hs'
  have hbegins := hroot.begins (hwiped.headersOf_eq_some hi').2 hsm
  have hlt : s < diskSectorMax := headersOf_lt hi'
  obtain ⟨-, -, hstart, -⟩ := headersOf_eq_some.mp
    ((hwiped.headersOf_of_notMem hsE).trans hbegins : Begins (headersOf mem') e.2 s)
  rw [headerAt_eq hi', hstart, (hwiped.sameSector hsE).filAt_eq hlt (by decide)]
  by_contra hclosed
  exact hsE ⟨⟨_, hbegins⟩, by simpa using hclosed⟩

end Loop

/-! ## Calls that the power ends -/

/-- The commands of a call. -/
def VolumeOp.commands (v : Volume) : VolumeOp → List FlashCommand
  | .fOpen h fileName mode => openCommands v.ff (v.fils h) fileName.1 mode
  | .fWrite h fuel buff => writeCommands fuel v.ff (v.fils h) buff
  | .fClose h => closeCommands v.ff (v.fils h)
  | .fUnlink fileName => unlinkCommands v.ff.flash.mem fileName.1

/-- A call, or a call that the power ends after `k` of its commands; then `ampm_f_init` finds any
values in the RAM. -/
inductive VolumeEvent
  | call (op : VolumeOp)
  | powerLoss (op : VolumeOp) (k : ℕ) (fils : ℕ → AmpmFil) (fileBuf : ℕ → UInt8)

/-- When the power is back.  A name counts as created again if that had begun. -/
def Volume.cutOff (v : Volume) (op : VolumeOp) (k : ℕ) (fils : ℕ → AmpmFil)
    (fileBuf : ℕ → UInt8) : Volume where
  ff := { v.ff with
    flash := { v.ff.flash with mem := run FlashCommand.apply v.ff.flash.mem ((op.commands v).take k) }
    fileBuf := fileBuf }
  fils := fils
  gone := match op with
    | .fOpen _ fileName _ => v.gone.filter fun n => n ≠ fileName.1
    | _ => v.gone

/-- What happens. -/
def Volume.event (v : Volume) : VolumeEvent → Volume
  | .call op => v.step op
  | .powerLoss op k fils fileBuf =>
      let cut := v.cutOff op k fils fileBuf
      { cut with ff := (ampmFInit cut.ff).2 }

/-- The call is sane, whether it is ended or not. -/
def VolumeEvent.Sane (v : Volume) : VolumeEvent → Prop
  | .call op => op.Sane v
  | .powerLoss op _ _ _ => op.Sane v

/-- After a loss of power, what was created and not closed is gone, nothing else has changed, and all
files that are left were closed. -/
def VolumeEvent.Recovers (v : Volume) : VolumeEvent → Prop
  | .call _ => True
  | .powerLoss op k fils fileBuf =>
      let cut := (v.cutOff op k fils fileBuf).ff.flash.mem
      let mem := (v.event (.powerLoss op k fils fileBuf)).ff.flash.mem
      Wiped {s | Unclosed cut s} cut mem ∧ AllClosed mem

section Events

variable {v : Volume}

lemma ampmFInit_mem (hf : v.ff.flash.Faultless) (op : VolumeOp) (k : ℕ) (fils : ℕ → AmpmFil)
    (fileBuf : ℕ → UInt8) :
    (v.event (.powerLoss op k fils fileBuf)).ff.flash.mem =
      run FlashCommand.apply (v.cutOff op k fils fileBuf).ff.flash.mem
        (cleanupCommands (List.range diskSectorMax) (v.cutOff op k fils fileBuf).ff.flash.mem) := by
  have hinit : ∀ ff : Ff, (ampmFInit ff).2 = ampmFDiskCleanup ff :=
    fun ff => by rw [ampmFInit, sst25Init, if_pos rfl]
  have hf' : (v.cutOff op k fils fileBuf).ff.flash.Faultless := hf
  rw [← (ampmFDiskCleanup_commanded hf').mem, ← hinit, Volume.event]

/-- Commands that make no files, or a part of them. -/
lemma Consistent.cut (h : Consistent v) {v' : Volume} {cs : List FlashCommand}
    (hcs : Along FlashCommand.apply Tidies v.ff.flash.mem cs) {k : ℕ}
    (hmem : v'.ff.flash.mem = run FlashCommand.apply v.ff.flash.mem (cs.take k))
    (hgone : ∀ n ∈ v'.gone, n ∈ v.gone) : Consistent v' := by
  refine h.of_tidy ?_ hgone
  rw [Volume.headers, Volume.headers, hmem]
  exact hcs.take k

/-- A file that is created: its sector is erased first, and then it is all there. -/
lemma Consistent.cut_open (h : Consistent v) {i : ℕ} {fileName : CString} {mode : UInt8}
    (hop : (VolumeOp.fOpen i fileName mode).Sane v) (k : ℕ) (fils : ℕ → AmpmFil)
    (fileBuf : ℕ → UInt8) : Consistent (v.cutOff (.fOpen i fileName mode) k fils fileBuf) := by
  have hgone : ∀ n ∈ v.gone.filter fun n => n ≠ fileName.1, n ∈ v.gone :=
    fun n hn => List.mem_of_mem_filter hn
  have hcommands := (ampmFOpen_commanded hop.1 (v.fils i) fileName.1 mode).mem
  cases hcreated : (ampmFOpen v.ff (v.fils i) fileName.1 mode).created with
  | false =>
      have hnone : VolumeOp.commands v (.fOpen i fileName mode) = [] := by
        simp only [VolumeOp.commands, openCommands, hcreated, Bool.false_eq_true, if_false]
      refine h.cut (k := k) (along_nil (tidies_of_eq rfl)) ?_ hgone
      rw [Volume.cutOff, hnone]
  | true =>
      obtain ⟨j, as, r, ff', hj, -, -, heq⟩ := ampmFOpen_created hcreated
      have hle : j ≤ diskSectorMax := ((mem_scanOrder (rand_lt v.ff)).mp hj).1
      have htwo : VolumeOp.commands v (.fOpen i fileName mode) = [.erase (ffAddr j 0)] ++
          [.program (ffAddr j 0) (newFil (headerAt v.ff.flash.mem j) fileName.1 j).bytes] := by
        simp only [VolumeOp.commands, openCommands, heq, if_true]
        exact pageCommands_header j _
      by_cases hk : k ≤ 1
      · refine h.cut (k := k) (erase_tidies v.ff.flash.mem hle) ?_ hgone
        rw [Volume.cutOff, htwo, List.take_append_of_le_length hk]
      · have hstep := h.step hop
        have hall : (v.cutOff (.fOpen i fileName mode) k fils fileBuf).headers =
            (v.step (.fOpen i fileName mode)).headers := by
          rw [Volume.headers, Volume.headers, Volume.cutOff,
            List.take_of_length_le (by rw [htwo]; simp; omega)]
          exact congrArg headersOf hcommands.symm
        refine hstep.of_tidy (hall ▸ Tidy.refl _) fun n hn => ?_
        simpa [Volume.step, Volume.cutOff, hcreated] using hn

/-- The names are apart whenever the power goes. -/
lemma Consistent.cutOff (h : Consistent v) {op : VolumeOp} (hop : op.Sane v) (k : ℕ)
    (fils : ℕ → AmpmFil) (fileBuf : ℕ → UInt8) : Consistent (v.cutOff op k fils fileBuf) := by
  cases op with
  | fOpen i fileName mode => exact h.cut_open hop k fils fileBuf
  | fWrite i fuel buff => exact h.cut (writeCommands_tidies hop.1 fuel buff hop.2) rfl fun _ => id
  | fClose i => exact h.cut (closeCommands_tidies v.ff hop.2) rfl fun _ => id
  | fUnlink fileName =>
      exact h.cut (unlinkCommands_tidies v.ff.flash.mem fileName.1) rfl fun _ => id

lemma Consistent.event (h : Consistent v) {e : VolumeEvent} (he : e.Sane v) :
    Consistent (v.event e) := by
  cases e with
  | call op => exact h.step he
  | powerLoss op k fils fileBuf =>
      have hcut := h.cutOff he k fils fileBuf
      refine hcut.of_tidy ?_ fun _ => id
      have htidies := (cleanup_wipes hcut.rooted).1.tidies
      rw [← ampmFInit_mem he.1] at htidies
      exact htidies

lemma VolumeEvent.recovers (h : Consistent v) {e : VolumeEvent} (he : e.Sane v) :
    e.Recovers v := by
  cases e with
  | call op => trivial
  | powerLoss op k fils fileBuf =>
      have hwipes := cleanup_wipes (h.cutOff he k fils fileBuf).rooted
      simp only [VolumeEvent.Recovers, ampmFInit_mem he.1]
      exact hwipes

end Events

end Ampm
