import AmpmGsm.Flash.Reader
import AmpmGsm.Flash.Headers

/-!
# Files that stand on the disk

A file that was closed, what programs cells around it without harm, and when it is still there.

* `StandingFile`, `OnlyFile` — a closed file with all of its records, and the only one of its name.
* `ampmFClose_standing` — what `ampm_f_close` leaves.
* `HasFile` — there is a file with the name and the bytes.
* `Beside`, `AppendStep` — the cells that appending programs.
* `StandingFile.kept`, `HasFile.data`, `not_hasFile` — what follows for the file.
-/

namespace Ampm

open NorFlash Directories

/-! ## Closed files -/

/-- A file with the name that was closed: its sectors have their headers, and the record behind the
link is the one that `ampm_f_close` wrote. -/
structure StandingFile (mem : Memory) (fileName : List UInt8) (start : ℕ) (chain : List ℕ)
    (content : List UInt8) : Prop extends ReadableFile mem start chain content where
  nodup : chain.Nodup
  owned : Owned mem chain
  begins : Begins (headersOf mem) fileName start
  previous_eq : (filAt mem start (2 * sizeofAmpmFil)).previousSector = start
  next_eq : (filAt mem start (2 * sizeofAmpmFil)).nextSector =
    (filAt mem start sizeofAmpmFil).nextSector
  offset_eq : (filAt mem start (2 * sizeofAmpmFil)).fileOffset = content.length
  permission_eq : (filAt mem start (2 * sizeofAmpmFil)).permission = 2

/-- It is the only one with the name: no other begins, and the sectors at which `ampm_f_open` finds
one are sectors of this one. -/
structure OnlyFile (mem : Memory) (fileName : List UInt8) (start : ℕ) : Prop where
  only : ∀ i, Begins (headersOf mem) fileName i → i = start
  leads : ∀ i ≤ diskSectorMax, HoldsFile mem fileName i → (headerAt mem i).startSector = start

/-- There is a file with the name, and these are its bytes. -/
def HasFile (mem : Memory) (fileName content : List UInt8) : Prop :=
  ∃ start chain, Begins (headersOf mem) fileName start ∧ ReadableFile mem start chain content

section Files

variable {mem mem' : Memory} {fileName content : List UInt8} {start : ℕ} {chain : List ℕ}

/-- On a disk on which the names are unique and the headers lead to files. -/
lemma onlyFile_of_unique (hunique : NamesUnique (headersOf mem)) (hroot : Rooted (headersOf mem))
    (h : Begins (headersOf mem) fileName start) : OnlyFile mem fileName start := by
  refine ⟨fun i hi => hunique _ _ _ hi h, fun i hi hholds => ?_⟩
  obtain ⟨-, -, hbegins⟩ := headerAt_begins hroot hi hholds.1
  rw [← hholds.2.1] at hbegins
  exact hunique _ _ _ hbegins h

/-- On a disk with no other header. -/
lemma onlyFile_of_alone (hother : ∀ i, i ≠ start → headersOf mem i = none)
    (h : Begins (headersOf mem) fileName start) : OnlyFile mem fileName start := by
  have halone {i : ℕ} {e : ℕ × List UInt8} (hi : headersOf mem i = some e) : i = start := by
    by_contra hne
    rw [hother i hne] at hi
    cases hi
  refine onlyFile_of_unique (fun n i j hi hj => (halone hi).trans (halone hj).symm)
    (fun i s n hi e hs => ?_) h
  obtain rfl := halone hs
  rw [Begins, hs] at h
  exact congrArg Prod.fst (Option.some.inj h)

lemma StandingFile.hasFile (h : StandingFile mem fileName start chain content) :
    HasFile mem fileName content := ⟨start, chain, h.begins, h.toReadableFile⟩

lemma StandingFile.start_lt (h : StandingFile mem fileName start chain content) :
    start < diskSectorMax := h.lt _ h.start_mem

/-- Two chains of one length along the same links. -/
lemma Linked.getD_eq {chain' : List ℕ} (h : Linked mem chain) (h' : Linked mem chain')
    (hhead : chain'.getD 0 0 = chain.getD 0 0) (hlen : chain'.length = chain.length) :
    ∀ i < chain.length, chain'.getD i 0 = chain.getD i 0
  | 0, _ => hhead
  | i + 1, hi => by
      have hprev := h.getD_eq h' hhead hlen i (Nat.lt_of_succ_lt hi)
      rw [← (h i hi).2, ← (h' i (hlen.symm ▸ hi)).2, hprev]

/-- The bytes of the file that there is are in the sectors that the links lead to. -/
lemma HasFile.data (h : HasFile mem fileName content)
    (honly : ∀ i, Begins (headersOf mem) fileName i → i = start) (hhead : chain.getD 0 0 = start)
    (hlen : chain.length = content.length / diskSectorSize + 1) (hlinked : Linked mem chain) :
    ∀ k < content.length, mem (cellOf chain k) = content.getD k 0 := by
  obtain ⟨start', chain', hbegins, hfile⟩ := h
  obtain rfl := honly _ hbegins
  intro k hk
  have hindex := div_lt_of_lt_mul (show k < chain.length * diskSectorSize by
    rw [hlen]
    unfold diskSectorSize
    omega)
  have hsector := hlinked.getD_eq hfile.linked (hfile.head.trans hhead.symm)
    (hfile.length.trans hlen.symm) _ hindex
  rw [cellOf, ← hsector]
  exact hfile.data k hk

/-- A file whose first header is erased is gone. -/
lemma not_hasFile (honly : ∀ i, Begins (headersOf mem) fileName i → i = start)
    (hnone : headersOf mem' start = none)
    (hother : ∀ t, t ≠ start → headersOf mem' t = headersOf mem t) (content : List UInt8) :
    ¬ HasFile mem' fileName content := by
  rintro ⟨i, chain', hbegins, -⟩
  by_cases hi : i = start
  · rw [hi, Begins, hnone] at hbegins
    cases hbegins
  · exact hi (honly i ((hother i hi).symm.trans hbegins))

end Files

/-! ## Closing -/

section Close

variable {ff : Ff} {fil : AmpmFil} {fileName bs : List UInt8} {chain : List ℕ}

/-- Where the last block is, when the handle stands at the end of the file. -/
lemma closePlace {n : ℕ} (hn : n < 2 ^ 32) :
    sub32 n (n % 256) % diskSectorSize + 256 = 256 + n / 256 * 256 % diskSectorSize := by
  unfold sub32 diskSectorSize
  omega

/-- Closing a file does not touch the headers. -/
lemma ampmFClose_headers (hf : ff.flash.Faultless) (h : Writing ff.flash.mem fil chain bs)
    (hok : (ampmFClose ff fil).1 = .frOk) (hlen : bs.length < 2 ^ 32) :
    headersOf (ampmFClose ff fil).2.2.flash.mem = headersOf ff.flash.mem := by
  obtain ⟨-, r, ff', ff'', next, hw, -, hc, heq⟩ := ampmFClose_ok h.permission_eq hok
  rw [h.offset, h.size, closePlace hlen] at hw
  have hplace := mod_add_lt (bs.length / 256 * 256)
  have hfit : 256 + bs.length / 256 * 256 % diskSectorSize + 256 ≤ 4096 := by
    unfold diskSectorSize
    omega
  have hblock := ampmFlashWrite_written hw hf (Nat.le_of_lt (h.cells.lt _ h.current_mem))
    (Nat.le_of_eq (length_buffer _)) hplace (by rwa [length_buffer])
  have hclosed := writeFil_written hc hblock.faultless
    (Nat.le_of_lt (h.cells.lt _ h.start_mem)) (by decide)
  rw [heq, hclosed.wroteAt.headersOf_eq (by decide) (by decide)]
  exact hblock.wroteAt.headersOf_eq (Nat.le_trans (by decide) (Nat.le_add_right _ _))
    (Nat.le_of_lt hplace)

/-- **What is closed stands on the disk.** -/
theorem ampmFClose_standing (hf : ff.flash.Faultless) (h : Writing ff.flash.mem fil chain bs)
    (hbuf : Pending ff.fileBuf bs) (hok : (ampmFClose ff fil).1 = .frOk)
    (hlen : bs.length < 100000) (hbegins : Begins (headersOf ff.flash.mem) fileName fil.startSector) :
    StandingFile (ampmFClose ff fil).2.2.flash.mem fileName fil.startSector chain bs := by
  have hword : bs.length < 2 ^ 32 := Nat.lt_trans hlen (by decide)
  have hstart := h.cells.lt _ h.start_mem
  have hsector : fil.startSector < 2 ^ 32 := Nat.lt_trans hstart (by decide)
  obtain ⟨-, howned, -, -⟩ := ampmFClose_spec hf h hbuf hok
  obtain ⟨next, hnext, hrecord⟩ := ampmFClose_record hf h hword hok
  have hnextLt : next < 2 ^ 32 := hnext ▸ wordAt_lt _ _
  have hheaders := ampmFClose_headers hf h hok hword
  refine ⟨ampmFClose_readable hf h hbuf hok hlen, h.cells.nodup, howned, ?_, ?_, ?_, ?_, ?_⟩
  · rw [hheaders]
    exact hbegins
  · exact hrecord.word_eq hstart (by decide) (j := 1) (by decide) hsector
  · exact (hrecord.word_eq hstart (by decide) (j := 3) (by decide) hnextLt).trans hnext
  · exact (hrecord.word_eq hstart (by decide) (j := 5) (by decide)
      (show fil.fileOffset < 2 ^ 32 from h.offset ▸ hword)).trans h.offset
  · exact (hrecord.word_eq hstart (by decide) (j := 6) (by decide)
      (show fil.permission < 2 ^ 32 from h.permission_eq.trans_lt (by decide))).trans h.permission_eq

end Close

/-! ## What appending does to the cells -/

/-- The cells of the sectors are as they were, but for those of the last of them in which its link
is and in which the bytes behind the full blocks are. -/
def Beside (chain : List ℕ) (n : ℕ) (mem mem' : Memory) : Prop :=
  ∀ s ∈ chain, ∀ x < 4096,
    (s = chain.getD (n / diskSectorSize) 0 → x < sizeofAmpmFil ∨
      2 * sizeofAmpmFil ≤ x ∧ x < 256 + n / 256 * 256 % diskSectorSize) →
    mem' (sectorStart s + x) = mem (sectorStart s + x)

/-- No cells are changed but these and those of other sectors, and there is no new file with the
name. -/
structure AppendStep (fileName : List UInt8) (chain : List ℕ) (n : ℕ) (mem mem' : Memory) : Prop where
  beside : Beside chain n mem mem'
  begins : ∀ i, Begins (headersOf mem') fileName i → Begins (headersOf mem) fileName i

section Steps

variable {mem mem' mem'' : Memory} {fileName content : List UInt8} {start n s off : ℕ}
  {chain : List ℕ} {buf : List UInt8}

lemma AppendStep.refl (fileName : List UInt8) (chain : List ℕ) (n : ℕ) (mem : Memory) :
    AppendStep fileName chain n mem mem := ⟨fun _ _ _ _ _ => rfl, fun _ => id⟩

lemma AppendStep.trans (h : AppendStep fileName chain n mem mem')
    (h' : AppendStep fileName chain n mem' mem'') : AppendStep fileName chain n mem mem'' :=
  ⟨fun s hs x hx hin => (h'.beside s hs x hx hin).trans (h.beside s hs x hx hin),
    fun i hi => h.begins i (h'.begins i hi)⟩

/-- A write behind a header, in another sector or where the file has room. -/
lemma AppendStep.of_wroteAt (h : WroteAt s off buf mem mem') (hlow : sizeofAmpmFil ≤ off)
    (hoff : off ≤ 4096)
    (hin : s ∈ chain → s = chain.getD (n / diskSectorSize) 0 ∧
      (off + buf.length ≤ 2 * sizeofAmpmFil ∨ 256 + n / 256 * 256 % diskSectorSize ≤ off)) :
    AppendStep fileName chain n mem mem' := by
  refine ⟨fun t ht x hx hkept => ?_, fun i hi => ?_⟩
  · by_cases hts : t = s
    · subst hts
      obtain ⟨hlast, hplace⟩ := hin ht
      refine h.outside (Nat.ne_of_gt (Nat.lt_of_lt_of_le (by decide) hlow)) x hx ?_
      rcases hkept hlast with hx' | ⟨hx', hx''⟩
      · exact Or.inl (Nat.lt_of_lt_of_le hx' hlow)
      · rcases hplace with hlink | hblock
        · exact Or.inr (Nat.le_trans hlink hx')
        · exact Or.inl (Nat.lt_of_lt_of_le hx'' hblock)
    · exact h.other t hts x hx
  · rwa [h.headersOf_eq hlow hoff] at hi

/-- A header of another file, or of another sector of the file. -/
lemma AppendStep.of_header {fil : AmpmFil} (hs : s ≤ diskSectorMax)
    (hword : fil.startSector < 2 ^ 32) (h : WroteAt s 0 fil.bytes mem mem')
    (hstored : StoredAt s 0 fil.bytes mem') (hin : s ∉ chain) (hne : fil.startSector ≠ s) :
    AppendStep fileName chain n mem mem' := by
  refine ⟨fun t ht x hx _ => h.other t (fun heq => hin (heq ▸ ht)) x hx, fun i hi => ?_⟩
  rcases (changedAt_header hs hword h.other hstored).cases hi with ⟨rfl, heq⟩ | ⟨-, hold⟩
  · exact absurd (Prod.mk.inj heq).1.symm hne
  · exact hold

section Standing

variable (h : StandingFile mem fileName start chain content)
  (hstep : AppendStep fileName chain content.length mem mem')

include hstep

lemma AppendStep.filAt_eq (hlt : ∀ s ∈ chain, s < diskSectorMax) (hs : s ∈ chain) :
    filAt mem' s 0 = filAt mem s 0 := by
  refine filAt_congr (hlt s hs) (by decide) fun k hk => ?_
  rw [Nat.zero_add]
  exact hstep.beside s hs k (Nat.lt_trans hk (by decide)) fun _ => Or.inl hk

lemma AppendStep.record_eq (hlt : ∀ s ∈ chain, s < diskSectorMax) (hs : s ∈ chain) :
    filAt mem' s (2 * sizeofAmpmFil) = filAt mem s (2 * sizeofAmpmFil) := by
  refine filAt_congr (hlt s hs) (by decide) fun k hk => ?_
  refine hstep.beside s hs _ ?_ fun _ => Or.inr ⟨Nat.le_add_right _ _, ?_⟩
  · exact Nat.lt_trans (Nat.add_lt_add_left hk _) (by decide)
  · exact Nat.lt_of_lt_of_le (Nat.add_lt_add_left hk _)
      (Nat.le_trans (by decide) (Nat.le_add_right _ _))

include h

lemma StandingFile.owned_of_step : Owned mem' chain := by
  intro s hs
  rw [hstep.filAt_eq h.lt hs]
  exact h.owned s hs

lemma StandingFile.linked_of_step : Linked mem' chain := by
  intro i hi
  have hlast : chain.getD i 0 ≠ chain.getD (content.length / diskSectorSize) 0 := by
    have hlen := h.length
    intro heq
    have hindex := getD_inj h.nodup (Nat.lt_of_succ_lt hi) (by omega) heq
    omega
  have hmem := getD_mem (Nat.lt_of_succ_lt hi)
  have hlink : filAt mem' (chain.getD i 0) sizeofAmpmFil =
      filAt mem (chain.getD i 0) sizeofAmpmFil := by
    refine filAt_congr (h.lt _ hmem) (by decide) fun k hk => ?_
    exact hstep.beside _ hmem _ (Nat.lt_trans (Nat.add_lt_add_left hk _) (by decide))
      fun heq => absurd heq hlast
  rw [hlink]
  exact h.linked i hi

/-- The full blocks are where they were. -/
lemma StandingFile.data_of_step {k : ℕ} (hk : k < content.length / 256 * 256) :
    mem' (cellOf chain k) = content.getD k 0 := by
  have hlt : k < content.length := Nat.lt_of_lt_of_le hk (Nat.div_mul_le_self _ _)
  have hindex := h.index_lt (Nat.le_of_lt hlt)
  rw [← h.data k hlt]
  refine hstep.beside _ (getD_mem hindex) _ (mod_add_lt k) fun heq => Or.inr ⟨?_, ?_⟩
  · exact Nat.le_trans (by decide) (Nat.le_add_right _ _)
  · have hsector := getD_inj h.nodup hindex (h.index_lt (Nat.le_refl _)) heq
    unfold diskSectorSize at hsector ⊢
    omega

/-- The file is there as long as the bytes behind its full blocks are. -/
lemma StandingFile.kept (hrest : ∀ k, content.length / 256 * 256 ≤ k → k < content.length →
    mem' (cellOf chain k) = content.getD k 0) : HasFile mem' fileName content := by
  have hrecord := hstep.record_eq h.lt h.start_mem
  have hheader : headersOf mem' start = headersOf mem start :=
    headersOf_congr (hstep.filAt_eq h.lt h.start_mem)
  refine ⟨start, chain, hheader.trans h.begins, ⟨⟨h.head, h.length, h.lt,
    h.linked_of_step hstep, fun k hk => ?_, ?_⟩, ?_, ?_, ?_⟩⟩
  · rcases Nat.lt_or_ge k (content.length / 256 * 256) with hfull | htail
    · exact h.data_of_step hstep hfull
    · exact hrest k htail hk
  · rw [hrecord]
    exact h.size
  · rw [hrecord]
    exact h.valid
  · rw [hrecord]
    exact h.start_eq
  · rw [hrecord]
    exact h.current_eq

/-- And only then. -/
lemma StandingFile.hasFile_iff (honly : OnlyFile mem fileName start) :
    HasFile mem' fileName content ↔ ∀ k, content.length / 256 * 256 ≤ k → k < content.length →
      mem' (cellOf chain k) = content.getD k 0 := by
  refine ⟨fun hfile k _ hk => ?_, h.kept hstep⟩
  exact hfile.data (fun i hi => honly.only i (hstep.begins i hi)) h.head h.length
    (h.linked_of_step hstep) k hk

end Standing

end Steps

end Ampm
