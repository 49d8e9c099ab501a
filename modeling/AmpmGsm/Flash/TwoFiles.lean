import AmpmGsm.Flash.Stored
import AmpmGsm.Lib.Runs
import Mathlib.Logic.Function.Basic

/-!
# Two open files

There is one `ampm_file_buf` for all files.  The bytes that wait in it for the rest of their block
are overwritten by those that are written to another file.

* `TwoFiles`, `filesStep` — two handles, and calls of `ampm_f_write` and `ampm_f_close` on them.
* `BufferFree` — the condition at one call.
* `files_stored` — the runs in which each file has its own bytes.
* `files_disturbed` — a run in which one has a byte of the other.
-/

namespace Ampm

open NorFlash Runs

/-! ## The calls -/

/-- A handle, what was written through it, and whether it was closed. -/
structure UserFile where
  fil : AmpmFil
  written : List UInt8
  closed : Bool

/-- Two handles.  `ok` says that all calls have returned `FR_OK`. -/
structure TwoFiles where
  ff : Ff
  file : Bool → UserFile
  ok : Bool

/-- A call on a handle. -/
inductive FileCall
  | write (buff : List UInt8)
  | close

/-- A call on one of the handles. -/
def filesStep (s : TwoFiles) (call : Bool × FileCall) : TwoFiles :=
  let f := s.file call.1
  match call.2 with
  | .write buff =>
      let r := ampmFWrite (2 ^ 16) s.ff f.fil buff
      { ff := r.2.2
        file := Function.update s.file call.1 ⟨r.2.1, f.written ++ buff, f.closed⟩
        ok := s.ok && r.1 = some .frOk }
  | .close =>
      let r := ampmFClose s.ff f.fil
      { ff := r.2.2
        file := Function.update s.file call.1 ⟨r.2.1, f.written, true⟩
        ok := s.ok && r.1 = .frOk }

/-- Two files that were opened one after the other. -/
def openedFiles (o o' : AmpmFOpened) : TwoFiles :=
  { ff := o'.ff
    file := fun i => if i then ⟨o'.fil, [], false⟩ else ⟨o.fil, [], false⟩
    ok := true }

/-- The other handle has no bytes in the buffer when some are written, and a sector of the partition
is free whenever one is needed. -/
def BufferFree (s : TwoFiles) (call : Bool × FileCall) : Prop :=
  match call.2 with
  | .write buff =>
      (buff ≠ [] → (s.file !call.1).closed = true ∨ (s.file !call.1).fil.fileOffset % 256 = 0) ∧
        FindsSectors buff (s.file call.1).fil s.ff
  | .close => True

/-! ## The invariant -/

/-- The sectors of the chain hold what was written, or the buffer does. -/
def FileHolds (ff : Ff) (f : UserFile) (chain : List ℕ) : Prop :=
  if f.closed then
    ClosedFile ff.flash.mem f.fil.startSector chain f.written ∧ Owned ff.flash.mem chain ∧
      handleOk f.fil = false
  else Writing ff.flash.mem f.fil chain f.written ∧ Pending ff.fileBuf f.written

/-- Both files have what was written, each in its own sectors. -/
structure BothHold (s : TwoFiles) (chain : Bool → List ℕ) : Prop where
  faultless : s.ff.flash.Faultless
  holds : ∀ i, FileHolds s.ff (s.file i) (chain i)
  apart : ∀ i, List.Disjoint (chain i) (chain !i)

/-- A handle with which nothing can be done any more. -/
def Stuck (f : UserFile) : Prop := f.closed = false ∧ handleOk f.fil = false

/-- While all calls return `FR_OK`, both files are as they should be, or one can no longer be closed. -/
def FilesInv (s : TwoFiles) : Prop :=
  s.ok = true → (∃ i, Stuck (s.file i)) ∨ ∃ chain, BothHold s chain

section Invariant

variable {ff ff' : Ff} {f : UserFile} {chain more : List ℕ}

lemma FileHolds.owned (h : FileHolds ff f chain) : Owned ff.flash.mem chain := by
  unfold FileHolds at h
  split_ifs at h
  · exact h.2.1
  · exact h.1.cells.owned

/-- A file does not care for what happens in other sectors, and for the buffer only if it has bytes
there. -/
lemma FileHolds.congr (h : FileHolds ff f chain)
    (hsame : SameSectors chain ff.flash.mem ff'.flash.mem)
    (hbuf : f.closed = false → Pending ff.fileBuf f.written → Pending ff'.fileBuf f.written) :
    FileHolds ff' f chain := by
  unfold FileHolds at h ⊢
  split_ifs at h ⊢ with hclosed
  · exact ⟨h.1.congr hsame, h.2.1.congr hsame, h.2.2⟩
  · exact ⟨h.1.congr hsame, hbuf (Bool.eq_false_iff.mpr hclosed) h.2⟩

variable {s : TwoFiles} {chains : Bool → List ℕ}

/-- A call on one handle, which keeps what the other file has in the buffer. -/
lemma BothHold.update (h : BothHold s chains) (i : Bool) (ok : Bool)
    (hstep : WriterStep s.ff ff' (chains i) more) (hholds : FileHolds ff' f (chains i ++ more))
    (hbuf : (s.file !i).closed = false → Pending s.ff.fileBuf (s.file !i).written →
      Pending ff'.fileBuf (s.file !i).written) :
    BothHold ⟨ff', Function.update s.file i f, ok⟩
      (Function.update chains i (chains i ++ more)) := by
  have hother := hstep.apart (chains !i) (h.holds !i).owned (h.apart i)
  have hne : (!i) ≠ i := by cases i <;> decide
  refine ⟨hstep.faultless, fun j => ?_, fun j => ?_⟩
  · show FileHolds ff' (Function.update s.file i f j) (Function.update chains i _ j)
    by_cases hj : j = i
    · subst hj
      rw [Function.update_self, Function.update_self]
      exact hholds
    · obtain rfl : j = !i := Bool.eq_not.mpr hj
      rw [Function.update_of_ne hne, Function.update_of_ne hne]
      exact (h.holds !i).congr (hstep.sameSectors hother) hbuf
  · by_cases hj : j = i
    · subst hj
      rw [Function.update_self, Function.update_of_ne hne]
      exact hother
    · obtain rfl : j = !i := Bool.eq_not.mpr hj
      rw [Bool.not_not, Function.update_self, Function.update_of_ne hne]
      exact fun _ hold hnew => hother hnew hold

/-- A call of `ampm_f_write` that returns `FR_OK`. -/
lemma BothHold.write (h : BothHold s chains) (i : Bool) (buff : List UInt8)
    (hok : (ampmFWrite (2 ^ 16) s.ff (s.file i).fil buff).1 = some .frOk)
    (hund : BufferFree s (i, .write buff)) :
    (∃ j, Stuck ((filesStep s (i, .write buff)).file j)) ∨
      ∃ chains', BothHold (filesStep s (i, .write buff)) chains' := by
  have hlen : buff.length < 2 ^ 16 := by
    by_contra hlong
    exact ampmFWrite_long (Nat.not_lt.mp hlong) hok
  obtain ⟨hhandle, hok', heq⟩ := ampmFWrite_ok hlen hlen hok
  have hholds := h.holds i
  unfold FileHolds at hholds
  split_ifs at hholds with hclosed
  · rw [hholds.2.2] at hhandle
    exact absurd hhandle Bool.false_ne_true
  obtain ⟨hw, hbuf⟩ := hholds
  have hsize := ((handleOk_iff _).mp hhandle).size_le
  rw [hw.size] at hsize
  by_cases hlt : ((s.file i).written ++ buff).length ≤ 100000
  · have hfound := writeBytes_inRange buff h.faultless hw hbuf hlt hok' hund.2
    obtain ⟨more, hw', hbuf', hstep⟩ := writeBytes_spec buff h.faultless hw hbuf hlt hok' hfound
    rw [← heq] at hw' hbuf' hstep
    refine Or.inr ⟨_, h.update i _ hstep ?_ fun hopen hpend => ?_⟩
    · unfold FileHolds
      rw [if_neg hclosed]
      exact ⟨hw', hbuf'⟩
    · by_cases hempty : buff = []
      · subst hempty
        exact heq ▸ hpend
      · have hblock := (hund.1 hempty).resolve_left (Bool.eq_false_iff.mp hopen)
        have hother := h.holds !i
        unfold FileHolds at hother
        rw [if_neg (Bool.eq_false_iff.mp hopen)] at hother
        rw [hother.1.offset] at hblock
        intro k hk
        rw [hblock] at hk
        exact absurd hk (Nat.not_lt_zero k)
  · have hfileSize := writeBytes_fileSize buff (s.file i).fil s.ff hok' (by rw [hw.size]; omega)
    rw [hw.size, ← List.length_append, ← heq] at hfileSize
    refine Or.inl ⟨i, ?_⟩
    show Stuck (Function.update s.file i _ i)
    rw [Function.update_self]
    refine ⟨Bool.eq_false_iff.mpr hclosed, Bool.eq_false_iff.mpr fun hno => hlt ?_⟩
    rw [← hfileSize]
    exact ((handleOk_iff _).mp hno).size_le

/-- A call of `ampm_f_close` that returns `FR_OK`. -/
lemma BothHold.close (h : BothHold s chains) (i : Bool)
    (hok : (ampmFClose s.ff (s.file i).fil).1 = .frOk) :
    ∃ chains', BothHold (filesStep s (i, .close)) chains' := by
  have hholds := h.holds i
  unfold FileHolds at hholds
  split_ifs at hholds with hclosed
  · rw [ampmFClose, hholds.2.2, if_neg Bool.false_ne_true] at hok
    exact AmpmFResult.noConfusion hok
  obtain ⟨hw, hbuf⟩ := hholds
  obtain ⟨hfile, howned, hstep, hsame⟩ := ampmFClose_spec h.faultless hw hbuf hok
  obtain ⟨-, _, _, _, next, -, -, -, heq⟩ := ampmFClose_ok hw.permission_eq hok
  have hcleared : handleOk (ampmFClose s.ff (s.file i).fil).2.1 = false := by
    rw [heq]
    exact Bool.eq_false_iff.mpr fun hno => ((handleOk_iff _).mp hno).named rfl
  have hstart : (ampmFClose s.ff (s.file i).fil).2.1.startSector = (s.file i).fil.startSector := by
    rw [heq]
    rfl
  refine ⟨_, h.update i _ hstep ?_ fun _ hpend => hsame.symm ▸ hpend⟩
  unfold FileHolds
  rw [if_pos rfl, List.append_nil]
  exact ⟨hstart.symm ▸ hfile, howned, hcleared⟩

/-- With a handle that is stuck nothing returns `FR_OK`. -/
lemma Stuck.step {j : Bool} (h : Stuck (s.file j)) (call : Bool × FileCall)
    (hok : (filesStep s call).ok = true) : Stuck ((filesStep s call).file j) := by
  obtain ⟨i, call⟩ := call
  cases call with
  | write buff =>
      by_cases hj : j = i
      · subst hj
        have hret : (ampmFWrite (2 ^ 16) s.ff (s.file j).fil buff).1 = some .frOk :=
          of_decide_eq_true (Bool.and_eq_true _ _ ▸ hok).2
        rw [ampmFWrite_of_not_ok h.2] at hret
        cases hret
      · show Stuck (Function.update s.file i _ j)
        rwa [Function.update_of_ne hj]
  | close =>
      by_cases hj : j = i
      · subst hj
        have hret : (ampmFClose s.ff (s.file j).fil).1 = .frOk :=
          of_decide_eq_true (Bool.and_eq_true _ _ ▸ hok).2
        rw [ampmFClose, h.2, if_neg Bool.false_ne_true] at hret
        cases hret
      · show Stuck (Function.update s.file i _ j)
        rwa [Function.update_of_ne hj]

/-- What one call under the condition preserves. -/
theorem filesInv_step (s : TwoFiles) (call : Bool × FileCall) (h : FilesInv s)
    (hund : BufferFree s call) : FilesInv (filesStep s call) := by
  intro hok
  have hbefore : s.ok = true := by
    obtain ⟨i, call⟩ := call
    cases call with
    | write buff => exact (Bool.and_eq_true _ _ ▸ hok).1
    | close => exact (Bool.and_eq_true _ _ ▸ hok).1
  rcases h hbefore with ⟨j, hstuck⟩ | ⟨chains, hboth⟩
  · exact Or.inl ⟨j, hstuck.step call hok⟩
  · obtain ⟨i, call⟩ := call
    cases call with
    | write buff =>
        exact hboth.write i buff (of_decide_eq_true (Bool.and_eq_true _ _ ▸ hok).2) hund
    | close => exact Or.inr (hboth.close i (of_decide_eq_true (Bool.and_eq_true _ _ ▸ hok).2))

end Invariant

/-! ## Runs -/

/-- Two files with different names that were created one after the other. -/
structure Created (ff : Ff) (o o' : AmpmFOpened) : Prop where
  faultless : ff.flash.Faultless
  opened : ∃ fil fil' fileName fileName' mode mode', FileName fileName ∧ FileName fileName' ∧
    fileName ≠ fileName' ∧ o = ampmFOpen ff fil fileName mode ∧
      o' = ampmFOpen o.ff fil' fileName' mode'
  ok : o.ret = .frOk ∧ o'.ret = .frOk
  created : o.created = true ∧ o'.created = true

lemma Created.filesInv {ff : Ff} {o o' : AmpmFOpened} (h : Created ff o o') :
    FilesInv (openedFiles o o') := by
  obtain ⟨hf, ⟨fil, fil', fileName, fileName', mode, mode', hname, hname', -, ho, ho'⟩, hok,
    hcreated⟩ := h
  intro _
  by_cases hlt : o.fil.startSector < diskSectorMax
  swap
  · exact Or.inl ⟨false, rfl, Bool.eq_false_iff.mpr fun hno =>
      hlt ((handleOk_iff _).mp hno).start_lt⟩
  by_cases hlt' : o'.fil.startSector < diskSectorMax
  swap
  · exact Or.inl ⟨true, rfl, Bool.eq_false_iff.mpr fun hno =>
      hlt' ((handleOk_iff _).mp hno).start_lt⟩
  obtain ⟨hw, hf', -⟩ := ho ▸ ampmFOpen_writing hf hname (ho ▸ hok.1) (ho ▸ hcreated.1) (ho ▸ hlt)
  obtain ⟨hw', hf'', -, hfresh, hsame⟩ :=
    ho' ▸ ampmFOpen_writing hf' hname' (ho' ▸ hok.2) (ho' ▸ hcreated.2) (ho' ▸ hlt')
  have hnone : ∀ buf, Pending buf [] := fun _ j hj => absurd hj (Nat.not_lt_zero j)
  have hne : o.fil.startSector ≠ o'.fil.startSector := fun heq =>
    hfresh [o.fil.startSector] hw.cells.owned (List.mem_singleton.mpr heq.symm)
  have hkept : SameSectors [o.fil.startSector] o.ff.flash.mem o'.ff.flash.mem := by
    intro s hs
    obtain rfl := List.mem_singleton.mp hs
    exact hsame _ hne
  refine Or.inr ⟨fun i => if i then [o'.fil.startSector] else [o.fil.startSector], hf'', ?_, ?_⟩
  · rintro (_ | _)
    · exact ⟨hw.congr hkept, hnone _⟩
    · exact ⟨hw', hnone _⟩
  · rintro (_ | _)
    · exact List.disjoint_singleton.mpr fun hs => hne (List.mem_singleton.mp hs).symm
    · exact List.disjoint_singleton.mpr fun hs => hne (List.mem_singleton.mp hs)

/-- If all calls have returned `FR_OK` and both files are closed, each has exactly the bytes that
were written to it. -/
def FilesStored (s : TwoFiles) : Prop :=
  s.ok = true → (∀ i, (s.file i).closed = true) →
    ∀ i, storedBytes s.ff.flash.mem (s.file i).fil.startSector = (s.file i).written

/-- **Two files keep apart.**  On a flash that does not fail, of two files that were created by
`ampm_f_open`: in every run of calls under the condition each has its own bytes. -/
theorem files_stored (ff : Ff) (o o' : AmpmFOpened) (calls : List (Bool × FileCall))
    (hcreated : Created ff o o')
    (hmeet : StepsMeet filesStep BufferFree (openedFiles o o') calls) :
    Throughout filesStep FilesStored (openedFiles o o') calls := by
  have hinv := throughout_of_stepsMeet filesInv_step hcreated.filesInv hmeet
  refine hinv.mono fun s hs hok hclosed i => ?_
  rcases hs hok with ⟨j, hstuck, -⟩ | ⟨chains, hboth⟩
  · rw [hclosed j] at hstuck
    cases hstuck
  · have hholds := hboth.holds i
    unfold FileHolds at hholds
    rw [if_pos (hclosed i)] at hholds
    exact hholds.1.storedBytes_eq

/-! ### Two files of one byte -/

/-- The file `B` is created after the file `A`. -/
def openedB : AmpmFOpened := ampmFOpen openedA.ff (AmpmFil.ofBytes fun _ => 0) [0x42] 0x08

lemma openedAB_created : Created erasedFf openedA openedB :=
  ⟨fun _ => rfl, ⟨_, _, [0x41], [0x42], 0x08, 0x08, ⟨by decide, by decide, by decide⟩,
    ⟨by decide, by decide, by decide⟩, by decide, rfl, rfl⟩, by decide +kernel, by decide +kernel⟩

/-- `B` is written after `A` was closed. -/
def apartCalls : List (Bool × FileCall) :=
  [(false, .write [1]), (false, .close), (true, .write [2]), (true, .close)]

/-- `B` is written while the byte of `A` is in the buffer. -/
def mixedCalls : List (Bool × FileCall) :=
  [(false, .write [1]), (true, .write [2]), (false, .close), (true, .close)]

/-- The buffer is free, and the sectors are not full. -/
lemma apartCalls_bufferFree :
    StepsMeet filesStep BufferFree (openedFiles openedA openedB) apartCalls := by
  refine ⟨⟨fun _ => Or.inr ?_, fun h => ?_, trivial⟩, trivial,
    ⟨fun _ => Or.inl ?_, fun h => ?_, trivial⟩, trivial, trivial⟩
  · decide +kernel
  · exact absurd h (by decide +kernel)
  · decide +kernel
  · exact absurd h (by decide +kernel)

theorem files_stored_apart :
    FilesStored (run filesStep (openedFiles openedA openedB) apartCalls) :=
  (files_stored erasedFf openedA openedB apartCalls openedAB_created apartCalls_bufferFree).last

/-- The byte of `A` is lost: what is stored is the one of `B`. -/
theorem files_disturbed :
    ¬ ∀ (ff : Ff) (o o' : AmpmFOpened) (calls : List (Bool × FileCall)), Created ff o o' →
      FilesStored (run filesStep (openedFiles o o') calls) := by
  intro h
  have hlost : (run filesStep (openedFiles openedA openedB) mixedCalls).ok = true ∧
      (∀ i, ((run filesStep (openedFiles openedA openedB) mixedCalls).file i).closed = true) ∧
      storedBytes (run filesStep (openedFiles openedA openedB) mixedCalls).ff.flash.mem
        ((run filesStep (openedFiles openedA openedB) mixedCalls).file false).fil.startSector ≠
      ((run filesStep (openedFiles openedA openedB) mixedCalls).file false).written := by
    decide +kernel
  exact hlost.2.2 (h erasedFf openedA openedB mixedCalls openedAB_created hlost.1 hlost.2.1 false)

end Ampm
