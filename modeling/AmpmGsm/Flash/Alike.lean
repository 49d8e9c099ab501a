import AmpmGsm.Flash.Append
import AmpmGsm.Flash.Commands

/-!
# States that differ in their history

On a flash that does not fail nothing depends on what was asked of the device before, or on how
often: the functions read the cells, the buffer and the random numbers.

* `Alike` — two states that differ in the rest.
* `EndAlike`, `ampmFWriteByte_alike` — a byte is taken in both or in neither, with the same handle.
-/

namespace Ampm

open NorFlash

/-- The same but for the log, and for what was counted. -/
structure Alike (ff ff' : Ff) : Prop where
  mem : ff'.flash.mem = ff.flash.mem
  fileBuf : ff'.fileBuf = ff.fileBuf
  rand : ff'.rand = ff.rand
  drawn : ff'.drawn = ff.drawn
  faultless : ff.flash.Faultless
  faultless' : ff'.flash.Faultless

/-- The same result, the same handle, and states that are alike. -/
structure EndAlike (r r' : AmpmFResult × AmpmFil × Ff) : Prop where
  ret : r'.1 = r.1
  fil : r'.2.1 = r.2.1
  ff : Alike r.2.2 r'.2.2

section Alike

variable {ff ff' : Ff}

lemma alike_logged (hf : ff.flash.Faultless) (as : List FlashAccess) : Alike ff (ff.logged as) :=
  ⟨rfl, rfl, rfl, rfl, hf, hf⟩

lemma Alike.put (h : Alike ff ff') (k : ℕ) (c : UInt8) : Alike (ff.put k c) (ff'.put k c) :=
  ⟨h.mem, by rw [Ff.put, Ff.put, h.fileBuf], h.rand, h.drawn, h.faultless, h.faultless'⟩

lemma Alike.setBuf (h : Alike ff ff') (buf : ℕ → UInt8) :
    Alike { ff with fileBuf := buf } { ff' with fileBuf := buf } :=
  ⟨h.mem, rfl, h.rand, h.drawn, h.faultless, h.faultless'⟩

lemma Alike.buffer (h : Alike ff ff') : ff'.buffer = ff.buffer := by
  rw [Ff.buffer, Ff.buffer, h.fileBuf]

/-- The comparison is the last thing that a write does. -/
lemma ampmFlashWrite_ret (hf : ff.flash.Faultless) (addr : ℕ) {buf : List UInt8}
    (hlen : buf.length ≤ 256) : (ampmFlashWrite ff addr buf).1 =
      if read (ampmFlashWrite ff addr buf).2.flash.mem (devAddr addr) buf.length = buf then .frOk
      else .frErr := by
  have hmod : buf.length % 2 ^ 16 = buf.length := Nat.mod_eq_of_lt (by omega)
  simp only [ampmFlashWrite, sst25Write, hf ff.flash.writes, sst25WriteInTime, hmod, if_pos hlen,
    List.take_length, sst25WriteChecked, sst25ReadBytes, decide_eq_true_eq]

lemma ampmFlashWrite_alike (h : Alike ff ff') (addr : ℕ) {buf : List UInt8}
    (hlen : buf.length ≤ 256) :
    (ampmFlashWrite ff' addr buf).1 = (ampmFlashWrite ff addr buf).1 ∧
      Alike (ampmFlashWrite ff addr buf).2 (ampmFlashWrite ff' addr buf).2 := by
  have hcommanded := ampmFlashWrite_commanded h.faultless addr hlen
  have hcommanded' := ampmFlashWrite_commanded h.faultless' addr hlen
  have hmem : (ampmFlashWrite ff' addr buf).2.flash.mem = (ampmFlashWrite ff addr buf).2.flash.mem := by
    rw [hcommanded.mem, hcommanded'.mem, h.mem]
  refine ⟨?_, hmem, h.fileBuf, h.rand, h.drawn, hcommanded.faultless, hcommanded'.faultless⟩
  rw [ampmFlashWrite_ret h.faultless addr hlen, ampmFlashWrite_ret h.faultless' addr hlen, hmem]

lemma writeFil_alike (h : Alike ff ff') (sector offset : ℕ) (fil : AmpmFil) :
    (writeFil ff' sector offset fil).1 = (writeFil ff sector offset fil).1 ∧
      Alike (writeFil ff sector offset fil).2 (writeFil ff' sector offset fil).2 :=
  ampmFlashWrite_alike h _ (length_bytes fil ▸ by decide)

/-- The search draws one number. -/
lemma ampmFFindFreeSector_drawn (ff : Ff) : (ampmFFindFreeSector ff).2.drawn = ff.drawn + 1 ∧
    (ampmFFindFreeSector ff).2.rand = ff.rand ∧
    (ampmFFindFreeSector ff).2.fileBuf = ff.fileBuf := by
  rcases ampmFFindFreeSector_spec ff with ⟨_, _, _, -, -, -, heq⟩ | ⟨-, heq⟩
  · rw [heq]
    exact ⟨rfl, rfl, rfl⟩
  · rw [heq]
    exact ⟨rfl, rfl, rfl⟩

lemma Alike.find_fst (h : Alike ff ff') :
    (ampmFFindFreeSector ff').1 = (ampmFFindFreeSector ff).1 :=
  ampmFFindFreeSector_congr h.rand h.drawn fun _ _ => by rw [h.mem]

lemma ampmFFindFreeSector_alike (h : Alike ff ff') :
    (ampmFFindFreeSector ff').1 = (ampmFFindFreeSector ff).1 ∧
      Alike (ampmFFindFreeSector ff).2 (ampmFFindFreeSector ff').2 := by
  have hcommanded := ampmFFindFreeSector_commanded h.faultless
  have hcommanded' := ampmFFindFreeSector_commanded h.faultless'
  obtain ⟨hdrawn, hrand, hbuf⟩ := ampmFFindFreeSector_drawn ff
  obtain ⟨hdrawn', hrand', hbuf'⟩ := ampmFFindFreeSector_drawn ff'
  refine ⟨h.find_fst, ?_, ?_, ?_, ?_, hcommanded.faultless, hcommanded'.faultless⟩
  · rw [hcommanded'.mem, hcommanded.mem, h.mem]
  · rw [hbuf', hbuf, h.fileBuf]
  · rw [hrand', hrand, h.rand]
  · rw [hdrawn', hdrawn, h.drawn]

lemma ampmFWriteSector_alike (h : Alike ff ff') (fil : AmpmFil) :
    EndAlike (ampmFWriteSector ff fil) (ampmFWriteSector ff' fil) := by
  have hfind := ampmFFindFreeSector_alike h
  simp only [ampmFWriteSector]
  generalize ampmFFindFreeSector ff = s at hfind ⊢
  generalize ampmFFindFreeSector ff' = s' at hfind ⊢
  obtain ⟨found, ff₁⟩ := s
  obtain ⟨found', ff₁'⟩ := s'
  obtain ⟨rfl : found' = found, hff : Alike ff₁ ff₁'⟩ := hfind
  cases found' with
  | none => exact ⟨rfl, rfl, hff⟩
  | some sector =>
      have hlink := writeFil_alike hff fil.currentSector sizeofAmpmFil (fil.linkTo sector)
      simp only
      generalize writeFil ff₁ fil.currentSector sizeofAmpmFil (fil.linkTo sector) = l at hlink ⊢
      generalize writeFil ff₁' fil.currentSector sizeofAmpmFil (fil.linkTo sector) = l' at hlink ⊢
      obtain ⟨r, ff₂⟩ := l
      obtain ⟨r', ff₂'⟩ := l'
      obtain ⟨rfl : r' = r, hff : Alike ff₂ ff₂'⟩ := hlink
      cases r' with
      | frErr => exact ⟨rfl, rfl, hff⟩
      | frOk =>
          have hheader := writeFil_alike hff sector 0 ((fil.linkTo sector).moveTo sector)
          simp only
          generalize writeFil ff₂ sector 0 ((fil.linkTo sector).moveTo sector) = e at hheader ⊢
          generalize writeFil ff₂' sector 0 ((fil.linkTo sector).moveTo sector) = e' at hheader ⊢
          obtain ⟨r, ff₃⟩ := e
          obtain ⟨r', ff₃'⟩ := e'
          obtain ⟨rfl : r' = r, hff : Alike ff₃ ff₃'⟩ := hheader
          cases r' with
          | frErr => exact ⟨rfl, rfl, hff⟩
          | frOk => exact ⟨rfl, rfl, hff⟩

lemma ampmFWriteBlock_alike (h : Alike ff ff') (fil : AmpmFil) :
    EndAlike (ampmFWriteBlock ff fil) (ampmFWriteBlock ff' fil) := by
  have hwrite (addr : ℕ) := ampmFlashWrite_alike h addr (Nat.le_of_eq (length_buffer ff))
  simp only [ampmFWriteBlock, h.buffer]
  generalize ffAddr fil.currentSector (sub32 fil.fileOffset 256 % diskSectorSize + 256) = addr
  specialize hwrite addr
  generalize ampmFlashWrite ff addr ff.buffer = w at hwrite ⊢
  generalize ampmFlashWrite ff' addr ff.buffer = w' at hwrite ⊢
  obtain ⟨r, ff₁⟩ := w
  obtain ⟨r', ff₁'⟩ := w'
  obtain ⟨rfl : r' = r, hff : Alike ff₁ ff₁'⟩ := hwrite
  cases r' with
  | frErr => exact ⟨rfl, rfl, hff⟩
  | frOk =>
      by_cases hfull : fil.fileOffset % diskSectorSize = 0
      · have hsector := ampmFWriteSector_alike hff fil
        simp only [if_pos hfull]
        generalize ampmFWriteSector ff₁ fil = s at hsector ⊢
        generalize ampmFWriteSector ff₁' fil = s' at hsector ⊢
        obtain ⟨r, fil', ff₂⟩ := s
        obtain ⟨r', fil'', ff₂'⟩ := s'
        obtain ⟨rfl : r' = r, rfl : fil'' = fil', hff : Alike ff₂ ff₂'⟩ := hsector
        cases r' with
        | frErr => exact ⟨rfl, rfl, hff⟩
        | frOk => exact ⟨rfl, rfl, hff.setBuf _⟩
      · simp only [if_neg hfull]
        exact ⟨rfl, rfl, hff.setBuf _⟩

/-- **One byte.** -/
theorem ampmFWriteByte_alike (h : Alike ff ff') (fil : AmpmFil) (c : UInt8) :
    EndAlike (ampmFWriteByte ff fil c) (ampmFWriteByte ff' fil c) := by
  rw [ampmFWriteByte_eq, ampmFWriteByte_eq]
  split_ifs
  · exact ampmFWriteBlock_alike (h.put _ _) _
  · exact ⟨rfl, rfl, h.put _ _⟩

end Alike

end Ampm
